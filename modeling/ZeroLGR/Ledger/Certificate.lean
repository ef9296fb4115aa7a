/-
  ZeroLGR.Ledger.Certificate — what an OK answer stands for.

  `run()` answers OK in two places: after the transfer was logged and applied,
  and from the cache, where it looks at the key of the request and at nothing
  else.  The client chooses the key.

    • `SameTransfer` — two requests ask for the same transfer,
    • `Booked` — a frame of the log whose transfer was applied,
    • `Sourced`, `run_sourced` — every OK that is cached, in hand or answered
      comes from a booked transfer with its key,
    • `Kept`, `run_kept`, `Frame` — the file holds the frames of the record behind those it
      held before, and what stands there reads as the requests they were made from,
    • `Certified`, `ok_certifies` — every OK answer stands for the transfer it was
      asked for, in every run that uses no key of a logged transfer for another.
-/
import ZeroLGR.Ledger.Outcome
import ZeroLGR.Ledger.RefinesLog
import ZeroLGR.Ledger.WalRecord
import ZeroLGR.Wal.FailedAppend
import ZeroLGR.Wal.Synced

namespace ZeroLGR.Ledger

open Transition

/-! ## §1. Booked transfers. -/

/-- The two ask for the same transfer. -/
structure SameTransfer (a b : TransactionRequest) : Prop where
  debitAccountId : a.debitAccountId = b.debitAccountId
  creditAccountId : a.creditAccountId = b.creditAccountId
  amountMinor : a.amountMinor = b.amountMinor
  currency : a.currency = b.currency

instance (a b : TransactionRequest) : Decidable (SameTransfer a b) :=
  decidable_of_iff
    (a.debitAccountId = b.debitAccountId ∧ a.creditAccountId = b.creditAccountId ∧
      a.amountMinor = b.amountMinor ∧ a.currency = b.currency)
    ⟨fun h => ⟨h.1, h.2.1, h.2.2.1, h.2.2.2⟩,
      fun h => ⟨h.debitAccountId, h.creditAccountId, h.amountMinor, h.currency⟩⟩

theorem SameTransfer.refl (a : TransactionRequest) : SameTransfer a a := ⟨rfl, rfl, rfl, rfl⟩

/-- The frame is in the log, and its transfer was applied. -/
structure Booked (tr : List Event) (l : LogEntry) : Prop where
  logged : l ∈ logged tr
  applied : Event.applied l.req l.txId ∈ tr

theorem Booked.append {tr : List Event} {l : LogEntry} (h : Booked tr l) (es : List Event) :
    Booked (tr ++ es) l := by
  constructor
  · rw [logged_append]
    exact List.mem_append_left _ h.logged
  · exact List.mem_append_left _ h.applied

/-- The log has the transfer of this request under this identifier, and it was
applied. -/
def BookedAs (tr : List Event) (req : TransactionRequest) (txId : Uuid) : Prop :=
  ∃ l, Booked tr l ∧ l.req = req ∧ l.txId = txId

theorem BookedAs.append {tr : List Event} {req : TransactionRequest} {txId : Uuid}
    (h : BookedAs tr req txId) (es : List Event) : BookedAs (tr ++ es) req txId := by
  obtain ⟨l, hl, heq⟩ := h
  exact ⟨l, hl.append es, heq⟩

/-! ## §2. What an OK comes from. -/

/-- What is in hand is logged, and booked once it is applied. -/
def Pc.vouched (tr : List Event) : Pc → Prop
  | .applyTransaction req _ txId => ∃ l ∈ logged tr, l.req = req ∧ l.txId = txId
  | .buildResponse req _ txId status => status = .ok → BookedAs tr req txId
  | .cacheResponse req resp => resp.status = .ok → BookedAs tr req resp.transactionId
  | _ => True

theorem Pc.vouched_idle {pc : Pc} (tr : List Event) (h : pc.idle = true) :
    pc.vouched tr = True := by
  cases pc <;> first | rfl | cases h

theorem Pc.vouched_append {pc : Pc} {tr : List Event} (h : pc.vouched tr) (es : List Event) :
    pc.vouched (tr ++ es) := by
  cases pc with
  | applyTransaction req tStart txId =>
      obtain ⟨l, hl, heq⟩ := h
      exact ⟨l, by rw [logged_append]; exact List.mem_append_left _ hl, heq⟩
  | buildResponse req tStart txId status => exact fun hok => BookedAs.append (h hok) es
  | cacheResponse req resp => exact fun hok => BookedAs.append (h hok) es
  | loadRunning | popRequest | findCached | replyCached | validate | generateUuid | appendWal
  | pushReply | countTotal | countWindow | addLatency | returned | terminated => exact trivial

/-- The answers of `es` that are OK are of transfers booked in `tr`, each related
to the request it answers. -/
def Answers (P : TransactionRequest → TransactionRequest → Prop) (tr es : List Event) : Prop :=
  ∀ b ∈ responses es, b.2.status = .ok →
    ∃ req, BookedAs tr req b.2.transactionId ∧ P req b.1

/-- The two have the same key. -/
def SameKey (a b : TransactionRequest) : Prop := a.idempotencyKey = b.idempotencyKey

/-- **Every OK comes from a booked transfer** with its key, wherever it is: in the
cache, in hand, or among the answers. -/
structure Sourced (s : LedgerEngine) (tr : List Event) : Prop where
  cache : ∀ key resp, s.idempotencyCache.lookup key = some resp → resp.status = .ok →
    ∃ req, BookedAs tr req resp.transactionId ∧ req.idempotencyKey = key ∧ key ≠ []
  hand : s.pc.vouched tr
  answers : Answers SameKey tr tr

/-- The request to be looked up asks for no other transfer than the log has
under its key. -/
def KeyAgrees (s : LedgerEngine) (tr : List Event) : Prop :=
  ∀ req ∈ s.pc.undecided, ∀ l ∈ logged tr, req.idempotencyKey ≠ [] →
    l.req.idempotencyKey = req.idempotencyKey → SameTransfer l.req req

instance (s : LedgerEngine) (tr : List Event) : Decidable (KeyAgrees s tr) :=
  inferInstanceAs (Decidable (∀ req ∈ s.pc.undecided, ∀ l ∈ logged tr, req.idempotencyKey ≠ [] →
    l.req.idempotencyKey = req.idempotencyKey → SameTransfer l.req req))

section Steps

variable {s s' : LedgerEngine} {a : Action} {tr es : List Event}

/-- What was answered so far stays, and at most one answer is new. -/
theorem Answers.append {P : TransactionRequest → TransactionRequest → Prop}
    (h : Answers P tr tr) (hnew : Answers P tr es) : Answers P (tr ++ es) (tr ++ es) := by
  intro b hb hok
  have hbefore : ∃ req, BookedAs tr req b.2.transactionId ∧ P req b.1 := by
    rw [responses_append] at hb
    rcases List.mem_append.mp hb with hold | hlast
    · exact h b hold hok
    · exact hnew b hlast hok
  obtain ⟨req, hbooked, hreq⟩ := hbefore
  exact ⟨req, hbooked.append es, hreq⟩

/-- A step that answers nothing. -/
theorem Answers.none {P : TransactionRequest → TransactionRequest → Prop}
    (hresponses : responses es = []) : Answers P tr es := by
  intro b hb
  rw [hresponses] at hb
  cases hb

/-- A step that answers one request. -/
theorem Answers.one {P : TransactionRequest → TransactionRequest → Prop}
    {req : TransactionRequest} {resp : TransactionResponse} (hresponses : responses es = [(req, resp)])
    (h : resp.status = .ok → ∃ req', BookedAs tr req' resp.transactionId ∧ P req' req) :
    Answers P tr es := by
  intro b hb hok
  rw [hresponses] at hb
  rw [List.mem_singleton.mp hb] at hok ⊢
  exact h hok

/-- A step that caches nothing. -/
theorem Sourced.move (h : Sourced s tr) (hcache : s'.idempotencyCache = s.idempotencyCache)
    (hhand : s'.pc.vouched (tr ++ es))
    (hnew : Answers SameKey tr es) : Sourced s' (tr ++ es) := by
  refine ⟨?_, hhand, h.answers.append hnew⟩
  rw [hcache]
  intro key resp hlookup hok
  obtain ⟨req, hbooked, hkey⟩ := h.cache key resp hlookup hok
  exact ⟨req, hbooked.append es, hkey⟩

/-- What is built with OK was booked. -/
theorem booked_of_build (h : s.pc.vouched tr) {req : TransactionRequest} {tStart : Int64}
    {txId : Uuid} {status : TxStatus} {resp : TransactionResponse}
    (hpc : s.pc = .buildResponse req tStart txId status) (htx : resp.transactionId = txId)
    (hstatus : resp.status = status) : resp.status = .ok → BookedAs tr req resp.transactionId := by
  rw [hpc, ← htx, ← hstatus] at h
  exact h

/-- **One step**, whatever the keys are. -/
theorem Sourced.step (h : Sourced s tr) (he : Effect s a s' es) : Sourced s' (tr ++ es) := by
  cases he with
  | aside hside =>
      obtain ⟨-, -, -, -, -, -, -, hresponses⟩ := hside.silent.lists
      refine h.move hside.sameData.cache ?_ (.none hresponses)
      rw [hside.view (fun _ => Pc.vouched_idle (tr ++ es))]
      exact Pc.vouched_append h.hand es
  | pop | miss | replyCached | accept | drawTxId | appendThrows | reply | noCache =>
      exact h.move rfl trivial (.none rfl)
  | reject _ _ hbad => exact h.move rfl (fun hok => absurd hok hbad) (.none rfl)
  | @hit now os req resp hpc hlookup =>
      refine h.move rfl trivial (.one rfl ?_)
      intro hok
      obtain ⟨req', hbooked, hkey, -⟩ := h.cache _ resp hlookup hok
      exact ⟨req', hbooked, hkey⟩
  | @append now os req tStart txId seq w hpc happ =>
      refine h.move rfl ⟨⟨req, txId, serializeForWal req txId now⟩, ?_, rfl, rfl⟩
        (.none rfl)
      rw [logged_append]
      exact List.mem_append_right _ (List.mem_singleton_self _)
  | @apply now os req tStart txId hpc =>
      have hhand := h.hand
      rw [hpc] at hhand
      obtain ⟨l, hl, rfl, rfl⟩ := hhand
      refine h.move rfl ?_ (.none rfl)
      intro _
      refine ⟨l, ⟨?_, ?_⟩, rfl, rfl⟩
      · rw [logged_append]
        exact List.mem_append_left _ hl
      · exact List.mem_append_right _ (List.mem_singleton_self _)
  | @build now os req tStart txId status resp hpc _ htx hstatus _ =>
      have hbooked := booked_of_build h.hand hpc htx hstatus
      exact h.move rfl (fun hok => BookedAs.append (hbooked hok) _)
        (.one rfl (fun hok => ⟨req, hbooked hok, rfl⟩))
  | @cache now os req resp hpc hkey =>
      have hhand := h.hand
      rw [hpc] at hhand
      refine ⟨?_, trivial, h.answers.append (.none rfl)⟩
      intro key resp' hlookup hok
      -- the new entry is booked, the old ones were before
      rcases KeyedSum.lookup_insert_iff.mp hlookup with ⟨rfl, rfl⟩ | ⟨-, hold⟩
      · exact ⟨req, BookedAs.append (hhand hok) _, rfl, hkey⟩
      · obtain ⟨req', hbooked, hreq'⟩ := h.cache key resp' hold hok
        exact ⟨req', hbooked.append _, hreq'⟩
  | drawAccountId | commitAccount =>
      exact h.move rfl (Pc.vouched_append h.hand _) (.none rfl)

/-- **One step.**  Only a request that is found in the cache may be answered for
another transfer than its own. -/
theorem answers_step (h : Answers SameTransfer tr tr) (hsourced : Sourced s tr)
    (hagree : KeyAgrees s tr) (he : Effect s a s' es) :
    Answers SameTransfer (tr ++ es) (tr ++ es) := by
  cases he with
  | aside hside =>
      obtain ⟨-, -, -, -, -, -, -, hresponses⟩ := hside.silent.lists
      exact h.append (.none hresponses)
  | pop | miss | replyCached | accept | reject | drawTxId | append | appendThrows | apply | cache
  | noCache | reply | drawAccountId | commitAccount => exact h.append (.none rfl)
  | @hit now os req resp hpc hlookup =>
      refine h.append (.one rfl ?_)
      intro hok
      obtain ⟨req', ⟨l, hl, hreq, htx⟩, hkey, hne⟩ := hsourced.cache _ resp hlookup hok
      refine ⟨req', ⟨l, hl, hreq, htx⟩, ?_⟩
      rw [← hreq] at hkey ⊢
      exact hagree req (by rw [hpc]; exact List.mem_singleton_self req) l hl.logged hne hkey
  | @build now os req tStart txId status resp hpc _ htx hstatus _ =>
      have hbooked := booked_of_build hsourced.hand hpc htx hstatus
      exact h.append (.one rfl (fun hok => ⟨req, hbooked hok, .refl req⟩))

end Steps

theorem sourced_init (w : Wal.WriteAheadLog) : Sourced (.init w) [] := by
  refine ⟨?_, trivial, ?_⟩
  · intro key resp hlookup
    cases hlookup
  · intro b hb
    cases hb

/-- In every reachable state. -/
theorem run_sourced {w : Wal.WriteAheadLog} {acts : List Action} {t : Traced LedgerEngine Event}
    (h : runEngine (.init w) acts = some t) : Sourced t.state t.trace := by
  refine traced_invariant Sourced ?_ (sourced_init w) h
  intro s tr a s' es hs hstep
  exact hs.step (step_effect hstep)

/-- A key that is settled with OK has its transfer in the log. -/
theorem Sourced.settled {s : LedgerEngine} {tr : List Event} (h : Sourced s tr) {key : Bytes}
    {r : TransactionResponse} (hsettled : Ledger.settled s key = some r) (hok : r.status = .ok) :
    ∃ req, BookedAs tr req r.transactionId ∧ req.idempotencyKey = key := by
  unfold Ledger.settled at hsettled
  rcases Option.or_eq_some_iff.mp hsettled with hcached | ⟨-, hsettling⟩
  · obtain ⟨req, hbooked, hkey, -⟩ := h.cache key r hcached hok
    exact ⟨req, hbooked, hkey⟩
  · -- the response that is about to be cached
    unfold Pc.settling at hsettling
    split at hsettling
    next req resp hpc =>
      split at hsettling
      next hkey =>
        cases hsettling
        have hhand := h.hand
        rw [hpc] at hhand
        exact ⟨req, hhand hok, hkey⟩
      next => cases hsettling
    next => cases hsettling

/-- So it was applied. -/
theorem applied_of_settled {w : Wal.WriteAheadLog} {acts : List Action}
    {t : Traced LedgerEngine Event} (h : runEngine (.init w) acts = some t) {key : Bytes}
    {r : TransactionResponse} (hsettled : Ledger.settled t.state key = some r)
    (hok : r.status = .ok) : ∃ req ∈ applied t.trace, req.idempotencyKey = key := by
  obtain ⟨req, ⟨l, hbooked, rfl, -⟩, hkey⟩ := (run_sourced h).settled hsettled hok
  exact ⟨l.req, List.mem_filterMap.mpr ⟨_, hbooked.applied, rfl⟩, hkey⟩

/-! ## §3. The log. -/

/-- An append has thrown for a request that no client can send: one of its
strings is longer than 32 bits can say. -/
def Pc.oversized : Pc → Prop
  | .terminated req => ¬ req.LengthsFit
  | _ => False

theorem Pc.oversized_idle {pc : Pc} (h : pc.idle = true) : pc.oversized = False := by
  cases pc <;> first | rfl | cases h

/-- **The log holds the frames of the record** from `base` on, made from their
requests, and its file still does after an append has thrown. -/
structure Kept (base : Nat) (s : LedgerEngine) (tr : List Event) : Prop where
  payloads : ∀ l ∈ logged tr, ∃ now, l.payload = serializeForWal l.req l.txId now
  wal : s.pc.threw = false → Wal.Written s.wal base ((logged tr).map LogEntry.payload)
  file : ¬ s.pc.oversized →
    Bytes.readAt s.wal.file.byte base (Wal.framesLength ((logged tr).map LogEntry.payload)) =
      Wal.encodeFrames ((logged tr).map LogEntry.payload)

theorem kept_init {w : Wal.WriteAheadLog} (hw : w.WellMapped) :
    Kept w.writeOffset (.init w) [] := by
  refine ⟨?_, fun _ => Wal.written_nil hw, fun _ => rfl⟩
  intro l hl
  cases hl

section Steps

variable {base : Nat} {s s' : LedgerEngine} {a : Action} {tr es : List Event}

theorem Kept.move (h : Kept base s tr) (hlogged : logged es = []) (hwal : s'.wal = s.wal)
    (hthrew : s'.pc.threw = s.pc.threw) (hover : s'.pc.oversized = s.pc.oversized) :
    Kept base s' (tr ++ es) := by
  have hsame : logged (tr ++ es) = logged tr := by
    rw [logged_append, hlogged, List.append_nil]
  constructor
  · rw [hsame]
    exact h.payloads
  · rw [hsame, hwal, hthrew]
    exact h.wal
  · rw [hsame, hwal, hover]
    exact h.file

/-- **An append that throws takes no frame back.** -/
theorem Kept.appendThrows (h : Kept base s tr) {now : Int64} {os : Wal.OsReply}
    {req : TransactionRequest} {tStart : Int64} {txId : Uuid}
    (hpc : s.pc = .appendWal req tStart txId)
    (hstep : step s (.engine now os) = some (s', [])) (hpc' : s'.pc = .terminated req) :
    Kept base s' tr := by
  have hwritten := h.wal (by rw [hpc]; rfl)
  obtain ⟨out, happ, hne⟩ := appendThrows_inv hpc hstep (by rw [hpc']; rfl)
  refine ⟨h.payloads, ?_, ?_⟩
  · intro hlive
    rw [hpc'] at hlive
    cases hlive
  · intro hover
    rw [hpc'] at hover
    have hfits : req.LengthsFit := not_not.mp hover
    have hlen := length_serializeForWal_lt hfits txId now
    have hbyte : s'.wal.file.byte = s.wal.file.byte := by
      rcases Wal.append_spec hwritten.toWellMapped os hlen with ⟨what, hwhat⟩ | ⟨hret, -⟩
      · rw [happ] at hwhat
        have hout : out = .threw what := hwhat
        rw [hout] at happ
        exact hwritten.toWellMapped.byte_of_threw hlen happ
      · rw [happ] at hret
        exact absurd hret (hne _)
    rw [hbyte]
    exact hwritten.read

/-- **One step**, whatever was drawn from the counter. -/
theorem Kept.step (h : Kept base s tr) (hstep : Ledger.step s a = some (s', es)) :
    Kept base s' (tr ++ es) := by
  have he := step_effect hstep
  cases he with
  | aside hside =>
      obtain ⟨-, -, -, -, hlogged, -⟩ := hside.silent.lists
      exact h.move hlogged hside.sameData.wal (hside.view (fun _ => Pc.threw_idle))
        (hside.view (fun _ => Pc.oversized_idle))
  | pop hpc | hit hpc | miss hpc | replyCached hpc | accept hpc | reject hpc | drawTxId hpc
  | apply hpc | build hpc | cache hpc | noCache hpc | reply hpc =>
      exact h.move rfl rfl (by rw [hpc]; rfl) (by rw [hpc]; rfl)
  | appendThrows hpc =>
      rw [List.append_nil]
      exact h.appendThrows hpc hstep rfl
  | @append now os req tStart txId seq w hpc happ =>
      have hlog := logged_appended tr req txId (serializeForWal req txId now)
      have hwritten := h.wal (by rw [hpc]; rfl)
      have hnext : Wal.Written w base
          ((logged tr ++ [LogEntry.mk req txId (serializeForWal req txId now)]).map LogEntry.payload) := by
        rw [List.map_append]
        exact hwritten.append (Wal.append_returned_inv hwritten.toWellMapped happ)
      constructor
      · rw [hlog]
        intro l hl
        rcases List.mem_append.mp hl with hold | hlast
        · exact h.payloads l hold
        · rw [List.mem_singleton.mp hlast]
          exact ⟨now, rfl⟩
      · intro _
        rw [hlog]
        exact hnext
      · intro _
        rw [hlog]
        exact hnext.read
  | drawAccountId | commitAccount => exact h.move rfl rfl rfl rfl

end Steps

/-- Where the frame of entry number `k` starts, if the first starts at `base`. -/
def frameOffset (base : Nat) (log : List LogEntry) (k : Nat) : Nat :=
  base + Wal.framesLength ((log.take k).map LogEntry.payload)

/-- **The frame of an entry is in the file**, and a reader of records makes of
it the request and the identifier of the entry. -/
structure Frame (base : Nat) (s : LedgerEngine) (tr : List Event) (l : LogEntry) : Prop where
  logged : l ∈ logged tr
  /-- What stands in the file is the frame of the payload, which is the record of
  the request. -/
  stands : ¬ s.pc.oversized → ∃ k, (Ledger.logged tr)[k]? = some l ∧
    Bytes.readAt s.wal.file.byte (frameOffset base (Ledger.logged tr) k) (12 + l.payload.length) =
      Wal.encodeFrame l.payload
  written : ∃ now, l.payload = serializeForWal l.req l.txId now
  reads : l.req.LengthsFit → auditPayload l.payload = some (l.txId, l.req)

/-- Every entry has its frame. -/
theorem Kept.frame {base : Nat} {s : LedgerEngine} {tr : List Event} (h : Kept base s tr)
    {l : LogEntry} (hl : l ∈ logged tr) : Frame base s tr l := by
  obtain ⟨now, hnow⟩ := h.payloads l hl
  refine ⟨hl, ?_, ⟨now, hnow⟩, ?_⟩
  · intro hover
    obtain ⟨k, hk⟩ := List.mem_iff_getElem?.mp hl
    refine ⟨k, hk, ?_⟩
    unfold frameOffset
    rw [List.map_take]
    exact Wal.readAt_frame (h.file hover) (by rw [List.getElem?_map, hk]; rfl)
  · intro hfits
    rw [hnow]
    exact auditPayload_eq_some.mpr ⟨hfits, now, rfl⟩

/-! ## §4. Every run. -/

/-- **The log of every run is kept**, behind what it held before. -/
theorem run_kept {w : Wal.WriteAheadLog} (hw : w.WellMapped) {acts : List Action}
    {t : Traced LedgerEngine Event} (h : runEngine (.init w) acts = some t) :
    Kept w.writeOffset t.state t.trace :=
  traced_invariant (Kept w.writeOffset) (fun _ _ _ _ _ hkept hes => hkept.step hes)
    (kept_init hw) h

/-- **Every OK answer certifies its own transfer.** -/
structure Certified (base : Nat) (s : LedgerEngine) (tr : List Event) : Prop where
  /-- While the thread runs, the log goes on behind the frames of the record. -/
  wal : s.pc.threw = false → Wal.Written s.wal base ((logged tr).map LogEntry.payload)
  /-- A request answered with OK has the frame of its transfer in the file, with
  the identifier of the answer, and the transfer was applied. -/
  answers : ∀ b ∈ responses tr, b.2.status = .ok →
    ∃ l, Frame base s tr l ∧ SameTransfer l.req b.1 ∧ l.txId = b.2.transactionId ∧
      Event.applied l.req l.txId ∈ tr
  /-- What is pushed are these answers. -/
  pushed : ∀ resp ∈ replied tr, ∃ req, (req, resp) ∈ responses tr

/-- Whenever a request is taken up, its key is not that of another transfer in
the log. -/
def KeysAgree (w : Wal.WriteAheadLog) (acts : List Action) : Prop :=
  ∀ t a t', Takes (traced step) ⟨.init w, []⟩ acts t a t' → KeyAgrees t.state t.trace

/-- **AN OK ANSWER CERTIFIES ITS OWN TRANSFER**, in every state of every run on
an opened log, whatever it holds, in which no key of a logged transfer is used
for another one. -/
theorem ok_certifies {w : Wal.WriteAheadLog} (hw : w.WellMapped) {acts : List Action}
    (hagree : KeysAgree w acts) {t : Traced LedgerEngine Event}
    (h : Visits (traced step) ⟨.init w, []⟩ acts t) :
    Certified w.writeOffset t.state t.trace := by
  have hall : Sourced t.state t.trace ∧ Answers SameTransfer t.trace t.trace := by
    refine traced_of_takes (fun s tr => Sourced s tr ∧ Answers SameTransfer tr tr)
      ⟨sourced_init w, ?_⟩ ?_ h
    · intro b hb
      cases hb
    · intro u a u' es htakes hes hu
      obtain ⟨hsourced, hown⟩ := hu
      have he := step_effect hes
      exact ⟨hsourced.step he, answers_step hown hsourced (hagree u a u' htakes) he⟩
  obtain ⟨-, hown⟩ := hall
  obtain ⟨before, -, -, hrun⟩ := h
  have hkept := run_kept hw hrun
  refine ⟨hkept.wal, ?_, (run_origin hrun).pushed⟩
  intro b hb hok
  obtain ⟨req, ⟨l, hl, rfl, htx⟩, hsame⟩ := hown b hb hok
  exact ⟨l, hkept.frame hl.logged, hsame, htx, hl.applied⟩

/-- The condition, at one step. -/
def keyAgrees (t : Traced LedgerEngine Event) (_ : Action) : Bool :=
  decide (KeyAgrees t.state t.trace)

theorem keysAgree_of_checked {w : Wal.WriteAheadLog} {acts : List Action}
    (h : checked (traced step) keyAgrees ⟨.init w, []⟩ acts = true) : KeysAgree w acts := by
  intro t a t' htakes
  have hok : keyAgrees t a = true := htakes.checked h
  exact of_decide_eq_true hok

/-- A transfer, the same request again, and another transfer with a key of its own. -/
def honestKeys : List Action :=
  createAccountCall "Sales" .revenue ++ createAccountCall "Cash" .asset ++
    [.submit (transferRequest "sale" 0 1 500), .submit (transferRequest "sale" 0 1 500),
      .submit (transferRequest "refund" 1 0 200)] ++ engineSteps 32

theorem honestKeys_certified :
    ∃ t, runEngine (.init newLog) honestKeys = some t ∧ Certified 0 t.state t.trace ∧
      (responses t.trace).map (fun b => b.2.status) = [.ok, .ok, .ok] ∧
      (logged t.trace).length = 2 := by
  have hrun : (runEngine (.init newLog) honestKeys).map
      (fun t => ((responses t.trace).map (fun b => b.2.status), (logged t.trace).length)) =
        some ([.ok, .ok, .ok], 2) := by
    decide +kernel
  obtain ⟨t, ht, heq⟩ := Option.map_eq_some_iff.mp hrun
  simp only [Prod.mk.injEq] at heq
  have hopen : (Wal.construct Wal.page4096 Wal.OsReply.ok "ledger.wal" Wal.FileImage.empty
      4096).1 = .returned newLog := rfl
  exact ⟨t, ht, ok_certifies (Wal.construct_returned_inv hopen).2
    (keysAgree_of_checked (by decide +kernel)) (visits_end ht), heq⟩

/-- A sale of 500, and a refund of 200 under the same key. -/
def reusedKey : List Action :=
  createAccountCall "Sales" .revenue ++ createAccountCall "Cash" .asset ++
    [.submit (transferRequest "order" 0 1 500), .submit (transferRequest "order" 1 0 200)] ++
    engineSteps 20

/-- **The refund is answered with OK**, and nowhere in the log. -/
theorem reusedKey_uncertified :
    ∃ t, Visits (traced step) ⟨.init newLog, []⟩ reusedKey t ∧
      (∃ resp, (transferRequest "order" 1 0 200, resp) ∈ responses t.trace ∧ resp.status = .ok) ∧
      (∀ l ∈ logged t.trace, ¬ SameTransfer l.req (transferRequest "order" 1 0 200)) ∧
      ¬ Certified 0 t.state t.trace := by
  have hrun : (runEngine (.init newLog) reusedKey).map
      (fun t => ((responses t.trace).map (fun b => (b.1, b.2.status)),
        (logged t.trace).map LogEntry.req)) =
        some ([(transferRequest "order" 0 1 500, .ok), (transferRequest "order" 1 0 200, .ok)],
          [transferRequest "order" 0 1 500]) := by
    decide +kernel
  obtain ⟨t, ht, heq⟩ := Option.map_eq_some_iff.mp hrun
  simp only [Prod.mk.injEq] at heq
  obtain ⟨hanswers, hlogged⟩ := heq
  have hsecond : (transferRequest "order" 1 0 200, TxStatus.ok) ∈
      (responses t.trace).map (fun b => (b.1, b.2.status)) := by
    rw [hanswers]
    exact List.mem_cons_of_mem _ (List.mem_singleton_self _)
  obtain ⟨⟨req, resp⟩, hmem, hpair⟩ := List.mem_map.mp hsecond
  simp only [Prod.mk.injEq] at hpair
  obtain ⟨rfl, hok⟩ := hpair
  have hother : ∀ l ∈ logged t.trace, ¬ SameTransfer l.req (transferRequest "order" 1 0 200) := by
    intro l hl
    have hreq : l.req ∈ (logged t.trace).map LogEntry.req := List.mem_map_of_mem hl
    rw [hlogged, List.mem_singleton] at hreq
    rw [hreq]
    decide +kernel
  refine ⟨t, visits_end ht, ⟨resp, hmem, hok⟩, hother, ?_⟩
  intro hcertified
  obtain ⟨l, hframe, hsame, -⟩ := hcertified.answers _ hmem hok
  exact hother l hframe.logged hsame

end ZeroLGR.Ledger
