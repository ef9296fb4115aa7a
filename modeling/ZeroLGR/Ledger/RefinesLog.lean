/-
  ZeroLGR.Ledger.RefinesLog — the balances in memory are what the log says.

  The abstract ledger is the list of logged requests; its balance of an account
  is what they credit to it minus what they debit.  The engine keeps a map of
  balances next to the log, and updates it after the frame is written.

    • `credited`, `debited` — the abstract balance,
    • `HasFrame`, `Pc.backed`, `Backed` — responses with status OK and their frames,
    • `Mirrors` — the invariant: log, map and responses against the record,
    • `Mirrors.step` — one step of the machine keeps it,
    • `engine_refines_log` — the statement for every run on an empty log.
-/
import ZeroLGR.Ledger.Identifiers

namespace ZeroLGR.Ledger

open Transition

/-! ## §1. The abstract ledger. -/

/-- The sum of the amounts that credit the account. -/
def credited (log : List TransactionRequest) (id : Bytes) : Int :=
  ((log.filter (fun req => req.creditAccountId = id)).map TransactionRequest.amount).sum

/-- The sum of the amounts that debit it. -/
def debited (log : List TransactionRequest) (id : Bytes) : Int :=
  ((log.filter (fun req => req.debitAccountId = id)).map TransactionRequest.amount).sum

theorem credited_snoc (log : List TransactionRequest) (req : TransactionRequest) (id : Bytes) :
    credited (log ++ [req]) id =
      credited log id + if id = req.creditAccountId then req.amount else 0 := by
  unfold credited
  rw [List.filter_append, List.map_append, List.sum_append]
  by_cases h : req.creditAccountId = id
  · simp [h]
  · simp [h, Ne.symm h]

theorem debited_snoc (log : List TransactionRequest) (req : TransactionRequest) (id : Bytes) :
    debited (log ++ [req]) id =
      debited log id + if id = req.debitAccountId then req.amount else 0 := by
  unfold debited
  rw [List.filter_append, List.map_append, List.sum_append]
  by_cases h : req.debitAccountId = id
  · simp [h]
  · simp [h, Ne.symm h]

/-- **One more request is one more transfer.** -/
theorem abstract_balance_snoc (log : List TransactionRequest) (req : TransactionRequest)
    (id : Bytes) :
    credited (log ++ [req]) id - debited (log ++ [req]) id =
      credited log id - debited log id + transferEffect req id := by
  rw [credited_snoc, debited_snoc]
  unfold transferEffect
  omega

/-! ## §2. Responses and their frames. -/

/-- The log has a frame with this identifier, of a request with this key. -/
def HasFrame (log : List LogEntry) (key : Bytes) (txId : Uuid) : Prop :=
  ∃ l ∈ log, l.txId = txId ∧ l.req.idempotencyKey = key

theorem HasFrame.append {log : List LogEntry} {key : Bytes} {txId : Uuid}
    (h : HasFrame log key txId) (more : List LogEntry) : HasFrame (log ++ more) key txId := by
  obtain ⟨l, hl, hframe⟩ := h
  exact ⟨l, List.mem_append_left more hl, hframe⟩

/-- A response with status OK has its frame in the log. -/
def OkHasFrame (log : List LogEntry) (req : TransactionRequest) (resp : TransactionResponse) :
    Prop :=
  resp.status = .ok → HasFrame log req.idempotencyKey resp.transactionId

/-- What the engine thread has in hand has its frame in the log. -/
def Pc.backed (log : List LogEntry) : Pc → Prop
  | .replyCached req resp => OkHasFrame log req resp
  | .applyTransaction req _ txId => HasFrame log req.idempotencyKey txId
  | .buildResponse req _ txId status => status = .ok → HasFrame log req.idempotencyKey txId
  | .cacheResponse req resp => OkHasFrame log req resp
  | .pushReply req resp => OkHasFrame log req resp
  | _ => True

theorem Pc.backed_idle {pc : Pc} (log : List LogEntry) (h : pc.idle = true) :
    pc.backed log = True := by
  cases pc <;> first | rfl | cases h

/-- A response leaves the loop only with its frame in the log. -/
def Backed (before : List Event) : Event → Prop
  | .cached req resp => OkHasFrame (logged before) req resp
  | .replied req resp _ => OkHasFrame (logged before) req resp
  | _ => True

/-! ## §3. The invariant. -/

theorem Pc.threw_idle {pc : Pc} (h : pc.idle = true) : pc.threw = false := by
  cases pc <;> first | rfl | cases h

/-- Nothing else ends the thread than an `append` that does not return. -/
theorem appendThrows_inv {s s' : LedgerEngine} {es : List Event} {now : Int64} {os : Wal.OsReply}
    {req : TransactionRequest} {tStart : Int64} {txId : Uuid} (hpc : s.pc = .appendWal req tStart txId)
    (hstep : step s (.engine now os) = some (s', es)) (hthrew : s'.pc.threw = true) :
    ∃ out, s.wal.append os (serializeForWal req txId now) = (out, s'.wal) ∧
      ∀ seq, out ≠ .returned seq := by
  simp only [step, LedgerEngine.engineStep, hpc, Option.some.injEq] at hstep
  unfold LedgerEngine.appendWal at hstep
  split at hstep
  next seq w heq =>
    cases hstep
    cases hthrew
  next out w hne heq =>
    cases hstep
    refine ⟨out, heq, ?_⟩
    intro seq hout
    exact hne seq hout

/-- **The state mirrors its record.** -/
structure Mirrors (s : LedgerEngine) (tr : List Event) : Prop where
  payloads : ∀ l ∈ logged tr, ∃ now, l.payload = serializeForWal l.req l.txId now
  wal : s.pc.threw = false → Wal.Recorded s.wal ((logged tr).map LogEntry.payload)
  balances : ∀ id, balanceOf s.accounts id = credited (applied tr) id - debited (applied tr) id
  cache : ∀ key resp, s.idempotencyCache.lookup key = some resp → resp.status = .ok →
    HasFrame (logged tr) key resp.transactionId
  hand : s.pc.backed (logged tr)
  backed : Justified Backed tr

theorem mirrors_init {w : Wal.WriteAheadLog} (hw : Wal.Recorded w []) : Mirrors (.init w) [] := by
  constructor
  · intro l hl
    cases hl
  · intro _
    exact hw
  · intro id
    rfl
  · intro key resp hlookup
    cases hlookup
  · exact trivial
  · exact justified_nil Backed

section Steps

variable {s s' : LedgerEngine} {a : Action} {tr es : List Event}

theorem Silent.backed (h : Silent es) : ∀ e ∈ es, ∀ before, Backed before e := by
  intro e he before
  have hsilent := h e he
  cases e <;> trivial

/-- A step that adds no frame and moves no balance keeps the invariant if what
it has in hand and what it shows is backed by the log. -/
theorem Mirrors.move (h : Mirrors s tr) (hlogged : logged es = []) (happlied : applied es = [])
    (hbalances : ∀ id, balanceOf s'.accounts id = balanceOf s.accounts id)
    (hcache : s'.idempotencyCache = s.idempotencyCache)
    (hwal : s'.pc.threw = false → s.pc.threw = false ∧ s'.wal = s.wal)
    (hhand : s'.pc.backed (logged tr)) (hbacked : Justified Backed (tr ++ es)) :
    Mirrors s' (tr ++ es) := by
  have hlog : logged (tr ++ es) = logged tr := by
    rw [logged_append, hlogged, List.append_nil]
  have happ : applied (tr ++ es) = applied tr := by
    rw [applied_append, happlied, List.append_nil]
  constructor
  · rw [hlog]
    exact h.payloads
  · intro hlive
    obtain ⟨hlive', hsame⟩ := hwal hlive
    rw [hlog, hsame]
    exact h.wal hlive'
  · rw [happ]
    intro id
    rw [hbalances]
    exact h.balances id
  · rw [hlog, hcache]
    exact h.cache
  · rw [hlog]
    exact hhand
  · exact hbacked

/-- **A frame is appended**: the log grows, the map stays. -/
theorem Mirrors.append (h : Mirrors s tr) {req : TransactionRequest} {tStart now : Int64}
    {txId : Uuid} {os : Wal.OsReply} {seq : Nat} {w : Wal.WriteAheadLog}
    (hpc : s.pc = .appendWal req tStart txId)
    (happ : s.wal.append os (serializeForWal req txId now) = (.returned seq, w)) :
    Mirrors { s with wal := w, pc := .applyTransaction req tStart txId }
      (tr ++ [.appended req txId (serializeForWal req txId now)]) := by
  have hlog := logged_appended tr req txId (serializeForWal req txId now)
  have hrecorded := h.wal (by rw [hpc]; rfl)
  constructor
  · rw [hlog]
    intro l hl
    rcases List.mem_append.mp hl with hl | hl
    · exact h.payloads l hl
    · rw [List.mem_singleton.mp hl]
      exact ⟨now, rfl⟩
  · intro _
    rw [hlog, List.map_append]
    -- the append returned, so the log has exactly one frame more
    exact hrecorded.append (Wal.append_returned_inv hrecorded.toWellMapped happ)
  · intro id
    rw [applied_append]
    show _ = credited (applied tr ++ []) id - debited (applied tr ++ []) id
    rw [List.append_nil]
    exact h.balances id
  · intro key resp hlookup hok
    rw [hlog]
    exact (h.cache key resp hlookup hok).append _
  · rw [hlog]
    exact ⟨_, List.mem_append_right _ (List.mem_singleton_self _), rfl, rfl⟩
  · exact justified_snoc.mpr ⟨h.backed, trivial⟩

/-- **A transfer is applied**: the map catches up with the log. -/
theorem Mirrors.apply (h : Mirrors s tr) {req : TransactionRequest} {tStart : Int64}
    {txId : Uuid} (hpc : s.pc = .applyTransaction req tStart txId) :
    Mirrors { s with
      accounts := applyTransaction s.accounts req, pc := .buildResponse req tStart txId .ok }
      (tr ++ [.applied req txId]) := by
  have hlog : logged (tr ++ [.applied req txId]) = logged tr := by
    rw [logged_append]
    exact List.append_nil _
  have hhand := h.hand
  rw [hpc] at hhand
  constructor
  · rw [hlog]
    exact h.payloads
  · intro _
    rw [hlog]
    exact h.wal (by rw [hpc]; rfl)
  · intro id
    rw [applied_append]
    show balanceOf (applyTransaction s.accounts req) id =
      credited (applied tr ++ [req]) id - debited (applied tr ++ [req]) id
    -- both sides change by the effect of this one transfer
    rw [balanceOf_apply, abstract_balance_snoc, h.balances id]
  · rw [hlog]
    exact h.cache
  · rw [hlog]
    exact fun _ => hhand
  · exact justified_snoc.mpr ⟨h.backed, trivial⟩

/-- **A response is cached**, which has its frame if its status is OK. -/
theorem Mirrors.cacheResponse (h : Mirrors s tr) {req : TransactionRequest}
    {resp : TransactionResponse} (hpc : s.pc = .cacheResponse req resp) :
    Mirrors { s with
      idempotencyCache := s.idempotencyCache.insert req.idempotencyKey resp
      pc := .pushReply req resp } (tr ++ [.cached req resp]) := by
  have hlog : logged (tr ++ [.cached req resp]) = logged tr := by
    rw [logged_append]
    exact List.append_nil _
  have hhand := h.hand
  rw [hpc] at hhand
  constructor
  · rw [hlog]
    exact h.payloads
  · intro _
    rw [hlog]
    exact h.wal (by rw [hpc]; rfl)
  · rw [applied_append]
    show ∀ id, _ = credited (applied tr ++ []) id - debited (applied tr ++ []) id
    rw [List.append_nil]
    exact h.balances
  · rw [hlog]
    intro key resp' hlookup hok
    -- the new entry is backed by what is in hand, an old one as before
    rcases KeyedSum.lookup_insert_iff.mp hlookup with ⟨rfl, rfl⟩ | ⟨-, hold⟩
    · exact hhand hok
    · exact h.cache key resp' hold hok
  · rw [hlog]
    exact hhand
  · exact justified_snoc.mpr ⟨h.backed, hhand⟩

/-- **One step of the machine.** -/
theorem Mirrors.step (h : Mirrors s tr) (hids : Identifiers s) (he : Effect s a s' es) :
    Mirrors s' (tr ++ es) := by
  cases he with
  | aside hside =>
      have hsame := hside.sameData
      obtain ⟨-, -, -, -, hlogged, happlied, -⟩ := hside.silent.lists
      refine h.move hlogged happlied ?_ hsame.cache ?_ ?_ (h.backed.append hside.silent.backed)
      · intro id
        rw [hsame.accounts]
      · rw [hside.view (fun _ => Pc.threw_idle)]
        exact fun hlive => ⟨hlive, hsame.wal⟩
      · rw [hside.view (fun _ => Pc.backed_idle (logged tr))]
        exact h.hand
  | pop hpc | accept hpc =>
      refine h.move rfl rfl (fun _ => rfl) rfl ?_ ?_ (justified_snoc.mpr ⟨h.backed, trivial⟩)
      · rw [hpc]
        exact fun _ => ⟨rfl, rfl⟩
      · trivial
  | reject hpc _ hbad =>
      refine h.move rfl rfl (fun _ => rfl) rfl ?_ ?_ (justified_snoc.mpr ⟨h.backed, trivial⟩)
      · rw [hpc]
        exact fun _ => ⟨rfl, rfl⟩
      · exact fun hok => absurd hok hbad
  | miss hpc | drawTxId hpc =>
      refine h.move rfl rfl (fun _ => rfl) rfl ?_ ?_ ?_
      · rw [hpc]
        exact fun _ => ⟨rfl, rfl⟩
      · trivial
      · rw [List.append_nil]
        exact h.backed
  | hit hpc hlookup =>
      -- the cached response was backed when it was stored
      refine h.move rfl rfl (fun _ => rfl) rfl ?_ ?_ (justified_snoc.mpr ⟨h.backed, trivial⟩)
      · rw [hpc]
        exact fun _ => ⟨rfl, rfl⟩
      · have hframe := h.cache _ _ hlookup
        exact fun hok => hframe hok
  | replyCached hpc | reply hpc =>
      have hhand := h.hand
      rw [hpc] at hhand
      refine h.move rfl rfl (fun _ => rfl) rfl ?_ ?_ (justified_snoc.mpr ⟨h.backed, hhand⟩)
      · rw [hpc]
        exact fun _ => ⟨rfl, rfl⟩
      · trivial
  | append hpc happ => exact h.append hpc happ
  | appendThrows hpc =>
      refine h.move rfl rfl (fun _ => rfl) rfl ?_ ?_ ?_
      · intro hlive
        cases hlive
      · trivial
      · rw [List.append_nil]
        exact h.backed
  | apply hpc => exact h.apply hpc
  | build hpc _ htx hstatus _ =>
      -- the response carries the status and the identifier of the transaction
      have hhand := h.hand
      rw [hpc, ← htx, ← hstatus] at hhand
      refine h.move rfl rfl (fun _ => rfl) rfl ?_ hhand (justified_snoc.mpr ⟨h.backed, trivial⟩)
      rw [hpc]
      exact fun _ => ⟨rfl, rfl⟩
  | cache hpc _ => exact h.cacheResponse hpc
  | noCache hpc _ =>
      have hhand := h.hand
      rw [hpc] at hhand
      refine h.move rfl rfl (fun _ => rfl) rfl ?_ hhand ?_
      · rw [hpc]
        exact fun _ => ⟨rfl, rfl⟩
      · rw [List.append_nil]
        exact h.backed
  | drawAccountId =>
      refine h.move rfl rfl (fun _ => rfl) rfl (fun hlive => ⟨hlive, rfl⟩) h.hand ?_
      rw [List.append_nil]
      exact h.backed
  | commitAccount hi =>
      exact h.move rfl rfl (hids.commit_balance hi) rfl (fun hlive => ⟨hlive, rfl⟩) h.hand
        (justified_snoc.mpr ⟨h.backed, trivial⟩)

/-- Only the step that appends touches the log, and only the step that applies
a transfer moves a balance. -/
theorem Effect.quiet (hids : Identifiers s) (he : Effect s a s' es) :
    (logged es = [] → s'.pc.threw = false → s'.wal = s.wal) ∧
      (applied es = [] → ∀ id, balanceOf s'.accounts id = balanceOf s.accounts id) := by
  cases he with
  | aside hside =>
      have hsame := hside.sameData
      rw [hsame.accounts]
      exact ⟨fun _ _ => hsame.wal, fun _ _ => rfl⟩
  -- the only step with a frame
  | append =>
      constructor
      · intro hnone
        cases hnone
      · exact fun _ _ => rfl
  -- a growth that failed may have changed the log, but the thread has ended
  | appendThrows =>
      constructor
      · intro _ hlive
        cases hlive
      · exact fun _ _ => rfl
  | apply =>
      constructor
      · exact fun _ _ => rfl
      · intro hnone
        cases hnone
  | commitAccount hi => exact ⟨fun _ _ => rfl, fun _ => hids.commit_balance hi⟩
  | pop | hit | miss | replyCached | accept | reject | drawTxId | build | cache | noCache | reply
  | drawAccountId => exact ⟨fun _ _ => rfl, fun _ _ => rfl⟩

end Steps

/-- The invariant holds in every reachable state, until the counter wraps. -/
theorem run_mirrors {w : Wal.WriteAheadLog} (hw : Wal.Recorded w []) {acts : List Action}
    {t : Traced LedgerEngine Event} (h : runEngine (.init w) acts = some t)
    (hk : t.state.uuidCounter ≤ 2 ^ 64) : Mirrors t.state t.trace := by
  -- the identifiers are part of the induction, because they are part of each step
  have hboth : Identifiers t.state ∧ Mirrors t.state t.trace := by
    refine traced_invariant
      (fun s tr => s.uuidCounter ≤ 2 ^ 64 → Identifiers s ∧ Mirrors s tr) ?_
      (fun _ => ⟨identifiers_init w, mirrors_init hw⟩) h hk
    intro s tr a s' es hs hstep hk'
    have he := step_effect hstep
    obtain ⟨hids, hmirrors⟩ := hs (he.counter_le.trans hk')
    exact ⟨hids.step he hk', hmirrors.step hids he⟩
  exact hboth.2

/-! ## §4. The refinement. -/

/-- **The engine refines its log**, at one point of a run. -/
structure RefinesLog (s : LedgerEngine) (tr : List Event) : Prop where
  /-- Every request popped is decided once, but for the one in hand. -/
  decided_once : popped tr = (decided tr).map Prod.fst ++ s.pc.undecided
  /-- The frames are those of the accepted requests, in order. -/
  frames : accepted tr = (logged tr).map LogEntry.req ++ s.pc.unlogged
  /-- Their payloads are what `serialize_for_wal` makes of these requests. -/
  payloads : ∀ l ∈ logged tr, ∃ now, l.payload = serializeForWal l.req l.txId now
  /-- The log holds these payloads, and nothing else. -/
  wal : Wal.Recorded s.wal ((logged tr).map LogEntry.payload)
  /-- A balance is what was credited minus what was debited. -/
  balances : ∀ id info, s.accounts.lookup id = some info →
    info.balance = credited (applied tr) id - debited (applied tr) id
  /-- All logged requests count, but for the one between log and map. -/
  counted : (logged tr).map LogEntry.req = applied tr ++ s.pc.unapplied
  /-- A response with status OK is cached and pushed after its frame is logged. -/
  backed : Justified Backed tr
  /-- A step that logs nothing leaves the log, one that applies nothing the balances. -/
  quiet : ∀ a s' es, step s a = some (s', es) →
    (logged es = [] → s'.pc.threw = false → s'.wal = s.wal) ∧
      (applied es = [] → ∀ id, balanceOf s'.accounts id = balanceOf s.accounts id)

/-- **THE LEDGER STATE REFINES ITS LOG.**  At every point of every run on an
empty log, as long as the counter has not wrapped and no append has thrown. -/
theorem engine_refines_log {pageSize : Wal.PageSize} {os : Wal.OsReply} {path : String}
    {disk : Wal.FileImage} {initialSize : Nat} {w : Wal.WriteAheadLog}
    (hzero : ∀ i, disk.byte i = 0)
    (hopen : (Wal.construct pageSize os path disk initialSize).1 = .returned w)
    {acts : List Action} {t : Traced LedgerEngine Event}
    (hrun : runEngine (.init w) acts = some t) (hk : t.state.uuidCounter ≤ 2 ^ 64)
    (hlive : t.state.pc.threw = false) : RefinesLog t.state t.trace := by
  have hbooks := run_bookkeeping hrun
  have hids := run_identifiers hrun hk
  have hmirrors := run_mirrors (Wal.recorded_fresh hzero hopen) hrun hk
  exact
    { decided_once := hbooks.popped_eq
      frames := hbooks.accepted_eq
      payloads := hmirrors.payloads
      wal := hmirrors.wal hlive
      balances := by
        intro id info hlookup
        rw [← hmirrors.balances id, balanceOf, slot, hlookup]
        rfl
      counted := hbooks.logged_eq
      backed := hmirrors.backed
      quiet := fun a s' es hstep => (step_effect hstep).quiet hids }

/-- Two accounts, a transfer between them, the same request again, and one that
is refused because its account is not known. -/
def threeRequests : List Action :=
  createAccountCall "Sales" .revenue ++ createAccountCall "Refunds" .equity ++
    [.submit (transferRequest "first" 0 1 500), .submit (transferRequest "first" 0 1 500),
      .submit (transferRequest "" 7 1 20)] ++
    engineSteps 27

/-- On a new log the three requests run; one frame is logged, and it is counted. -/
theorem threeRequests_refine :
    ∃ t, runEngine (.init newLog) threeRequests = some t ∧ RefinesLog t.state t.trace ∧
      (popped t.trace).length = 3 ∧ (logged t.trace).length = 1 ∧
      (applied t.trace).length = 1 := by
  have hrun : (runEngine (.init newLog) threeRequests).map
      (fun t => (t.state.uuidCounter, t.state.pc.threw, (popped t.trace).length,
        (logged t.trace).length, (applied t.trace).length)) = some (3, false, 3, 1, 1) := by
    decide +kernel
  obtain ⟨t, ht, heq⟩ := Option.map_eq_some_iff.mp hrun
  simp only [Prod.mk.injEq] at heq
  obtain ⟨hcounter, hlive, hpopped, hlogged, happlied⟩ := heq
  have hopen : (Wal.construct Wal.page4096 Wal.OsReply.ok "ledger.wal" Wal.FileImage.empty
      4096).1 = .returned newLog := rfl
  exact ⟨t, ht, engine_refines_log (fun _ => rfl) hopen ht (by rw [hcounter]; decide) hlive,
    hpopped, hlogged, happlied⟩

end ZeroLGR.Ledger
