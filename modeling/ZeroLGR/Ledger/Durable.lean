/-
  ZeroLGR.Ledger.Durable — what is acknowledged is on disk.

  `append` is to have the frame on disk when it returns, and `run()` applies and
  answers after that.  But the result of `msync` is looked at nowhere, so this
  rests on every call reporting success.

    • `SyncedEntry` — an entry of the log whose frame was synchronised whole,
    • `Durable` — what is applied or answered with OK is such an entry,
    • `SyncSucceeds` — the condition on one step,
    • `acknowledged_durable` — it is enough, over every run,
    • `failedSync_not_durable` — a transfer applied and answered although `msync`
      has failed.
-/
import ZeroLGR.Ledger.Certificate
import ZeroLGR.Wal.Synced

namespace ZeroLGR.Ledger

open Transition

/-! ## §1. Entries of the log and their frames. -/

/-- Entry number `k` of the log, with every byte of its frame synchronised. -/
structure SyncedEntry (base : Nat) (s : LedgerEngine) (tr : List Event) (k : Nat) (l : LogEntry) :
    Prop where
  logged : (logged tr)[k]? = some l
  synced : Wal.Synced s.wal (frameOffset base (Ledger.logged tr) k) (12 + l.payload.length)

/-- **Acknowledged means durable.** -/
structure Durable (base : Nat) (s : LedgerEngine) (tr : List Event) : Prop where
  /-- The frames of the entries stand one after the other from `base` on. -/
  frames : s.pc.threw = false → Wal.Written s.wal base ((logged tr).map LogEntry.payload)
  /-- Whatever was applied is synchronised. -/
  applied : ∀ k req, (applied tr)[k]? = some req → ∃ l, SyncedEntry base s tr k l ∧ l.req = req
  /-- A request answered with OK, anew or from the cache, has a synchronised entry
  with its key and the identifier of the answer. -/
  answered : ∀ b ∈ responses tr, b.2.status = .ok → ∃ k l, SyncedEntry base s tr k l ∧
    l.txId = b.2.transactionId ∧ l.req.idempotencyKey = b.1.idempotencyKey
  /-- What is pushed are these answers. -/
  pushed : ∀ resp ∈ replied tr, ∃ req, (req, resp) ∈ responses tr
  /-- So has every OK in the cache. -/
  cached : ∀ key resp, s.idempotencyCache.lookup key = some resp → resp.status = .ok →
    ∃ k l, SyncedEntry base s tr k l ∧ l.txId = resp.transactionId ∧ l.req.idempotencyKey = key

/-- The thread is about to call `append`. -/
def Pc.appends : Pc → Bool
  | .appendWal _ _ _ => true
  | _ => false

/-- If the step appends, its `msync` reports success. -/
def SyncSucceeds (s : LedgerEngine) (a : Action) : Prop :=
  ∀ now os, a = .engine now os → s.pc.appends = true → os.msyncOk = true

/-! ## §2. One step. -/

/-- The frames are where they belong, and all of them are synchronised. -/
structure Secured (base : Nat) (s : LedgerEngine) (tr : List Event) : Prop where
  frames : s.pc.threw = false → Wal.Written s.wal base ((logged tr).map LogEntry.payload)
  synced : ∀ k l, (logged tr)[k]? = some l → SyncedEntry base s tr k l

section Steps

variable {base : Nat} {s s' : LedgerEngine} {a : Action} {tr es : List Event}

/-- Only a call of `append` changes the log, whether it returns or throws. -/
theorem step_wal (h : step s a = some (s', es)) :
    s'.wal = s.wal ∨ ∃ now os req tStart txId, a = .engine now os ∧
      s.pc = .appendWal req tStart txId ∧
      s'.wal = (s.wal.append os (serializeForWal req txId now)).2 := by
  have happends : ∀ now os req tStart txId, s.pc = .appendWal req tStart txId →
      step s (.engine now os) = some (s', es) →
        s'.wal = (s.wal.append os (serializeForWal req txId now)).2 := by
    intro now os req tStart txId hpc hstep
    simp only [step, LedgerEngine.engineStep, hpc, Option.some.injEq] at hstep
    unfold LedgerEngine.appendWal at hstep
    split at hstep
    next seq w heq =>
      cases hstep
      rw [heq]
    next outcome w hne heq =>
      cases hstep
      rw [heq]
  have he := step_effect h
  cases he with
  | aside hside => exact .inl hside.sameData.wal
  | pop | hit | miss | replyCached | accept | reject | drawTxId | apply | build | cache | noCache
  | reply | drawAccountId | commitAccount => exact .inl rfl
  | append hpc | appendThrows hpc =>
      exact .inr ⟨_, _, _, _, _, rfl, hpc, happends _ _ _ _ _ hpc h⟩

/-- No step takes a synchronisation back. -/
theorem step_keeps (h : step s a = some (s', es)) : Wal.Keeps s.wal s'.wal := by
  rcases step_wal h with hsame | ⟨now, os, req, tStart, txId, -, -, happ⟩
  · rw [hsame]
    exact Wal.Keeps.refl _
  · rw [happ]
    exact Wal.append_keeps os s.wal _

/-- An entry that is there keeps its place. -/
theorem SyncedEntry.later {k : Nat} {l : LogEntry} (h : SyncedEntry base s tr k l)
    (hk : Wal.Keeps s.wal s'.wal) : SyncedEntry base s' (tr ++ es) k l := by
  have hlt : k < (Ledger.logged tr).length := (List.getElem?_eq_some_iff.mp h.logged).1
  constructor
  · rw [logged_append, List.getElem?_append_left hlt]
    exact h.logged
  · unfold frameOffset
    rw [logged_append, List.take_append_of_le_length (by omega)]
    exact h.synced.keep hk

/-- A step that appends nothing. -/
theorem Secured.move (h : Secured base s tr) (hlogged : logged es = [])
    (hk : Wal.Keeps s.wal s'.wal)
    (hwal : s'.pc.threw = false → s.pc.threw = false ∧ s'.wal = s.wal) :
    Secured base s' (tr ++ es) := by
  have hsame : logged (tr ++ es) = logged tr := by
    rw [logged_append, hlogged, List.append_nil]
  constructor
  · intro hlive
    obtain ⟨hbefore, heq⟩ := hwal hlive
    rw [hsame, heq]
    exact h.frames hbefore
  · intro k l hl
    rw [hsame] at hl
    exact (h.synced k l hl).later hk

/-- **One step.**  A new frame is synchronised if its `msync` succeeds. -/
theorem Secured.step (h : Secured base s tr) (hstep : step s a = some (s', es))
    (hsync : SyncSucceeds s a) : Secured base s' (tr ++ es) := by
  have hk := step_keeps hstep
  have he := step_effect hstep
  cases he with
  | aside hside =>
      obtain ⟨-, -, -, -, hlogged, -⟩ := hside.silent.lists
      refine h.move hlogged hk ?_
      rw [hside.view (fun _ => Pc.threw_idle)]
      exact fun hlive => ⟨hlive, hside.sameData.wal⟩
  | pop hpc | hit hpc | miss hpc | replyCached hpc | accept hpc | reject hpc | drawTxId hpc
  | apply hpc | build hpc | cache hpc | noCache hpc | reply hpc =>
      refine h.move rfl hk ?_
      rw [hpc]
      exact fun _ => ⟨rfl, rfl⟩
  | appendThrows =>
      refine h.move rfl hk ?_
      intro hlive
      cases hlive
  | drawAccountId | commitAccount => exact h.move rfl hk (fun hlive => ⟨hlive, rfl⟩)
  | @append now os req tStart txId seq w hpc happ =>
      have hwritten := h.frames (by rw [hpc]; rfl)
      have hok : os.msyncOk = true := hsync now os rfl (by rw [hpc]; rfl)
      have hlog := logged_appended tr req txId (serializeForWal req txId now)
      constructor
      · intro _
        rw [hlog, List.map_append]
        exact hwritten.append (Wal.append_returned_inv hwritten.toWellMapped happ)
      · intro k l hl
        rw [hlog] at hl
        rcases Nat.lt_or_ge k (logged tr).length with hlt | hge
        · rw [List.getElem?_append_left hlt] at hl
          exact (h.synced k l hl).later hk
        · -- the entry of this step: its frame starts at the write offset
          rw [List.getElem?_append_right hge] at hl
          have hlen : k = (logged tr).length := by
            have hlt := (List.getElem?_eq_some_iff.mp hl).1
            rw [List.length_singleton] at hlt
            omega
          obtain rfl := List.mem_singleton.mp (List.mem_of_getElem? hl)
          subst hlen
          have hoffset : frameOffset base (logged tr ++
              [⟨req, txId, serializeForWal req txId now⟩]) (logged tr).length =
                s.wal.writeOffset := by
            unfold frameOffset
            rw [List.take_left, hwritten.writeOffset]
          refine ⟨?_, ?_⟩
          · rw [hlog, List.getElem?_concat_length]
          · rw [hlog, hoffset]
            exact Wal.append_synced hwritten.toWellMapped hok happ

end Steps

/-! ## §3. Every run. -/

/-- The `k`-th request that was applied is that of the `k`-th entry. -/
theorem applied_logged {pc : Pc} {tr : List Event} (h : Bookkeeping pc tr) {k : Nat}
    {req : TransactionRequest} (hk : (applied tr)[k]? = some req) :
    ∃ l, (logged tr)[k]? = some l ∧ l.req = req := by
  have hlt : k < (applied tr).length := (List.getElem?_eq_some_iff.mp hk).1
  have hmapped : ((logged tr).map LogEntry.req)[k]? = some req := by
    rw [h.logged_eq, List.getElem?_append_left hlt]
    exact hk
  rw [List.getElem?_map] at hmapped
  exact Option.map_eq_some_iff.mp hmapped

/-- **ACKNOWLEDGED MEANS DURABLE**, in every state of every run in which each
`msync` of an `append` reports success. -/
theorem acknowledged_durable {w : Wal.WriteAheadLog} (hw : w.WellMapped) {acts : List Action}
    (hsync : ∀ t a t', Takes (traced step) ⟨.init w, []⟩ acts t a t' → SyncSucceeds t.state a)
    {t : Traced LedgerEngine Event} (h : Visits (traced step) ⟨.init w, []⟩ acts t) :
    Durable w.writeOffset t.state t.trace := by
  have hsecured : Secured w.writeOffset t.state t.trace := by
    refine traced_of_takes (Secured w.writeOffset) ⟨fun _ => Wal.written_nil hw, ?_⟩ ?_ h
    · intro k l hl
      cases hl
    · intro u a u' es htakes hes hu
      exact hu.step hes (hsync u a u' htakes)
  obtain ⟨before, -, -, hrun⟩ := h
  have hsourced := run_sourced hrun
  -- whatever is booked is an entry of the log
  have hbooked : ∀ req txId, BookedAs t.trace req txId →
      ∃ k l, SyncedEntry w.writeOffset t.state t.trace k l ∧ l.txId = txId ∧ l.req = req := by
    intro req txId hbooked
    obtain ⟨l, hl, hreq, htx⟩ := hbooked
    obtain ⟨k, hk⟩ := List.mem_iff_getElem?.mp hl.logged
    exact ⟨k, l, hsecured.synced k l hk, htx, hreq⟩
  refine ⟨hsecured.frames, ?_, ?_, (run_origin hrun).pushed, ?_⟩
  · intro k req hk
    obtain ⟨l, hl, hreq⟩ := applied_logged (run_bookkeeping hrun) hk
    exact ⟨l, hsecured.synced k l hl, hreq⟩
  · intro b hb hok
    obtain ⟨req, hreq, hkey⟩ := hsourced.answers b hb hok
    obtain ⟨k, l, hl, htx, rfl⟩ := hbooked req _ hreq
    exact ⟨k, l, hl, htx, hkey⟩
  · intro key resp hlookup hok
    obtain ⟨req, hreq, hkey, -⟩ := hsourced.cache key resp hlookup hok
    obtain ⟨k, l, hl, htx, rfl⟩ := hbooked req _ hreq
    exact ⟨k, l, hl, htx, hkey⟩

/-- The condition, at one step. -/
def syncSucceeds (t : Traced LedgerEngine Event) : Action → Bool
  | .engine _ os => !t.state.pc.appends || os.msyncOk
  | _ => true

theorem syncSucceeds_of_checked {w : Wal.WriteAheadLog} {acts : List Action}
    (h : checked (traced step) syncSucceeds ⟨.init w, []⟩ acts = true) :
    ∀ t a t', Takes (traced step) ⟨.init w, []⟩ acts t a t' → SyncSucceeds t.state a := by
  intro t a t' htakes now os ha happends
  have hok : syncSucceeds t a = true := htakes.checked h
  rw [ha, syncSucceeds, happends] at hok
  exact hok

/-- Two transfers, and the first request again. -/
def twoTransfers : List Action :=
  createAccountCall "Sales" .revenue ++ createAccountCall "Cash" .asset ++
    [.submit (transferRequest "sale" 0 1 500), .submit (transferRequest "refund" 1 0 200),
      .submit (transferRequest "sale" 0 1 500)] ++ engineSteps 32

theorem twoTransfers_durable :
    ∃ t, runEngine (.init newLog) twoTransfers = some t ∧ Durable 0 t.state t.trace ∧
      (applied t.trace).length = 2 ∧ (responses t.trace).length = 3 := by
  have hrun : (runEngine (.init newLog) twoTransfers).map
      (fun t => ((applied t.trace).length, (responses t.trace).length)) = some (2, 3) := by
    decide +kernel
  obtain ⟨t, ht, heq⟩ := Option.map_eq_some_iff.mp hrun
  simp only [Prod.mk.injEq] at heq
  have hopen : (Wal.construct Wal.page4096 Wal.OsReply.ok "ledger.wal" Wal.FileImage.empty
      4096).1 = .returned newLog := rfl
  exact ⟨t, ht, acknowledged_durable (Wal.construct_returned_inv hopen).2
    (syncSucceeds_of_checked (by decide +kernel)) (visits_end ht), heq⟩

/-- Every `msync` of the engine reports a failure. -/
def failedSync : List Action :=
  createAccountCall "Sales" .revenue ++ createAccountCall "Cash" .asset ++
    [.submit (transferRequest "sale" 0 1 500)] ++
    List.replicate 12 (.engine 1000 { Wal.OsReply.ok with msyncOk := false })

/-- **The transfer is applied and answered with OK**, and nothing is on disk. -/
theorem failedSync_not_durable :
    ∃ t, Visits (traced step) ⟨.init newLog, []⟩ failedSync t ∧
      applied t.trace = [transferRequest "sale" 0 1 500] ∧
      (replied t.trace).map TransactionResponse.status = [.ok] ∧
      (∀ m ∈ t.state.wal.msyncs, m.ok = false) ∧ ¬ Durable 0 t.state t.trace := by
  have hrun : (runEngine (.init newLog) failedSync).map (fun t =>
      (applied t.trace, (replied t.trace).map TransactionResponse.status,
        t.state.wal.msyncs.map Wal.Msync.ok)) =
      some ([transferRequest "sale" 0 1 500], [.ok], [false]) := by
    decide +kernel
  obtain ⟨t, ht, heq⟩ := Option.map_eq_some_iff.mp hrun
  simp only [Prod.mk.injEq] at heq
  obtain ⟨happlied, hreplied, hsyncs⟩ := heq
  have hfailed : ∀ m ∈ t.state.wal.msyncs, m.ok = false := by
    intro m hm
    have hmem : m.ok ∈ t.state.wal.msyncs.map Wal.Msync.ok := List.mem_map_of_mem hm
    rw [hsyncs] at hmem
    exact List.mem_singleton.mp hmem
  refine ⟨t, visits_end ht, happlied, hreplied, hfailed, ?_⟩
  intro hdurable
  obtain ⟨l, ⟨-, m, hm, -, hok, -⟩, -⟩ := hdurable.applied 0 _ (by rw [happlied]; rfl)
  rw [hfailed m hm] at hok
  cases hok

end ZeroLGR.Ledger
