/-
  ZeroLGR.Ledger.Restart — `main`, and what is left after a restart.

  `main` constructs the log, then the engine, and replays the log with a
  callback that looks at none of the frames.  So the engine starts without
  accounts, without cached responses and with its counter at zero, whatever the
  log holds.  The restart is not noticed only if there was nothing to restore.

    • `startMain` — engine/src/main.cpp up to the start of the server,
    • `startMain_init` — it is an engine with nothing in it,
    • `RestartEquivalent`, `restart_iff` — when the restart is not noticed.
-/
import ZeroLGR.Ledger.Idempotency
import ZeroLGR.Ledger.RefinesLog
import ZeroLGR.Wal.Reopen

namespace ZeroLGR.Ledger

open Transition

/-! ## §1. `main`. -/

/-- The default of `initial_size`: 64 MiB. -/
def defaultWalSize : Nat := 64 * 1024 * 1024

/-- The callback `main` hands to `replay`: `(void)data`. -/
def replayCallback (engine : LedgerEngine) (_ : Nat × Bytes) : LedgerEngine := engine

/-- `main`, from the constructor of the log to the start of the server, on the
file `disk`.  `none` stands for a fatal error. -/
def startMain (pageSize : Wal.PageSize) (os : Wal.OsReply) (path : String)
    (disk : Wal.FileImage) : Option LedgerEngine :=
  match (Wal.construct pageSize os path disk defaultWalSize).1 with
  | .returned wal =>
      match wal.replay.outcome with
      | .returned _ =>
          some (wal.replay.delivered.foldl replayCallback
            { LedgerEngine.init wal with wal := wal.replay.log })
      | _ => none
  | _ => none

theorem foldl_replayCallback (frames : List (Nat × Bytes)) (engine : LedgerEngine) :
    frames.foldl replayCallback engine = engine := by
  induction frames with
  | nil => rfl
  | cons frame frames ih => exact ih

/-- **`main` starts an engine with nothing in it**, whatever the log holds. -/
theorem startMain_init {pageSize : Wal.PageSize} {os : Wal.OsReply} {path : String}
    {disk : Wal.FileImage} {s : LedgerEngine} (h : startMain pageSize os path disk = some s) :
    ∃ wal, s = .init wal := by
  unfold startMain at h
  split at h
  · next wal hwal =>
      split at h
      · cases h
        rw [foldl_replayCallback]
        exact ⟨wal.replay.log, rfl⟩
      · cases h
  · cases h

/-! ## §2. What was handed out. -/

/-- The requests with the key that were applied. -/
def transfersOf (key : Bytes) (tr : List Event) : List TransactionRequest :=
  (applied tr).filter (fun req => req.idempotencyKey = key)

/-- A transfer with the key was committed. -/
def Committed (key : Bytes) (tr : List Event) : Prop := key ≠ [] ∧ framesOf key tr ≠ []

/-- **The restart is not noticed**: the accounts are the same, a key that was
committed is not committed again, and no identifier is handed out twice. -/
structure RestartEquivalent (before : Traced LedgerEngine Event) (s : LedgerEngine) : Prop where
  accounts : ∀ id, s.accounts.lookup id = before.state.accounts.lookup id
  committed : ∀ key, Committed key before.trace → ∀ acts after, runEngine s acts = some after →
    framesOf key after.trace = [] ∧ transfersOf key after.trace = []
  identifiers : ∀ acts after, runEngine s acts = some after →
    ∀ id ∈ handedOut before.trace, id ∉ handedOut after.trace

/-! ## §3. Before the first account. -/

/-- While no account was created, there is none, and nothing was committed. -/
structure Unused (s : LedgerEngine) (tr : List Event) : Prop where
  accounts : s.accounts = ∅
  hand : s.pc.unlogged ++ s.pc.unapplied = []
  logged : logged tr = []
  applied : applied tr = []

section Steps

variable {s s' : LedgerEngine} {a : Action} {tr es : List Event}

theorem validateTransaction_empty (req : TransactionRequest) :
    validateTransaction ∅ req ≠ .ok := by
  intro h
  obtain ⟨-, hdebit, -⟩ := validateTransaction_ok h
  exact AList.notMem_empty _ hdebit

/-- **One step** that creates no account. -/
theorem Unused.step (h : Unused s tr) (hnone : handedOut es = []) (he : Effect s a s' es) :
    Unused s' (tr ++ es) := by
  have hempty := h.accounts
  have hhand := h.hand
  cases he with
  | aside hside =>
      obtain ⟨-, -, -, -, hlogged, happlied, -, -⟩ := hside.silent.lists
      have hhands : s'.pc.hands = s.pc.hands := hside.view (fun _ => Pc.hands_idle)
      simp only [Pc.hands, Prod.mk.injEq] at hhands
      refine ⟨by rw [hside.sameData.accounts, hempty], ?_, ?_, ?_⟩
      · rw [hhands.2.1, hhands.2.2.1]
        exact hhand
      · rw [logged_append, h.logged, hlogged]
        rfl
      · rw [applied_append, h.applied, happlied]
        rfl
  | accept hpc hok =>
      rw [hempty] at hok
      exact absurd hok (validateTransaction_empty _)
  | drawTxId hpc | append hpc | apply hpc | appendThrows hpc =>
      rw [hpc] at hhand
      cases hhand
  | @commitAccount i req id hi =>
      -- the first account is created, because no name is taken
      rw [hempty] at hnone
      cases hnone
  | pop | hit | miss | replyCached | reject | build | cache | noCache | reply =>
      refine ⟨hempty, rfl, ?_, ?_⟩
      · rw [logged_append, h.logged]
        rfl
      · rw [applied_append, h.applied]
        rfl
  | drawAccountId =>
      rw [List.append_nil]
      exact ⟨hempty, hhand, h.logged, h.applied⟩

/-- The engine thread hands out no identifier. -/
theorem engine_handedOut {now : Int64} {os : Wal.OsReply} (he : Effect s (.engine now os) s' es) :
    handedOut es = [] := by
  cases he with
  | aside hside => cases hside <;> rfl
  | pop | hit | miss | replyCached | accept | reject | drawTxId | append | appendThrows | apply
  | build | cache | noCache | reply => rfl

/-- What was handed out stays in the map. -/
theorem handedOut_step (h : ∀ id ∈ handedOut tr, id ∈ s.accounts) (he : Effect s a s' es) :
    ∀ id ∈ handedOut (tr ++ es), id ∈ s'.accounts := by
  intro id hid
  rw [handedOut_append] at hid
  cases he with
  | aside hside =>
      have hnone : handedOut es = [] := by
        cases hside <;> rfl
      rw [hside.sameData.accounts]
      rw [hnone, List.append_nil] at hid
      exact h id hid
  | @apply now os req tStart txId hpc =>
      have hold : id ∈ s.accounts := h id (by simpa [handedOut, Event.asCreated] using hid)
      unfold applyTransaction
      rw [mem_addToBalance, mem_addToBalance]
      exact .inr (.inr hold)
  | @commitAccount i req new hi =>
      rcases List.mem_append.mp hid with hold | hnew
      · exact mem_commitAccount req new (h id hold)
      · unfold handedOut Event.asCreated commitAccount at hnew
        unfold commitAccount
        split at hnew
        · simp at hnew
        · next hfree =>
            rw [if_neg hfree]
            simp at hnew
            rw [hnew]
            exact (AList.mem_insert s.accounts).mpr (.inl rfl)
  | drawAccountId =>
      rw [show handedOut [] = [] from rfl, List.append_nil] at hid
      exact h id hid
  | pop | hit | miss | replyCached | accept | reject | drawTxId | append | appendThrows | build
  | cache | noCache | reply =>
      exact h id (by simpa [handedOut, Event.asCreated] using hid)

end Steps

section Runs

variable {w : Wal.WriteAheadLog} {acts : List Action} {t : Traced LedgerEngine Event}

theorem run_unused (h : runEngine (.init w) acts = some t) (hnone : handedOut t.trace = []) :
    Unused t.state t.trace := by
  refine traced_invariant (fun s tr => handedOut tr = [] → Unused s tr) ?_ ?_ h hnone
  · intro s tr a s' es hs hstep hnone
    rw [handedOut_append] at hnone
    obtain ⟨hbefore, hes⟩ := List.append_eq_nil_iff.mp hnone
    exact (hs hbefore).step hes (step_effect hstep)
  · intro _
    exact ⟨rfl, rfl, rfl, rfl⟩

/-- Nothing is logged, so no append throws. -/
theorem Unused.alive {s : LedgerEngine} {tr : List Event} (h : Unused s tr) :
    s.pc.threw = false := by
  have hhand := h.hand
  cases hpc : s.pc with
  | terminated req =>
      rw [hpc] at hhand
      cases hhand
  | _ => rfl

/-- The engine thread alone changes nothing about it. -/
theorem engineSteps_unused {s : LedgerEngine} {n : Nat} (hs : Unused s [])
    (h : runEngine s (engineSteps n) = some t) : Unused t.state t.trace := by
  refine run_invariant_of (fun u : Traced LedgerEngine Event => Unused u.state u.trace) ?_ hs h
  intro a ha u u' hu hstep
  obtain ⟨es, hes, htrace⟩ := traced_eq_some.mp hstep
  have heffect := step_effect hes
  rw [List.eq_of_mem_replicate ha] at heffect
  rw [htrace]
  exact hu.step (engine_handedOut heffect) heffect

theorem run_handedOut (h : runEngine (.init w) acts = some t) :
    ∀ id ∈ handedOut t.trace, id ∈ t.state.accounts := by
  refine traced_invariant (fun s tr => ∀ id ∈ handedOut tr, id ∈ s.accounts) ?_ ?_ h
  · intro s tr a s' es hs hstep
    exact handedOut_step hs (step_effect hstep)
  · intro id hid
    cases hid

end Runs

/-! ## §4. When the restart is not noticed. -/

/-- **WHEN A RESTART IS NOT NOTICED.**  Over every run of the engine, from any
start of `main` to any later one: exactly if no account was created before. -/
theorem restart_iff {pageSize pageSize' : Wal.PageSize} {os os' : Wal.OsReply}
    {path path' : String} {disk : Wal.FileImage} {s₀ s : LedgerEngine} {acts : List Action}
    {t : Traced LedgerEngine Event} (hfirst : startMain pageSize os path disk = some s₀)
    (hrun : runEngine s₀ acts = some t)
    (hstart : startMain pageSize' os' path' t.state.wal.close = some s) :
    RestartEquivalent t s ↔ handedOut t.trace = [] := by
  obtain ⟨w, rfl⟩ := startMain_init hfirst
  obtain ⟨w', rfl⟩ := startMain_init hstart
  constructor
  · intro h
    -- an account that was created is not there any more
    by_contra hne
    obtain ⟨id, hid⟩ := List.exists_mem_of_ne_nil _ hne
    have hmem := run_handedOut hrun id hid
    rw [← AList.lookup_isSome, ← h.accounts] at hmem
    cases hmem
  · intro hnone
    have hunused := run_unused hrun hnone
    refine ⟨?_, ?_, ?_⟩
    · intro id
      rw [hunused.accounts]
      rfl
    · intro key hcommitted
      obtain ⟨-, hframes⟩ := hcommitted
      unfold framesOf at hframes
      rw [hunused.logged] at hframes
      exact absurd rfl hframes
    · intro acts' after _ id hid
      rw [hnone] at hid
      cases hid

/-- A run of the engine from a new file on, and the next start of `main`. -/
def restarted (acts : List Action) : Option (Traced LedgerEngine Event × LedgerEngine) :=
  (startMain Wal.page4096 Wal.OsReply.ok "zerolgr.wal" Wal.FileImage.empty).bind fun s₀ =>
  (runEngine s₀ acts).bind fun t =>
  (startMain Wal.page4096 Wal.OsReply.ok "zerolgr.wal" t.state.wal.close).map fun s => (t, s)

theorem restarted_eq_some {acts : List Action} {t : Traced LedgerEngine Event} {s : LedgerEngine}
    (h : restarted acts = some (t, s)) :
    ∃ s₀, startMain Wal.page4096 Wal.OsReply.ok "zerolgr.wal" Wal.FileImage.empty = some s₀ ∧
      runEngine s₀ acts = some t ∧
      startMain Wal.page4096 Wal.OsReply.ok "zerolgr.wal" t.state.wal.close = some s := by
  obtain ⟨s₀, hfirst, h⟩ := Option.bind_eq_some_iff.mp h
  obtain ⟨t', hrun, h⟩ := Option.bind_eq_some_iff.mp h
  obtain ⟨s', hstart, heq⟩ := Option.map_eq_some_iff.mp h
  cases heq
  exact ⟨s₀, hfirst, hrun, hstart⟩

/-- A request before there are accounts is refused. -/
def earlyRequest : List Action := .submit (transferRequest "early" 0 1 500) :: engineSteps 11

/-- A restart after it is not noticed. -/
theorem earlyRequest_kept :
    ∃ t s, restarted earlyRequest = some (t, s) ∧ (responses t.trace).length = 1 ∧
      RestartEquivalent t s := by
  have hruns : (restarted earlyRequest).map
      (fun r => ((responses r.1.trace).length, handedOut r.1.trace)) = some (1, []) := by
    decide +kernel
  obtain ⟨⟨t, s⟩, hr, heq⟩ := Option.map_eq_some_iff.mp hruns
  simp only [Prod.mk.injEq] at heq
  obtain ⟨s₀, hfirst, hrun, hstart⟩ := restarted_eq_some hr
  exact ⟨t, s, hr, heq.1, (restart_iff hfirst hrun hstart).mpr heq.2⟩

/-- A sale under a key. -/
def firstLife : List Action :=
  createAccountCall "Sales" .revenue ++ createAccountCall "Cash" .asset ++
    .submit (transferRequest "sale" 0 1 500) :: engineSteps 14

set_option synthInstance.maxSize 256 in
set_option maxRecDepth 4096 in
/-- **After the restart the sale is gone.**  The same calls hand out the same
identifiers again, and the same key is logged and applied again. -/
theorem firstLife_forgotten :
    ∃ t s after, restarted firstLife = some (t, s) ∧ runEngine s firstLife = some after ∧
      t.state.pc = .popRequest ∧ balanceOf t.state.accounts (accountId 1) = 500 ∧
      ¬ RestartEquivalent t s ∧ handedOut t.trace = [accountId 0, accountId 1] ∧
      handedOut after.trace = [accountId 0, accountId 1] ∧
      (framesOf (ascii "sale") t.trace).length = 1 ∧
      (transfersOf (ascii "sale") after.trace).length = 1 := by
  have hruns : ((restarted firstLife).bind fun r =>
      (runEngine r.2 firstLife).map fun after =>
        (r.1.state.pc, balanceOf r.1.state.accounts (accountId 1),
          [handedOut r.1.trace, handedOut after.trace],
          [(framesOf (ascii "sale") r.1.trace).length,
            (transfersOf (ascii "sale") after.trace).length])) =
      some (.popRequest, 500, [[accountId 0, accountId 1], [accountId 0, accountId 1]], [1, 1]) := by
    decide +kernel
  obtain ⟨⟨t, s⟩, hr, hruns⟩ := Option.bind_eq_some_iff.mp hruns
  obtain ⟨after, hafter, heq⟩ := Option.map_eq_some_iff.mp hruns
  simp only [Prod.mk.injEq, List.cons.injEq, and_true] at heq
  obtain ⟨hpc, hbalance, ⟨hbefore, hagain⟩, hframe, htransfer⟩ := heq
  refine ⟨t, s, after, hr, hafter, hpc, hbalance, ?_, hbefore, hagain, hframe, htransfer⟩
  intro h
  refine h.identifiers firstLife after hafter (accountId 0) ?_ ?_
  · rw [hbefore]
    exact List.mem_cons_self
  · rw [hagain]
    exact List.mem_cons_self

end ZeroLGR.Ledger
