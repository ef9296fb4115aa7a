/-
  ZeroLGR.Ledger.Accounting — when the accounting equation holds.

  `validate_transaction` promises to check that the equation survives the
  transfer, and does not: it never returns `ERR_INVARIANT_VIOLATED`.  A transfer
  takes its amount from one balance and adds it to another, so the equation
  survives it only if both accounts are on the same side.  Whether the equation
  holds over a whole run is therefore decided by the steps the run takes.

    • `EquationHolds`, `AccountingHolds` — the equation in every state of a run;
      also the refusal of requests that would break it,
    • `KeepsEquation`, `Harmless` — what a step must be for the one and the other,
    • `accounting_iff` — over every run, exactly then.
-/
import ZeroLGR.Ledger.Record

namespace ZeroLGR.Ledger

open Transition

/-! ## §1. What is promised, and what decides it. -/

/-- The engine thread has refused the request as a violation, and has changed
neither a balance nor the log. -/
def RefusedAsViolation (s s' : LedgerEngine) (req : TransactionRequest) : Prop :=
  (∃ tStart, s'.pc = .buildResponse req tStart Uuid.zero .errInvariantViolated) ∧
    s'.accounts = s.accounts ∧ s'.wal = s.wal

/-- **The equation over a run**: it holds in every state. -/
def EquationHolds (w : Wal.WriteAheadLog) (acts : List Action) : Prop :=
  ∀ t, Visits (traced step) ⟨.init w, []⟩ acts t → checkInvariant t.state.accounts = true

/-- **What is promised of a run**: the equation holds in every state, and a
request that would break it is refused where it is validated. -/
structure AccountingHolds (w : Wal.WriteAheadLog) (acts : List Action) : Prop where
  invariant : EquationHolds w acts
  refused : ∀ t now os t' req, Takes (traced step) ⟨.init w, []⟩ acts t (.engine now os) t' →
    t.state.pc = .validate req →
    checkInvariant (applyTransaction t.state.accounts req) = false →
    RefusedAsViolation t.state t'.state req

/-- The step leaves the equation alone.  What the engine thread applies has both
accounts on the same side, and a new account takes the place of none that counts
in the equation. -/
def KeepsEquation (s : LedgerEngine) : Action → Prop
  | .engine _ _ => ∀ req tStart txId, s.pc = .applyTransaction req tStart txId →
      SameSide s.accounts req
  | .commitAccount i => ∀ c, s.creating[i]? = some c → nameTaken s.accounts c.1.name = false →
      (slot s.accounts c.2).signed = 0
  | _ => True

/-- The step leaves the equation alone, and does not validate a request that
would break it. -/
structure Harmless (s : LedgerEngine) (a : Action) : Prop where
  keeps : KeepsEquation s a
  validated : ∀ now os req, a = .engine now os → s.pc = .validate req → SameSide s.accounts req

/-! ## §2. One step. -/

section Steps

variable {s s' : LedgerEngine} {a : Action} {es : List Event}

/-- A new account keeps the equation exactly if what it replaces does not count. -/
theorem checkInvariant_commit_iff {accounts : Accounts} (h : checkInvariant accounts = true)
    (req : CreateAccountRequest) (id : Bytes) :
    checkInvariant (commitAccount accounts req id).2 = true ↔
      (nameTaken accounts req.name = false → (slot accounts id).signed = 0) := by
  unfold commitAccount
  cases hname : nameTaken accounts req.name with
  | true => simp [h]
  | false =>
      rw [checkInvariant_iff] at h
      simp only [Bool.false_eq_true, if_false, forall_const]
      rw [checkInvariant_iff, signedTotal_insert_zero _ _ rfl, h, zero_sub, neg_eq_zero]

/-- **Such steps keep the equation.** -/
theorem KeepsEquation.preserves (hkeeps : KeepsEquation s a)
    (h : checkInvariant s.accounts = true) (he : Effect s a s' es) :
    checkInvariant s'.accounts = true := by
  cases he with
  | aside hside =>
      rw [hside.sameData.accounts]
      exact h
  | apply hpc => exact (checkInvariant_apply_iff h _).mpr (hkeeps _ _ _ hpc)
  | commitAccount hi => exact (checkInvariant_commit_iff h _ _).mpr (hkeeps _ hi)
  | pop | hit | miss | replyCached | accept | reject | drawTxId | append | appendThrows | build
  | cache | noCache | reply | drawAccountId => exact h

/-- Validation never refuses a request as a violation. -/
theorem not_refusedAsViolation {now : Int64} {os : Wal.OsReply} {req : TransactionRequest}
    (hpc : s.pc = .validate req) (hstep : step s (.engine now os) = some (s', es)) :
    ¬ RefusedAsViolation s s' req := by
  intro hviolation
  obtain ⟨⟨tStart, hrefused⟩, -, -⟩ := hviolation
  have hne := validateTransaction_ne_invariantViolated s.accounts req
  unfold step LedgerEngine.engineStep at hstep
  simp only [hpc] at hstep
  split at hstep
  · cases hstep
    cases hrefused
  · cases hstep
    simp only [Pc.buildResponse.injEq] at hrefused
    exact hne hrefused.2.2.2

/-- What the step at `apply_transaction` does to the accounts. -/
theorem accounts_of_apply {now : Int64} {os : Wal.OsReply} {req : TransactionRequest}
    {tStart : Int64} {txId : Uuid} (hpc : s.pc = .applyTransaction req tStart txId)
    (hstep : step s (.engine now os) = some (s', es)) :
    s'.accounts = applyTransaction s.accounts req := by
  unfold step LedgerEngine.engineStep at hstep
  simp only [hpc] at hstep
  cases hstep
  rfl

/-- What the second step of `create_account` does to them. -/
theorem accounts_of_commit {i : Nat} {c : CreateAccountRequest × Bytes}
    (hc : s.creating[i]? = some c) (hstep : step s (.commitAccount i) = some (s', es)) :
    s'.accounts = (commitAccount s.accounts c.1 c.2).2 := by
  unfold step at hstep
  simp only [hc, Option.map_some] at hstep
  cases hstep
  rfl

end Steps

/-! ## §3. Runs. -/

section Runs

variable {w : Wal.WriteAheadLog} {acts : List Action}

/-- Every step taken is a step of the machine. -/
theorem step_of_takes {t t' : Traced LedgerEngine Event} {a : Action}
    (h : Takes (traced step) ⟨.init w, []⟩ acts t a t') :
    ∃ es, step t.state a = some (t'.state, es) := by
  obtain ⟨-, -, -, -, hstep⟩ := h
  obtain ⟨es, hes, -⟩ := traced_eq_some.mp hstep
  exact ⟨es, hes⟩

/-- In a run of steps that keep the equation it holds throughout. -/
theorem equationHolds_of_keeps
    (h : ∀ t a t', Takes (traced step) ⟨.init w, []⟩ acts t a t' → KeepsEquation t.state a) :
    EquationHolds w acts := by
  intro t ht
  refine visits_of_takes (fun t => checkInvariant t.state.accounts = true) rfl ?_ ht
  intro u a u' htakes hu
  obtain ⟨es, hes⟩ := step_of_takes htakes
  exact (h u a u' htakes).preserves hu (step_effect hes)

/-- Where the equation holds throughout, every step kept it. -/
theorem keeps_of_equationHolds (h : EquationHolds w acts)
    {t t' : Traced LedgerEngine Event} {a : Action}
    (htakes : Takes (traced step) ⟨.init w, []⟩ acts t a t') : KeepsEquation t.state a := by
  have hbefore := h t htakes.source
  have hafter := h t' htakes.target
  obtain ⟨es, hes⟩ := step_of_takes htakes
  cases a with
  | engine now os =>
      intro req tStart txId hpc
      rw [accounts_of_apply hpc hes] at hafter
      exact (checkInvariant_apply_iff hbefore req).mp hafter
  | commitAccount i =>
      intro c hc
      rw [accounts_of_commit hc hes] at hafter
      exact (checkInvariant_commit_iff hbefore c.1 c.2).mp hafter
  | submit | takeReply | drawAccountId | getBalanceSnapshot | getMetricsSample
  | resetMetricsWindow | metrics | shutdown => exact trivial

/-- The equation alone: requests that are refused for any reason do not matter. -/
theorem equationHolds_iff :
    EquationHolds w acts ↔
      ∀ t a t', Takes (traced step) ⟨.init w, []⟩ acts t a t' → KeepsEquation t.state a :=
  ⟨fun h _ _ _ htakes => keeps_of_equationHolds h htakes, equationHolds_of_keeps⟩

/-- In a run of harmless steps all that is promised holds. -/
theorem accountingHolds_of_harmless
    (h : ∀ t a t', Takes (traced step) ⟨.init w, []⟩ acts t a t' → Harmless t.state a) :
    AccountingHolds w acts := by
  have hequation : EquationHolds w acts :=
    equationHolds_of_keeps (fun t a t' htakes => (h t a t' htakes).keeps)
  refine ⟨hequation, ?_⟩
  intro t now os t' req htakes hpc hbreaks
  -- the request is on one side, so nothing breaks
  have hside := (h t _ t' htakes).validated now os req rfl hpc
  have hkeeps := (checkInvariant_apply_iff (hequation t htakes.source) req).mpr hside
  rw [hkeeps] at hbreaks
  cases hbreaks

/-- Where all that is promised holds, every step was harmless. -/
theorem harmless_of_accountingHolds (h : AccountingHolds w acts)
    {t t' : Traced LedgerEngine Event} {a : Action}
    (htakes : Takes (traced step) ⟨.init w, []⟩ acts t a t') : Harmless t.state a := by
  refine ⟨keeps_of_equationHolds h.invariant htakes, ?_⟩
  intro now os req haction hpc
  subst haction
  obtain ⟨es, hes⟩ := step_of_takes htakes
  -- a request that breaks the equation would have to be refused
  by_contra hside
  have hbreaks : checkInvariant (applyTransaction t.state.accounts req) = false := by
    rw [← checkInvariant_apply_iff (h.invariant t htakes.source)] at hside
    exact eq_false_of_ne_true hside
  exact not_refusedAsViolation hpc hes (h.refused t now os t' req htakes hpc hbreaks)

/-- **WHEN THE ACCOUNTING EQUATION HOLDS.**  Over every run, the equation holds
exactly if every step the run takes keeps it, and all that is promised holds
exactly if every step is harmless. -/
theorem accounting_iff (w : Wal.WriteAheadLog) (acts : List Action) :
    (EquationHolds w acts ↔
      ∀ t a t', Takes (traced step) ⟨.init w, []⟩ acts t a t' → KeepsEquation t.state a) ∧
    (AccountingHolds w acts ↔
      ∀ t a t', Takes (traced step) ⟨.init w, []⟩ acts t a t' → Harmless t.state a) := by
  refine ⟨equationHolds_iff, ?_⟩
  constructor
  · exact fun h t a t' htakes => harmless_of_accountingHolds h htakes
  · exact accountingHolds_of_harmless

end Runs

/-- A sale: 200.00 from a revenue account to an asset account. -/
def saleRun : List Action :=
  createAccountCall "Cash" .asset ++ createAccountCall "Sales" .revenue ++
    .submit (transferRequest "sale" 1 0 20000) :: engineSteps 13

/-- **The sale breaks the equation.**  It is validated OK, logged and applied:
assets are 20000, equity is -20000. -/
theorem saleRun_breaks :
    ¬ AccountingHolds newLog saleRun ∧
      (runEngine (.init newLog) saleRun).map
        (fun t => (checkInvariant t.state.accounts, totals t.state.accounts,
          (logged t.trace).length)) = some (false, ⟨20000, 0, -20000⟩, 1) := by
  have hrun : (runEngine (.init newLog) saleRun).map
      (fun t => (checkInvariant t.state.accounts, totals t.state.accounts,
        (logged t.trace).length)) = some (false, ⟨20000, 0, -20000⟩, 1) := by
    decide +kernel
  refine ⟨?_, hrun⟩
  intro h
  obtain ⟨t, ht, heq⟩ := Option.map_eq_some_iff.mp hrun
  have hinvariant := h.invariant t (visits_end ht)
  simp only [Prod.mk.injEq] at heq
  rw [heq.1] at hinvariant
  cases hinvariant

end ZeroLGR.Ledger
