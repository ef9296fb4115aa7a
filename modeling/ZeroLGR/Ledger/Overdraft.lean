/-
  ZeroLGR.Ledger.Overdraft — asset accounts are never below zero.

  `validate_transaction` checks the funds and releases the lock; the transfer is
  applied later, under the lock again.  In between only the I/O thread can touch
  the map, and only by creating accounts.  What was checked still holds unless
  it creates an account over the one that was checked, which takes an identifier
  that was drawn before: that happens when the 64-bit counter has wrapped.

    • `run_known` — at `apply_transaction` both accounts exist, in every run,
    • `Solvent`, `Solvent.step` — the invariant, and one step of the machine,
    • `no_overdraft` — the statement for every run,
    • `wrappedRun_overdraws` — why the number of identifiers is bounded.
-/
import ZeroLGR.Ledger.Identifiers

namespace ZeroLGR.Ledger

open Transition

/-! ## §1. Both accounts exist. -/

section Known

variable {s s' : LedgerEngine} {a : Action} {es : List Event}

/-- A request that was accepted names accounts that exist.  No identifier has to
be fresh for this, because no account is ever removed. -/
theorem known_step (h : ∀ req ∈ s.pc.unlogged ++ s.pc.unapplied, Known s.accounts req)
    (he : Effect s a s' es) : ∀ req ∈ s'.pc.unlogged ++ s'.pc.unapplied, Known s'.accounts req := by
  cases he with
  | aside hside =>
      have hhands : s'.pc.hands = s.pc.hands := hside.view (fun _ => Pc.hands_idle)
      simp only [Pc.hands, Prod.mk.injEq] at hhands
      rw [hhands.2.1, hhands.2.2.1, hside.sameData.accounts]
      exact h
  | accept hpc hok =>
      obtain ⟨-, hdebit, hcredit⟩ := validateTransaction_ok hok
      intro r hr
      rw [List.mem_singleton.mp hr]
      exact ⟨hdebit, hcredit⟩
  | drawTxId hpc | append hpc | appendThrows hpc =>
      rw [hpc] at h
      exact h
  | commitAccount hi =>
      intro r hr
      obtain ⟨hdebit, hcredit⟩ := h r hr
      exact ⟨mem_commitAccount _ _ hdebit, mem_commitAccount _ _ hcredit⟩
  | drawAccountId => exact h
  | pop | hit | miss | replyCached | reject | apply | build | cache | noCache | reply =>
      intro r hr
      cases hr

end Known

theorem run_known {w : Wal.WriteAheadLog} {acts : List Action} {t : Traced LedgerEngine Event}
    (h : runEngine (.init w) acts = some t) :
    ∀ req ∈ t.state.pc.unlogged ++ t.state.pc.unapplied, Known t.state.accounts req := by
  refine traced_invariant
    (fun s _ => ∀ req ∈ s.pc.unlogged ++ s.pc.unapplied, Known s.accounts req) ?_ ?_ h
  · intro s tr a s' es hs hstep
    exact known_step hs (step_effect hstep)
  · intro req hreq
    cases hreq

/-! ## §2. The funds are there. -/

/-- The amount is positive, and an asset account that is debited holds it. -/
structure Covered (accounts : Accounts) (req : TransactionRequest) : Prop where
  positive : 0 < req.amount
  funds : (slot accounts req.debitAccountId).type = .asset →
    req.amount ≤ balanceOf accounts req.debitAccountId

theorem covered_of_validated {accounts : Accounts} {req : TransactionRequest}
    (h : validateTransaction accounts req = .ok) : Covered accounts req :=
  ⟨(validateTransaction_ok h).1, validateTransaction_funds h⟩

/-- No asset account is below zero. -/
def NoOverdraft (accounts : Accounts) : Prop :=
  ∀ id, (slot accounts id).type = .asset → 0 ≤ balanceOf accounts id

/-- **The invariant**: asset accounts are not below zero, and what was checked
for the request in hand still holds. -/
structure Solvent (s : LedgerEngine) : Prop where
  assets : NoOverdraft s.accounts
  covered : ∀ req ∈ s.pc.unlogged ++ s.pc.unapplied, Covered s.accounts req

theorem type_apply (accounts : Accounts) (req : TransactionRequest) (id : Bytes) :
    (slot (applyTransaction accounts req) id).type = (slot accounts id).type := by
  unfold applyTransaction
  rw [type_addToBalance, type_addToBalance]

/-- **A covered transfer overdraws nothing**, also from an account to itself. -/
theorem NoOverdraft.apply {accounts : Accounts} {req : TransactionRequest}
    (h : NoOverdraft accounts) (hc : Covered accounts req) :
    NoOverdraft (applyTransaction accounts req) := by
  intro id htype
  rw [type_apply] at htype
  have hold := h id htype
  have hpos := hc.positive
  rw [balanceOf_apply]
  unfold transferEffect
  by_cases hdebit : id = req.debitAccountId
  · -- the account is debited, of what it holds at most
    subst hdebit
    have hfunds := hc.funds htype
    rw [if_pos rfl]
    split <;> omega
  · rw [if_neg hdebit]
    split <;> omega

/-- A new account is empty, and takes the place of none. -/
theorem NoOverdraft.commit {accounts : Accounts} (h : NoOverdraft accounts)
    (req : CreateAccountRequest) (id : Bytes) : NoOverdraft (commitAccount accounts req id).2 := by
  refine forall_slot_commitAccount (P := fun info => info.type = .asset → 0 ≤ info.balance) h ?_
    req id
  intro info hzero _
  omega

section Steps

variable {s s' : LedgerEngine} {a : Action} {es : List Event}

/-- **One step**: the funds are checked when the request is accepted, and are
still there when it is applied. -/
theorem Solvent.step (h : Solvent s) (hids : Identifiers s) (he : Effect s a s' es) :
    Solvent s' := by
  cases he with
  | aside hside =>
      have hhands : s'.pc.hands = s.pc.hands := hside.view (fun _ => Pc.hands_idle)
      simp only [Pc.hands, Prod.mk.injEq] at hhands
      constructor
      · rw [hside.sameData.accounts]
        exact h.assets
      · rw [hhands.2.1, hhands.2.2.1, hside.sameData.accounts]
        exact h.covered
  | accept hpc hok =>
      refine ⟨h.assets, ?_⟩
      intro r hr
      rw [List.mem_singleton.mp hr]
      exact covered_of_validated hok
  | drawTxId hpc | append hpc | appendThrows hpc =>
      have hcovered := h.covered
      rw [hpc] at hcovered
      exact ⟨h.assets, hcovered⟩
  | @apply now os req tStart txId hpc =>
      have hcovered := h.covered req (by rw [hpc]; exact List.mem_singleton_self req)
      refine ⟨h.assets.apply hcovered, ?_⟩
      intro r hr
      cases hr
  | @commitAccount i req id hi =>
      refine ⟨h.assets.commit req id, ?_⟩
      intro r hr
      have hcovered := h.covered r hr
      -- the identifier is new, so it is not that of the account that was checked
      have hne : r.debitAccountId ≠ id := by
        rintro rfl
        exact hids.unused _ (List.mem_of_getElem? hi) (hids.known r hr).1
      refine ⟨hcovered.positive, ?_⟩
      rw [balanceOf, slot_commitAccount_ne _ _ hne]
      exact hcovered.funds
  | drawAccountId => exact ⟨h.assets, h.covered⟩
  | pop | hit | miss | replyCached | reject | build | cache | noCache | reply =>
      refine ⟨h.assets, ?_⟩
      intro r hr
      cases hr

end Steps

theorem solvent_init (w : Wal.WriteAheadLog) : Solvent (.init w) := by
  constructor
  · intro id _
    exact Int.le_refl 0
  · intro req hreq
    cases hreq

/-- The invariant holds in every reachable state, until the counter wraps. -/
theorem run_solvent {w : Wal.WriteAheadLog} {acts : List Action} {t : Traced LedgerEngine Event}
    (h : runEngine (.init w) acts = some t) (hk : t.state.uuidCounter ≤ 2 ^ 64) :
    Solvent t.state := by
  have hboth : Identifiers t.state ∧ Solvent t.state := by
    refine traced_invariant
      (fun s _ => s.uuidCounter ≤ 2 ^ 64 → Identifiers s ∧ Solvent s) ?_
      (fun _ => ⟨identifiers_init w, solvent_init w⟩) h hk
    intro s tr a s' es hs hstep hk'
    have he := step_effect hstep
    obtain ⟨hids, hsolvent⟩ := hs (he.counter_le.trans hk')
    exact ⟨hids.step he hk', hsolvent.step hids he⟩
  exact hboth.2

/-- **NO OVERDRAFT.**  In every reachable state: at `apply_transaction` both
accounts exist, so it inserts none; and as long as no more identifiers were
drawn than the counter has values, no asset account is below zero. -/
theorem no_overdraft {w : Wal.WriteAheadLog} {acts : List Action} {t : Traced LedgerEngine Event}
    (hrun : runEngine (.init w) acts = some t) :
    (∀ req tStart txId, t.state.pc = .applyTransaction req tStart txId →
      Known t.state.accounts req ∧
        ∀ id, id ∈ applyTransaction t.state.accounts req ↔ id ∈ t.state.accounts) ∧
    (t.state.uuidCounter ≤ 2 ^ 64 → ∀ id info, t.state.accounts.lookup id = some info →
      info.type = .asset → 0 ≤ info.balance) := by
  constructor
  · intro req tStart txId hpc
    have hknown : Known t.state.accounts req :=
      run_known hrun req (by rw [hpc]; exact List.mem_singleton_self req)
    exact ⟨hknown, mem_apply hknown.1 hknown.2⟩
  · intro hk id info hlookup htype
    have hslot : slot t.state.accounts id = info := by
      rw [slot, hlookup]
      rfl
    have hassets := (run_solvent hrun hk).assets id
    rw [balanceOf, hslot] at hassets
    exact hassets htype

/-- A sale puts 500 into an asset account; all of it is moved from the account
to itself; 600 is refused. -/
def fundedRun : List Action :=
  createAccountCall "Sales" .revenue ++ createAccountCall "Cash" .asset ++
    [.submit (transferRequest "sale" 0 1 500), .submit (transferRequest "same" 1 1 500),
      .submit (transferRequest "more" 1 0 600)] ++ engineSteps 36

/-- The run ends with the asset account at 500. -/
theorem fundedRun_solvent :
    ∃ t info, runEngine (.init newLog) fundedRun = some t ∧
      t.state.accounts.lookup (accountId 1) = some info ∧ info.balance = 500 ∧
      0 ≤ info.balance := by
  have hrun : (runEngine (.init newLog) fundedRun).map
      (fun t => (t.state.uuidCounter, t.state.accounts.lookup (accountId 1))) =
        some (4, some ⟨accountId 1, ascii "Cash", .asset, 500⟩) := by
    decide +kernel
  obtain ⟨t, ht, heq⟩ := Option.map_eq_some_iff.mp hrun
  simp only [Prod.mk.injEq] at heq
  obtain ⟨hcounter, hlookup⟩ := heq
  obtain ⟨-, hassets⟩ := no_overdraft ht
  exact ⟨t, _, ht, hlookup, rfl, hassets (by rw [hcounter]; decide) _ _ hlookup rfl⟩

/-! ## §3. After the counter has wrapped. -/

/-- `n` calls of `create_account` with one name. -/
def repeatedCalls (n : Nat) (name : String) (type : AccountType) : List Action :=
  (List.replicate n (createAccountCall name type)).flatten

/-- When the name is taken they change nothing, except that each draws an
identifier. -/
theorem run_repeatedCalls {name : String} (type : AccountType) :
    ∀ (n : Nat) {u : Traced LedgerEngine Event}, u.state.creating = [] →
      nameTaken u.state.accounts (ascii name) = true →
      ∃ v, run (traced step) u (repeatedCalls n name type) = some v ∧
        v.state = { u.state with uuidCounter := u.state.uuidCounter + n }
  | 0, u, _, _ => ⟨u, rfl, rfl⟩
  | n + 1, u, hnone, htaken => by
      -- the first call draws, finds the name taken and leaves
      obtain ⟨m, hcall, hm⟩ : ∃ m, run (traced step) u (createAccountCall name type) = some m ∧
          m.state = { u.state with uuidCounter := u.state.uuidCounter + 1 } := by
        obtain ⟨s, tr⟩ := u
        simp only at hnone htaken
        simp [createAccountCall, run, traced, step, hnone, commitAccount, htaken]
      obtain ⟨v, hrest, hv⟩ := run_repeatedCalls type n (u := m)
        (by rw [hm]; exact hnone) (by rw [hm]; exact htaken)
      refine ⟨v, ?_, ?_⟩
      · show run _ u (createAccountCall name type ++ repeatedCalls n name type) = _
        rw [run_append, hcall]
        exact hrest
      · rw [hv, hm]
        show ({ u.state with uuidCounter := u.state.uuidCounter + 1 + n } : LedgerEngine) = _
        rw [Nat.add_assoc, Nat.add_comm 1 n]

/-- A transfer out of a revenue account is logged; before it is applied, a new
asset account gets the identifier of the revenue account. -/
def wrappedRun : List Action :=
  (createAccountCall "Sales" .revenue ++ createAccountCall "Cash" .asset ++
    .submit (transferRequest "sale" 0 1 500) :: engineSteps 6) ++
  (repeatedCalls (2 ^ 64 - 3) "Sales" .revenue ++
    (createAccountCall "Till" .asset ++ engineSteps 1))

/-- A transfer out of an account that is new has nothing to take from. -/
theorem lookup_apply_insert (accounts : Accounts) (req : TransactionRequest)
    (info : AccountInfo) (hzero : info.balance = 0) :
    ∃ info', (applyTransaction (accounts.insert req.debitAccountId info) req).lookup
        req.debitAccountId = some info' ∧ info'.type = info.type ∧
      info'.balance = transferEffect req req.debitAccountId := by
  have hslot : slot (accounts.insert req.debitAccountId info) req.debitAccountId = info := by
    rw [slot, AList.lookup_insert]
    rfl
  have hmem : req.debitAccountId ∈
      applyTransaction (accounts.insert req.debitAccountId info) req := by
    unfold applyTransaction
    rw [mem_addToBalance, mem_addToBalance]
    exact .inr (.inl rfl)
  obtain ⟨info', hinfo⟩ := Option.isSome_iff_exists.mp (AList.lookup_isSome.mpr hmem)
  have hafter : slot (applyTransaction (accounts.insert req.debitAccountId info) req)
      req.debitAccountId = info' := by
    rw [slot, hinfo]
    rfl
  refine ⟨info', hinfo, ?_, ?_⟩
  · rw [← hafter, type_apply, hslot]
  · have hbalance := balanceOf_apply (accounts.insert req.debitAccountId info) req
      req.debitAccountId
    rw [balanceOf, hafter, balanceOf, hslot, hzero, Int.zero_add] at hbalance
    exact hbalance

/-- The counter has as many values as 64 bits. -/
theorem accountId_wraps : accountId (2 ^ 64) = accountId 0 := by
  have hvalue : counterValue (2 ^ 64) = counterValue 0 := Nat.mod_self _
  rw [accountId, hvalue, accountId]

/-- Between validation and application the debited account is replaced. -/
theorem run_replaced {m : Traced LedgerEngine Event} {req : TransactionRequest} {tStart : Int64}
    {txId : Uuid} (hpc : m.state.pc = .applyTransaction req tStart txId)
    (hnone : m.state.creating = []) (hfree : nameTaken m.state.accounts (ascii "Till") = false)
    (hwrapped : m.state.uuidCounter = 2 ^ 64) :
    ∃ v, run (traced step) m (createAccountCall "Till" .asset ++ engineSteps 1) = some v ∧
      v.state.uuidCounter = 2 ^ 64 + 1 ∧ v.state.accounts = applyTransaction
        (m.state.accounts.insert (accountId 0) ⟨accountId 0, ascii "Till", .asset, 0⟩) req := by
  obtain ⟨s, tr⟩ := m
  simp only at hpc hnone hfree hwrapped
  simp only [createAccountCall, engineSteps, List.replicate, List.cons_append, List.nil_append,
    run, traced, step, LedgerEngine.engineStep, hpc, hnone, hwrapped, accountId_wraps]
  simp [commitAccount, hfree]

/-- **The bound on the identifiers is needed**: with one identifier more than the
counter has values, an asset account ends below zero. -/
theorem wrappedRun_overdraws :
    ∃ t, runEngine (.init newLog) wrappedRun = some t ∧ t.state.uuidCounter = 2 ^ 64 + 1 ∧
      ∃ info, t.state.accounts.lookup (accountId 0) = some info ∧ info.type = .asset ∧
        info.balance = -500 := by
  -- the part before the transfer is applied
  have hbefore : (runEngine (.init newLog)
      (createAccountCall "Sales" .revenue ++ createAccountCall "Cash" .asset ++
        .submit (transferRequest "sale" 0 1 500) :: engineSteps 6)).map
      (fun t => (t.state.pc, t.state.creating, t.state.uuidCounter,
        nameTaken t.state.accounts (ascii "Sales"), nameTaken t.state.accounts (ascii "Till"))) =
      some (.applyTransaction (transferRequest "sale" 0 1 500) 1000 (generateUuid 1000 2), [], 3,
        true, false) := by
    decide +kernel
  obtain ⟨u, hu, heq⟩ := Option.map_eq_some_iff.mp hbefore
  simp only [Prod.mk.injEq] at heq
  obtain ⟨hpc, hnone, hcounter, htaken, hfree⟩ := heq
  obtain ⟨m, hwrap, hm⟩ := run_repeatedCalls .revenue (2 ^ 64 - 3) hnone htaken
  have hwrapped : m.state.uuidCounter = 2 ^ 64 := by
    rw [hm]
    show u.state.uuidCounter + _ = _
    rw [hcounter]
    norm_num
  obtain ⟨v, hafter, hcount, haccounts⟩ := run_replaced (m := m) (by rw [hm]; exact hpc)
    (by rw [hm]; exact hnone) (by rw [hm]; exact hfree) hwrapped
  obtain ⟨info, hinfo, htype, hbalance⟩ := lookup_apply_insert m.state.accounts
    (transferRequest "sale" 0 1 500) ⟨accountId 0, ascii "Till", .asset, 0⟩ rfl
  have hwhole : runEngine (.init newLog) wrappedRun = some v := by
    unfold runEngine at hu ⊢
    rw [wrappedRun, run_append, hu, Option.bind_some, run_append, hwrap, Option.bind_some, hafter]
  refine ⟨v, hwhole, hcount, info, ?_, htype, ?_⟩
  · rw [haccounts]
    exact hinfo
  · rw [hbalance]
    decide +kernel

end ZeroLGR.Ledger
