/-
  ZeroLGR.Ledger.Overflow — where balances and sums leave the range of `int64_t`.

  `validate_transaction` checks that an asset account holds what is taken from
  it.  It does not bound what is put into an account, nor what is taken from an
  account of another type, and amounts go up to 2^63 - 1.  As soon as one
  balance is not zero, there is a request it accepts whose balances do not fit.

    • `NoOverflow` — what has to fit in a state,
    • `noOverflow_of_still`, `still_of_noOverflow` — all of it fits exactly
      while every balance is zero,
    • `Bounded`, `run_bounded` — sums over any part of the accounts are bounded
      by the amounts applied so far,
    • `overflow_iff` — when nothing overflows, over every run.
-/
import ZeroLGR.Ledger.Accounting
import ZeroLGR.Ledger.Conservation
import ZeroLGR.Ledger.Overdraft

namespace ZeroLGR.Ledger

open Transition KeyedSum

/-! ## §1. What has to fit. -/

/-- The two updates of `apply_transaction`. -/
structure UpdatesFit (accounts : Accounts) (req : TransactionRequest) : Prop where
  debit : FitsInt64 (balanceOf accounts req.debitAccountId - req.amount)
  credit : FitsInt64 (balanceOf (addToBalance accounts req.debitAccountId (-req.amount))
    req.creditAccountId + req.amount)

/-- The three sums. -/
structure Totals.Fit (t : Totals) : Prop where
  assets : FitsInt64 t.assets
  liabilities : FitsInt64 t.liabilities
  equity : FitsInt64 t.equity

/-- The two differences that are compared with zero. -/
structure Totals.DifferencesFit (t : Totals) : Prop where
  first : FitsInt64 (t.assets - t.liabilities)
  second : FitsInt64 (t.assets - t.liabilities - t.equity)

/-- The sums of a snapshot. -/
def BalanceSnapshotData.totals (snap : BalanceSnapshotData) : Totals :=
  ⟨snap.totalAssets, snap.totalLiabilities, snap.totalEquity⟩

/-- A loop over the accounts: the sums after every iteration, and what is
computed from them at the end. -/
structure LoopFits {β : Type} (totals : β → Totals) (body : β → AccountInfo → β) (start : β)
    (infos : List AccountInfo) : Prop where
  running : ∀ n, (totals ((infos.take n).foldl body start)).Fit
  differences : (totals (infos.foldl body start)).DifferencesFit

/-- The loops of `check_invariant` and `get_balance_snapshot`, in any order in
which the hash table may list the accounts. -/
structure ChecksFit (accounts : Accounts) : Prop where
  checkInvariant : ∀ infos, infos.Perm (stored accounts) →
    LoopFits id Totals.add ⟨0, 0, 0⟩ infos
  getBalanceSnapshot : ∀ infos, infos.Perm (stored accounts) →
    LoopFits BalanceSnapshotData.totals BalanceSnapshotData.push BalanceSnapshotData.valueInit infos

/-- **Nothing overflows in this state**: no request it accepts, and no check. -/
structure NoOverflow (accounts : Accounts) : Prop where
  updates : ∀ req, validateTransaction accounts req = .ok → UpdatesFit accounts req
  checks : ChecksFit accounts

theorem amount_le (req : TransactionRequest) : req.amount ≤ 2 ^ 63 - 1 := by
  have hlt := Int64.toInt_lt req.amountMinor
  unfold TransactionRequest.amount
  omega

/-! ## §2. Sums that are bounded. -/

theorem sumOfTypes_liabilities_equity : ∀ infos : List AccountInfo,
    sumOfTypes liabilityTypes infos + sumOfTypes equityTypes infos =
      sumOfTypes (liabilityTypes ++ equityTypes) infos
  | [] => rfl
  | info :: infos => by
      have ih := sumOfTypes_liabilities_equity infos
      rw [sumOfTypes_cons, sumOfTypes_cons, sumOfTypes_cons, ← ih]
      unfold liabilityTypes equityTypes
      cases info.type with
      | asset | liability | equity | revenue | expense | unnamed => simp <;> ring

/-- Every sum over a part of the accounts is at most `bound`. -/
def PartsLe (bound : Int) (infos : List AccountInfo) : Prop :=
  ∀ l : List AccountInfo, l.Subperm infos → |(l.map AccountInfo.balance).sum| ≤ bound

section PartsLe

variable {bound : Int} {infos : List AccountInfo}

theorem PartsLe.mono {infos' : List AccountInfo} (h : PartsLe bound infos)
    (hsub : infos'.Subperm infos) : PartsLe bound infos' :=
  fun l hl => h l (hl.trans hsub)

theorem PartsLe.sumOfTypes (h : PartsLe bound infos) (types : List AccountType) :
    |sumOfTypes types infos| ≤ bound :=
  h _ List.filter_sublist.subperm

/-- Each of the sums is one over a part of the accounts. -/
theorem PartsLe.fit (h : PartsLe bound infos) (hb : bound < 2 ^ 63) :
    (Totals.mk (Ledger.sumOfTypes assetTypes infos) (Ledger.sumOfTypes liabilityTypes infos)
      (Ledger.sumOfTypes equityTypes infos)).Fit := by
  have hfits : ∀ types, FitsInt64 (Ledger.sumOfTypes types infos) := by
    intro types
    have hle := abs_le.mp (h.sumOfTypes types)
    unfold FitsInt64
    omega
  exact ⟨hfits _, hfits _, hfits _⟩

/-- The differences are between two such sums. -/
theorem PartsLe.differencesFit (h : PartsLe bound infos) (hb : bound < 2 ^ 62) :
    (Totals.mk (Ledger.sumOfTypes assetTypes infos) (Ledger.sumOfTypes liabilityTypes infos)
      (Ledger.sumOfTypes equityTypes infos)).DifferencesFit := by
  have hassets := abs_le.mp (h.sumOfTypes assetTypes)
  have hliabilities := abs_le.mp (h.sumOfTypes liabilityTypes)
  have hboth := abs_le.mp (h.sumOfTypes (liabilityTypes ++ equityTypes))
  rw [← sumOfTypes_liabilities_equity] at hboth
  constructor
  · show FitsInt64 (Ledger.sumOfTypes assetTypes infos - Ledger.sumOfTypes liabilityTypes infos)
    unfold FitsInt64
    omega
  · show FitsInt64 (Ledger.sumOfTypes assetTypes infos -
      Ledger.sumOfTypes liabilityTypes infos - Ledger.sumOfTypes equityTypes infos)
    unfold FitsInt64
    omega

end PartsLe

/-- **Bounded parts make the checks fit**, in every order. -/
theorem checksFit_of_parts {accounts : Accounts} (bound : Int) (hb : bound < 2 ^ 62)
    (h : PartsLe bound (stored accounts)) : ChecksFit accounts := by
  have hrunning : ∀ infos : List AccountInfo, infos.Perm (stored accounts) → ∀ n, PartsLe bound (infos.take n) :=
    fun infos hperm n => h.mono ((List.take_sublist n infos).subperm.trans hperm.subperm)
  have hlt : bound < 2 ^ 63 := by omega
  constructor
  · intro infos hperm
    constructor
    · intro n
      rw [foldl_add]
      simp only [zero_add]
      exact (hrunning infos hperm n).fit hlt
    · rw [foldl_add]
      simp only [zero_add]
      exact (h.mono hperm.subperm).differencesFit hb
  · intro infos hperm
    constructor
    · intro n
      rw [foldl_push]
      simp only [BalanceSnapshotData.totals, BalanceSnapshotData.valueInit, zero_add]
      exact (hrunning infos hperm n).fit hlt
    · rw [foldl_push]
      simp only [BalanceSnapshotData.totals, BalanceSnapshotData.valueInit, zero_add]
      exact (h.mono hperm.subperm).differencesFit hb

/-! ## §3. Nothing overflows exactly while every balance is zero. -/

/-- Every balance is zero. -/
def Still (accounts : Accounts) : Prop := ∀ id, balanceOf accounts id = 0

theorem balance_of_stored {accounts : Accounts} {info : AccountInfo} (h : info ∈ stored accounts) :
    ∃ id, id ∈ accounts ∧ balanceOf accounts id = info.balance := by
  obtain ⟨id, hlookup⟩ := mem_stored h
  refine ⟨id, AList.lookup_isSome.mp (by rw [hlookup]; rfl), ?_⟩
  rw [balanceOf, slot, hlookup]
  rfl

/-- Zero balances leave room for every amount. -/
theorem noOverflow_of_still {accounts : Accounts} (h : Still accounts) : NoOverflow accounts := by
  constructor
  · intro req hok
    have hpos := (validateTransaction_ok hok).1
    have hle := amount_le req
    constructor
    · rw [h]
      unfold FitsInt64
      omega
    · rw [balanceOf_addToBalance, h]
      unfold FitsInt64
      split <;> omega
  · refine checksFit_of_parts 0 (by decide) ?_
    intro l hl
    have hzero : ∀ x ∈ l.map AccountInfo.balance, x = 0 := by
      intro x hx
      obtain ⟨info, hinfo, rfl⟩ := List.mem_map.mp hx
      obtain ⟨id, -, hbalance⟩ := balance_of_stored (hl.subset hinfo)
      rw [← hbalance]
      exact h id
    rw [List.sum_eq_zero hzero, abs_zero]

/-- The largest request from one account to another. -/
def largestRequest (debit credit : Bytes) : TransactionRequest :=
  ⟨Uuid.zero, [], [], debit, credit, Int64.maxValue, [], []⟩

theorem largestRequest_amount (debit credit : Bytes) :
    (largestRequest debit credit).amount = 2 ^ 63 - 1 := by
  show Int64.maxValue.toInt = _
  decide

/-- An account that is not of type Asset may be debited with any amount. -/
theorem validateTransaction_unchecked {accounts : Accounts} {req : TransactionRequest}
    (hpos : 0 < req.amount) (hd : req.debitAccountId ∈ accounts)
    (hc : req.creditAccountId ∈ accounts)
    (htype : (slot accounts req.debitAccountId).type ≠ .asset) :
    validateTransaction accounts req = .ok := by
  obtain ⟨debitAccount, hdebit⟩ := Option.isSome_iff_exists.mp (AList.lookup_isSome.mpr hd)
  obtain ⟨creditAccount, hcredit⟩ := Option.isSome_iff_exists.mp (AList.lookup_isSome.mpr hc)
  have hnot : ¬ req.amount ≤ 0 := by omega
  have hslot : debitAccount.type ≠ .asset := by
    rw [slot, hdebit] at htype
    exact htype
  unfold validateTransaction
  simp [hnot, hdebit, hcredit, hslot]

/-- Where nothing overflows, an account next to one that may be debited freely is
not above zero: the largest amount still has to go into it. -/
theorem NoOverflow.credit_nonpos {accounts : Accounts} (h : NoOverflow accounts)
    {debit credit : Bytes} (hdebit : debit ∈ accounts) (hcredit : credit ∈ accounts)
    (htype : (slot accounts debit).type ≠ .asset) (hne : credit ≠ debit) :
    balanceOf accounts credit ≤ 0 := by
  have hamount := largestRequest_amount debit credit
  have hok : validateTransaction accounts (largestRequest debit credit) = .ok :=
    validateTransaction_unchecked (by rw [hamount]; decide) hdebit hcredit htype
  have hfits := (h.updates _ hok).credit
  rw [balanceOf_addToBalance, hamount] at hfits
  have hupper : balanceOf accounts credit + (if credit = debit then -(2 ^ 63 - 1) else 0) +
      (2 ^ 63 - 1) < 2 ^ 63 := hfits.2
  rw [if_neg hne] at hupper
  omega

/-- **One balance that is not zero is enough for an overflow.**  Then one is
below zero, and it is not that of an asset account; all others are not above
zero, and the sum is not zero. -/
theorem still_of_noOverflow {accounts : Accounts} (hsum : balanceTotal accounts = 0)
    (hassets : NoOverdraft accounts) (h : NoOverflow accounts) : Still accounts := by
  have hbalances : ((stored accounts).map AccountInfo.balance).sum = 0 := by
    unfold balanceTotal total at hsum
    unfold stored
    rw [List.map_map]
    exact hsum
  have hnonneg : ∀ info ∈ stored accounts, 0 ≤ info.balance := by
    by_contra hneg
    simp only [not_forall, not_le] at hneg
    obtain ⟨info, hinfo, hbelow⟩ := hneg
    obtain ⟨debit, hdebit, hdebitBalance⟩ := balance_of_stored hinfo
    have htype : (slot accounts debit).type ≠ .asset := by
      intro hasset
      have hnot := hassets debit hasset
      omega
    have hnonpos : ∀ other ∈ stored accounts, other.balance ≤ 0 := by
      intro other hother
      obtain ⟨credit, hcredit, hcreditBalance⟩ := balance_of_stored hother
      by_cases hsame : credit = debit
      · rw [← hcreditBalance, hsame, hdebitBalance]
        exact hbelow.le
      · rw [← hcreditBalance]
        exact h.credit_nonpos hdebit hcredit htype hsame
    have hlt := List.sum_lt_sum AccountInfo.balance (fun _ => 0) hnonpos ⟨info, hinfo, hbelow⟩
    rw [hbalances, List.map_const', List.sum_replicate, nsmul_zero] at hlt
    exact lt_irrefl _ hlt
  intro id
  unfold balanceOf slot
  cases hlookup : accounts.lookup id with
  | none => rfl
  | some info =>
      have hinfo : info ∈ stored accounts :=
        List.mem_map.mpr ⟨⟨id, info⟩, AList.mem_lookup_iff.mp hlookup, rfl⟩
      refine List.all_zero_of_le_zero_le_of_sum_eq_zero ?_ hbalances (List.mem_map_of_mem hinfo)
      intro x hx
      obtain ⟨other, hother, rfl⟩ := List.mem_map.mp hx
      exact hnonneg other hother

/-! ## §4. The amounts applied so far. -/

/-- The sum of the balances of some accounts. -/
def balancePart (accounts : Accounts) (p : Bytes → Bool) : Int :=
  part (fun _ info => AccountInfo.balance info) p accounts

/-- The sum of the amounts of all transfers applied. -/
def volume (tr : List Event) : Int := ((applied tr).map (fun req => |req.amount|)).sum

/-- Every part of the balances is at most `bound`. -/
def Bounded (accounts : Accounts) (bound : Int) : Prop :=
  ∀ p : Bytes → Bool, |balancePart accounts p| ≤ bound

theorem balancePart_addToBalance (accounts : Accounts) (id : Bytes) (delta : Int)
    (p : Bytes → Bool) :
    balancePart (addToBalance accounts id delta) p =
      balancePart accounts p + if p id = true then delta else 0 := by
  unfold balancePart addToBalance
  rw [part_insert, share_balance]
  unfold balanceOf
  split <;> ring

/-- A transfer changes a part by its amount at most. -/
theorem Bounded.apply {accounts : Accounts} {bound : Int} (h : Bounded accounts bound)
    (req : TransactionRequest) : Bounded (applyTransaction accounts req) (bound + |req.amount|) := by
  intro p
  have hpart := abs_le.mp (h p)
  have hamount := le_abs_self req.amount
  have hneg := neg_abs_le req.amount
  unfold applyTransaction
  rw [balancePart_addToBalance, balancePart_addToBalance, abs_le]
  split <;> split <;> constructor <;> omega

/-- A new account counts nothing; what it replaces no longer counts. -/
theorem Bounded.commit {accounts : Accounts} {bound : Int} (h : Bounded accounts bound)
    (req : CreateAccountRequest) (id : Bytes) : Bounded (commitAccount accounts req id).2 bound := by
  unfold commitAccount
  split
  · exact h
  · intro p
    unfold balancePart
    rw [part_insert_zero p accounts rfl]
    exact h _

theorem volume_quiet {tr es : List Event} (h : applied es = []) : volume (tr ++ es) = volume tr := by
  unfold volume
  rw [applied_append, h, List.append_nil]

theorem volume_applied (tr : List Event) (req : TransactionRequest) (txId : Uuid) :
    volume (tr ++ [.applied req txId]) = volume tr + |req.amount| := by
  have happlied : applied [.applied req txId] = [req] := rfl
  unfold volume
  rw [applied_append, happlied, List.map_append, List.sum_append, List.map_singleton,
    List.sum_singleton]

/-- The amounts applied so far bound every part. -/
def VolumeBounds (s : LedgerEngine) (tr : List Event) : Prop := Bounded s.accounts (volume tr)

/-- **One step.** -/
theorem VolumeBounds.step {s s' : LedgerEngine} {tr es : List Event} {a : Action}
    (hs : VolumeBounds s tr) (he : Effect s a s' es) : VolumeBounds s' (tr ++ es) := by
  unfold VolumeBounds at hs ⊢
  cases he with
  | aside hside =>
      obtain ⟨-, -, -, -, -, happlied, -, -⟩ := hside.silent.lists
      rw [hside.sameData.accounts, volume_quiet happlied]
      exact hs
  | @apply now os req tStart txId hpc =>
      rw [volume_applied]
      exact hs.apply req
  | @commitAccount i req id hi =>
      rw [volume_quiet rfl]
      exact hs.commit req id
  | pop | hit | miss | replyCached | accept | reject | drawTxId | append | appendThrows | build
  | cache | noCache | reply | drawAccountId =>
      rw [volume_quiet rfl]
      exact hs

theorem volumeBounds_init (w : Wal.WriteAheadLog) : VolumeBounds (.init w) [] := by
  intro p
  exact (abs_zero (α := Int)).le

/-- **In every reachable state the amounts applied so far bound every part.** -/
theorem run_bounded {w : Wal.WriteAheadLog} {acts : List Action} {t : Traced LedgerEngine Event}
    (h : runEngine (.init w) acts = some t) : Bounded t.state.accounts (volume t.trace) := by
  have hbounds : VolumeBounds t.state t.trace :=
    traced_invariant VolumeBounds (fun s tr a s' es hs hstep => hs.step (step_effect hstep))
      (volumeBounds_init w) h
  exact hbounds

/-- What a loop has added up halfway is one of the parts. -/
theorem Bounded.partsLe {accounts : Accounts} {bound : Int} (h : Bounded accounts bound) :
    PartsLe bound (stored accounts) := by
  intro l hl
  obtain ⟨l', hperm, hsub⟩ := hl
  obtain ⟨es, hes, rfl⟩ := List.sublist_map_iff.mp hsub
  rw [← (hperm.map AccountInfo.balance).sum_eq, List.map_map]
  show |(es.map (fun e => AccountInfo.balance e.2)).sum| ≤ bound
  rw [sum_of_sublist (fun _ info => AccountInfo.balance info) accounts hes]
  exact h _

theorem Bounded.balance {accounts : Accounts} {bound : Int} (h : Bounded accounts bound)
    (id : Bytes) : |balanceOf accounts id| ≤ bound := by
  cases hlookup : accounts.lookup id with
  | none =>
      have hnone := h (fun _ => false)
      have hzero : balanceOf accounts id = 0 := by
        rw [balanceOf, slot, hlookup]
        rfl
      rw [hzero, abs_zero]
      exact (abs_nonneg _).trans hnone
  | some info =>
      have hinfo : info ∈ stored accounts :=
        List.mem_map.mpr ⟨⟨id, info⟩, AList.mem_lookup_iff.mp hlookup, rfl⟩
      have hone := h.partsLe [info] (List.singleton_sublist.mpr hinfo).subperm
      have hbalance : balanceOf accounts id = info.balance := by
        rw [balanceOf, slot, hlookup]
        rfl
      rw [hbalance]
      simpa using hone

/-- **Moderate amounts fit.** -/
theorem Bounded.updatesFit {accounts : Accounts} {bound : Int} (h : Bounded accounts bound)
    {req : TransactionRequest} (hsmall : bound + |req.amount| < 2 ^ 63) :
    UpdatesFit accounts req := by
  have hdebit := abs_le.mp (h.balance req.debitAccountId)
  have hcredit := abs_le.mp (h.balance req.creditAccountId)
  have hamount := le_abs_self req.amount
  have hneg := neg_abs_le req.amount
  have hnonneg : 0 ≤ bound := (abs_nonneg _).trans (h.balance req.debitAccountId)
  constructor
  · unfold FitsInt64
    omega
  · rw [balanceOf_addToBalance]
    unfold FitsInt64
    split <;> omega

/-! ## §5. Over every run. -/

/-- The step applies no transfer between two different accounts. -/
def MovesNothing (s : LedgerEngine) : Action → Prop
  | .engine _ _ => ∀ req tStart txId, s.pc = .applyTransaction req tStart txId →
      req.debitAccountId = req.creditAccountId
  | _ => True

theorem Still.apply {accounts : Accounts} (h : Still accounts) {req : TransactionRequest}
    (hsame : req.debitAccountId = req.creditAccountId) : Still (applyTransaction accounts req) := by
  intro id
  rw [balanceOf_apply, h, transferEffect, hsame]
  omega

theorem Still.commit {accounts : Accounts} (h : Still accounts) (req : CreateAccountRequest)
    (id : Bytes) : Still (commitAccount accounts req id).2 :=
  forall_slot_commitAccount (P := fun info => info.balance = 0) h (fun _ hzero => hzero) req id

/-- **One step** that moves nothing. -/
theorem Still.step {s s' : LedgerEngine} {a : Action} {es : List Event} (h : Still s.accounts)
    (hmoves : MovesNothing s a) (he : Effect s a s' es) : Still s'.accounts := by
  cases he with
  | aside hside =>
      rw [hside.sameData.accounts]
      exact h
  | apply hpc => exact h.apply (hmoves _ _ _ hpc)
  | commitAccount hi => exact h.commit _ _
  | pop | hit | miss | replyCached | accept | reject | drawTxId | append | appendThrows | build
  | cache | noCache | reply | drawAccountId => exact h

section Runs

variable {w : Wal.WriteAheadLog} {acts : List Action}

/-- In a run that moves nothing, nothing overflows. -/
theorem noOverflow_of_movesNothing
    (h : ∀ t a t', Takes (traced step) ⟨.init w, []⟩ acts t a t' → MovesNothing t.state a)
    {t : Traced LedgerEngine Event} (ht : Visits (traced step) ⟨.init w, []⟩ acts t) :
    NoOverflow t.state.accounts := by
  refine noOverflow_of_still (visits_of_takes (fun t => Still t.state.accounts) ?_ ?_ ht)
  · intro id
    rfl
  · intro u a u' htakes hu
    obtain ⟨es, hes⟩ := step_of_takes htakes
    exact hu.step (h u a u' htakes) (step_effect hes)

/-- A state is reached by a run. -/
theorem run_of_visits {t : Traced LedgerEngine Event}
    (ht : Visits (traced step) ⟨.init w, []⟩ acts t) :
    ∃ before, runEngine (.init w) before = some t := by
  obtain ⟨before, -, -, hrun⟩ := ht
  exact ⟨before, hrun⟩

/-- Where nothing overflows, every balance is zero. -/
theorem still_of_visits {t : Traced LedgerEngine Event}
    (ht : Visits (traced step) ⟨.init w, []⟩ acts t) (hk : t.state.uuidCounter ≤ 2 ^ 64)
    (h : NoOverflow t.state.accounts) : Still t.state.accounts := by
  obtain ⟨before, hrun⟩ := run_of_visits ht
  exact still_of_noOverflow (run_balanceTotal hrun hk) (run_solvent hrun hk).assets h

/-- A run in which nothing overflows moves nothing. -/
theorem movesNothing_of_noOverflow
    (hk : ∀ t, Visits (traced step) ⟨.init w, []⟩ acts t → t.state.uuidCounter ≤ 2 ^ 64)
    (h : ∀ t, Visits (traced step) ⟨.init w, []⟩ acts t → NoOverflow t.state.accounts)
    {t t' : Traced LedgerEngine Event} {a : Action}
    (htakes : Takes (traced step) ⟨.init w, []⟩ acts t a t') : MovesNothing t.state a := by
  have hbefore := still_of_visits htakes.source (hk t htakes.source) (h t htakes.source)
  have hafter := still_of_visits htakes.target (hk t' htakes.target) (h t' htakes.target)
  obtain ⟨es, hes⟩ := step_of_takes htakes
  obtain ⟨before, hrun⟩ := run_of_visits htakes.source
  cases a with
  | engine now os =>
      intro req tStart txId hpc
      have hpositive := ((run_solvent hrun (hk t htakes.source)).covered req
        (by rw [hpc]; exact List.mem_singleton_self req)).positive
      -- a transfer between two accounts leaves the credited one above zero
      by_contra hne
      have hcredit := hafter req.creditAccountId
      rw [accounts_of_apply hpc hes, balanceOf_apply, hbefore, transferEffect, if_pos rfl,
        if_neg (Ne.symm hne)] at hcredit
      omega
  | submit | takeReply | drawAccountId | commitAccount | getBalanceSnapshot | getMetricsSample
  | resetMetricsWindow | metrics | shutdown => exact trivial

end Runs

/-- **WHEN NOTHING OVERFLOWS.**  In a run that moves no amount between two
accounts, everything fits in every state; and in no other run, as long as the
counter does not wrap.  In every run the requests and the checks fit for which
the amounts applied so far add up to moderate sums. -/
theorem overflow_iff (w : Wal.WriteAheadLog) (acts : List Action) :
    ((∀ t a t', Takes (traced step) ⟨.init w, []⟩ acts t a t' → MovesNothing t.state a) →
      ∀ t, Visits (traced step) ⟨.init w, []⟩ acts t → NoOverflow t.state.accounts) ∧
    ((∀ t, Visits (traced step) ⟨.init w, []⟩ acts t → t.state.uuidCounter ≤ 2 ^ 64) →
      (∀ t, Visits (traced step) ⟨.init w, []⟩ acts t → NoOverflow t.state.accounts) →
      ∀ t a t', Takes (traced step) ⟨.init w, []⟩ acts t a t' → MovesNothing t.state a) ∧
    (∀ t, Visits (traced step) ⟨.init w, []⟩ acts t →
      (∀ req, volume t.trace + |req.amount| < 2 ^ 63 → UpdatesFit t.state.accounts req) ∧
      (volume t.trace < 2 ^ 62 → ChecksFit t.state.accounts)) := by
  refine ⟨?_, ?_, ?_⟩
  · exact fun h t ht => noOverflow_of_movesNothing h ht
  · exact fun hk h t a t' htakes => movesNothing_of_noOverflow hk h htakes
  · intro t ht
    obtain ⟨before, hrun⟩ := run_of_visits ht
    have hbounded := run_bounded hrun
    exact ⟨fun req hsmall => hbounded.updatesFit hsmall,
      fun hsmall => checksFit_of_parts _ hsmall hbounded.partsLe⟩

/-- Twice the largest amount from a revenue account to an asset account. -/
def largestRun : List Action :=
  createAccountCall "Sales" .revenue ++ createAccountCall "Cash" .asset ++
    [.submit (transferRequest "first" 0 1 Int64.maxValue),
      .submit (transferRequest "second" 0 1 Int64.maxValue)] ++ engineSteps 19

/-- **The second transfer overflows** both balances, in a state the run reaches
with the request accepted and logged. -/
theorem largestRun_overflows :
    ∃ t req tStart txId, runEngine (.init newLog) largestRun = some t ∧
      t.state.uuidCounter = 4 ∧ t.state.pc = .applyTransaction req tStart txId ∧
      validateTransaction t.state.accounts req = .ok ∧ ¬ UpdatesFit t.state.accounts req := by
  have hrun : (runEngine (.init newLog) largestRun).map
      (fun t => (t.state.uuidCounter, t.state.pc,
        validateTransaction t.state.accounts (transferRequest "second" 0 1 Int64.maxValue),
        balanceOf t.state.accounts (accountId 0))) =
      some (4, .applyTransaction (transferRequest "second" 0 1 Int64.maxValue) 1000
        (generateUuid 1000 3), .ok, -(2 ^ 63 - 1)) := by
    decide +kernel
  obtain ⟨t, ht, heq⟩ := Option.map_eq_some_iff.mp hrun
  simp only [Prod.mk.injEq] at heq
  obtain ⟨hcounter, hpc, hok, hbalance⟩ := heq
  refine ⟨t, _, _, _, ht, hcounter, hpc, hok, ?_⟩
  intro hfits
  have hlower : -2 ^ 63 ≤ balanceOf t.state.accounts (accountId 0) - Int64.maxValue.toInt :=
    hfits.debit.1
  rw [hbalance] at hlower
  revert hlower
  decide

end ZeroLGR.Ledger
