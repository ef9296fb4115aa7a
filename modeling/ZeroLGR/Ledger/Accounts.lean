/-
  ZeroLGR.Ledger.Accounts — the account map and the functions on it.

  Everything here happens while `accounts_mutex_` is held, so each function is
  one atomic access to `accounts_` of engine/src/ledger.cpp.

    • `validateTransaction`, `applyTransaction`, `checkInvariant`,
      `getBalanceSnapshot`, `commitAccount` — the code,
    • `side`, `signedTotal` — a sign for each account type, under which the
      invariant is one sum,
    • `signedTotal_apply` — a transfer changes that sum by the amount times the
      difference of the two sides,
    • `checkInvariant_apply_iff` — so it keeps the invariant exactly if the
      amount is zero or both accounts are on the same side,
    • `balanceOf_apply` — a transfer moves its amount between two balances.
-/
import ZeroLGR.Ledger.Types
import ZeroLGR.Lib.KeyedSum
import Mathlib.Tactic.Linarith

namespace ZeroLGR.Ledger

open KeyedSum

/-- `std::unordered_map<std::string, AccountInfo>`. -/
abbrev Accounts := AList (fun _ : Bytes => AccountInfo)

/-! ## §1. The code. -/

/-- `validate_transaction`. -/
def validateTransaction (accounts : Accounts) (req : TransactionRequest) : TxStatus :=
  if req.amount ≤ 0 then .errInternal
  else
    match accounts.lookup req.debitAccountId, accounts.lookup req.creditAccountId with
    | some debitAccount, some _ =>
        if debitAccount.type = .asset then
          if debitAccount.balance < req.amount then .errInsufficientFunds else .ok
        else .ok
    | _, _ => .errAccountNotFound

/-- `accounts_[id]`: what is stored under the key, a new value if nothing is. -/
def slot (accounts : Accounts) (id : Bytes) : AccountInfo :=
  (accounts.lookup id).getD AccountInfo.valueInit

/-- `accounts_[id].balance += delta`. -/
def addToBalance (accounts : Accounts) (id : Bytes) (delta : Int) : Accounts :=
  accounts.insert id { slot accounts id with balance := (slot accounts id).balance + delta }

/-- `apply_transaction`. -/
def applyTransaction (accounts : Accounts) (req : TransactionRequest) : Accounts :=
  addToBalance (addToBalance accounts req.debitAccountId (-req.amount)) req.creditAccountId
    req.amount

/-- The three sums of `check_invariant`. -/
structure Totals where
  assets : Int
  liabilities : Int
  equity : Int
  deriving DecidableEq

/-- The `switch` over the account type in its loop.  A type without a name takes
no branch. -/
def Totals.add (t : Totals) (info : AccountInfo) : Totals :=
  match info.type with
  | .asset => { t with assets := t.assets + info.balance }
  | .liability => { t with liabilities := t.liabilities + info.balance }
  | .equity => { t with equity := t.equity + info.balance }
  | .revenue => { t with equity := t.equity + info.balance }
  | .expense => { t with assets := t.assets + info.balance }
  | .unnamed _ _ => t

/-- The loop over all accounts. -/
def totals (accounts : Accounts) : Totals :=
  accounts.entries.foldl (fun t e => t.add e.2) ⟨0, 0, 0⟩

/-- `assets - liabilities - equity == 0`. -/
def Totals.balanced (t : Totals) : Bool := decide (t.assets - t.liabilities - t.equity = 0)

/-- `check_invariant`. -/
def checkInvariant (accounts : Accounts) : Bool := (totals accounts).balanced

/-- `BalanceSnapshotData`. -/
structure BalanceSnapshotData where
  accounts : List AccountInfo
  totalAssets : Int
  totalLiabilities : Int
  totalEquity : Int
  invariantOk : Bool
  deriving DecidableEq

/-- `BalanceSnapshotData snap;` -/
def BalanceSnapshotData.valueInit : BalanceSnapshotData := ⟨[], 0, 0, 0, true⟩

/-- One iteration of the loop of `get_balance_snapshot`: `push_back`, and a
`switch` of its own. -/
def BalanceSnapshotData.push (snap : BalanceSnapshotData) (info : AccountInfo) :
    BalanceSnapshotData :=
  let pushed := { snap with accounts := snap.accounts ++ [info] }
  match info.type with
  | .asset | .expense => { pushed with totalAssets := snap.totalAssets + info.balance }
  | .liability => { pushed with totalLiabilities := snap.totalLiabilities + info.balance }
  | .equity | .revenue => { pushed with totalEquity := snap.totalEquity + info.balance }
  | .unnamed _ _ => pushed

/-- The last assignment of `get_balance_snapshot`. -/
def BalanceSnapshotData.checked (snap : BalanceSnapshotData) : BalanceSnapshotData :=
  { snap with
    invariantOk := decide (snap.totalAssets - snap.totalLiabilities - snap.totalEquity = 0) }

/-- `get_balance_snapshot`. -/
def getBalanceSnapshot (accounts : Accounts) : BalanceSnapshotData :=
  (accounts.entries.foldl (fun snap e => BalanceSnapshotData.push snap e.2)
    BalanceSnapshotData.valueInit).checked

/-- Whether an account of that name exists. -/
def nameTaken (accounts : Accounts) (name : Bytes) : Bool :=
  accounts.entries.any (fun e => decide (e.2.name = name))

/-- The part of `create_account` under the lock, for the identifier drawn
before: the response and the new map. -/
def commitAccount (accounts : Accounts) (req : CreateAccountRequest) (id : Bytes) :
    CreateAccountResponse × Accounts :=
  if nameTaken accounts req.name then
    (⟨req.correlationId, id, .errInternal,
      ascii "Account with name '" ++ req.name ++ ascii "' already exists"⟩, accounts)
  else (⟨req.correlationId, id, .ok, []⟩, accounts.insert id ⟨id, req.name, req.type, 0⟩)

/-! ## §2. Balances. -/

/-- The balance stored under a key; zero if there is none. -/
def balanceOf (accounts : Accounts) (id : Bytes) : Int := (slot accounts id).balance

/-- What a transfer does to the balance under `id`. -/
def transferEffect (req : TransactionRequest) (id : Bytes) : Int :=
  (if id = req.creditAccountId then req.amount else 0) -
    (if id = req.debitAccountId then req.amount else 0)

theorem slot_addToBalance_self (accounts : Accounts) (id : Bytes) (delta : Int) :
    slot (addToBalance accounts id delta) id =
      { slot accounts id with balance := (slot accounts id).balance + delta } := by
  unfold addToBalance
  rw [slot, AList.lookup_insert]
  rfl

theorem slot_addToBalance_ne (accounts : Accounts) {id id' : Bytes} (h : id' ≠ id) (delta : Int) :
    slot (addToBalance accounts id delta) id' = slot accounts id' := by
  unfold addToBalance
  rw [slot, AList.lookup_insert_ne h]
  rfl

theorem balanceOf_addToBalance (accounts : Accounts) (id id' : Bytes) (delta : Int) :
    balanceOf (addToBalance accounts id delta) id' =
      balanceOf accounts id' + if id' = id then delta else 0 := by
  unfold balanceOf
  by_cases h : id' = id
  · subst h
    rw [slot_addToBalance_self, if_pos rfl]
  · rw [slot_addToBalance_ne accounts h, if_neg h, Int.add_zero]

/-- **A transfer moves its amount.** -/
theorem balanceOf_apply (accounts : Accounts) (req : TransactionRequest) (id : Bytes) :
    balanceOf (applyTransaction accounts req) id =
      balanceOf accounts id + transferEffect req id := by
  unfold applyTransaction transferEffect
  rw [balanceOf_addToBalance, balanceOf_addToBalance]
  split <;> split <;> omega

/-- Types do not change: a key keeps its type when its balance changes. -/
theorem type_addToBalance (accounts : Accounts) (id id' : Bytes) (delta : Int) :
    (slot (addToBalance accounts id delta) id').type = (slot accounts id').type := by
  by_cases h : id' = id
  · subst h
    rw [slot_addToBalance_self]
  · rw [slot_addToBalance_ne accounts h]

theorem mem_addToBalance (accounts : Accounts) (id id' : Bytes) (delta : Int) :
    id' ∈ addToBalance accounts id delta ↔ id' = id ∨ id' ∈ accounts := by
  unfold addToBalance
  exact AList.mem_insert accounts

/-- A transfer between accounts that exist makes no new account. -/
theorem mem_apply {accounts : Accounts} {req : TransactionRequest}
    (hd : req.debitAccountId ∈ accounts) (hc : req.creditAccountId ∈ accounts) (id : Bytes) :
    id ∈ applyTransaction accounts req ↔ id ∈ accounts := by
  unfold applyTransaction
  rw [mem_addToBalance, mem_addToBalance]
  constructor
  · rintro (rfl | rfl | h)
    · exact hc
    · exact hd
    · exact h
  · exact fun h => .inr (.inr h)

/-- What a validated request has passed. -/
theorem validateTransaction_ok {accounts : Accounts} {req : TransactionRequest}
    (h : validateTransaction accounts req = .ok) :
    0 < req.amount ∧ req.debitAccountId ∈ accounts ∧ req.creditAccountId ∈ accounts := by
  unfold validateTransaction at h
  split at h
  next => cases h
  next hpos =>
    split at h
    next debitAccount creditAccount hd hc =>
      refine ⟨by omega, ?_, ?_⟩
      · exact AList.lookup_isSome.mp (by rw [hd]; rfl)
      · exact AList.lookup_isSome.mp (by rw [hc]; rfl)
    next => cases h

/-- A validated request debits an asset account of what it holds at most. -/
theorem validateTransaction_funds {accounts : Accounts} {req : TransactionRequest}
    (h : validateTransaction accounts req = .ok)
    (hasset : (slot accounts req.debitAccountId).type = .asset) :
    req.amount ≤ (slot accounts req.debitAccountId).balance := by
  unfold validateTransaction at h
  split at h
  next => cases h
  next =>
    split at h
    next debitAccount creditAccount hd hc =>
      have hslot : slot accounts req.debitAccountId = debitAccount := by
        rw [slot, hd]
        rfl
      rw [hslot] at hasset ⊢
      rw [if_pos hasset] at h
      split at h
      next => cases h
      next hfunds => omega
    next => cases h

/-- No branch of the validation returns `ERR_INVARIANT_VIOLATED`. -/
theorem validateTransaction_ne_invariantViolated (accounts : Accounts)
    (req : TransactionRequest) : validateTransaction accounts req ≠ .errInvariantViolated := by
  unfold validateTransaction
  split
  · simp
  · split
    · split
      · split <;> simp
      · simp
    · simp

/-! ## §3. The accounting equation as one sum. -/

/-- The sign with which an account type enters the invariant. -/
def AccountType.side : AccountType → Int
  | .asset => 1
  | .expense => 1
  | .liability => -1
  | .equity => -1
  | .revenue => -1
  | .unnamed _ _ => 0

/-- What an account counts in the invariant. -/
def AccountInfo.signed (info : AccountInfo) : Int := info.type.side * info.balance

/-- The sum of all signed balances. -/
def signedTotal (accounts : Accounts) : Int := total (fun _ info => info.signed) accounts

theorem Totals.add_signed (t : Totals) (info : AccountInfo) :
    (t.add info).assets - (t.add info).liabilities - (t.add info).equity =
      t.assets - t.liabilities - t.equity + info.signed := by
  unfold Totals.add AccountInfo.signed AccountType.side
  split <;> simp_all <;> ring

theorem totals_foldl : ∀ (es : List (Sigma (fun _ : Bytes => AccountInfo))) (t : Totals),
    (es.foldl (fun t e => t.add e.2) t).assets -
        (es.foldl (fun t e => t.add e.2) t).liabilities -
        (es.foldl (fun t e => t.add e.2) t).equity =
      t.assets - t.liabilities - t.equity + (es.map (fun e => e.2.signed)).sum
  | [], t => by simp
  | e :: es, t => by
      rw [List.foldl_cons, totals_foldl es, Totals.add_signed, List.map_cons, List.sum_cons]
      ring

/-- **The invariant is that the signed balances add up to zero.** -/
theorem checkInvariant_iff (accounts : Accounts) :
    checkInvariant accounts = true ↔ signedTotal accounts = 0 := by
  unfold checkInvariant Totals.balanced totals signedTotal total
  rw [decide_eq_true_iff, totals_foldl]
  simp

/-- The side of the account under a key; an absent account would be an asset. -/
def sideOf (accounts : Accounts) (id : Bytes) : Int := (slot accounts id).type.side

/-- What is stored under a key and what `operator[]` gives count the same. -/
theorem share_signed (accounts : Accounts) (id : Bytes) :
    share (fun _ info => AccountInfo.signed info) id (accounts.lookup id) =
      (slot accounts id).signed := by
  unfold slot
  cases accounts.lookup id with
  | none => rfl
  | some info => rfl

theorem signedTotal_addToBalance (accounts : Accounts) (id : Bytes) (delta : Int) :
    signedTotal (addToBalance accounts id delta) =
      signedTotal accounts + sideOf accounts id * delta := by
  unfold signedTotal addToBalance
  rw [total_insert, share_signed]
  unfold sideOf AccountInfo.signed
  ring

/-- **A transfer changes the sum by the amount times the difference of the sides.** -/
theorem signedTotal_apply (accounts : Accounts) (req : TransactionRequest) :
    signedTotal (applyTransaction accounts req) =
      signedTotal accounts +
        (sideOf accounts req.creditAccountId - sideOf accounts req.debitAccountId) *
          req.amount := by
  unfold applyTransaction
  rw [signedTotal_addToBalance, signedTotal_addToBalance]
  unfold sideOf
  rw [type_addToBalance]
  ring

/-- The request leaves the accounting equation alone: nothing is moved, or both
accounts are on the same side of it. -/
def SameSide (accounts : Accounts) (req : TransactionRequest) : Prop :=
  req.amount = 0 ∨ sideOf accounts req.debitAccountId = sideOf accounts req.creditAccountId

instance (accounts : Accounts) (req : TransactionRequest) : Decidable (SameSide accounts req) :=
  inferInstanceAs (Decidable (_ ∨ _))

/-- **Which transfers keep the invariant.** -/
theorem checkInvariant_apply_iff {accounts : Accounts} (h : checkInvariant accounts = true)
    (req : TransactionRequest) :
    checkInvariant (applyTransaction accounts req) = true ↔ SameSide accounts req := by
  rw [checkInvariant_iff] at h
  rw [checkInvariant_iff, signedTotal_apply, h, Int.zero_add, mul_eq_zero, sub_eq_zero]
  unfold SameSide
  constructor
  · rintro (hside | hzero)
    · exact .inr hside.symm
    · exact .inl hzero
  · rintro (hzero | hside)
    · exact .inr hzero
    · exact .inl hside.symm

/-! ## §4. New accounts. -/

/-- No account is removed. -/
theorem mem_commitAccount {accounts : Accounts} (req : CreateAccountRequest) (id : Bytes)
    {id' : Bytes} (h : id' ∈ accounts) : id' ∈ (commitAccount accounts req id).2 := by
  unfold commitAccount
  split
  · exact h
  · exact (AList.mem_insert accounts).mpr (.inr h)

/-- Only the identifier that was drawn gets a new account. -/
theorem slot_commitAccount_ne (accounts : Accounts) (req : CreateAccountRequest) {id id' : Bytes}
    (h : id' ≠ id) : slot (commitAccount accounts req id).2 id' = slot accounts id' := by
  unfold commitAccount
  split
  · rfl
  · rw [slot, AList.lookup_insert_ne h]
    rfl

/-- It is empty, unless there was no new account. -/
theorem slot_commitAccount_self (accounts : Accounts) (req : CreateAccountRequest) (id : Bytes) :
    slot (commitAccount accounts req id).2 id = slot accounts id ∨
      balanceOf (commitAccount accounts req id).2 id = 0 := by
  unfold commitAccount
  split
  · exact .inl rfl
  · apply Or.inr
    rw [balanceOf, slot, AList.lookup_insert]
    rfl

/-- What holds of every stored account, and of every empty one, holds after an
account is created. -/
theorem forall_slot_commitAccount {accounts : Accounts} {P : AccountInfo → Prop}
    (h : ∀ id, P (slot accounts id)) (hempty : ∀ info, info.balance = 0 → P info)
    (req : CreateAccountRequest) (id : Bytes) :
    ∀ id', P (slot (commitAccount accounts req id).2 id') := by
  intro id'
  by_cases hid : id' = id
  · subst hid
    rcases slot_commitAccount_self accounts req id' with hsame | hzero
    · rw [hsame]
      exact h id'
    · exact hempty _ hzero
  · rw [slot_commitAccount_ne accounts req hid]
    exact h id'

/-- A new account takes the place of whatever was stored under its key. -/
theorem signedTotal_insert_zero (accounts : Accounts) (id : Bytes) {info : AccountInfo}
    (hzero : info.balance = 0) :
    signedTotal (accounts.insert id info) = signedTotal accounts - (slot accounts id).signed := by
  have hsigned : info.signed = 0 := by
    unfold AccountInfo.signed
    rw [hzero, mul_zero]
  unfold signedTotal
  rw [total_insert, share_signed, hsigned, add_zero]

end ZeroLGR.Ledger
