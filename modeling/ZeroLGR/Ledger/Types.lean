/-
  ZeroLGR.Ledger.Types — engine/include/types.hpp and the texts of the ledger.

  Strings are their bytes.  Amounts are `int64_t`; balances are exact integers,
  which is what the code computes as long as no `int64_t` overflows.

    • `Uuid`, `AccountType`, `AccountInfo`, `TxStatus`,
    • `TransactionRequest`, `TransactionResponse`, `CreateAccountRequest`,
      `CreateAccountResponse`,
    • `accountId` — the identifiers of accounts, and that they are unique.
-/
import ZeroLGR.Lib.Bytes
import Mathlib.Data.Nat.Digits.Defs

namespace ZeroLGR.Ledger

/-! ## §1. Values. -/

/-- `UUID`: `std::array<uint8_t, 16>`. -/
@[ext] structure Uuid where
  bytes : Bytes
  length_eq : bytes.length = 16
  deriving DecidableEq

/-- `UUID id{}`. -/
def Uuid.zero : Uuid := ⟨List.replicate 16 0, List.length_replicate⟩

/-- `enum class AccountType : uint8_t`.  A value of the type may be any byte;
those above four have no name. -/
inductive AccountType where
  | asset
  | liability
  | equity
  | revenue
  | expense
  | unnamed (raw : UInt8) (h : 4 < raw)
  deriving DecidableEq

/-- `AccountInfo`. -/
structure AccountInfo where
  id : Bytes
  name : Bytes
  type : AccountType
  balance : Int
  deriving DecidableEq

/-- `AccountInfo()`: the value `operator[]` of the map stores under a new key. -/
def AccountInfo.valueInit : AccountInfo := ⟨[], [], .asset, 0⟩

/-- `enum class TxStatus : uint8_t`. -/
inductive TxStatus where
  | ok
  | errInsufficientFunds
  | errAccountNotFound
  | errInvariantViolated
  | errInternal
  deriving DecidableEq, Repr

/-- `TransactionRequest`. -/
structure TransactionRequest where
  correlationId : Uuid
  idempotencyKey : Bytes
  description : Bytes
  debitAccountId : Bytes
  creditAccountId : Bytes
  amountMinor : Int64
  currency : Bytes
  stripeChargeId : Bytes
  deriving DecidableEq

/-- The strings of a request, each with a length that 32 bits hold. -/
def TransactionRequest.LengthsFit (req : TransactionRequest) : Prop :=
  ∀ s ∈ [req.debitAccountId, req.creditAccountId, req.idempotencyKey, req.description,
    req.currency, req.stripeChargeId], s.length < 2 ^ 32

/-- The number is one of an `int64_t`. -/
def FitsInt64 (n : Int) : Prop := -2 ^ 63 ≤ n ∧ n < 2 ^ 63

/-- The amount as a number. -/
def TransactionRequest.amount (req : TransactionRequest) : Int := req.amountMinor.toInt

/-- `TransactionResponse`. -/
structure TransactionResponse where
  correlationId : Uuid
  transactionId : Uuid
  status : TxStatus
  message : Bytes
  latencyUs : Int64
  deriving DecidableEq

/-- `TxResponseEnvelope`. -/
structure TxResponseEnvelope where
  zmqIdentity : Bytes
  response : TransactionResponse
  deriving DecidableEq

/-- `CreateAccountRequest`. -/
structure CreateAccountRequest where
  correlationId : Uuid
  name : Bytes
  type : AccountType
  deriving DecidableEq

/-- `CreateAccountResponse`. -/
structure CreateAccountResponse where
  correlationId : Uuid
  accountId : Bytes
  status : TxStatus
  message : Bytes
  deriving DecidableEq

/-! ## §2. Texts. -/

/-- The bytes of a literal of the source. -/
def ascii (s : String) : Bytes := s.toList.map (fun c => UInt8.ofNat c.toNat)

/-- `std::to_string` of an unsigned number. -/
def toDecimal (n : Nat) : Bytes := (Nat.toDigits 10 n).map (fun c => UInt8.ofNat c.toNat)

/-- The value `fetch_add` returns when `k` values were drawn before. -/
def counterValue (k : Nat) : Nat := k % 2 ^ 64

/-- `"acc_" + std::to_string(counter)`. -/
def accountId (k : Nat) : Bytes := ascii "acc_" ++ toDecimal (counterValue k)

/-- The digits can be read back from their bytes. -/
theorem toDigits_eq_map (n : Nat) :
    Nat.toDigits 10 n = (toDecimal n).map (fun b => Char.ofNat b.toNat) := by
  unfold toDecimal
  rw [List.map_map]
  conv_lhs => rw [← List.map_id (Nat.toDigits 10 n)]
  apply List.map_congr_left
  intro c hc
  have hdigit : c.isDigit = true := Nat.isDigit_of_mem_toDigits (by decide) (by decide) hc
  have hlt : c.toNat < 256 := by
    have hle := (Char.isDigit_iff_toNat.mp hdigit).2
    simp at hle
    omega
  show c = Char.ofNat (UInt8.ofNat c.toNat).toNat
  rw [UInt8.toNat_ofNat_of_lt' hlt, Char.ofNat_toNat]

/-- Decimal texts of different numbers differ. -/
theorem toDecimal_inj {m n : Nat} (h : toDecimal m = toDecimal n) : m = n := by
  have hdigits : Nat.toDigits 10 m = Nat.toDigits 10 n := by
    rw [toDigits_eq_map, h, ← toDigits_eq_map]
  rw [← Nat.ofDigitChars_toDigits (b := 10) (n := m) (by decide) (by decide), hdigits]
  exact Nat.ofDigitChars_toDigits (by decide) (by decide)

/-- **Identifiers are unique** as long as the counter has not wrapped. -/
theorem accountId_inj {j k : Nat} (hj : j < 2 ^ 64) (hk : k < 2 ^ 64)
    (h : accountId j = accountId k) : j = k := by
  unfold accountId at h
  have hdec := toDecimal_inj (List.append_cancel_left h)
  unfold counterValue at hdec
  rwa [Nat.mod_eq_of_lt hj, Nat.mod_eq_of_lt hk] at hdec

end ZeroLGR.Ledger
