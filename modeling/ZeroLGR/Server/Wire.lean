/-
  ZeroLGR.Server.Wire — the messages of the engine, byte by byte.

  `deserialize_request` and `deserialize_create_account` keep an offset into the
  message; the `serialize_...` functions append field after field.  What a
  deserializer returns is said here in terms of what stands at its offsets.

    • `typeByte`, `serializeCreateAccountResponse`, `serializeBalanceSnapshot`,
      `serializeMetrics` — the rest of the wire format,
    • `requestEnd`, `createAccountEnd` — where the deserializers end,
    • `readString_at`, `deserializeRequest_at`, `deserializeCreateAccount_at` —
      what they return,
    • `deserializeRequest_lengthsFit` — the strings of a request that comes in
      are short enough for their lengths to be written.
-/
import ZeroLGR.Server.IoLoop
import ZeroLGR.Lib.Span

namespace ZeroLGR.Server

open Span Ledger

/-! ## §1. More of the wire format. -/

def MSG_CREATE_RESPONSE : UInt8 := 0x82
def MSG_METRICS_RESPONSE : UInt8 := 0x83
def MSG_BALANCE_RESPONSE : UInt8 := 0x84

/-- `static_cast<uint8_t>(acc.type)`. -/
def typeByte : AccountType → UInt8
  | .asset => 0
  | .liability => 1
  | .equity => 2
  | .revenue => 3
  | .expense => 4
  | .unnamed raw _ => raw

/-- `serialize_create_account_response`. -/
def serializeCreateAccountResponse (resp : CreateAccountResponse) : Bytes :=
  MSG_CREATE_RESPONSE :: resp.correlationId.bytes ++ [statusByte resp.status] ++
    appendString resp.accountId ++ appendString resp.message

/-- The bytes of an `int64_t` that holds `n`. -/
def int64Bytes (n : Int) : Bytes := le64 (Int64.ofInt n).toUInt64

/-- `snap.invariant_ok ? 1 : 0`. -/
def flagByte (ok : Bool) : UInt8 := if ok = true then 1 else 0

/-- What the loop of `serialize_balance_snapshot` writes for one account. -/
def accountBytes (acc : AccountInfo) : Bytes :=
  appendString acc.id ++ appendString acc.name ++ int64Bytes acc.balance ++ [typeByte acc.type]

/-- `serialize_balance_snapshot`. -/
def serializeBalanceSnapshot (corrId : Uuid) (snap : BalanceSnapshotData) : Bytes :=
  MSG_BALANCE_RESPONSE :: corrId.bytes ++ [flagByte snap.invariantOk] ++
    int64Bytes snap.totalAssets ++ int64Bytes snap.totalLiabilities ++
    int64Bytes snap.totalEquity ++ Wal.le32 (UInt32.ofNat snap.accounts.length) ++
    snap.accounts.flatMap accountBytes

/-- `MetricsSample` as it is sent.  The two `double`s are the 64 bits in memory. -/
structure MetricsSampleData where
  tps : UInt64
  avgLatencyUs : UInt64
  txCount : UInt64
  invariantOk : Bool
  deriving DecidableEq

/-- `serialize_metrics`. -/
def serializeMetrics (corrId : Uuid) (sample : MetricsSampleData) : Bytes :=
  MSG_METRICS_RESPONSE :: corrId.bytes ++ le64 sample.tps ++ le64 sample.avgLatencyUs ++
    le64 sample.txCount ++ [flagByte sample.invariantOk]

/-- `offset` at the end of `deserialize_request`. -/
def requestEnd (data : Bytes) : Option Nat :=
  (readString data 25).bind fun debit =>
  (readString data debit.2).bind fun credit =>
  (readString data credit.2).bind fun key =>
  (readString data key.2).bind fun description =>
  (readString data description.2).bind fun currency =>
  (readString data currency.2).map fun charge => charge.2

/-- `offset` at the end of `deserialize_create_account`. -/
def createAccountEnd (data : Bytes) : Option Nat :=
  (readString data 17).map fun name => name.2 + 1

theorem accountTypeOf_typeByte (type : AccountType) : accountTypeOf (typeByte type) = type := by
  cases type with
  | asset | liability | equity | revenue | expense => rfl
  | unnamed raw h => exact dif_pos h

/-- A type byte is kept, also one without a name. -/
theorem typeByte_accountTypeOf (raw : UInt8) : typeByte (accountTypeOf raw) = raw := by
  unfold accountTypeOf
  split
  · rfl
  · next hle =>
      split
      · next h => rw [h]; rfl
      · split
        · next h => rw [h]; rfl
        · split
          · next h => rw [h]; rfl
          · split
            · next h => rw [h]; rfl
            · next h₀ h₁ h₂ h₃ =>
                show 4 = raw
                rw [← UInt8.toNat_inj] at h₀ h₁ h₂ h₃ ⊢
                rw [UInt8.lt_iff_toNat_lt] at hle
                simp at h₀ h₁ h₂ h₃ hle ⊢
                omega

theorem statusByte_inj {s t : TxStatus} (h : statusByte s = statusByte t) : s = t := by
  cases s <;> cases t <;> first | rfl | cases h

/-! ## §2. Words. -/

@[simp] theorem length_int64Bytes (n : Int) : (int64Bytes n).length = 8 := length_le64 _

/-- Every message: its type, the correlation id, and the rest at offset 17. -/
theorem at_header (type : UInt8) (corrId : Uuid) (payload : Bytes) :
    At (type :: corrId.bytes ++ payload) 0 [type] ∧
      At (type :: corrId.bytes ++ payload) 1 corrId.bytes ∧
      At (type :: corrId.bytes ++ payload) 17 payload := by
  have hwhole := at_self ([type] ++ (corrId.bytes ++ payload))
  rw [at_append, at_append, Nat.zero_add, List.length_singleton, corrId.length_eq] at hwhole
  exact hwhole

/-! ## §3. What the deserializers return. -/

section Reads

variable {data : Bytes} {off : Nat}

theorem readBytes_at {bs : Bytes} (h : At data off bs) : readBytes data off bs.length = some bs := by
  unfold readBytes
  rw [if_pos h.le, h.take]

/-- **A string that stands at the offset is read**, up to its end. -/
theorem readString_at {s : Bytes} (hlen : s.length < 2 ^ 32) (h : At data off (appendString s)) :
    readString data off = some (s, off + (appendString s).length) := by
  obtain ⟨hlength, hbytes⟩ := at_append.mp h
  have hfirst := readBytes_at hlength
  have hsecond := readBytes_at hbytes
  rw [Wal.length_le32] at hfirst hsecond
  unfold readString
  rw [hfirst, Option.bind_some, Wal.ofLE_le32 hlen, hsecond, Option.map_some, length_appendString,
    Nat.add_assoc]

theorem length_of_readBytes {n : Nat} {bs : Bytes} (h : readBytes data off n = some bs) :
    bs.length = n := by
  unfold readBytes at h
  split at h
  · next hle =>
      cases h
      rw [List.length_take, List.length_drop]
      omega
  · cases h

/-- A string that was read has a length that 32 bits hold. -/
theorem length_of_readString {s : Bytes} {stop : Nat} (h : readString data off = some (s, stop)) :
    s.length < 2 ^ 32 := by
  unfold readString at h
  obtain ⟨len, hlen, hrest⟩ := Option.bind_eq_some_iff.mp h
  obtain ⟨s', hs, heq⟩ := Option.map_eq_some_iff.mp hrest
  cases heq
  rw [length_of_readBytes hs]
  exact Wal.ofLE_lt_of_four (length_of_readBytes hlen)

theorem readCorrelationId_at {id : Uuid} (h : At data 1 id.bytes) :
    readCorrelationId data = some id := by
  have hle := h.le
  have htake := h.take
  rw [id.length_eq] at hle htake
  unfold readCorrelationId
  rw [dif_pos hle]
  congr 1
  obtain ⟨bytes, hbytes⟩ := id
  simp only [Uuid.mk.injEq]
  exact htake

/-- **`deserialize_request`** of a message in which the fields stand one behind
the other. -/
theorem deserializeRequest_at (req : TransactionRequest)
    (hid : At data 1 req.correlationId.bytes) (hamount : At data 17 (le64 req.amountMinor.toUInt64))
    (hstrings : At data 25
      (appendString req.debitAccountId ++ appendString req.creditAccountId ++
        appendString req.idempotencyKey ++ appendString req.description ++
        appendString req.currency ++ appendString req.stripeChargeId))
    (hlens : req.LengthsFit) :
    deserializeRequest data = some req ∧
      requestEnd data = some (25 +
        (appendString req.debitAccountId ++ appendString req.creditAccountId ++
          appendString req.idempotencyKey ++ appendString req.description ++
          appendString req.currency ++ appendString req.stripeChargeId).length) := by
  simp only [TransactionRequest.LengthsFit, List.mem_cons, List.not_mem_nil, or_false,
    forall_eq_or_imp, forall_eq] at hlens
  obtain ⟨hdebitLen, hcreditLen, hkeyLen, hdescriptionLen, hcurrencyLen, hchargeLen⟩ := hlens
  simp only [at_append, List.length_append, ← Nat.add_assoc] at hstrings
  obtain ⟨⟨⟨⟨⟨hdebit, hcredit⟩, hkey⟩, hdescription⟩, hcurrency⟩, hcharge⟩ := hstrings
  have hamount' := readBytes_at hamount
  rw [length_le64] at hamount'
  constructor
  · unfold deserializeRequest
    simp only [readCorrelationId_at hid, hamount', readString_at hdebitLen hdebit,
      readString_at hcreditLen hcredit, readString_at hkeyLen hkey,
      readString_at hdescriptionLen hdescription, readString_at hcurrencyLen hcurrency,
      readString_at hchargeLen hcharge, Option.bind_some, Option.map_some, ofLE_le64_toInt64]
  · unfold requestEnd
    simp only [readString_at hdebitLen hdebit, readString_at hcreditLen hcredit,
      readString_at hkeyLen hkey, readString_at hdescriptionLen hdescription,
      readString_at hcurrencyLen hcurrency, readString_at hchargeLen hcharge, Option.bind_some,
      Option.map_some, List.length_append, ← Nat.add_assoc]

/-- **Every request that comes in** has strings whose lengths 32 bits hold. -/
theorem deserializeRequest_lengthsFit {req : TransactionRequest}
    (h : deserializeRequest data = some req) : req.LengthsFit := by
  obtain ⟨-, off₁, off₂, off₃, off₄, off₅, off₆, hdebit, hcredit, hkey, hdescription, hcurrency,
    hcharge⟩ := deserializeRequest_inv h
  simp only [TransactionRequest.LengthsFit, List.forall_mem_cons]
  exact ⟨length_of_readString hdebit, length_of_readString hcredit, length_of_readString hkey,
    length_of_readString hdescription, length_of_readString hcurrency,
    length_of_readString hcharge, fun s hs => absurd hs List.not_mem_nil⟩

/-- **`deserialize_create_account`** of such a message. -/
theorem deserializeCreateAccount_at (req : CreateAccountRequest)
    (hid : At data 1 req.correlationId.bytes)
    (hrest : At data 17 (appendString req.name ++ [typeByte req.type]))
    (hlen : req.name.length < 2 ^ 32) :
    deserializeCreateAccount data = some req ∧
      createAccountEnd data = some (17 + (appendString req.name ++ [typeByte req.type]).length) := by
  obtain ⟨hname, htype⟩ := at_append.mp hrest
  constructor
  · unfold deserializeCreateAccount
    simp only [readCorrelationId_at hid, readString_at hlen hname, at_singleton.mp htype,
      Option.bind_some, Option.map_some, accountTypeOf_typeByte]
  · unfold createAccountEnd
    simp only [readString_at hlen hname, Option.map_some, List.length_append,
      List.length_singleton, Nat.add_assoc]

end Reads

end ZeroLGR.Server
