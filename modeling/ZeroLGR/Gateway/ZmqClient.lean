/-
  ZeroLGR.Gateway.ZmqClient — gateway/zmq_client.py.

  The messages of `ZMQClient` and the parsers of its answers.  A Python `str` is
  a string of Unicode characters, `bytes` are bytes, an `int` is an integer; a
  function that may raise returns the exception.  Slices stop at the end of the
  message, `struct.unpack_from` and indexing raise there.

    • `writeString`, `readString` — strings behind their length,
    • `transactionMessage`, `createAccountMessage` — what is sent,
    • `parseTransaction`, `parseAccount`, `parseMetrics`, `parseBalanceSnapshot` —
      what is made of the answers,
    • `receiverKey` — whose answer it is,
    • `unpackFrom_at`, `readString_at`, `readString_ok` — the reads, by what
      stands at their offsets.
-/
import ZeroLGR.Server.Wire

namespace ZeroLGR.Gateway

open Span Ledger Server

/-! ## §1. Python. -/

/-- The exceptions. -/
inductive PyError where
  | structError
  | indexError
  | valueError
  | unicodeDecodeError
  | unexpectedResponseType (type : UInt8)
  deriving DecidableEq

/-- A value, or the exception raised instead. -/
abbrev Py (α : Type) := Except PyError α

@[simp] theorem ok_bind {α β : Type} (a : α) (f : α → Py β) : (Except.ok a >>= f) = f a := rfl

/-- What a call that returns has returned on the way. -/
theorem bind_eq_ok {α β : Type} {x : Py α} {f : α → Py β} {b : β} :
    (x >>= f) = .ok b ↔ ∃ a, x = .ok a ∧ f a = .ok b := by
  cases x with
  | error e =>
      constructor
      · intro h
        cases h
      · intro h
        obtain ⟨a, ha, -⟩ := h
        cases ha
  | ok a =>
      constructor
      · exact fun h => ⟨a, rfl, h⟩
      · intro h
        obtain ⟨a', ha', h⟩ := h
        cases ha'
        exact h

/-- `s.encode('utf-8')`. -/
def encodeUtf8 (s : String) : Bytes := s.toByteArray.data.toList

/-- `b.decode('utf-8')`. -/
def decodeUtf8 (bs : Bytes) : Py String :=
  match String.fromUTF8? ⟨bs.toArray⟩ with
  | some s => .ok s
  | none => .error .unicodeDecodeError

/-- `data[start:stop]`. -/
def slice (data : Bytes) (start stop : Nat) : Bytes := (data.drop start).take (stop - start)

/-- `data[offset]`. -/
def index (data : Bytes) (offset : Nat) : Py UInt8 :=
  match data[offset]? with
  | some b => .ok b
  | none => .error .indexError

/-- The bytes `struct.unpack_from` looks at, for a format of `n` bytes. -/
def unpackFrom (data : Bytes) (offset n : Nat) : Py Bytes :=
  if offset + n ≤ data.length then .ok ((data.drop offset).take n) else .error .structError

/-- Format `q`. -/
def signed (bs : Bytes) : Int := (UInt64.ofNat (Bytes.ofLE bs)).toInt64.toInt

/-- `struct.pack('<I', n)`. -/
def packI (n : Nat) : Py Bytes :=
  if n < 2 ^ 32 then .ok (Wal.le32 (UInt32.ofNat n)) else .error .structError

/-- `struct.pack('<q', n)`. -/
def packQ (n : Int) : Py Bytes :=
  if -2 ^ 63 ≤ n ∧ n < 2 ^ 63 then .ok (int64Bytes n) else .error .structError

/-- `struct.pack('<B', n)`. -/
def packB (n : Int) : Py Bytes :=
  if 0 ≤ n ∧ n < 256 then .ok [UInt8.ofNat n.toNat] else .error .structError

/-- `uuid.UUID(bytes=bs)`. -/
def uuidOfBytes (bs : Bytes) : Py Uuid :=
  if h : bs.length = 16 then .ok ⟨bs, h⟩ else .error .valueError

/-- The two lower-case hexadecimal digits of a byte. -/
def hexByte (b : UInt8) : List Char :=
  [Nat.digitChar (b.toNat / 16), Nat.digitChar (b.toNat % 16)]

/-- The digits of some bytes. -/
def hexBytes (bs : Bytes) : List Char := bs.flatMap hexByte

/-- `str(id)` of a `uuid.UUID`. -/
def uuidStr (id : Uuid) : String :=
  String.ofList (hexBytes (slice id.bytes 0 4) ++ '-' :: hexBytes (slice id.bytes 4 6) ++
    '-' :: hexBytes (slice id.bytes 6 8) ++ '-' :: hexBytes (slice id.bytes 8 10) ++
    '-' :: hexBytes (slice id.bytes 10 16))

/-! ## §2. The client. -/

def MSG_TX_REQUEST : UInt8 := 0x01
def MSG_CREATE_ACCOUNT : UInt8 := 0x02
def MSG_TX_RESPONSE : UInt8 := 0x81
def MSG_CREATE_RESPONSE : UInt8 := 0x82
def MSG_METRICS_RESPONSE : UInt8 := 0x83
def MSG_BALANCE_RESPONSE : UInt8 := 0x84

/-- `_write_string`. -/
def writeString (s : String) : Py Bytes := do
  let encoded := encodeUtf8 s
  let length ← packI encoded.length
  return length ++ encoded

/-- `_read_string`: the string and the offset behind it. -/
def readString (data : Bytes) (offset : Nat) : Py (String × Nat) := do
  let word ← unpackFrom data offset 4
  let length := Bytes.ofLE word
  let s ← decodeUtf8 (slice data (offset + 4) (offset + 4 + length))
  return (s, offset + 4 + length)

/-- The message of `send_transaction`. -/
def transactionMessage (corrId : Uuid) (debitAccountId creditAccountId : String)
    (amountMinor : Int) (currency description idempotencyKey stripeChargeId : String) :
    Py Bytes := do
  let amount ← packQ amountMinor
  let debit ← writeString debitAccountId
  let credit ← writeString creditAccountId
  let key ← writeString idempotencyKey
  let text ← writeString description
  let unit ← writeString currency
  let charge ← writeString stripeChargeId
  return MSG_TX_REQUEST :: corrId.bytes ++ amount ++ debit ++ credit ++ key ++ text ++ unit ++ charge

/-- The message of `create_account`. -/
def createAccountMessage (corrId : Uuid) (name : String) (accountType : Int) : Py Bytes := do
  let encoded ← writeString name
  let type ← packB accountType
  return MSG_CREATE_ACCOUNT :: corrId.bytes ++ encoded ++ type

/-- What `send_transaction` returns. -/
structure TransactionResult where
  transactionId : String
  status : UInt8
  latencyUs : Int
  message : String
  deriving DecidableEq

/-- The answer of `send_transaction`. -/
def parseTransaction (response : Bytes) : Py TransactionResult := do
  let type ← index response 0
  if type ≠ MSG_TX_RESPONSE then .error (.unexpectedResponseType type)
  else
    let txId ← uuidOfBytes (slice response 17 33)
    let status ← index response 33
    let latency ← unpackFrom response 34 8
    let message ← readString response 42
    return ⟨uuidStr txId, status, signed latency, message.1⟩

/-- What `create_account` returns. -/
structure AccountResult where
  accountId : String
  status : UInt8
  message : String
  deriving DecidableEq

/-- The answer of `create_account`. -/
def parseAccount (response : Bytes) : Py AccountResult := do
  let type ← index response 0
  if type ≠ MSG_CREATE_RESPONSE then .error (.unexpectedResponseType type)
  else
    let status ← index response 17
    let accountId ← readString response 18
    let message ← readString response accountId.2
    return ⟨accountId.1, status, message.1⟩

/-- What `get_metrics` returns; the two `float`s are their 64 bits. -/
structure MetricsResult where
  tps : UInt64
  avgLatencyUs : UInt64
  txCount : UInt64
  invariantOk : Bool
  deriving DecidableEq

/-- Formats `Q` and `d`: the eight bytes as a word. -/
def unsigned (bs : Bytes) : UInt64 := UInt64.ofNat (Bytes.ofLE bs)

/-- The answer of `get_metrics`.  The parser reads the format `<ddQB` at offset 1. -/
def parseMetrics (response : Bytes) : Py MetricsResult := do
  let type ← index response 0
  if type ≠ MSG_METRICS_RESPONSE then .error (.unexpectedResponseType type)
  else
    let words ← unpackFrom response 1 25
    return ⟨unsigned (slice words 0 8), unsigned (slice words 8 16), unsigned (slice words 16 24),
      decide (slice words 24 25 ≠ [0])⟩

/-- One of the accounts `get_balance_snapshot` returns. -/
structure AccountEntry where
  accountId : String
  name : String
  balance : Int
  type : UInt8
  deriving DecidableEq

/-- What `get_balance_snapshot` returns. -/
structure SnapshotResult where
  invariantOk : Bool
  totalAssets : Int
  totalLiabilities : Int
  totalEquity : Int
  accounts : List AccountEntry
  deriving DecidableEq

/-- The loop over the accounts, from an offset. -/
def readAccounts (response : Bytes) : Nat → Nat → Py (List AccountEntry)
  | 0, _ => return []
  | count + 1, offset => do
      let accId ← readString response offset
      let name ← readString response accId.2
      let balance ← unpackFrom response name.2 8
      let accType ← index response (name.2 + 8)
      let rest ← readAccounts response count (name.2 + 8 + 1)
      return ⟨accId.1, name.1, signed balance, accType⟩ :: rest

/-- The answer of `get_balance_snapshot`.  The parser reads the flag at offset 1
and the totals from offset 2 on. -/
def parseBalanceSnapshot (response : Bytes) : Py SnapshotResult := do
  let type ← index response 0
  if type ≠ MSG_BALANCE_RESPONSE then .error (.unexpectedResponseType type)
  else
    let inv ← index response 1
    let words ← unpackFrom response 2 28
    let accounts ← readAccounts response (Bytes.ofLE (slice words 24 28)) 30
    return ⟨decide (inv ≠ 0), signed (slice words 0 8), signed (slice words 8 16),
      signed (slice words 16 24), accounts⟩

/-- `_receiver_loop`: the correlation id under which a message is looked up in
`pending_requests`.  Messages of less than 17 bytes are dropped. -/
def receiverKey (msg : Bytes) : Option Bytes :=
  if msg.length < 17 then none else some (slice msg 1 17)

/-! ## §3. UTF-8. -/

/-- **What was encoded is decoded.** -/
theorem decodeUtf8_encodeUtf8 (s : String) : decodeUtf8 (encodeUtf8 s) = .ok s := by
  have hbytes : (⟨(encodeUtf8 s).toArray⟩ : ByteArray) = s.toByteArray := by
    unfold encodeUtf8
    rw [Array.toArray_toList]
  unfold decodeUtf8 String.fromUTF8?
  rw [hbytes, dif_pos s.isValidUTF8]
  rfl

/-- What is decoded are the bytes of the string. -/
theorem encodeUtf8_of_decodeUtf8 {bs : Bytes} {s : String} (h : decodeUtf8 bs = .ok s) :
    encodeUtf8 s = bs := by
  unfold decodeUtf8 String.fromUTF8? at h
  split at h
  · next s' hs =>
      cases h
      split at hs
      · cases hs
        rfl
      · cases hs
  · cases h

theorem encodeUtf8_inj {s t : String} (h : encodeUtf8 s = encodeUtf8 t) : s = t := by
  have hs := decodeUtf8_encodeUtf8 s
  rw [h, decodeUtf8_encodeUtf8] at hs
  cases hs
  rfl

theorem encodeUtf8_ne_nil {s : String} (h : s ≠ "") : encodeUtf8 s ≠ [] := by
  intro hnil
  exact h (encodeUtf8_inj (t := "") hnil)

/-! ## §4. Reads. -/

section Reads

variable {data : Bytes} {off : Nat}

theorem index_at {b : UInt8} (h : At data off [b]) : index data off = .ok b := by
  unfold index
  rw [at_singleton.mp h]

theorem at_of_index {b : UInt8} (h : index data off = .ok b) : At data off [b] := by
  unfold index at h
  split at h
  · next b' hb =>
      cases h
      exact at_singleton.mpr hb
  · cases h

theorem unpackFrom_at {bs : Bytes} (h : At data off bs) :
    unpackFrom data off bs.length = .ok bs := by
  unfold unpackFrom
  rw [if_pos h.le, h.take]

theorem at_of_unpackFrom {n : Nat} {bs : Bytes} (h : unpackFrom data off n = .ok bs) :
    At data off bs ∧ bs.length = n := by
  unfold unpackFrom at h
  split at h
  · next hle =>
      cases h
      exact ⟨at_take hle, by rw [List.length_take, List.length_drop]; omega⟩
  · cases h

theorem slice_at {bs : Bytes} (h : At data off bs) : slice data off (off + bs.length) = bs := by
  unfold slice
  rw [Nat.add_sub_cancel_left, h.take]

/-- **A string that stands at the offset is read**, up to its end. -/
theorem readString_at {s : String} (hlen : (encodeUtf8 s).length < 2 ^ 32)
    (h : At data off (appendString (encodeUtf8 s))) :
    readString data off = .ok (s, off + (appendString (encodeUtf8 s)).length) := by
  obtain ⟨hlength, hbytes⟩ := at_append.mp h
  have hword := unpackFrom_at hlength
  have hslice := slice_at hbytes
  rw [Wal.length_le32] at hword hslice
  unfold readString
  simp only [hword, ok_bind, Wal.ofLE_le32 hlen, hslice, decodeUtf8_encodeUtf8, length_appendString,
    ← Nat.add_assoc]
  rfl

/-- What is read as a string stands there, if the message goes on behind it.  At
the end of the message a slice may be shorter than the length in front of it. -/
theorem readString_ok {s : String} {stop : Nat} (h : readString data off = .ok (s, stop))
    (hstop : stop ≤ data.length) :
    At data off (appendString (encodeUtf8 s)) ∧
      stop = off + (appendString (encodeUtf8 s)).length := by
  unfold readString at h
  obtain ⟨word, hword, h⟩ := bind_eq_ok.mp h
  obtain ⟨s', hs, h⟩ := bind_eq_ok.mp h
  cases h
  obtain ⟨hword, hfour⟩ := at_of_unpackFrom hword
  have hbytes := encodeUtf8_of_decodeUtf8 hs
  have hat : At data (off + 4) ((data.drop (off + 4)).take (Bytes.ofLE word)) := at_take hstop
  have hslice : slice data (off + 4) (off + 4 + Bytes.ofLE word) =
      (data.drop (off + 4)).take (Bytes.ofLE word) := by
    unfold slice
    rw [Nat.add_sub_cancel_left]
  rw [← hslice, ← hbytes] at hat
  have hlen : (encodeUtf8 s).length = Bytes.ofLE word := by
    rw [hbytes, hslice, List.length_take, List.length_drop]
    omega
  -- the four bytes are the length
  have hle32 : Wal.le32 (UInt32.ofNat (encodeUtf8 s).length) = word := by
    rw [hlen, Wal.le32_ofLE hfour]
  constructor
  · unfold appendString
    rw [hle32, at_append, hfour]
    exact ⟨hword, hat⟩
  · rw [length_appendString, hlen, Nat.add_assoc]

end Reads

/-! ## §5. Writes. -/

/-- **A string that fits is written** as the engine writes its own. -/
theorem writeString_ok {s : String} (hlen : (encodeUtf8 s).length < 2 ^ 32) :
    writeString s = .ok (appendString (encodeUtf8 s)) := by
  unfold writeString packI
  simp only [if_pos hlen, ok_bind]
  rfl

theorem packQ_ok (n : Int64) : packQ n.toInt = .ok (le64 n.toUInt64) := by
  have hlower := Int64.le_toInt n
  have hupper := Int64.toInt_lt n
  unfold packQ int64Bytes
  rw [if_pos ⟨hlower, hupper⟩, Int64.ofInt_toInt]

theorem packB_ok (b : UInt8) : packB b.toNat = .ok [b] := by
  have hlt := b.toNat_lt
  unfold packB
  rw [if_pos ⟨by omega, by omega⟩, Int.toNat_natCast, UInt8.ofNat_toNat]

/-- Format `q` undoes what was written. -/
theorem signed_le64 (n : Int64) : signed (le64 n.toUInt64) = n.toInt := by
  unfold signed
  rw [ofLE_le64_toInt64]

end ZeroLGR.Gateway
