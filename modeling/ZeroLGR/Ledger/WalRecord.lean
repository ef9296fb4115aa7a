/-
  ZeroLGR.Ledger.WalRecord — the record of a transfer can be read back.

  `serialize_for_wal` writes two identifiers, the amount, six strings with their
  lengths in front and a reading of the clock.  Nothing in the repository reads
  a record; `walRecord` is the format such a reader would have, field by field
  in the order of `serialize_for_wal`.  The length in front of a string has 32
  bits, so the format is exact for strings below 4 GiB.

    • `WalRecord`, `walRecord` — what a record says, and its format,
    • `write_walRecord` — what `serialize_for_wal` writes is what the format writes,
    • `walRecord_unambiguous` — a record determines what it was made from,
    • `auditPayload_eq_some` — what a reader of the log accepts is a record.
-/
import ZeroLGR.Ledger.Engine
import ZeroLGR.Lib.Format

namespace ZeroLGR.Ledger

open Transition

/-! ## §1. The fields. -/

/-- Sixteen bytes. -/
def uuidFormat : Format UInt8 Uuid :=
  (Format.block UInt8 16).imap (fun id => ⟨id.bytes, id.length_eq⟩)
    (fun bs => ⟨bs.val, bs.property⟩) (fun _ => rfl) (fun _ _ => rfl)

theorem toUInt64_toInt64_ofNat {n : Nat} (h : n < 256 ^ 8) :
    (UInt64.ofNat n).toInt64.toUInt64.toNat = n := by
  rw [UInt64.toUInt64_toInt64]
  exact UInt64.toNat_ofNat_of_lt' h

/-- The bytes of an `int64_t`. -/
def int64Format : Format UInt8 Int64 :=
  (Format.word 8).imap (fun v => v.toUInt64.toNat) (fun n => (UInt64.ofNat n).toInt64)
    (fun v => by rw [UInt64.ofNat_toNat]; exact Int64.toInt64_toUInt64 v)
    (fun _ h => toUInt64_toInt64_ofNat h)

/-- A 32-bit length, and the bytes. -/
def stringFormat : Format UInt8 Bytes := Format.counted (Format.word 4)

@[simp] theorem write_uuidFormat (id : Uuid) : uuidFormat.write id = id.bytes := rfl

@[simp] theorem write_int64Format (v : Int64) : int64Format.write v = le64 v.toUInt64 := rfl

@[simp] theorem valid_uuidFormat (id : Uuid) : uuidFormat.valid id := trivial

@[simp] theorem valid_int64Format (v : Int64) : int64Format.valid v := v.toUInt64.toNat_lt

theorem valid_stringFormat {s : Bytes} : stringFormat.valid s ↔ s.length < 2 ^ 32 := Iff.rfl

/-- A number is written by its low-order bytes, whether it fits or not. -/
theorem write_stringFormat (s : Bytes) : stringFormat.write s = appendString s := by
  show Bytes.toLE 4 s.length ++ s = Bytes.toLE 4 (UInt32.ofNat s.length).toNat ++ s
  rw [UInt32.toNat_ofNat']
  congr 1
  exact (Bytes.toLE_mod 4 s.length).symm

/-! ## §2. The record. -/

/-- What a record says. -/
structure WalRecord where
  transactionId : Uuid
  req : TransactionRequest
  nowNs : Int64
  deriving DecidableEq

/-- The fields of a record, in the order of `serialize_for_wal`. -/
abbrev WalFields :=
  Uuid × Uuid × Int64 × Bytes × Bytes × Bytes × Bytes × Bytes × Bytes × Int64

def WalRecord.fields (r : WalRecord) : WalFields :=
  (r.transactionId, r.req.correlationId, r.req.amountMinor, r.req.debitAccountId,
    r.req.creditAccountId, r.req.idempotencyKey, r.req.description, r.req.currency,
    r.req.stripeChargeId, r.nowNs)

def WalRecord.ofFields : WalFields → WalRecord
  | (transactionId, correlationId, amountMinor, debitAccountId, creditAccountId, idempotencyKey,
      description, currency, stripeChargeId, nowNs) =>
    { transactionId
      req :=
        { correlationId, idempotencyKey, description, debitAccountId, creditAccountId, amountMinor
          currency, stripeChargeId }
      nowNs }

theorem WalRecord.ofFields_fields (r : WalRecord) : ofFields r.fields = r := rfl

theorem WalRecord.fields_ofFields (fs : WalFields) : (ofFields fs).fields = fs := rfl

/-- The fields one behind the other. -/
def walFields : Format UInt8 WalFields :=
  uuidFormat.seq <| uuidFormat.seq <| int64Format.seq <|
    stringFormat.seq <| stringFormat.seq <| stringFormat.seq <|
    stringFormat.seq <| stringFormat.seq <| stringFormat.seq int64Format

/-- The record.  `walRecord.read` takes the fields in the order in which
`serialize_for_wal` writes them. -/
def walRecord : Format UInt8 WalRecord :=
  walFields.imap WalRecord.fields WalRecord.ofFields WalRecord.ofFields_fields
    (fun fs _ => WalRecord.fields_ofFields fs)

theorem valid_walRecord {r : WalRecord} : walRecord.valid r ↔ r.req.LengthsFit := by
  show walFields.valid r.fields ↔ r.req.LengthsFit
  simp only [walFields, WalRecord.fields, Format.valid_seq, valid_uuidFormat, valid_int64Format,
    valid_stringFormat, TransactionRequest.LengthsFit, List.forall_mem_cons, List.not_mem_nil,
    false_implies, implies_true, true_and, and_true]

/-- **`serialize_for_wal` writes the format.** -/
theorem write_walRecord (req : TransactionRequest) (transactionId : Uuid) (nowNs : Int64) :
    walRecord.write ⟨transactionId, req, nowNs⟩ = serializeForWal req transactionId nowNs := by
  show walFields.write (WalRecord.fields ⟨transactionId, req, nowNs⟩) = _
  simp only [walFields, WalRecord.fields, Format.write_seq, write_uuidFormat, write_int64Format,
    write_stringFormat, serializeForWal, List.append_assoc]

/-- **THE RECORD IS UNAMBIGUOUS.**  For strings that 32 bits can count, two
records are the same bytes only if they were made from the same identifier and
the same request, whatever the clock said; and a reader of the fields in order
gets them back and ends where the record ends, whatever stands behind it. -/
theorem walRecord_unambiguous :
    (∀ (transactionId transactionId' : Uuid) (req req' : TransactionRequest) (nowNs nowNs' : Int64),
        req.LengthsFit → req'.LengthsFit →
          serializeForWal req transactionId nowNs = serializeForWal req' transactionId' nowNs' →
            transactionId = transactionId' ∧ req = req' ∧ nowNs = nowNs') ∧
      ∀ (transactionId : Uuid) (req : TransactionRequest) (nowNs : Int64), req.LengthsFit →
        ∀ rest, walRecord.read (serializeForWal req transactionId nowNs ++ rest) 0 =
          some (⟨transactionId, req, nowNs⟩, (serializeForWal req transactionId nowNs).length) := by
  constructor
  · intro transactionId transactionId' req req' nowNs nowNs' hfit hfit' h
    rw [← write_walRecord, ← write_walRecord] at h
    have hrecord := walRecord.write_inj (valid_walRecord.mpr hfit) (valid_walRecord.mpr hfit') h
    exact ⟨congrArg WalRecord.transactionId hrecord, congrArg WalRecord.req hrecord,
      congrArg WalRecord.nowNs hrecord⟩
  · intro transactionId req nowNs hfit rest
    rw [← write_walRecord]
    exact walRecord.read_write (valid_walRecord.mpr hfit) rest

/-- A request whose two account ids are `debit` and `credit`. -/
def betweenAccounts (debit credit : String) : TransactionRequest :=
  { transferRequest "key" 0 1 500 with
    debitAccountId := ascii debit
    creditAccountId := ascii credit }

/-- Account ids that run together to the same text make different records, at
any two readings of the clock. -/
theorem betweenAccounts_unambiguous :
    serializeForWal (betweenAccounts "ab" "c") Uuid.zero 7 ≠
        serializeForWal (betweenAccounts "a" "bc") Uuid.zero 8 ∧
      walRecord.read (serializeForWal (betweenAccounts "ab" "c") Uuid.zero 7 ++ [0, 0]) 0 =
        some (⟨Uuid.zero, betweenAccounts "ab" "c", 7⟩, 81) := by
  have hfit : (betweenAccounts "ab" "c").LengthsFit := by
    unfold TransactionRequest.LengthsFit
    decide
  have hfit' : (betweenAccounts "a" "bc").LengthsFit := by
    unfold TransactionRequest.LengthsFit
    decide
  obtain ⟨hinj, hread⟩ := walRecord_unambiguous
  constructor
  · intro h
    have hreq := (hinj _ _ _ _ _ _ hfit hfit' h).2.1
    exact absurd hreq (by decide)
  · exact hread Uuid.zero (betweenAccounts "ab" "c") 7 hfit [0, 0]

/-! ## §3. Reading a payload. -/

/-- What a reader of the log makes of a payload: a record, if it is one whole. -/
def auditPayload (payload : Bytes) : Option (Uuid × TransactionRequest) :=
  (walRecord.read payload 0).bind fun r =>
    if r.2 = payload.length then some (r.1.transactionId, r.1.req) else none

theorem length_le_serializeForWal (req : TransactionRequest) (transactionId : Uuid)
    (nowNs : Int64) {s : Bytes}
    (hs : s ∈ [req.debitAccountId, req.creditAccountId, req.idempotencyKey, req.description,
      req.currency, req.stripeChargeId]) :
    s.length ≤ (serializeForWal req transactionId nowNs).length := by
  simp only [List.mem_cons, List.not_mem_nil, or_false] at hs
  unfold serializeForWal
  simp only [List.length_append, length_appendString]
  rcases hs with rfl | rfl | rfl | rfl | rfl | rfl <;> omega

/-- A payload with an exact size field has strings with exact lengths. -/
theorem lengthsFit_of_small {req : TransactionRequest} {transactionId : Uuid} {nowNs : Int64}
    (h : Wal.Small (serializeForWal req transactionId nowNs)) : req.LengthsFit := by
  intro s hs
  have hle := length_le_serializeForWal req transactionId nowNs hs
  unfold Wal.Small at h
  omega

/-- **What the audit accepts is a record**, and every record is accepted. -/
theorem auditPayload_eq_some {payload : Bytes} {transactionId : Uuid} {req : TransactionRequest} :
    auditPayload payload = some (transactionId, req) ↔
      req.LengthsFit ∧ ∃ nowNs, payload = serializeForWal req transactionId nowNs := by
  unfold auditPayload
  rw [Option.bind_eq_some_iff]
  constructor
  · intro h
    obtain ⟨⟨r, stop⟩, hread, hwhole⟩ := h
    split at hwhole
    · next hstop =>
        cases hwhole
        obtain rfl : stop = payload.length := hstop
        -- the reader has used up the payload, so it is what the format writes
        obtain ⟨hvalid, hwrite⟩ := walRecord.write_of_read hread
        refine ⟨valid_walRecord.mp hvalid, r.nowNs, ?_⟩
        rw [← write_walRecord]
        exact hwrite.symm
    · cases hwhole
  · intro h
    obtain ⟨hfit, nowNs, rfl⟩ := h
    rw [← write_walRecord]
    refine ⟨_, walRecord.read_whole (valid_walRecord.mpr hfit), ?_⟩
    rw [if_pos rfl]

/-- The record of a request that the server can read is far from the limits of
`size_t`. -/
theorem length_serializeForWal_lt {req : TransactionRequest} (h : req.LengthsFit)
    (txId : Uuid) (now : Int64) : (serializeForWal req txId now).length < 2 ^ 62 := by
  simp only [TransactionRequest.LengthsFit, List.forall_mem_cons, List.not_mem_nil, false_implies,
    implies_true, and_true] at h
  obtain ⟨hdebit, hcredit, hkey, hdescription, hcurrency, hcharge⟩ := h
  unfold serializeForWal
  simp only [List.length_append, length_appendString, Uuid.length_eq, length_le64]
  omega

end ZeroLGR.Ledger
