/-
  ZeroLGR.Gateway.Codec — what the gateway writes and the engine reads, and back.

  The two sides of the wire format are written separately, in two languages.
  What the client sends is read by the engine as it was meant, and both kinds of
  responses are read by the client as they were written.

    • `transactionMessage_read`, `createAccountMessage_read`, `request_codec`,
    • `uuidStr_inj` — the text of an identifier says which it is,
    • `parseTransaction_serialize`, `parseAccount_serialize`, `response_codec`.
-/
import ZeroLGR.Gateway.ZmqClient

namespace ZeroLGR.Gateway

open Span Ledger Server

/-! ## §1. Requests. -/

/-- The request `send_transaction` stands for. -/
def requestOf (corrId : Uuid) (debit credit : String) (amountMinor : Int64)
    (currency description key charge : String) : TransactionRequest where
  correlationId := corrId
  idempotencyKey := encodeUtf8 key
  description := encodeUtf8 description
  debitAccountId := encodeUtf8 debit
  creditAccountId := encodeUtf8 credit
  amountMinor := amountMinor
  currency := encodeUtf8 currency
  stripeChargeId := encodeUtf8 charge

/-- What `send_transaction` writes is read to its last byte. -/
theorem transactionMessage_read (corrId : Uuid) (amountMinor : Int64)
    {debit credit currency description key charge : String}
    (hdebit : (encodeUtf8 debit).length < 2 ^ 32) (hcredit : (encodeUtf8 credit).length < 2 ^ 32)
    (hcurrency : (encodeUtf8 currency).length < 2 ^ 32)
    (hdescription : (encodeUtf8 description).length < 2 ^ 32)
    (hkey : (encodeUtf8 key).length < 2 ^ 32) (hcharge : (encodeUtf8 charge).length < 2 ^ 32) :
    ∃ msg, transactionMessage corrId debit credit amountMinor.toInt currency description key
        charge = .ok msg ∧
      deserializeRequest msg =
        some (requestOf corrId debit credit amountMinor currency description key charge) ∧
      requestEnd msg = some msg.length := by
  let strings := appendString (encodeUtf8 debit) ++ appendString (encodeUtf8 credit) ++
    appendString (encodeUtf8 key) ++ appendString (encodeUtf8 description) ++
    appendString (encodeUtf8 currency) ++ appendString (encodeUtf8 charge)
  have hmsg : transactionMessage corrId debit credit amountMinor.toInt currency description key
      charge = .ok (MSG_TX_REQUEST :: corrId.bytes ++ (le64 amountMinor.toUInt64 ++ strings)) := by
    unfold transactionMessage
    simp only [packQ_ok, writeString_ok hdebit, writeString_ok hcredit, writeString_ok hkey,
      writeString_ok hdescription, writeString_ok hcurrency, writeString_ok hcharge, ok_bind]
    simp only [strings, List.append_assoc]
    rfl
  obtain ⟨-, hid, hpayload⟩ := at_header MSG_TX_REQUEST corrId
    (le64 amountMinor.toUInt64 ++ strings)
  obtain ⟨hamount, hstrings⟩ := at_append.mp hpayload
  rw [length_le64] at hstrings
  have hlens : ∀ s ∈ [encodeUtf8 debit, encodeUtf8 credit, encodeUtf8 key, encodeUtf8 description,
      encodeUtf8 currency, encodeUtf8 charge], s.length < 2 ^ 32 := by
    simp only [List.mem_cons, List.not_mem_nil, or_false, forall_eq_or_imp, forall_eq]
    exact ⟨hdebit, hcredit, hkey, hdescription, hcurrency, hcharge⟩
  obtain ⟨hread, hend⟩ := deserializeRequest_at
    (requestOf corrId debit credit amountMinor currency description key charge)
    hid hamount hstrings hlens
  refine ⟨_, hmsg, hread, hend.trans ?_⟩
  simp only [requestOf, strings, List.length_append, List.length_cons, corrId.length_eq,
    length_le64, Option.some.injEq]
  omega

/-- What `create_account` writes is read to its last byte. -/
theorem createAccountMessage_read (corrId : Uuid) (type : UInt8) {name : String}
    (hname : (encodeUtf8 name).length < 2 ^ 32) :
    ∃ msg, createAccountMessage corrId name type.toNat = .ok msg ∧
      deserializeCreateAccount msg = some ⟨corrId, encodeUtf8 name, accountTypeOf type⟩ ∧
      createAccountEnd msg = some msg.length := by
  have hmsg : createAccountMessage corrId name type.toNat =
      .ok (MSG_CREATE_ACCOUNT :: corrId.bytes ++ (appendString (encodeUtf8 name) ++ [type])) := by
    unfold createAccountMessage
    simp only [writeString_ok hname, packB_ok, ok_bind]
    rw [← List.append_assoc]
    rfl
  obtain ⟨-, hid, hpayload⟩ := at_header MSG_CREATE_ACCOUNT corrId
    (appendString (encodeUtf8 name) ++ [type])
  obtain ⟨hread, hend⟩ := deserializeCreateAccount_at
    ⟨corrId, encodeUtf8 name, accountTypeOf type⟩ hid
    (by rw [typeByte_accountTypeOf]; exact hpayload) hname
  refine ⟨_, hmsg, hread, hend.trans ?_⟩
  simp only [List.length_append, List.length_cons, List.length_nil, corrId.length_eq,
    Nat.reduceAdd, Nat.add_comm]

/-- **REQUESTS ARRIVE.**  What `send_transaction` writes is read by
`deserialize_request` to its last byte, every field as it was meant; and so is
what `create_account` writes by `deserialize_create_account`, with any type byte. -/
theorem request_codec (corrId : Uuid) (amountMinor : Int64) (type : UInt8)
    (debit credit currency description key charge name : String)
    (hlens : ∀ s ∈ [debit, credit, currency, description, key, charge, name],
      (encodeUtf8 s).length < 2 ^ 32) :
    (∃ msg, transactionMessage corrId debit credit amountMinor.toInt currency description key
        charge = .ok msg ∧
      deserializeRequest msg =
        some (requestOf corrId debit credit amountMinor currency description key charge) ∧
      requestEnd msg = some msg.length) ∧
    (∃ msg, createAccountMessage corrId name type.toNat = .ok msg ∧
      deserializeCreateAccount msg = some ⟨corrId, encodeUtf8 name, accountTypeOf type⟩ ∧
      typeByte (accountTypeOf type) = type ∧ createAccountEnd msg = some msg.length) := by
  simp only [List.mem_cons, List.not_mem_nil, or_false, forall_eq_or_imp, forall_eq] at hlens
  obtain ⟨hdebit, hcredit, hcurrency, hdescription, hkey, hcharge, hname⟩ := hlens
  obtain ⟨msg, hmsg, hread, hend⟩ := createAccountMessage_read corrId type hname
  exact ⟨transactionMessage_read corrId amountMinor hdebit hcredit hcurrency hdescription hkey
    hcharge, msg, hmsg, hread, typeByte_accountTypeOf type, hend⟩

/-- A request to move 5.00, and an account of type Revenue. -/
theorem request_codec_example :
    (∃ msg, transactionMessage Uuid.zero "acc_0" "acc_1" (Int64.toInt 500) "USD" "" "sale" "" =
        .ok msg ∧
      deserializeRequest msg =
        some (requestOf Uuid.zero "acc_0" "acc_1" 500 "USD" "" "sale" "") ∧
      requestEnd msg = some msg.length) ∧
    (∃ msg, createAccountMessage Uuid.zero "Sales" (UInt8.toNat 3) = .ok msg ∧
      deserializeCreateAccount msg = some ⟨Uuid.zero, encodeUtf8 "Sales", accountTypeOf 3⟩ ∧
      typeByte (accountTypeOf 3) = 3 ∧ createAccountEnd msg = some msg.length) :=
  request_codec Uuid.zero 500 3 "acc_0" "acc_1" "USD" "" "sale" "" "Sales" (by decide +kernel)

/-! ## §2. Responses. -/

/-- The bytes are valid UTF-8, and their length fits the 32 bits in front of it. -/
structure Text (bs : Bytes) : Prop where
  short : bs.length < 2 ^ 32
  valid : ∃ s, encodeUtf8 s = bs

theorem digitChar_inj {a b : Nat} (ha : a < 16) (hb : b < 16)
    (h : Nat.digitChar a = Nat.digitChar b) : a = b := by
  have hall : ∀ a b : Fin 16, Nat.digitChar a = Nat.digitChar b → a = b := by decide
  exact Fin.mk.inj (hall ⟨a, ha⟩ ⟨b, hb⟩ h)

theorem hexByte_inj {a b : UInt8} (h : hexByte a = hexByte b) : a = b := by
  have ha := a.toNat_lt
  have hb := b.toNat_lt
  simp only [hexByte, List.cons.injEq, and_true] at h
  have hhigh := digitChar_inj (by omega) (by omega) h.1
  have hlow := digitChar_inj (Nat.mod_lt _ (by decide)) (Nat.mod_lt _ (by decide)) h.2
  rw [← UInt8.toNat_inj]
  omega

theorem length_hexBytes (bs : Bytes) : (hexBytes bs).length = 2 * bs.length := by
  unfold hexBytes
  rw [List.length_flatMap]
  simp [hexByte, Nat.mul_comm]

theorem hexBytes_inj : ∀ {as bs : Bytes}, hexBytes as = hexBytes bs → as = bs
  | [], [], _ => rfl
  | [], b :: bs, h => by
      have hlength := congrArg List.length h
      rw [length_hexBytes, length_hexBytes, List.length_cons, List.length_nil] at hlength
      omega
  | a :: as, [], h => by
      have hlength := congrArg List.length h
      rw [length_hexBytes, length_hexBytes, List.length_cons, List.length_nil] at hlength
      omega
  | a :: as, b :: bs, h => by
      have hparts : hexByte a ++ hexBytes as = hexByte b ++ hexBytes bs := h
      obtain ⟨hhead, htail⟩ := List.append_inj hparts rfl
      rw [hexByte_inj hhead, hexBytes_inj htail]

theorem slice_append (data : Bytes) {i j k : Nat} (hij : i ≤ j) (hjk : j ≤ k) :
    slice data i j ++ slice data j k = slice data i k := by
  have hsum : k - i = (j - i) + (k - j) := by omega
  have hoffset : i + (j - i) = j := by omega
  unfold slice
  rw [hsum, List.take_add, List.drop_drop, hoffset]

/-- The digits of a part of an identifier. -/
theorem length_hexSlice (id : Uuid) {i j : Nat} (hij : i ≤ j) (hj : j ≤ 16) :
    (hexBytes (slice id.bytes i j)).length = 2 * (j - i) := by
  rw [length_hexBytes, slice, List.length_take, List.length_drop, id.length_eq]
  omega

/-- **The text of an identifier says which it is.** -/
theorem uuidStr_inj {a b : Uuid} (h : uuidStr a = uuidStr b) : a = b := by
  have hlists := String.ofList_injective h
  simp only [List.append_assoc, List.cons_append] at hlists
  -- the five groups of digits, with a hyphen between them
  obtain ⟨h₁, hlists⟩ := List.append_inj hlists
    (by rw [length_hexSlice, length_hexSlice] <;> decide)
  obtain ⟨h₂, hlists⟩ := List.append_inj (List.cons.inj hlists).2
    (by rw [length_hexSlice, length_hexSlice] <;> decide)
  obtain ⟨h₃, hlists⟩ := List.append_inj (List.cons.inj hlists).2
    (by rw [length_hexSlice, length_hexSlice] <;> decide)
  obtain ⟨h₄, hlists⟩ := List.append_inj (List.cons.inj hlists).2
    (by rw [length_hexSlice, length_hexSlice] <;> decide)
  have h₅ := (List.cons.inj hlists).2
  have hbytes : ∀ id : Uuid, slice id.bytes 0 4 ++ slice id.bytes 4 6 ++ slice id.bytes 6 8 ++
      slice id.bytes 8 10 ++ slice id.bytes 10 16 = id.bytes := by
    intro id
    rw [slice_append, slice_append, slice_append, slice_append] <;> try decide
    rw [slice, List.drop_zero, List.take_of_length_le (by rw [id.length_eq])]
  have hsame : a.bytes = b.bytes := by
    rw [← hbytes a, ← hbytes b, hexBytes_inj h₁, hexBytes_inj h₂, hexBytes_inj h₃,
      hexBytes_inj h₄, hexBytes_inj h₅]
  obtain ⟨abytes, ha⟩ := a
  simp only at hsame
  subst hsame
  rfl

/-- What `send_transaction` returns says what the response says. -/
structure TransactionResult.Shows (result : TransactionResult) (resp : TransactionResponse) :
    Prop where
  transactionId : ∀ id, uuidStr id = result.transactionId ↔ id = resp.transactionId
  status : ∀ s, statusByte s = result.status ↔ s = resp.status
  latencyUs : result.latencyUs = resp.latencyUs.toInt
  message : encodeUtf8 result.message = resp.message

/-- What `create_account` returns says what the response says. -/
structure AccountResult.Shows (result : AccountResult) (resp : CreateAccountResponse) : Prop where
  accountId : encodeUtf8 result.accountId = resp.accountId
  status : ∀ s, statusByte s = result.status ↔ s = resp.status
  message : encodeUtf8 result.message = resp.message

theorem statusByte_iff (s t : TxStatus) : statusByte s = statusByte t ↔ s = t :=
  ⟨statusByte_inj, congrArg statusByte⟩

/-- The correlation id is where the receiver loop looks for it. -/
theorem receiverKey_header (type : UInt8) (corrId : Uuid) (payload : Bytes) :
    receiverKey (type :: corrId.bytes ++ payload) = some corrId.bytes := by
  have hid := (at_header type corrId payload).2.1
  have hle := hid.le
  have hslice := slice_at hid
  rw [corrId.length_eq] at hle hslice
  unfold receiverKey
  rw [if_neg (by omega), hslice]

theorem serializeResponse_eq (resp : TransactionResponse) :
    serializeResponse resp = MSG_TX_RESPONSE :: resp.correlationId.bytes ++
      (resp.transactionId.bytes ++ ([statusByte resp.status] ++
        (le64 resp.latencyUs.toUInt64 ++ appendString resp.message))) := by
  simp only [serializeResponse, List.append_assoc]
  rfl

theorem serializeCreateAccountResponse_eq (resp : CreateAccountResponse) :
    serializeCreateAccountResponse resp = MSG_CREATE_RESPONSE :: resp.correlationId.bytes ++
      ([statusByte resp.status] ++ (appendString resp.accountId ++ appendString resp.message)) := by
  simp only [serializeCreateAccountResponse, List.append_assoc]
  rfl

theorem uuidOfBytes_bytes (id : Uuid) : uuidOfBytes id.bytes = .ok id := by
  unfold uuidOfBytes
  rw [dif_pos id.length_eq]

/-- Every transaction response is read as it was written. -/
theorem parseTransaction_serialize {resp : TransactionResponse} (htext : Text resp.message) :
    ∃ result, parseTransaction (serializeResponse resp) = .ok result ∧ result.Shows resp := by
  obtain ⟨hshort, message, hmessage⟩ := htext
  rw [← hmessage] at hshort
  rw [serializeResponse_eq, ← hmessage]
  obtain ⟨htype, -, hpayload⟩ := at_header MSG_TX_RESPONSE resp.correlationId
    (resp.transactionId.bytes ++ ([statusByte resp.status] ++
      (le64 resp.latencyUs.toUInt64 ++ appendString (encodeUtf8 message))))
  simp only [at_append, resp.transactionId.length_eq, List.length_singleton, length_le64,
    Nat.reduceAdd] at hpayload
  obtain ⟨htxId, hstatus, hlatency, hstring⟩ := hpayload
  have hslice := slice_at htxId
  have hword := unpackFrom_at hlatency
  rw [resp.transactionId.length_eq] at hslice
  rw [length_le64] at hword
  refine ⟨⟨uuidStr resp.transactionId, statusByte resp.status, resp.latencyUs.toInt, message⟩,
    ?_, ?_⟩
  · unfold parseTransaction
    simp only [index_at htype, ok_bind, ne_eq, not_true_eq_false, if_false, hslice,
      uuidOfBytes_bytes, index_at hstatus, hword, readString_at hshort hstring, signed_le64]
    rfl
  · exact ⟨fun id => ⟨uuidStr_inj, congrArg uuidStr⟩, fun s => statusByte_iff s resp.status, rfl,
      hmessage⟩

/-- The status that is read is the one that was written, whatever the message. -/
theorem parseTransaction_status {resp : TransactionResponse} {result : TransactionResult}
    (h : parseTransaction (serializeResponse resp) = .ok result) :
    result.status = statusByte resp.status := by
  rw [serializeResponse_eq] at h
  obtain ⟨htype, -, hpayload⟩ := at_header MSG_TX_RESPONSE resp.correlationId
    (resp.transactionId.bytes ++ ([statusByte resp.status] ++
      (le64 resp.latencyUs.toUInt64 ++ appendString resp.message)))
  simp only [at_append, resp.transactionId.length_eq, Nat.reduceAdd] at hpayload
  obtain ⟨-, hstatus, -⟩ := hpayload
  unfold parseTransaction at h
  simp only [index_at htype, ok_bind, ne_eq, not_true_eq_false, if_false, index_at hstatus] at h
  obtain ⟨txId, -, h⟩ := bind_eq_ok.mp h
  obtain ⟨latency, -, h⟩ := bind_eq_ok.mp h
  obtain ⟨message, -, h⟩ := bind_eq_ok.mp h
  cases h
  rfl

/-- The receiver loop looks for the correlation id of the response. -/
theorem receiverKey_serialize (resp : TransactionResponse) :
    receiverKey (serializeResponse resp) = some resp.correlationId.bytes := by
  rw [serializeResponse_eq]
  exact receiverKey_header MSG_TX_RESPONSE resp.correlationId _

/-- Every account response is read as it was written. -/
theorem parseAccount_serialize {resp : CreateAccountResponse} (hid : Text resp.accountId)
    (htext : Text resp.message) :
    ∃ result, parseAccount (serializeCreateAccountResponse resp) = .ok result ∧
      result.Shows resp := by
  obtain ⟨hidShort, accountId, hidBytes⟩ := hid
  obtain ⟨hshort, message, hmessage⟩ := htext
  rw [← hidBytes] at hidShort
  rw [← hmessage] at hshort
  rw [serializeCreateAccountResponse_eq, ← hidBytes, ← hmessage]
  obtain ⟨htype, -, hpayload⟩ := at_header MSG_CREATE_RESPONSE resp.correlationId
    ([statusByte resp.status] ++ (appendString (encodeUtf8 accountId) ++
      appendString (encodeUtf8 message)))
  simp only [at_append, List.length_singleton, Nat.reduceAdd] at hpayload
  obtain ⟨hstatus, hidString, hstring⟩ := hpayload
  refine ⟨⟨accountId, statusByte resp.status, message⟩, ?_, ?_⟩
  · unfold parseAccount
    simp only [index_at htype, ok_bind, ne_eq, not_true_eq_false, if_false, index_at hstatus,
      readString_at hidShort hidString, readString_at hshort hstring]
    rfl
  · exact ⟨hidBytes, fun s => statusByte_iff s resp.status, hmessage⟩

/-- **RESPONSES ARRIVE.**  Every response to a transaction and every response to
`create_account` is read by the client as the engine wrote it, and the receiver
loop finds its correlation id. -/
theorem response_codec :
    (∀ resp : TransactionResponse, Text resp.message →
      receiverKey (serializeResponse resp) = some resp.correlationId.bytes ∧
      ∃ result, parseTransaction (serializeResponse resp) = .ok result ∧ result.Shows resp) ∧
    (∀ resp : CreateAccountResponse, Text resp.accountId → Text resp.message →
      receiverKey (serializeCreateAccountResponse resp) = some resp.correlationId.bytes ∧
      ∃ result, parseAccount (serializeCreateAccountResponse resp) = .ok result ∧
        result.Shows resp) := by
  constructor
  · intro resp htext
    exact ⟨receiverKey_serialize resp, parseTransaction_serialize htext⟩
  · intro resp hid htext
    refine ⟨?_, parseAccount_serialize hid htext⟩
    rw [serializeCreateAccountResponse_eq]
    exact receiverKey_header _ _ _

/-- An identifier as `uuid4` draws them. -/
def drawnId : Uuid :=
  ⟨[0x3f, 0x8a, 0x21, 0xc4, 0x9d, 0x07, 0x4b, 0xe2, 0xa1, 0x5c, 0x66, 0x0d, 0x93, 0x72, 0x1e, 0xb8],
    rfl⟩

/-- A refusal with a message beyond ASCII. -/
def refusal : TransactionResponse where
  correlationId := drawnId
  transactionId := ⟨Bytes.toLE 16 0x0102030405060708090a0b0c0d0e0f10, Bytes.length_toLE 16 _⟩
  status := .errAccountNotFound
  message := encodeUtf8 "zażółć €"
  latencyUs := -7

/-- An account that is reported with such a message. -/
def openedAccount : CreateAccountResponse where
  correlationId := drawnId
  accountId := encodeUtf8 "acc_7"
  status := .ok
  message := encodeUtf8 "Zürich – geöffnet"

/-- Both are read as they were written. -/
theorem response_codec_example :
    (receiverKey (serializeResponse refusal) = some drawnId.bytes ∧
      ∃ result, parseTransaction (serializeResponse refusal) = .ok result ∧
        result.Shows refusal) ∧
      (receiverKey (serializeCreateAccountResponse openedAccount) = some drawnId.bytes ∧
        ∃ result, parseAccount (serializeCreateAccountResponse openedAccount) = .ok result ∧
          result.Shows openedAccount) := by
  have hrefusal : Text refusal.message := ⟨by decide +kernel, "zażółć €", rfl⟩
  have hid : Text openedAccount.accountId := ⟨by decide +kernel, "acc_7", rfl⟩
  have hmessage : Text openedAccount.message := ⟨by decide +kernel, "Zürich – geöffnet", rfl⟩
  exact ⟨response_codec.1 refusal hrefusal, response_codec.2 openedAccount hid hmessage⟩

/-- An identifier of 16 equal bytes. -/
def repeatedId (b : UInt8) : Uuid := ⟨List.replicate 16 b, List.length_replicate⟩

end ZeroLGR.Gateway
