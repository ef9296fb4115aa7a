/-
  ZeroLGR.Server.Bounds — which bytes the handlers read.

  The deserializers are handed a pointer and a size, and do not look at the size.
  A message that is shorter than its length fields say is read to its end and
  on, and what stands there becomes part of a request.

    • `Memory.deserializeRequest`, `Memory.dispatch`, ... — the code, with the
      spans it reads and the memory behind the payload,
    • `Whole` — the payload holds what its type and its length fields announce,
    • `checks_dispatch` — the decoders of `Server.IoLoop` give up exactly where
      the code leaves the payload,
    • `harmless_iff` — a payload does no harm exactly if it is whole,
    • `oneByte_becomes_request` — the shortest that is not.
-/
import ZeroLGR.Server.IoLoop
import ZeroLGR.Lib.Reads

namespace ZeroLGR.Server

open Reads Ledger

/-! ## §1. The code, reading from memory. -/

/-- `read_string`. -/
def Memory.readString (m : Nat → UInt8) (offset : Nat) : Reader (Bytes × Nat) := do
  let len ← load m offset 4
  let s ← load m (offset + 4) (Bytes.ofLE len)
  pure (s, offset + 4 + Bytes.ofLE len)

/-- `std::memcpy(corr_id.data(), data + 1, UUID_SIZE)`. -/
def Memory.readCorrelationId (m : Nat → UInt8) : Reader Uuid :=
  ⟨⟨Bytes.readAt m 1 16, Bytes.length_readAt m 1 16⟩, [⟨1, 16⟩]⟩

/-- `deserialize_request`. -/
def Memory.deserializeRequest (m : Nat → UInt8) : Reader TransactionRequest := do
  let correlationId ← Memory.readCorrelationId m
  let amount ← load m 17 8
  let debit ← Memory.readString m 25
  let credit ← Memory.readString m debit.2
  let key ← Memory.readString m credit.2
  let description ← Memory.readString m key.2
  let currency ← Memory.readString m description.2
  let charge ← Memory.readString m currency.2
  pure
    { correlationId := correlationId, idempotencyKey := key.1, description := description.1
      debitAccountId := debit.1, creditAccountId := credit.1
      amountMinor := (UInt64.ofNat (Bytes.ofLE amount)).toInt64
      currency := currency.1, stripeChargeId := charge.1 }

/-- `deserialize_create_account`. -/
def Memory.deserializeCreateAccount (m : Nat → UInt8) : Reader CreateAccountRequest := do
  let correlationId ← Memory.readCorrelationId m
  let name ← Memory.readString m 17
  let type ← loadByte m name.2
  pure ⟨correlationId, name.1, accountTypeOf type⟩

/-- What `io_loop` makes of a payload. -/
inductive Handled where
  | skipped
  | pushed (req : TransactionRequest) (corrId : Uuid)
  | refused (req : TransactionRequest) (corrId : Uuid)
  | createAccount (req : CreateAccountRequest)
  | metrics (corrId : Uuid)
  | balances (corrId : Uuid)
  | unknown (msgType : UInt8)
  deriving DecidableEq

/-- The payload became a request or an account. -/
def Handled.decoded : Handled → Bool
  | .pushed _ _ => true
  | .refused _ _ => true
  | .createAccount _ => true
  | _ => false

/-- The case `MSG_TX_REQUEST`.  The correlation id is copied once more, for the
error response if the queue is `full` and for the pending identity if not. -/
def Memory.handleRequest (m : Nat → UInt8) (full : Bool) : Reader Handled := do
  let req ← Memory.deserializeRequest m
  let corrId ← Memory.readCorrelationId m
  pure (if full = true then .refused req corrId else .pushed req corrId)

/-- The `switch` over the message type. -/
def Memory.dispatch (m : Nat → UInt8) (size : Nat) (full : Bool) : Reader Handled :=
  -- the only place where the size is looked at
  if size < 1 then pure .skipped
  else do
    let msgType ← loadByte m 0
    if msgType = MSG_TX_REQUEST then Memory.handleRequest m full
    else if msgType = MSG_CREATE_ACCOUNT then
      Memory.deserializeCreateAccount m >>= fun req => pure (.createAccount req)
    else if msgType = MSG_METRICS_REQUEST then
      Memory.readCorrelationId m >>= fun corrId => pure (.metrics corrId)
    else if msgType = MSG_BALANCE_REQUEST then
      Memory.readCorrelationId m >>= fun corrId => pure (.balances corrId)
    else pure (.unknown msgType)

/-! ## §2. Whole payloads. -/

/-- The length field at the offset. -/
def lengthAt (data : Bytes) (off : Nat) : Nat := Bytes.ofLE ((data.drop off).take 4)

/-- From the offset on there are `k` strings, each behind its length, and `more`
bytes. -/
def StringsFit (data : Bytes) : Nat → Nat → Nat → Prop
  | 0, off, more => off + more ≤ data.length
  | k + 1, off, more => off + 4 + lengthAt data off ≤ data.length ∧
      StringsFit data k (off + 4 + lengthAt data off) more

instance decStringsFit : ∀ (data : Bytes) (k off more : Nat),
    Decidable (StringsFit data k off more)
  | data, 0, off, more => inferInstanceAs (Decidable (off + more ≤ data.length))
  | data, k + 1, off, more =>
      have := decStringsFit data k (off + 4 + lengthAt data off) more
      inferInstanceAs (Decidable (_ ∧ _))

/-- **The payload holds what it announces**: six strings behind the correlation
id and the amount, one string and a type byte, or the correlation id. -/
def Whole (data : Bytes) : Prop :=
  match data with
  | [] => True
  | msgType :: _ =>
      if msgType = MSG_TX_REQUEST then StringsFit data 6 25 0
      else if msgType = MSG_CREATE_ACCOUNT then StringsFit data 1 17 1
      else if msgType = MSG_METRICS_REQUEST then 17 ≤ data.length
      else if msgType = MSG_BALANCE_REQUEST then 17 ≤ data.length
      else True

theorem whole_cons (msgType : UInt8) (rest : Bytes) :
    Whole (msgType :: rest) ↔
      if msgType = MSG_TX_REQUEST then StringsFit (msgType :: rest) 6 25 0
      else if msgType = MSG_CREATE_ACCOUNT then StringsFit (msgType :: rest) 1 17 1
      else if msgType = MSG_METRICS_REQUEST then 17 ≤ (msgType :: rest).length
      else if msgType = MSG_BALANCE_REQUEST then 17 ≤ (msgType :: rest).length
      else True := Iff.rfl

instance : ∀ data : Bytes, Decidable (Whole data)
  | [] => .isTrue trivial
  | msgType :: rest => decidable_of_iff _ (whole_cons msgType rest).symm

section Fit

variable {data : Bytes} {off : Nat}

theorem readString_eq (data : Bytes) (off : Nat) :
    readString data off =
      if off + 4 + lengthAt data off ≤ data.length then
        some ((data.drop (off + 4)).take (lengthAt data off), off + 4 + lengthAt data off)
      else none := by
  unfold readString readBytes lengthAt
  by_cases hlen : off + 4 ≤ data.length
  · rw [if_pos hlen, Option.bind_some]
    split <;> rfl
  · rw [if_neg hlen, if_neg (by omega)]
    rfl

/-- **One more string.** -/
theorem stringsFit_succ {α : Type} {f : Bytes × Nat → Option α} {k more : Nat}
    (hf : ∀ s n, n ≤ data.length → ((f (s, n)).isSome = true ↔ StringsFit data k n more)) :
    ((readString data off).bind f).isSome = true ↔ StringsFit data (k + 1) off more := by
  rw [readString_eq]
  by_cases hfit : off + 4 + lengthAt data off ≤ data.length
  · rw [if_pos hfit, Option.bind_some, hf _ _ hfit]
    exact ⟨fun h => ⟨hfit, h⟩, fun h => h.2⟩
  · rw [if_neg hfit]
    exact ⟨fun h => (by cases h), fun h => absurd h.1 hfit⟩

/-- The last string of a message. -/
theorem stringsFit_last {α : Type} (f : Bytes × Nat → α) :
    ((readString data off).map f).isSome = true ↔ StringsFit data 1 off 0 := by
  rw [Option.map_eq_bind]
  exact stringsFit_succ (fun s n hn => ⟨fun _ => hn, fun _ => rfl⟩)

theorem readCorrelationId_isSome (data : Bytes) :
    (readCorrelationId data).isSome = true ↔ 17 ≤ data.length := by
  unfold readCorrelationId
  split
  next h => exact ⟨fun _ => h, fun _ => rfl⟩
  next h => exact ⟨fun hsome => (by cases hsome), fun hle => absurd hle h⟩

/-- The correlation id stands before all strings. -/
theorem stringsFit_of_correlationId {α : Type} {f : Uuid → Option α} {k more : Nat}
    (hoff : 17 ≤ off) (hf : ∀ id, (f id).isSome = true ↔ StringsFit data (k + 1) off more) :
    ((readCorrelationId data).bind f).isSome = true ↔ StringsFit data (k + 1) off more := by
  cases hid : readCorrelationId data with
  | none =>
      have hshort : ¬ 17 ≤ data.length := by
        rw [← readCorrelationId_isSome, hid]
        simp
      refine ⟨fun h => (by cases h), fun h => ?_⟩
      have hle := h.1
      omega
  | some id => exact hf id

/-- **`deserialize_request` of a whole payload.** -/
theorem deserializeRequest_isSome (data : Bytes) :
    (deserializeRequest data).isSome = true ↔ StringsFit data 6 25 0 := by
  have hstrings : ∀ (id : Uuid) (amount : Bytes),
      ((readString data 25).bind fun debit =>
        (readString data debit.2).bind fun credit =>
        (readString data credit.2).bind fun key =>
        (readString data key.2).bind fun description =>
        (readString data description.2).bind fun currency =>
        (readString data currency.2).map fun charge =>
          ({ correlationId := id, idempotencyKey := key.1, description := description.1
             debitAccountId := debit.1, creditAccountId := credit.1
             amountMinor := (UInt64.ofNat (Bytes.ofLE amount)).toInt64
             currency := currency.1, stripeChargeId := charge.1 } :
            TransactionRequest)).isSome = true ↔ StringsFit data 6 25 0 := by
    intro id amount
    -- one string after the other, each from the end of the one before
    refine stringsFit_succ (fun debit n₁ _ => ?_)
    refine stringsFit_succ (fun credit n₂ _ => ?_)
    refine stringsFit_succ (fun key n₃ _ => ?_)
    refine stringsFit_succ (fun description n₄ _ => ?_)
    refine stringsFit_succ (fun currency n₅ _ => ?_)
    exact stringsFit_last _
  unfold deserializeRequest readBytes
  refine stringsFit_of_correlationId (by decide) (fun id => ?_)
  by_cases hamount : 17 + 8 ≤ data.length
  · rw [if_pos hamount, Option.bind_some]
    exact hstrings id _
  · rw [if_neg hamount]
    refine ⟨fun h => (by cases h), fun h => ?_⟩
    have hle := h.1
    omega

/-- **`deserialize_create_account` of a whole payload.** -/
theorem deserializeCreateAccount_isSome (data : Bytes) :
    (deserializeCreateAccount data).isSome = true ↔ StringsFit data 1 17 1 := by
  unfold deserializeCreateAccount
  refine stringsFit_of_correlationId (by decide) (fun id => ?_)
  refine stringsFit_succ (fun name n _ => ?_)
  rw [Option.isSome_map, isSome_getElem?]
  exact Iff.rfl

end Fit

/-! ## §3. The checked decoders. -/

/-- `Memory.dispatch` with the decoders of `Server.IoLoop`. -/
def checkedDispatch (data : Bytes) (full : Bool) : Option Handled :=
  if data.length < 1 then some .skipped
  else
    (data[0]?).bind fun msgType =>
      if msgType = MSG_TX_REQUEST then
        (deserializeRequest data).bind fun req =>
        (readCorrelationId data).map fun corrId =>
          if full = true then .refused req corrId else .pushed req corrId
      else if msgType = MSG_CREATE_ACCOUNT then
        (deserializeCreateAccount data).map .createAccount
      else if msgType = MSG_METRICS_REQUEST then (readCorrelationId data).map .metrics
      else if msgType = MSG_BALANCE_REQUEST then (readCorrelationId data).map .balances
      else some (.unknown msgType)

section Checked

variable (data : Bytes) (beyond : Nat → UInt8)

theorem checks_readBytes {off n : Nat} (h : 0 < n ∨ off ≤ data.length) :
    Checks data.length (readBytes data off n) (load (extend data beyond) off n) :=
  checks_load beyond h

theorem checks_readString (off : Nat) :
    Checks data.length (readString data off) (Memory.readString (extend data beyond) off) := by
  refine (checks_readBytes data beyond (.inl (by decide))).bind ?_
  intro len hlen
  -- the length was inside, so the string starts inside
  have hfit : off + 4 ≤ data.length := by
    unfold readBytes at hlen
    split at hlen
    next h => exact h
    next => cases hlen
  exact (checks_readBytes data beyond (.inr hfit)).map _

theorem checks_readCorrelationId :
    Checks data.length (readCorrelationId data)
      (Memory.readCorrelationId (extend data beyond)) := by
  have hload : Checks data.length (readBytes data 1 16) (load (extend data beyond) 1 16) :=
    checks_readBytes data beyond (.inl (by decide))
  unfold readBytes at hload
  unfold readCorrelationId
  by_cases hfit : 1 + 16 ≤ data.length
  · rw [if_pos hfit] at hload
    rw [dif_pos hfit]
    refine ⟨?_, fun _ => hload.inside rfl, fun hnone => (by cases hnone)⟩
    intro id hid
    rw [← Option.some.inj hid]
    exact Uuid.ext (hload.value _ rfl)
  · rw [if_neg hfit] at hload
    rw [dif_neg hfit]
    refine ⟨fun _ hnone => (by cases hnone), fun hnone => (by cases hnone), ?_⟩
    exact fun _ => hload.outside rfl

theorem checks_deserializeRequest :
    Checks data.length (deserializeRequest data)
      (Memory.deserializeRequest (extend data beyond)) := by
  refine (checks_readCorrelationId data beyond).bind (fun id _ => ?_)
  refine (checks_readBytes data beyond (.inl (by decide))).bind (fun amount _ => ?_)
  refine (checks_readString data beyond 25).bind (fun debit _ => ?_)
  refine (checks_readString data beyond debit.2).bind (fun credit _ => ?_)
  refine (checks_readString data beyond credit.2).bind (fun key _ => ?_)
  refine (checks_readString data beyond key.2).bind (fun description _ => ?_)
  refine (checks_readString data beyond description.2).bind (fun currency _ => ?_)
  exact (checks_readString data beyond currency.2).map _

theorem checks_deserializeCreateAccount :
    Checks data.length (deserializeCreateAccount data)
      (Memory.deserializeCreateAccount (extend data beyond)) := by
  refine (checks_readCorrelationId data beyond).bind (fun id _ => ?_)
  refine (checks_readString data beyond 17).bind (fun name _ => ?_)
  exact (checks_loadByte data name.2 beyond).map _

/-- **The checked decoders give up exactly where the code leaves the payload.** -/
theorem checks_dispatch (full : Bool) :
    Checks data.length (checkedDispatch data full)
      (Memory.dispatch (extend data beyond) data.length full) := by
  unfold checkedDispatch Memory.dispatch
  split
  next => exact .pure _
  next =>
    refine (checks_loadByte data 0 beyond).bind (fun msgType _ => ?_)
    split
    next =>
      refine (checks_deserializeRequest data beyond).bind (fun req _ => ?_)
      exact (checks_readCorrelationId data beyond).map _
    next =>
      split
      next => exact (checks_deserializeCreateAccount data beyond).map _
      next =>
        split
        next => exact (checks_readCorrelationId data beyond).map _
        next =>
          split
          next => exact (checks_readCorrelationId data beyond).map _
          next => exact .pure _

end Checked

/-- **What is whole is decoded** without giving up. -/
theorem checkedDispatch_isSome (data : Bytes) (full : Bool) :
    (checkedDispatch data full).isSome = true ↔ Whole data := by
  cases data with
  | nil => exact ⟨fun _ => trivial, fun _ => rfl⟩
  | cons msgType rest =>
      unfold checkedDispatch
      rw [if_neg (by simp), List.getElem?_cons_zero, Option.bind_some, whole_cons]
      split
      next =>
        rw [← deserializeRequest_isSome]
        cases hreq : deserializeRequest (msgType :: rest) with
        | none => rfl
        | some req =>
            -- the correlation id was inside before
            have hfit := (deserializeRequest_isSome (msgType :: rest)).mp (by rw [hreq]; rfl)
            have hle := hfit.1
            rw [Option.bind_some, Option.isSome_map, readCorrelationId_isSome]
            exact ⟨fun _ => rfl, fun _ => by omega⟩
      next =>
        split
        next => rw [Option.isSome_map, deserializeCreateAccount_isSome]
        next =>
          split
          next => rw [Option.isSome_map, readCorrelationId_isSome]
          next =>
            split
            next => rw [Option.isSome_map, readCorrelationId_isSome]
            next => exact ⟨fun _ => trivial, fun _ => rfl⟩

/-! ## §4. Every payload. -/

/-- **The payload does no harm**: only its own bytes are read, and if it is too
short for what it announces it becomes neither a request nor an account. -/
structure Harmless (data : Bytes) (beyond : Nat → UInt8) (full : Bool) : Prop where
  inside : ∀ r ∈ (Memory.dispatch (extend data beyond) data.length full).reads,
    r.Within data.length
  short : ¬ Whole data →
    (Memory.dispatch (extend data beyond) data.length full).value.decoded = false

/-- **A PAYLOAD DOES NO HARM EXACTLY IF IT IS WHOLE**, whatever stands behind it
and whether or not the request queue is full. -/
theorem harmless_iff (data : Bytes) (beyond : Nat → UInt8) (full : Bool) :
    Harmless data beyond full ↔ Whole data := by
  have hinside := (checks_dispatch data beyond full).inside_iff
  rw [checkedDispatch_isSome] at hinside
  constructor
  · intro h
    exact hinside.mp h.inside
  · intro h
    exact ⟨hinside.mpr h, fun hshort => absurd h hshort⟩

/-- **The machine stops at an undefined read exactly for the others.** -/
theorem handle_undefinedRead_iff (s : EngineServer) (answer : Bytes) (uninitialised : Uuid)
    (identity payload : Bytes) :
    (s.handle answer uninitialised identity payload).1.pc = .undefinedRead ↔ ¬ Whole payload := by
  cases payload with
  | nil => exact ⟨fun h => (by cases h), fun h => absurd trivial h⟩
  | cons msgType rest =>
      unfold EngineServer.handle
      rw [whole_cons]
      dsimp only
      split
      next =>
        rw [← deserializeRequest_isSome]
        unfold EngineServer.handleRequest
        cases deserializeRequest (msgType :: rest) with
        | none => exact ⟨fun _ => by simp, fun _ => rfl⟩
        | some req =>
            dsimp only
            split
            next => exact ⟨fun h => (by cases h), fun h => absurd rfl h⟩
            next => exact ⟨fun h => (by cases h), fun h => absurd rfl h⟩
      next =>
        split
        next =>
          rw [← deserializeCreateAccount_isSome]
          split
          next h => exact ⟨fun hpc => (by cases hpc), fun hnot => absurd h hnot⟩
          next h => exact ⟨fun _ => h, fun _ => rfl⟩
        next =>
          -- the correlation id of the metrics and of the balances
          have hcorrId : ((if (readCorrelationId (msgType :: rest)).isSome = true then
              ({ s with pc := .drain }, [Event.answered identity answer])
              else ({ s with pc := .undefinedRead }, [])).1.pc = .undefinedRead) ↔
              ¬ 17 ≤ (msgType :: rest).length := by
            rw [← readCorrelationId_isSome]
            split
            next h => exact ⟨fun hpc => (by cases hpc), fun hnot => absurd h hnot⟩
            next h => exact ⟨fun _ => h, fun _ => rfl⟩
          by_cases hmetrics : msgType = MSG_METRICS_REQUEST
          · rw [if_pos (.inl hmetrics), if_pos hmetrics]
            exact hcorrId
          · by_cases hbalance : msgType = MSG_BALANCE_REQUEST
            · rw [if_pos (.inr hbalance), if_neg hmetrics, if_pos hbalance]
              exact hcorrId
            · rw [if_neg (not_or.mpr ⟨hmetrics, hbalance⟩), if_neg hmetrics, if_neg hbalance]
              exact ⟨fun hpc => (by cases hpc), fun hnot => absurd trivial hnot⟩

/-- A payload of one byte, with zeroes behind it.  Forty-eight bytes that are not
its own are read, and it becomes a request whose strings are all empty. -/
theorem oneByte_becomes_request :
    ¬ Harmless [MSG_TX_REQUEST] (fun _ => 0) false ∧
      (Memory.dispatch (extend [MSG_TX_REQUEST] fun _ => 0) 1 false).reads =
        [⟨0, 1⟩, ⟨1, 16⟩, ⟨17, 8⟩, ⟨25, 4⟩, ⟨29, 0⟩, ⟨29, 4⟩, ⟨33, 0⟩, ⟨33, 4⟩, ⟨37, 0⟩, ⟨37, 4⟩,
          ⟨41, 0⟩, ⟨41, 4⟩, ⟨45, 0⟩, ⟨45, 4⟩, ⟨49, 0⟩, ⟨1, 16⟩] ∧
      (Memory.dispatch (extend [MSG_TX_REQUEST] fun _ => 0) 1 false).value.decoded = true := by
  have hdecoded :
      (Memory.dispatch (extend [MSG_TX_REQUEST] fun _ => 0) 1 false).value.decoded = true := by
    decide
  refine ⟨fun h => ?_, by decide, hdecoded⟩
  have hnot := h.short (by decide)
  rw [show [MSG_TX_REQUEST].length = 1 from rfl, hdecoded] at hnot
  cases hnot

end ZeroLGR.Server
