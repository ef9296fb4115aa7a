/-
  ZeroLGR.Server.IoLoop — `EngineServer::io_loop` and what it talks to.

  The I/O thread is taken one access to the queues at a time.  The engine behind
  the queues may be any: it takes requests and answers each at most once, in any
  order.  Clients send any frames at any time.

  `io_loop` declares `static thread_local ... pending_identities` twice, in the
  block of the `MSG_TX_REQUEST` case and in the body of the loop before the
  drain.  These are two objects, and the machine has both.

    • `readString`, `deserializeRequest`, `serializeResponse` — the wire format,
    • `IoPc`, `EngineServer`, `Action`, `Event`, `step` — the machine,
    • `deserializeRequest_correlationId` — the request carries the bytes that
      the loop uses as key,
    • `Effect`, `step_effect` — what a step can do.
-/
import ZeroLGR.Ledger.Engine

namespace ZeroLGR.Server

open Transition Ledger

/-! ## §1. The wire format.

    Reading past the end of a message is undefined: the result is `none`. -/

def MSG_TX_REQUEST : UInt8 := 0x01
def MSG_CREATE_ACCOUNT : UInt8 := 0x02
def MSG_METRICS_REQUEST : UInt8 := 0x03
def MSG_BALANCE_REQUEST : UInt8 := 0x04
def MSG_TX_RESPONSE : UInt8 := 0x81

/-- `n` bytes from `offset` on. -/
def readBytes (data : Bytes) (offset n : Nat) : Option Bytes :=
  if offset + n ≤ data.length then some ((data.drop offset).take n) else none

/-- `std::memcpy(id.data(), data + 1, UUID_SIZE)`. -/
def readCorrelationId (data : Bytes) : Option Uuid :=
  if h : 1 + 16 ≤ data.length then
    some ⟨(data.drop 1).take 16, by rw [List.length_take, List.length_drop]; omega⟩
  else none

/-- `read_string`: the string and the offset behind it. -/
def readString (data : Bytes) (offset : Nat) : Option (Bytes × Nat) :=
  (readBytes data offset 4).bind fun len =>
  (readBytes data (offset + 4) (Bytes.ofLE len)).map fun s => (s, offset + 4 + Bytes.ofLE len)

/-- `deserialize_request`. -/
def deserializeRequest (data : Bytes) : Option TransactionRequest :=
  (readCorrelationId data).bind fun correlationId =>
  (readBytes data 17 8).bind fun amount =>
  (readString data 25).bind fun debit =>
  (readString data debit.2).bind fun credit =>
  (readString data credit.2).bind fun key =>
  (readString data key.2).bind fun description =>
  (readString data description.2).bind fun currency =>
  (readString data currency.2).map fun charge =>
    { correlationId := correlationId, idempotencyKey := key.1, description := description.1
      debitAccountId := debit.1, creditAccountId := credit.1
      amountMinor := (UInt64.ofNat (Bytes.ofLE amount)).toInt64
      currency := currency.1, stripeChargeId := charge.1 }

/-- `static_cast<AccountType>`. -/
def accountTypeOf (raw : UInt8) : AccountType :=
  if h : 4 < raw then .unnamed raw h
  else if raw = 0 then .asset
  else if raw = 1 then .liability
  else if raw = 2 then .equity
  else if raw = 3 then .revenue
  else .expense

/-- `deserialize_create_account`. -/
def deserializeCreateAccount (data : Bytes) : Option CreateAccountRequest :=
  (readCorrelationId data).bind fun correlationId =>
  (readString data 17).bind fun name =>
  (data[name.2]?).map fun type => ⟨correlationId, name.1, accountTypeOf type⟩

/-- `static_cast<uint8_t>(resp.status)`. -/
def statusByte : TxStatus → UInt8
  | .ok => 0
  | .errInsufficientFunds => 1
  | .errAccountNotFound => 2
  | .errInvariantViolated => 3
  | .errInternal => 4

/-- `serialize_response`. -/
def serializeResponse (resp : TransactionResponse) : Bytes :=
  MSG_TX_RESPONSE :: resp.correlationId.bytes ++ resp.transactionId.bytes ++
    [statusByte resp.status] ++ le64 resp.latencyUs.toUInt64 ++ appendString resp.message

theorem readCorrelationId_bytes {data : Bytes} {id : Uuid} (h : readCorrelationId data = some id) :
    id.bytes = (data.drop 1).take 16 := by
  unfold readCorrelationId at h
  split at h
  · cases h
    rfl
  · cases h

/-- The fields of a request, and the offsets behind its strings. -/
theorem deserializeRequest_inv {data : Bytes} {req : TransactionRequest}
    (h : deserializeRequest data = some req) :
    readCorrelationId data = some req.correlationId ∧
      ∃ off₁ off₂ off₃ off₄ off₅ off₆,
        readString data 25 = some (req.debitAccountId, off₁) ∧
        readString data off₁ = some (req.creditAccountId, off₂) ∧
        readString data off₂ = some (req.idempotencyKey, off₃) ∧
        readString data off₃ = some (req.description, off₄) ∧
        readString data off₄ = some (req.currency, off₅) ∧
        readString data off₅ = some (req.stripeChargeId, off₆) := by
  unfold deserializeRequest at h
  obtain ⟨id, hid, h⟩ := Option.bind_eq_some_iff.mp h
  obtain ⟨amount, -, h⟩ := Option.bind_eq_some_iff.mp h
  obtain ⟨debit, hdebit, h⟩ := Option.bind_eq_some_iff.mp h
  obtain ⟨credit, hcredit, h⟩ := Option.bind_eq_some_iff.mp h
  obtain ⟨key, hkey, h⟩ := Option.bind_eq_some_iff.mp h
  obtain ⟨description, hdescription, h⟩ := Option.bind_eq_some_iff.mp h
  obtain ⟨currency, hcurrency, h⟩ := Option.bind_eq_some_iff.mp h
  obtain ⟨charge, hcharge, rfl⟩ := Option.map_eq_some_iff.mp h
  exact ⟨hid, debit.2, credit.2, key.2, description.2, currency.2, charge.2, hdebit, hcredit, hkey,
    hdescription, hcurrency, hcharge⟩

/-- **The request carries the correlation id at its place in the message.** -/
theorem deserializeRequest_correlationId {data : Bytes} {req : TransactionRequest}
    (h : deserializeRequest data = some req) :
    req.correlationId.bytes = (data.drop 1).take 16 :=
  readCorrelationId_bytes (deserializeRequest_inv h).1

/-! ## §2. The state. -/

/-- `std::unordered_map<std::string, std::string>`, from the bytes of a
correlation id to an identity. -/
abbrev Identities := AList (fun _ : Bytes => Bytes)

/-- Where the I/O thread stands in `io_loop()`. -/
inductive IoPc where
  | loadRunning
  | poll
  | handle (identity payload : Bytes)
  | recordIdentity (identity payload : Bytes)
  | drain
  | returned
  | undefinedRead
  deriving DecidableEq

/-- The server.  `input` holds the frames that wait at the ROUTER socket,
`working` the requests the engine has taken and not answered. -/
structure EngineServer where
  running : Bool
  input : List Bytes
  requestQueue : Fifo.Bounded TransactionRequest queueCapacity
  replyQueue : Fifo.Bounded TxResponseEnvelope queueCapacity
  working : List TransactionRequest
  casePendingIdentities : Identities
  drainPendingIdentities : Identities
  pc : IoPc

/-- The server after `start()`. -/
def EngineServer.started : EngineServer where
  running := true
  input := []
  requestQueue := Fifo.Bounded.empty
  replyQueue := Fifo.Bounded.empty
  working := []
  casePendingIdentities := ∅
  drainPendingIdentities := ∅
  pc := .loadRunning

/-- What a step shows: a request pushed for the client it came from, an answer
sent at once, and an envelope popped with the messages sent for it. -/
inductive Event where
  | accepted (identity : Bytes) (req : TransactionRequest)
  | answered (identity : Bytes) (message : Bytes)
  | drained (envelope : TxResponseEnvelope) (sends : List (Bytes × Bytes))

/-- Who moves.  The I/O thread is given the serialized answer of the engine's
other member functions, should it call one, and the bytes that happen to be in a
`UUID` that is not initialised. -/
inductive Action where
  | io (answer : Bytes) (uninitialised : Uuid)
  | arrive (frames : List Bytes)
  | engineTake
  | engineReply (i : Nat) (resp : TransactionResponse)
  | stop

/-! ## §3. The steps. -/

/-- The error response when the request queue is full. -/
def queueFullResponse (correlationId uninitialised : Uuid) : TransactionResponse where
  correlationId := correlationId
  transactionId := uninitialised
  status := .errInternal
  message := ascii "Engine queue full"
  latencyUs := 0

/-- The case `MSG_TX_REQUEST`, up to the push. -/
def EngineServer.handleRequest (s : EngineServer) (uninitialised : Uuid)
    (identity payload : Bytes) : EngineServer × List Event :=
  match deserializeRequest payload with
  | none => ({ s with pc := .undefinedRead }, [])
  | some req =>
      match s.requestQueue.enqueue req with
      | none =>
          ({ s with pc := .drain },
            [.answered identity
              (serializeResponse (queueFullResponse req.correlationId uninitialised))])
      | some q =>
          ({ s with requestQueue := q, pc := .recordIdentity identity payload },
            [.accepted identity req])

/-- The `switch` over the message type. -/
def EngineServer.handle (s : EngineServer) (answer : Bytes) (uninitialised : Uuid)
    (identity payload : Bytes) : EngineServer × List Event :=
  match payload with
  | [] => ({ s with pc := .loadRunning }, [])
  | msgType :: _ =>
      if msgType = MSG_TX_REQUEST then s.handleRequest uninitialised identity payload
      else if msgType = MSG_CREATE_ACCOUNT then
        if (deserializeCreateAccount payload).isSome = true then
          ({ s with pc := .drain }, [.answered identity answer])
        else ({ s with pc := .undefinedRead }, [])
      else if msgType = MSG_METRICS_REQUEST ∨ msgType = MSG_BALANCE_REQUEST then
        if (readCorrelationId payload).isSome = true then
          ({ s with pc := .drain }, [.answered identity answer])
        else ({ s with pc := .undefinedRead }, [])
      else ({ s with pc := .drain }, [])

/-- One iteration of the drain. -/
def EngineServer.drainOne (s : EngineServer) : EngineServer × List Event :=
  match s.replyQueue.dequeue with
  | none => ({ s with pc := .loadRunning }, [])
  | some (envelope, q) =>
      let corrKey := envelope.response.correlationId.bytes
      match s.drainPendingIdentities.lookup corrKey with
      | some identity =>
          ({ s with
            replyQueue := q
            drainPendingIdentities := s.drainPendingIdentities.erase corrKey },
            [.drained envelope [(identity, serializeResponse envelope.response)]])
      | none => ({ s with replyQueue := q }, [.drained envelope []])

/-- One step of `io_loop()`.  `recv` blocks until the next frame is there. -/
def EngineServer.ioStep (s : EngineServer) (answer : Bytes) (uninitialised : Uuid) :
    Option (EngineServer × List Event) :=
  match s.pc with
  | .loadRunning =>
      if s.running = true then some ({ s with pc := .poll }, [])
      else some ({ s with pc := .returned }, [])
  | .poll =>
      match s.input with
      | [] => some ({ s with pc := .drain }, [])
      | identity :: _ :: payload :: rest =>
          some ({ s with input := rest, pc := .handle identity payload }, [])
      | _ => none
  | .handle identity payload => some (s.handle answer uninitialised identity payload)
  | .recordIdentity identity payload =>
      some ({ s with
        casePendingIdentities :=
          s.casePendingIdentities.insert ((payload.drop 1).take 16) identity
        pc := .drain }, [])
  | .drain => some s.drainOne
  | .returned => none
  | .undefinedRead => none

/-- The engine answers the request it holds at place `i`.  A reply that does not
fit into the queue is gone. -/
def EngineServer.answer (s : EngineServer) (i : Nat) (req : TransactionRequest)
    (resp : TransactionResponse) : EngineServer :=
  match s.replyQueue.enqueue ⟨[], { resp with correlationId := req.correlationId }⟩ with
  | some q => { s with replyQueue := q, working := s.working.eraseIdx i }
  | none => { s with working := s.working.eraseIdx i }

/-- One step of the I/O thread, the engine, a client or `stop()`. -/
def step (s : EngineServer) : Action → Option (EngineServer × List Event)
  | .io answer uninitialised => s.ioStep answer uninitialised
  | .arrive frames => some ({ s with input := s.input ++ frames }, [])
  | .engineTake =>
      s.requestQueue.dequeue.map
        (fun r => ({ s with requestQueue := r.2, working := s.working ++ [r.1] }, []))
  | .engineReply i resp => (s.working[i]?).map (fun req => (s.answer i req resp, []))
  | .stop => some ({ s with running := false }, [])

/-! ## §4. What a step can do. -/

/-- The two maps, and what the thread has in hand for one of them, stay. -/
structure SameIdentities (s s' : EngineServer) : Prop where
  ofCase : s'.casePendingIdentities = s.casePendingIdentities
  ofDrain : s'.drainPendingIdentities = s.drainPendingIdentities
  recording : ∀ identity payload, s'.pc = .recordIdentity identity payload →
    s.pc = .recordIdentity identity payload

/-- **Everything a step can do to the identities.** -/
inductive Effect (s : EngineServer) : EngineServer → List Event → Prop
  | aside {s' : EngineServer} : SameIdentities s s' → Effect s s' []
  | answer {s' : EngineServer} {identity message : Bytes} : SameIdentities s s' →
      Effect s s' [.answered identity message]
  | accept {q} {identity payload : Bytes} {req : TransactionRequest} :
      deserializeRequest payload = some req →
      Effect s { s with requestQueue := q, pc := .recordIdentity identity payload }
        [.accepted identity req]
  | record {identity payload : Bytes} : s.pc = .recordIdentity identity payload →
      Effect s
        { s with
          casePendingIdentities :=
            s.casePendingIdentities.insert ((payload.drop 1).take 16) identity
          pc := .drain } []
  | drainFound {q} {envelope : TxResponseEnvelope} {identity : Bytes} : s.pc = .drain →
      s.drainPendingIdentities.lookup envelope.response.correlationId.bytes = some identity →
      Effect s
        { s with
          replyQueue := q
          drainPendingIdentities :=
            s.drainPendingIdentities.erase envelope.response.correlationId.bytes }
        [.drained envelope [(identity, serializeResponse envelope.response)]]
  | drainNotFound {q} {envelope : TxResponseEnvelope} : s.pc = .drain →
      s.drainPendingIdentities.lookup envelope.response.correlationId.bytes = none →
      Effect s { s with replyQueue := q } [.drained envelope []]

section Steps

variable {s s' : EngineServer} {es : List Event}

theorem handle_effect {answer : Bytes} {uninitialised : Uuid} {identity payload : Bytes}
    (h : s.handle answer uninitialised identity payload = (s', es)) : Effect s s' es := by
  unfold EngineServer.handle at h
  split at h
  next =>
    cases h
    exact .aside ⟨rfl, rfl, by simp⟩
  next msgType rest =>
    split at h
    next =>
      unfold EngineServer.handleRequest at h
      split at h
      next =>
        cases h
        exact .aside ⟨rfl, rfl, by simp⟩
      next req hreq =>
        split at h
        next =>
          cases h
          exact .answer ⟨rfl, rfl, by simp⟩
        next q =>
          cases h
          exact .accept hreq
    next =>
      -- the other types are answered at once, or read past the end
      split at h
      · split at h
        · cases h
          exact .answer ⟨rfl, rfl, by simp⟩
        · cases h
          exact .aside ⟨rfl, rfl, by simp⟩
      · split at h
        · split at h
          · cases h
            exact .answer ⟨rfl, rfl, by simp⟩
          · cases h
            exact .aside ⟨rfl, rfl, by simp⟩
        · cases h
          exact .aside ⟨rfl, rfl, by simp⟩

theorem drainOne_effect (hpc : s.pc = .drain) (h : s.drainOne = (s', es)) : Effect s s' es := by
  unfold EngineServer.drainOne at h
  split at h
  next =>
    cases h
    exact .aside ⟨rfl, rfl, by simp⟩
  next envelope q hq =>
    dsimp only at h
    split at h
    next identity hlookup =>
      cases h
      exact .drainFound hpc hlookup
    next hlookup =>
      cases h
      exact .drainNotFound hpc hlookup

theorem ioStep_effect {answer : Bytes} {uninitialised : Uuid}
    (h : s.ioStep answer uninitialised = some (s', es)) : Effect s s' es := by
  unfold EngineServer.ioStep at h
  split at h
  next =>
    split at h <;> cases h <;> exact .aside ⟨rfl, rfl, by simp⟩
  next =>
    split at h
    · cases h
      exact .aside ⟨rfl, rfl, by simp⟩
    · cases h
      exact .aside ⟨rfl, rfl, by simp⟩
    · cases h
  -- a message with its identity and payload frames
  next identity payload hpc => exact handle_effect (Option.some.inj h)
  next identity payload hpc =>
    cases h
    exact .record hpc
  next hpc => exact drainOne_effect hpc (Option.some.inj h)
  next => cases h
  next => cases h

theorem answer_same (s : EngineServer) (i : Nat) (req : TransactionRequest)
    (resp : TransactionResponse) : SameIdentities s (s.answer i req resp) := by
  unfold EngineServer.answer
  split <;> exact ⟨rfl, rfl, fun _ _ h => h⟩

/-- **Every step is one of these.** -/
theorem step_effect {a : Action} (h : step s a = some (s', es)) : Effect s s' es := by
  cases a with
  | io answer uninitialised => exact ioStep_effect h
  | arrive frames =>
      cases h
      exact .aside ⟨rfl, rfl, fun _ _ h => h⟩
  | engineTake =>
      obtain ⟨r, -, heq⟩ := Option.map_eq_some_iff.mp h
      cases heq
      exact .aside ⟨rfl, rfl, fun _ _ h => h⟩
  | engineReply i resp =>
      obtain ⟨req, -, heq⟩ := Option.map_eq_some_iff.mp h
      cases heq
      exact .aside (answer_same s i req resp)
  | stop =>
      cases h
      exact .aside ⟨rfl, rfl, fun _ _ h => h⟩

end Steps

end ZeroLGR.Server
