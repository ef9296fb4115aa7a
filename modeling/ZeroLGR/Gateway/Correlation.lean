/-
  ZeroLGR.Gateway.Correlation — `_send_and_wait` and `_receiver_loop`.

  Any number of calls wait for answers on one socket.  The machine moves from one
  `await` to the next: the calls register, send, are woken, time out or are
  cancelled in any order, and the receiver takes one message after the other.
  `asyncio.wait_for` may find the five seconds over although the future is done.

    • `Future`, `Call`, `ZmqClient`, `ZmqClient.step` — the machine,
    • `receive_ok` — no message makes the receiver raise,
    • `ZmqClient.Effect`, `step_effect` — what a step can do,
    • `Correlated`, `run_correlated` — answers reach the calls they belong to,
      over every run.
-/
import ZeroLGR.Gateway.ZmqClient
import ZeroLGR.Lib.Transition

namespace ZeroLGR.Gateway

open Transition

/-! ## §1. Futures and calls. -/

/-- `asyncio.Future`. -/
inductive Future where
  | pending
  | result (msg : Bytes)
  | cancelled
  deriving DecidableEq

def Future.done : Future → Bool
  | .pending => false
  | .result _ => true
  | .cancelled => true

theorem Future.pending_of_not_done {future : Future} (h : future.done = false) :
    future = .pending := by
  cases future with
  | pending => rfl
  | result msg => cases h
  | cancelled => cases h

def Future.cancel : Future → Future
  | .pending => .cancelled
  | .result msg => .result msg
  | .cancelled => .cancelled

/-- What can be raised in the body of `_receiver_loop`. -/
inductive ReceiverError where
  | indexError
  | invalidStateError
  deriving DecidableEq

/-- `future.set_result(msg)`. -/
def Future.setResult (future : Future) (msg : Bytes) : Except ReceiverError Future :=
  if future.done = true then .error .invalidStateError else .ok (.result msg)

/-- Where a call stands in `_send_and_wait`. -/
inductive CallPc where
  | sending
  | waiting
  | expired
  | returned (msg : Bytes)
  | raised
  deriving DecidableEq

/-- A call with the future it has created. -/
structure Call where
  corrId : Bytes
  future : Future
  pc : CallPc
  deriving DecidableEq

/-- The receiver task. -/
inductive Receiver where
  | receiving
  | stopped
  | raised (e : ReceiverError)
  deriving DecidableEq

/-- `ZMQClient`.  `pendingRequests` leads from a correlation id to the call that
has the future, `received` counts the messages. -/
structure ZmqClient where
  pendingRequests : AList (fun _ : Bytes => Nat)
  calls : List Call
  received : Nat
  receiver : Receiver

/-- The client after `connect()`. -/
def ZmqClient.connected : ZmqClient := ⟨∅, [], 0, .receiving⟩

/-- What a step shows: call `i` has registered, the message number `n` has been
received, and the message number `n` has completed the future of call `i`. -/
inductive ZmqClient.Event where
  | registered (i : Nat) (corrId : Bytes)
  | received (n : Nat) (parts : List Bytes)
  | completed (i n : Nat)
  deriving DecidableEq

/-- A message has at least one part. -/
structure Incoming where
  parts : List Bytes
  sent : parts ≠ []

/-- Who moves: a new call up to its first `await`, call `i`, or the receiver. -/
inductive ZmqClient.Action where
  | call (corrId : Bytes)
  | sent (i : Nat)
  | sendFails (i : Nat)
  | resume (i : Nat)
  | expire (i : Nat)
  | timeout (i : Nat)
  | cancel (i : Nat)
  | receive (m : Incoming)
  | disconnect

/-! ## §2. The steps. -/

/-- `future = asyncio.Future()`, `self.pending_requests[corr_id] = future`. -/
def ZmqClient.register (s : ZmqClient) (corrId : Bytes) : ZmqClient :=
  { s with
    pendingRequests := s.pendingRequests.insert corrId s.calls.length
    calls := s.calls ++ [⟨corrId, .pending, .sending⟩] }

/-- Call `i` moves. -/
def ZmqClient.setCall (s : ZmqClient) (i : Nat) (call : Call) : ZmqClient :=
  { s with calls := s.calls.set i call }

/-- `parts[-1]`. -/
def lastPart (parts : List Bytes) : Except ReceiverError Bytes :=
  match parts.getLast? with
  | some msg => .ok msg
  | none => .error .indexError

/-- `msg[0]`. -/
def firstByte (msg : Bytes) : Except ReceiverError UInt8 :=
  match msg.head? with
  | some b => .ok b
  | none => .error .indexError

/-- The body of `_receiver_loop` behind its `await`. -/
def ZmqClient.receive (s : ZmqClient) (parts : List Bytes) :
    Except ReceiverError (ZmqClient × List ZmqClient.Event) := do
  let msg ← lastPart parts
  let heard := { s with received := s.received + 1 }
  -- one byte of type and sixteen of correlation id
  if msg.length < 17 then return (heard, [.received s.received parts])
  let _msgType ← firstByte msg
  let corrId := slice msg 1 17
  -- `self.pending_requests.pop(corr_id, None)`: the entry goes, done or not
  let popped := { heard with pendingRequests := s.pendingRequests.erase corrId }
  match s.pendingRequests.lookup corrId with
  | none => return (popped, [.received s.received parts])
  | some i =>
      match s.calls[i]? with
      | none => return (popped, [.received s.received parts])
      | some call =>
          -- `if future and not future.done()`
          if call.future.done = true then return (popped, [.received s.received parts])
          let future ← call.future.setResult msg
          return (popped.setCall i { call with future := future },
            [.received s.received parts, .completed i s.received])

/-- The step of call `i`, if it stands there. -/
def ZmqClient.move (s : ZmqClient) (i : Nat) (f : Call → Option ZmqClient) :
    Option (ZmqClient × List ZmqClient.Event) :=
  ((s.calls[i]?).bind f).map (fun s' => (s', []))

/-- One step of anybody.  If the five seconds are over, `wait_for` cancels the
future and raises behind another `await`. -/
def ZmqClient.step (s : ZmqClient) : ZmqClient.Action → Option (ZmqClient × List ZmqClient.Event)
  | .call corrId => some (s.register corrId, [.registered s.calls.length corrId])
  | .sent i =>
      s.move i fun call =>
        if call.pc = .sending then some (s.setCall i { call with pc := .waiting }) else none
  | .sendFails i =>
      s.move i fun call =>
        if call.pc = .sending then some (s.setCall i { call with pc := .raised }) else none
  | .resume i =>
      s.move i fun call =>
        match call.pc, call.future with
        | .waiting, .result msg => some (s.setCall i { call with pc := .returned msg })
        | _, _ => none
  | .expire i =>
      s.move i fun call =>
        if call.pc = .waiting then
          some (s.setCall i { call with future := call.future.cancel, pc := .expired })
        else none
  | .timeout i =>
      -- the `except` clause of `_send_and_wait`
      s.move i fun call =>
        if call.pc = .expired then
          some { s.setCall i { call with pc := .raised } with
            pendingRequests := s.pendingRequests.erase call.corrId }
        else none
  | .cancel i =>
      s.move i fun call =>
        match call.pc with
        -- outside of `wait_for` nobody cancels the future, and the entry stays
        | .sending => some (s.setCall i { call with pc := .raised })
        | .waiting => some (s.setCall i { call with future := call.future.cancel, pc := .raised })
        | .expired => some (s.setCall i { call with pc := .raised })
        | _ => none
  | .receive m =>
      if s.receiver = .receiving then
        match s.receive m.parts with
        | .ok r => some r
        | .error e =>
            some ({ s with received := s.received + 1, receiver := .raised e },
              [.received s.received m.parts])
      else none
  | .disconnect =>
      if s.receiver = .receiving then some ({ s with receiver := .stopped }, []) else none

/-! ## §3. What a step can do. -/

/-- The future stays, or was cancelled while it was pending. -/
def Future.Kept (future future' : Future) : Prop :=
  future' = future ∨ future = .pending ∧ future' = .cancelled

theorem Future.kept_cancel (future : Future) : future.Kept future.cancel := by
  cases future with
  | pending => exact .inr ⟨rfl, rfl⟩
  | result msg => exact .inl rfl
  | cancelled => exact .inl rfl

theorem Future.Kept.result {future future' : Future} (h : future.Kept future') (msg : Bytes)
    (hresult : future = .result msg) : future' = .result msg := by
  rcases h with hsame | ⟨hpending, -⟩
  · exact hsame.trans hresult
  · cases hpending.symm.trans hresult

theorem Future.Kept.of_result {future future' : Future} (h : future.Kept future') (msg : Bytes)
    (hresult : future' = .result msg) : future = .result msg := by
  rcases h with hsame | ⟨-, hcancelled⟩
  · exact hsame.symm.trans hresult
  · cases hcancelled.symm.trans hresult

/-- **Everything a step can do.** -/
inductive ZmqClient.Effect (s : ZmqClient) : ZmqClient → List ZmqClient.Event → Prop
  | register (corrId : Bytes) : Effect s (s.register corrId) [.registered s.calls.length corrId]
  | move {i : Nat} {call call' : Call} {s' : ZmqClient} : s.calls[i]? = some call →
      s'.calls = s.calls.set i call' → call'.corrId = call.corrId →
      call.future.Kept call'.future →
      (∀ msg, call'.pc = .returned msg → call.future = .result msg) →
      (∀ key j, s'.pendingRequests.lookup key = some j → s.pendingRequests.lookup key = some j) →
      s'.received = s.received → s'.receiver = s.receiver → Effect s s' []
  | drop {s' : ZmqClient} (parts : List Bytes) : s'.calls = s.calls →
      (∀ key j, s'.pendingRequests.lookup key = some j → s.pendingRequests.lookup key = some j) →
      s'.received = s.received + 1 → s'.receiver = s.receiver →
      Effect s s' [.received s.received parts]
  | complete {i : Nat} {call : Call} {s' : ZmqClient} {parts : List Bytes} {msg : Bytes} :
      parts.getLast? = some msg → 17 ≤ msg.length →
      s.pendingRequests.lookup (slice msg 1 17) = some i → s.calls[i]? = some call →
      call.future = .pending → s'.calls = s.calls.set i { call with future := .result msg } →
      (∀ key j, s'.pendingRequests.lookup key = some j → s.pendingRequests.lookup key = some j) →
      s'.received = s.received + 1 → s'.receiver = s.receiver →
      Effect s s' [.received s.received parts, .completed i s.received]
  | stop : Effect s { s with receiver := .stopped } []

section Steps

variable {s s' : ZmqClient} {es : List ZmqClient.Event}

theorem lookup_of_erase {m : AList (fun _ : Bytes => Nat)} {key key' : Bytes} {j : Nat}
    (h : (m.erase key).lookup key' = some j) : m.lookup key' = some j := by
  by_cases heq : key' = key
  · rw [heq, AList.lookup_erase] at h
    cases h
  · rwa [AList.lookup_erase_ne heq] at h

theorem firstByte_ok {msg : Bytes} (h : 17 ≤ msg.length) : ∃ b, firstByte msg = .ok b := by
  cases msg with
  | nil => exact absurd h (by decide)
  | cons b rest => exact ⟨b, rfl⟩

/-- A message has been heard, and the entry under its id taken out. -/
def ZmqClient.popped (s : ZmqClient) (key : Bytes) : ZmqClient :=
  { s with
    received := s.received + 1
    pendingRequests := s.pendingRequests.erase key }

/-- **What the receiver does with a message**: it drops a short one; it takes the
entry out; and it completes the future the entry leads to, if that is pending. -/
theorem receive_cases (s : ZmqClient) {parts : List Bytes} {msg : Bytes}
    (hmsg : parts.getLast? = some msg) :
    s.receive parts = .ok ({ s with received := s.received + 1 }, [.received s.received parts]) ∨
      17 ≤ msg.length ∧
        (s.receive parts = .ok (s.popped (slice msg 1 17), [.received s.received parts]) ∨
          ∃ i call, s.pendingRequests.lookup (slice msg 1 17) = some i ∧
            s.calls[i]? = some call ∧ call.future = .pending ∧
            s.receive parts =
              .ok ((s.popped (slice msg 1 17)).setCall i { call with future := .result msg },
                [.received s.received parts, .completed i s.received])) := by
  have hlast : lastPart parts = .ok msg := by
    unfold lastPart
    rw [hmsg]
  unfold ZmqClient.receive
  rw [hlast]
  by_cases hshort : msg.length < 17
  · left
    show (if msg.length < 17 then _ else _) = _
    rw [if_pos hshort]
    rfl
  · obtain ⟨b, hb⟩ := firstByte_ok (Nat.not_lt.mp hshort)
    refine .inr ⟨Nat.not_lt.mp hshort, ?_⟩
    show (if msg.length < 17 then _ else _) = _ ∨ ∃ i call, _ ∧ _ ∧ _ ∧
      (if msg.length < 17 then _ else _) = _
    simp only [if_neg hshort, hb]
    cases hlookup : s.pendingRequests.lookup (slice msg 1 17) with
    | none =>
        left
        rfl
    | some i =>
        cases hcall : s.calls[i]? with
        | none =>
            left
            simp only [hcall]
            rfl
        | some call =>
            cases hdone : call.future.done with
            | true =>
                left
                simp only [hcall, hdone]
                rfl
            | false =>
                have hpending := Future.pending_of_not_done hdone
                have hset : call.future.setResult msg = .ok (.result msg) := by
                  rw [hpending]
                  rfl
                refine .inr ⟨i, call, rfl, hcall, hpending, ?_⟩
                simp only [hcall, hdone, hset]
                rfl

/-- **No message makes the receiver raise**: the last part is there, the first
byte is there, and the future is not done. -/
theorem receive_ok (s : ZmqClient) {parts : List Bytes} (hparts : parts ≠ []) :
    ∃ s' es, s.receive parts = .ok (s', es) ∧ ZmqClient.Effect s s' es := by
  obtain ⟨msg, hmsg⟩ : ∃ msg, parts.getLast? = some msg :=
    ⟨_, List.getLast?_eq_some_getLast hparts⟩
  rcases receive_cases s hmsg with h | ⟨hlength, h | ⟨i, call, hlookup, hcall, hpending, h⟩⟩
  · exact ⟨_, _, h, .drop parts rfl (fun _ _ h => h) rfl rfl⟩
  · exact ⟨_, _, h, .drop parts rfl (fun _ _ h => lookup_of_erase h) rfl rfl⟩
  · exact ⟨_, _, h, .complete hmsg hlength hlookup hcall hpending rfl
      (fun _ _ h => lookup_of_erase h) rfl rfl⟩

theorem move_inv {i : Nat} {f : Call → Option ZmqClient} (h : s.move i f = some (s', es)) :
    es = [] ∧ ∃ call, s.calls[i]? = some call ∧ f call = some s' := by
  unfold ZmqClient.move at h
  obtain ⟨s'', hbind, heq⟩ := Option.map_eq_some_iff.mp h
  cases heq
  exact ⟨rfl, Option.bind_eq_some_iff.mp hbind⟩

/-- A call moves, and its id stays. -/
theorem move_effect {i : Nat} {f : Call → Option ZmqClient} (h : s.move i f = some (s', es))
    (hf : ∀ call, s.calls[i]? = some call → f call = some s' → ZmqClient.Effect s s' []) :
    ZmqClient.Effect s s' es := by
  obtain ⟨rfl, call, hcall, hs'⟩ := move_inv h
  exact hf call hcall hs'

/-- A call goes on; it returns only with the result of its future. -/
theorem setPc_effect {i : Nat} {call : Call} {pc : CallPc} (hcall : s.calls[i]? = some call)
    (hpc : ∀ msg, pc = .returned msg → call.future = .result msg) :
    ZmqClient.Effect s (s.setCall i { call with pc := pc }) [] :=
  .move hcall rfl rfl (.inl rfl) hpc (fun _ _ h => h) rfl rfl

/-- A call gives its future up. -/
theorem cancelFuture_effect {i : Nat} {call : Call} {pc : CallPc} (hcall : s.calls[i]? = some call)
    (hpc : ∀ msg, pc ≠ .returned msg) :
    ZmqClient.Effect s (s.setCall i { call with future := call.future.cancel, pc := pc }) [] :=
  .move hcall rfl rfl call.future.kept_cancel (fun msg h => absurd h (hpc msg)) (fun _ _ h => h)
    rfl rfl

/-- **Every step is one of these.** -/
theorem ZmqClient.step_effect {a : ZmqClient.Action} (h : s.step a = some (s', es)) :
    ZmqClient.Effect s s' es := by
  cases a with
  | call corrId =>
      cases h
      exact .register corrId
  | sent i =>
      refine move_effect h (fun call hcall hf => ?_)
      split at hf
      · cases hf
        exact setPc_effect hcall (fun _ hpc => by cases hpc)
      · cases hf
  | sendFails i =>
      refine move_effect h (fun call hcall hf => ?_)
      split at hf
      · cases hf
        exact setPc_effect hcall (fun _ hpc => by cases hpc)
      · cases hf
  | resume i =>
      refine move_effect h (fun call hcall hf => ?_)
      split at hf
      next msg hpc hfuture =>
        cases hf
        refine setPc_effect hcall ?_
        intro msg' hpc'
        cases hpc'
        exact hfuture
      next => cases hf
  | expire i =>
      refine move_effect h (fun call hcall hf => ?_)
      split at hf
      · cases hf
        exact cancelFuture_effect hcall (fun _ hpc => by cases hpc)
      · cases hf
  | timeout i =>
      refine move_effect h (fun call hcall hf => ?_)
      split at hf
      · cases hf
        exact .move hcall rfl rfl (.inl rfl) (fun _ hpc => by cases hpc)
          (fun _ _ h => lookup_of_erase h) rfl rfl
      · cases hf
  | cancel i =>
      refine move_effect h (fun call hcall hf => ?_)
      split at hf
      · cases hf
        exact setPc_effect hcall (fun _ hpc => by cases hpc)
      · cases hf
        exact cancelFuture_effect hcall (fun _ hpc => by cases hpc)
      · cases hf
        exact setPc_effect hcall (fun _ hpc => by cases hpc)
      · cases hf
  | receive m =>
      obtain ⟨t, ts, hok, heffect⟩ := receive_ok s m.sent
      unfold ZmqClient.step at h
      dsimp only at h
      split at h
      · rw [hok] at h
        cases h
        exact heffect
      · cases h
  | disconnect =>
      unfold ZmqClient.step at h
      dsimp only at h
      split at h
      · cases h
        exact .stop
      · cases h

end Steps

/-! ## §4. The invariant. -/

/-- The number of a message. -/
def ZmqClient.Event.number : ZmqClient.Event → Option Nat
  | .received n _ => some n
  | _ => none

/-- A call with the number of the message that completes it. -/
def ZmqClient.Event.completion : ZmqClient.Event → Option (Nat × Nat)
  | .completed i n => some (i, n)
  | _ => none

def completions (tr : List ZmqClient.Event) : List (Nat × Nat) :=
  tr.filterMap ZmqClient.Event.completion

theorem completions_append (tr es : List ZmqClient.Event) :
    completions (tr ++ es) = completions tr ++ completions es := List.filterMap_append

theorem mem_completions {tr : List ZmqClient.Event} {i n : Nat} :
    (i, n) ∈ completions tr ↔ .completed i n ∈ tr := by
  unfold completions
  rw [List.mem_filterMap]
  constructor
  · intro h
    obtain ⟨e, he, heq⟩ := h
    cases e with
    | registered j corrId => cases heq
    | received m parts => cases heq
    | completed j m =>
        cases heq
        exact he
  · exact fun h => ⟨_, h, rfl⟩

/-- Call `i` has registered, and then a message has come for it that carries its
correlation id in the bytes 1 to 16, and that has completed it. -/
def Answered (tr : List ZmqClient.Event) (i : Nat) (corrId msg : Bytes) : Prop :=
  ∃ a b c n parts, tr = a ++ .registered i corrId :: (b ++ .received n parts :: c) ∧
    .completed i n ∈ c ∧ parts.getLast? = some msg ∧ 17 ≤ msg.length ∧
    (msg.drop 1).take 16 = corrId

theorem Answered.append {tr : List ZmqClient.Event} {i : Nat} {corrId msg : Bytes}
    (h : Answered tr i corrId msg) (es : List ZmqClient.Event) :
    Answered (tr ++ es) i corrId msg := by
  obtain ⟨a, b, c, n, parts, rfl, hc, hmsg, hlen, hid⟩ := h
  refine ⟨a, b, c ++ es, n, parts, ?_, List.mem_append_left _ hc, hmsg, hlen, hid⟩
  simp only [List.append_assoc, List.cons_append]

/-- The invariant of the client and the record of its run. -/
structure Matched (s : ZmqClient) (tr : List ZmqClient.Event) : Prop where
  receiver : ∀ e, s.receiver ≠ .raised e
  numbers : tr.filterMap ZmqClient.Event.number = List.range s.received
  pending : ∀ key i, s.pendingRequests.lookup key = some i →
    ∃ call, s.calls[i]? = some call ∧ call.corrId = key
  registered : ∀ i call, s.calls[i]? = some call → .registered i call.corrId ∈ tr
  answered : ∀ i call msg, s.calls[i]? = some call → call.future = .result msg →
    Answered tr i call.corrId msg
  returned : ∀ i call msg, s.calls[i]? = some call → call.pc = .returned msg →
    Answered tr i call.corrId msg
  completed : ∀ i n, .completed i n ∈ tr → n < s.received ∧
    ∃ call msg, s.calls[i]? = some call ∧ call.future = .result msg
  calls : ((completions tr).map Prod.fst).Nodup
  messages : ((completions tr).map Prod.snd).Nodup

/-- Every call is still there, under its id, and keeps its result. -/
def Carried (s s' : ZmqClient) : Prop :=
  ∀ (i : Nat) (call : Call), s.calls[i]? = some call → ∃ call' : Call, s'.calls[i]? = some call' ∧
    call'.corrId = call.corrId ∧ ∀ msg, call.future = .result msg → call'.future = .result msg

section Invariant

variable {s s' : ZmqClient} {tr : List ZmqClient.Event}

theorem carried_of_calls (h : s'.calls = s.calls) : Carried s s' := by
  intro i call hcall
  exact ⟨call, by rw [h]; exact hcall, rfl, fun _ h => h⟩

theorem carried_of_append {call : Call} (h : s'.calls = s.calls ++ [call]) : Carried s s' := by
  intro i call' hcall
  refine ⟨call', ?_, rfl, fun _ h => h⟩
  rw [h, List.getElem?_append_left (List.getElem?_eq_some_iff.mp hcall).1]
  exact hcall

theorem carried_of_set {i : Nat} {call call' : Call} (hcall : s.calls[i]? = some call)
    (h : s'.calls = s.calls.set i call') (hid : call'.corrId = call.corrId)
    (hresult : ∀ msg, call.future = .result msg → call'.future = .result msg) : Carried s s' := by
  intro j c hc
  by_cases hj : i = j
  · rw [← hj, hcall] at hc
    cases hc
    refine ⟨call', ?_, hid, hresult⟩
    rw [h, ← hj, List.getElem?_set_self (List.getElem?_eq_some_iff.mp hcall).1]
  · refine ⟨c, ?_, rfl, fun _ h => h⟩
    rw [h, List.getElem?_set_ne hj]
    exact hc

/-- A call of the list after a call has moved. -/
theorem of_getElem?_set {calls : List Call} {i j : Nat} {call' c : Call}
    (h : (calls.set i call')[j]? = some c) : (i = j ∧ c = call') ∨ calls[j]? = some c := by
  by_cases hj : i = j
  · rw [← hj] at h
    obtain ⟨hlt, heq⟩ := List.getElem?_eq_some_iff.mp h
    rw [List.getElem_set_self] at heq
    exact .inl ⟨hj, heq.symm⟩
  · rw [List.getElem?_set_ne hj] at h
    exact .inr h

theorem Matched.pending_of (hM : Matched s tr) (hcarried : Carried s s')
    (hpending : ∀ key j, s'.pendingRequests.lookup key = some j →
      s.pendingRequests.lookup key = some j) {key : Bytes} {i : Nat}
    (h : s'.pendingRequests.lookup key = some i) :
    ∃ call, s'.calls[i]? = some call ∧ call.corrId = key := by
  obtain ⟨call, hcall, hid⟩ := hM.pending key i (hpending key i h)
  obtain ⟨call', hcall', hid', -⟩ := hcarried i call hcall
  exact ⟨call', hcall', hid'.trans hid⟩

theorem Matched.completed_of (hM : Matched s tr) (hcarried : Carried s s')
    (hreceived : s.received ≤ s'.received) {i n : Nat} (h : .completed i n ∈ tr) :
    n < s'.received ∧ ∃ call msg, s'.calls[i]? = some call ∧ call.future = .result msg := by
  obtain ⟨hn, call, msg, hcall, hfuture⟩ := hM.completed i n h
  obtain ⟨call', hcall', -, hresult⟩ := hcarried i call hcall
  exact ⟨Nat.lt_of_lt_of_le hn hreceived, call', msg, hcall', hresult msg hfuture⟩

/-- A new call is registered under its id, and nothing has happened to it. -/
theorem Matched.register (hM : Matched s tr) (corrId : Bytes) :
    Matched (s.register corrId) (tr ++ [.registered s.calls.length corrId]) := by
  have hcarried : Carried s (s.register corrId) := carried_of_append rfl
  have hnew : (s.register corrId).calls[s.calls.length]? = some ⟨corrId, .pending, .sending⟩ :=
    List.getElem?_concat_length
  have hcases : ∀ i call, (s.register corrId).calls[i]? = some call → s.calls[i]? = some call ∨
      i = s.calls.length ∧ call = ⟨corrId, .pending, .sending⟩ := by
    intro i call hcall
    by_cases hi : i < s.calls.length
    · left
      rw [← hcall]
      exact (List.getElem?_append_left hi).symm
    · right
      have hlt := (List.getElem?_eq_some_iff.mp hcall).1
      have hlength : (s.register corrId).calls.length = s.calls.length + 1 :=
        List.length_append
      have heq : i = s.calls.length := by omega
      rw [heq, hnew] at hcall
      exact ⟨heq, (Option.some.inj hcall).symm⟩
  refine ⟨hM.receiver, ?_, ?_, ?_, ?_, ?_, ?_, ?_, ?_⟩
  · rw [List.filterMap_append, hM.numbers]
    exact List.append_nil _
  · intro key i hlookup
    by_cases hkey : key = corrId
    · have hi : i = s.calls.length := by
        rw [hkey] at hlookup
        exact Option.some.inj (hlookup.symm.trans (AList.lookup_insert _))
      exact ⟨_, by rw [hi]; exact hnew, hkey.symm⟩
    · have hold : s.pendingRequests.lookup key = some i :=
        (AList.lookup_insert_ne hkey).symm.trans hlookup
      obtain ⟨call, hcall, hid⟩ := hM.pending key i hold
      obtain ⟨call', hcall', hid', -⟩ := hcarried i call hcall
      exact ⟨call', hcall', hid'.trans hid⟩
  · intro i call hcall
    rcases hcases i call hcall with hold | ⟨rfl, rfl⟩
    · exact List.mem_append_left _ (hM.registered i call hold)
    · exact List.mem_append_right _ (List.mem_singleton_self _)
  · intro i call msg hcall hfuture
    rcases hcases i call hcall with hold | ⟨-, rfl⟩
    · exact (hM.answered i call msg hold hfuture).append _
    · cases hfuture
  · intro i call msg hcall hpc
    rcases hcases i call hcall with hold | ⟨-, rfl⟩
    · exact (hM.returned i call msg hold hpc).append _
    · cases hpc
  · intro i n hmem
    rcases List.mem_append.mp hmem with hold | hnew
    · exact hM.completed_of hcarried (Nat.le_refl _) hold
    · cases List.mem_singleton.mp hnew
  · rw [completions_append]
    exact (List.append_nil (completions tr)).symm ▸ hM.calls
  · rw [completions_append]
    exact (List.append_nil (completions tr)).symm ▸ hM.messages

/-- Each call of the second client was there before; what has come for it had
come before. -/
def OnlyMoves (s s' : ZmqClient) : Prop :=
  ∀ (i : Nat) (call : Call), s'.calls[i]? = some call → ∃ old : Call, s.calls[i]? = some old ∧
    old.corrId = call.corrId ∧ (∀ msg, call.future = .result msg → old.future = .result msg) ∧
    ∀ msg, call.pc = .returned msg → old.pc = .returned msg ∨ old.future = .result msg

theorem onlyMoves_of_calls (h : s'.calls = s.calls) : OnlyMoves s s' := by
  intro i call hcall
  exact ⟨call, by rw [← h]; exact hcall, rfl, fun _ h => h, fun _ h => .inl h⟩

theorem onlyMoves_of_set {i : Nat} {call call' : Call} (hcall : s.calls[i]? = some call)
    (h : s'.calls = s.calls.set i call') (hid : call'.corrId = call.corrId)
    (hkept : call.future.Kept call'.future)
    (hreturned : ∀ msg, call'.pc = .returned msg → call.future = .result msg) :
    OnlyMoves s s' := by
  intro j c hc
  rw [h] at hc
  rcases of_getElem?_set hc with ⟨rfl, rfl⟩ | hold
  · exact ⟨call, hcall, hid.symm, hkept.of_result, fun msg hpc => .inr (hreturned msg hpc)⟩
  · exact ⟨c, hold, rfl, fun _ h => h, fun _ h => .inl h⟩

/-- Steps that complete no call. -/
theorem Matched.aside {es : List ZmqClient.Event} (hM : Matched s tr) (hcarried : Carried s s')
    (hmoves : OnlyMoves s s') (hreceiver : ∀ e, s'.receiver ≠ .raised e)
    (hnumbers : (tr ++ es).filterMap ZmqClient.Event.number = List.range s'.received)
    (hreceived : s.received ≤ s'.received) (hes : completions es = [])
    (hpending : ∀ key j, s'.pendingRequests.lookup key = some j →
      s.pendingRequests.lookup key = some j) :
    Matched s' (tr ++ es) := by
  refine ⟨hreceiver, hnumbers, ?_, ?_, ?_, ?_, ?_, ?_, ?_⟩
  · intro key i hlookup
    exact hM.pending_of hcarried hpending hlookup
  · intro i call hcall
    obtain ⟨old, hold, hid, -⟩ := hmoves i call hcall
    rw [← hid]
    exact List.mem_append_left _ (hM.registered i old hold)
  · intro i call msg hcall hfuture
    obtain ⟨old, hold, hid, hresult, -⟩ := hmoves i call hcall
    rw [← hid]
    exact (hM.answered i old msg hold (hresult msg hfuture)).append es
  · intro i call msg hcall hpc
    obtain ⟨old, hold, hid, -, hreturned⟩ := hmoves i call hcall
    rw [← hid]
    rcases hreturned msg hpc with hbefore | hnow
    · exact (hM.returned i old msg hold hbefore).append es
    · exact (hM.answered i old msg hold hnow).append es
  · intro i n hmem
    rw [← mem_completions, completions_append, hes, List.append_nil, mem_completions] at hmem
    exact hM.completed_of hcarried hreceived hmem
  · rw [completions_append, hes, List.append_nil]
    exact hM.calls
  · rw [completions_append, hes, List.append_nil]
    exact hM.messages

theorem Matched.numbers_received (hM : Matched s tr) (parts : List Bytes)
    {es : List ZmqClient.Event} (hes : es.filterMap ZmqClient.Event.number = []) :
    (tr ++ .received s.received parts :: es).filterMap ZmqClient.Event.number =
      List.range (s.received + 1) := by
  rw [List.filterMap_append, hM.numbers, List.range_succ]
  show _ ++ s.received :: es.filterMap ZmqClient.Event.number = _
  rw [hes]

/-- **The message completes the call it belongs to**, which no message has
completed before. -/
theorem Matched.complete {i : Nat} {call : Call} {parts : List Bytes} {msg : Bytes}
    (hM : Matched s tr) (hmsg : parts.getLast? = some msg) (hlen : 17 ≤ msg.length)
    (hlookup : s.pendingRequests.lookup (slice msg 1 17) = some i)
    (hcall : s.calls[i]? = some call) (hfuture : call.future = .pending)
    (hcalls : s'.calls = s.calls.set i { call with future := .result msg })
    (hpending : ∀ key j, s'.pendingRequests.lookup key = some j →
      s.pendingRequests.lookup key = some j)
    (hreceived : s'.received = s.received + 1) (hreceiver : s'.receiver = s.receiver) :
    Matched s' (tr ++ [.received s.received parts, .completed i s.received]) := by
  have hcarried : Carried s s' := by
    refine carried_of_set hcall hcalls rfl ?_
    intro msg' hresult
    rw [hfuture] at hresult
    cases hresult
  have hnow : s'.calls[i]? = some { call with future := .result msg } := by
    rw [hcalls, List.getElem?_set_self (List.getElem?_eq_some_iff.mp hcall).1]
  have hid : slice msg 1 17 = call.corrId := by
    obtain ⟨call', hcall', hid⟩ := hM.pending _ _ hlookup
    rw [← hid, Option.some.inj (hcall.symm.trans hcall')]
  have hanswered : Answered (tr ++ [.received s.received parts, .completed i s.received]) i
      call.corrId msg := by
    obtain ⟨a, b, htr⟩ := List.append_of_mem (hM.registered i call hcall)
    refine ⟨a, b, [.completed i s.received], s.received, parts, ?_, List.mem_singleton_self _,
      hmsg, hlen, hid⟩
    rw [htr, List.append_assoc]
    rfl
  -- the fields of the invariant in order
  refine ⟨?_, ?_, ?_, ?_, ?_, ?_, ?_, ?_, ?_⟩
  · rw [hreceiver]
    exact hM.receiver
  · rw [hreceived]
    exact hM.numbers_received parts rfl
  · intro key j hlookup'
    exact hM.pending_of hcarried hpending hlookup'
  · intro j c hc
    rw [hcalls] at hc
    rcases of_getElem?_set hc with ⟨rfl, rfl⟩ | hold
    · exact List.mem_append_left _ (hM.registered i call hcall)
    · exact List.mem_append_left _ (hM.registered j c hold)
  · intro j c msg' hc hresult
    rw [hcalls] at hc
    rcases of_getElem?_set hc with ⟨rfl, rfl⟩ | hold
    · cases hresult
      exact hanswered
    · exact (hM.answered j c msg' hold hresult).append _
  · intro j c msg' hc hpc
    rw [hcalls] at hc
    rcases of_getElem?_set hc with ⟨rfl, rfl⟩ | hold
    · exact (hM.returned i call msg' hcall hpc).append _
    · exact (hM.returned j c msg' hold hpc).append _
  · intro j n hmem
    rcases List.mem_append.mp hmem with hold | hnew
    · exact hM.completed_of hcarried (by rw [hreceived]; exact Nat.le_succ _) hold
    · rcases List.mem_cons.mp hnew with heq | hlast
      · cases heq
      · cases List.mem_singleton.mp hlast
        exact ⟨by rw [hreceived]; exact Nat.lt_succ_self _, _, msg, hnow, rfl⟩
  · -- the call has not been completed: its future was pending
    rw [completions_append, List.map_append, List.nodup_append]
    refine ⟨hM.calls, List.nodup_singleton _, ?_⟩
    intro j hj k hk heq
    obtain ⟨p, hp, rfl⟩ := List.mem_map.mp hj
    cases List.mem_singleton.mp hk
    obtain ⟨-, call', msg', hcall', hresult⟩ := hM.completed p.1 p.2 (mem_completions.mp hp)
    rw [heq, hcall] at hcall'
    cases hcall'
    rw [hfuture] at hresult
    cases hresult
  · -- the message has not completed a call: it has just come
    rw [completions_append, List.map_append, List.nodup_append]
    refine ⟨hM.messages, List.nodup_singleton _, ?_⟩
    intro n hn m hm heq
    obtain ⟨p, hp, rfl⟩ := List.mem_map.mp hn
    cases List.mem_singleton.mp hm
    have hlt := (hM.completed p.1 p.2 (mem_completions.mp hp)).1
    exact absurd heq (Nat.ne_of_lt hlt)

/-- **One step.** -/
theorem Matched.step {a : ZmqClient.Action} {es : List ZmqClient.Event} (hM : Matched s tr)
    (h : s.step a = some (s', es)) : Matched s' (tr ++ es) := by
  cases ZmqClient.step_effect h with
  | register corrId => exact hM.register corrId
  | move hcall hcalls hid hkept hreturned hpending hreceived hreceiver =>
      refine hM.aside (carried_of_set hcall hcalls hid hkept.result)
        (onlyMoves_of_set hcall hcalls hid hkept hreturned) ?_ ?_ (Nat.le_of_eq hreceived.symm) rfl
        hpending
      · rw [hreceiver]
        exact hM.receiver
      · rw [List.append_nil, hreceived]
        exact hM.numbers
  | drop parts hcalls hpending hreceived hreceiver =>
      refine hM.aside (carried_of_calls hcalls) (onlyMoves_of_calls hcalls) ?_ ?_ ?_ rfl hpending
      · rw [hreceiver]
        exact hM.receiver
      · rw [hreceived]
        exact hM.numbers_received parts rfl
      · rw [hreceived]
        exact Nat.le_succ _
  | complete hmsg hlen hlookup hcall hfuture hcalls hpending hreceived hreceiver =>
      exact hM.complete hmsg hlen hlookup hcall hfuture hcalls hpending hreceived hreceiver
  | stop =>
      refine hM.aside (carried_of_calls rfl) (onlyMoves_of_calls rfl) (fun e h => by cases h) ?_
        (Nat.le_refl _) rfl (fun _ _ h => h)
      rw [List.append_nil]
      exact hM.numbers

end Invariant

/-! ## §5. All runs. -/

theorem matched_connected : Matched .connected [] := by
  refine ⟨fun e h => (by cases h), rfl, ?_, ?_, ?_, ?_, ?_, List.nodup_nil, List.nodup_nil⟩
  · intro key i h
    exact absurd h (by simp [ZmqClient.connected])
  all_goals
    intros
    contradiction

/-- **Answers reach the calls they belong to.**  The messages are numbered as
they come. -/
structure Correlated (t : Traced ZmqClient ZmqClient.Event) : Prop where
  returned : ∀ i call msg, t.state.calls[i]? = some call → call.pc = .returned msg →
    Answered t.trace i call.corrId msg
  numbers : (t.trace.filterMap ZmqClient.Event.number).Nodup
  messages : ((completions t.trace).map Prod.snd).Nodup
  calls : ((completions t.trace).map Prod.fst).Nodup
  receiver : ∀ e, t.state.receiver ≠ .raised e

/-- **ANSWERS REACH THE CALLS THEY BELONG TO**, in every interleaving, and nothing
that comes in makes the receiver raise. -/
theorem run_correlated {acts : List ZmqClient.Action} {t : Traced ZmqClient ZmqClient.Event}
    (h : run (traced ZmqClient.step) ⟨.connected, []⟩ acts = some t) : Correlated t := by
  have hM : Matched t.state t.trace :=
    traced_invariant Matched (fun s tr a s' es hs hstep => hs.step hstep) matched_connected h
  refine ⟨hM.returned, ?_, hM.messages, hM.calls, hM.receiver⟩
  rw [hM.numbers]
  exact List.nodup_range

/-- Two calls.  The second is answered first; then come a message of one byte,
the answer to the first, the same again and one nobody waits for.  The first call
finds its time over although its answer is there. -/
theorem twoCalls_correlated :
    ∃ acts t, run (traced ZmqClient.step) ⟨.connected, []⟩ acts = some t ∧
      t.state.calls.map Call.pc = [.raised, .returned (0x81 :: List.replicate 16 2)] ∧
      completions t.trace = [(1, 0), (0, 2)] ∧ Correlated t := by
  have answer : ∀ id : UInt8, [[], 0x81 :: List.replicate 16 id] ≠ ([] : List Bytes) :=
    fun _ => List.cons_ne_nil _ _
  obtain ⟨acts, hacts⟩ : ∃ acts : List ZmqClient.Action, acts =
      [.call (List.replicate 16 1), .call (List.replicate 16 2), .sent 1, .sent 0,
        .receive ⟨_, answer 2⟩, .receive ⟨[[0x81]], List.cons_ne_nil _ _⟩,
        .receive ⟨_, answer 1⟩, .receive ⟨_, answer 1⟩, .receive ⟨_, answer 3⟩,
        .expire 0, .resume 1, .timeout 0] := ⟨_, rfl⟩
  have hrun : ∃ t, run (traced ZmqClient.step) ⟨.connected, []⟩ acts = some t ∧
      t.state.calls.map Call.pc = [.raised, .returned (0x81 :: List.replicate 16 2)] ∧
      completions t.trace = [(1, 0), (0, 2)] := by
    rw [hacts]
    exact ⟨_, rfl, rfl, rfl⟩
  obtain ⟨t, hrun, hpcs, hcompletions⟩ := hrun
  exact ⟨acts, t, hrun, hpcs, hcompletions, run_correlated hrun⟩

end ZeroLGR.Gateway
