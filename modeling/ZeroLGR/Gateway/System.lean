/-
  ZeroLGR.Gateway.System — Stripe, the gateway and the engine together.

  Webhooks arrive in any order and number, and each runs its own coroutine.  A
  message between the gateway and the engine may take any time, overtake others
  or be lost.  The engine runs by itself, and other calls of its member
  functions may come at any time.  `uuid.uuid4()` returns no value twice.

    • `System`, `Action`, `Event`, `step` — the machine,
    • `Effect`, `step_effect` — everything a step can do,
    • `run_ledger` — every run is a run of the engine,
    • `Honest`, `run_honest` — what is under way was sent.
-/
import ZeroLGR.Gateway.Saga
import ZeroLGR.Ledger.Outcome

namespace ZeroLGR.Gateway

open Transition Ledger Server

/-! ## §1. The machine. -/

/-- The engine, the messages on their way to it and back, what `uuid4` has
returned and for which transfer, and the coroutines of the gateway. -/
structure System where
  engine : LedgerEngine
  toEngine : List Bytes
  toGateway : List Bytes
  sent : List (Uuid × Transfer)
  tasks : List Task

/-- Before the first webhook. -/
def System.started (wal : Wal.WriteAheadLog) : System where
  engine := .init wal
  toEngine := []
  toGateway := []
  sent := []
  tasks := []

/-- What `stripe.Webhook.construct_event` makes of a request. -/
inductive Webhook where
  | invalidPayload
  | invalidSignature
  | chargeSucceeded (charge : Charge)
  | chargeRefunded (charge : Charge)
  | other (type : String)

/-- The arguments of `stripe.Refund.create`. -/
structure RefundRequest where
  charge : String
  amount : Int
  idempotencyKey : String
  deriving DecidableEq

/-- What `compensate_stripe_charge` asks for. -/
def Charge.refund (charge : Charge) : RefundRequest where
  charge := charge.id
  amount := charge.amount
  idempotencyKey := "refund-" ++ charge.id

/-- What a step shows. -/
inductive Event where
  | ledger (e : Ledger.Event)
  | broadcast (chargeId : String) (message : SagaMessage)
  | refund (request : RefundRequest) (accepted : Bool)
  | acknowledged
  | badRequest (detail : String)

/-- Who moves.  A coroutine is named by its place in the list, and so is a
message on its way. -/
inductive Action where
  | webhook (request : Webhook)
  | transfer (args : Transfer)
  | broadcast (i : Nat) (raises : Option String)
  | send (i : Nat) (corrId : Uuid) (fails : Bool)
  | loseRequest (k : Nat)
  | ioReceive (k : Nat) (uninitialised : Uuid)
  | engine (now : Int64) (os : Wal.OsReply)
  | call (a : Ledger.Action)
  | ioDrain (sends : Bool)
  | loseReply (k : Nat)
  | receive (k : Nat)
  | timeout (i : Nat)
  | refund (i : Nat) (accepted : Bool) (raises : Option String)

/-! ## §2. The steps. -/

/-- The coroutine waits for the correlation id. -/
def Task.awaits (key : Bytes) (task : Task) : Bool :=
  match task.pc with
  | .wait corrId => decide (corrId.bytes = key)
  | _ => false

/-- The coroutine goes on. -/
def System.resume (s : System) (i : Nat) (task : Task) (pc : TaskPc) : System :=
  { s with tasks := s.tasks.set i { task with pc := pc } }

/-- `handle_stripe_webhook`, up to its first `await`. -/
def System.webhook (s : System) : Webhook → System × List Event
  | .invalidPayload => (s, [.badRequest "Invalid payload"])
  | .invalidSignature => (s, [.badRequest "Invalid signature"])
  | .chargeSucceeded charge => ({ s with tasks := s.tasks ++ [(Job.saga charge).start] }, [])
  | .chargeRefunded charge => ({ s with tasks := s.tasks ++ [(Job.reversal charge).start] }, [])
  | .other _ => (s, [.acknowledged])

/-- A broadcast of the coroutine returns, or raises. -/
def System.broadcast (s : System) (i : Nat) (raises : Option String) :
    Option (System × List Event) :=
  match s.tasks[i]? with
  | some ⟨.saga charge, pc⟩ =>
      pc.message.map (fun message =>
        (s.resume i ⟨.saga charge, pc⟩ (pc.onBroadcast raises), [.broadcast charge.id message]))
  | _ => none

/-- `send_transaction`, up to the wait for the answer. -/
def System.send (settings : Settings) (s : System) (i : Nat) (corrId : Uuid) (fails : Bool) :
    Option (System × List Event) :=
  match s.tasks[i]? with
  | some ⟨job, .send⟩ =>
      if corrId ∈ s.sent.map Prod.fst then none
      else
        let drawn := { s with sent := s.sent ++ [(corrId, job.args settings)] }
        match (job.args settings).message corrId, fails with
        | .ok msg, false =>
            some ({ drawn.resume i ⟨job, .send⟩ (.wait corrId) with
              toEngine := s.toEngine ++ [msg] }, [])
        | _, _ => some (drawn.resume i ⟨job, .send⟩ job.onError, [])
  | _ => none

/-- `io_loop` receives a message of the gateway. -/
def System.ioReceive (s : System) (k : Nat) (uninitialised : Uuid) :
    Option (System × List Event) :=
  (s.toEngine[k]?).bind fun msg =>
  (deserializeRequest msg).map fun req =>
    let s' := { s with toEngine := s.toEngine.eraseIdx k }
    match s.engine.requestQueue.enqueue req with
    | some q =>
        ({ s' with engine := { s.engine with requestQueue := q } }, [.ledger (.submitted req)])
    | none =>
        ({ s' with
          toGateway := s.toGateway ++
            [serializeResponse (queueFullResponse req.correlationId uninitialised)] }, [])

/-- `io_loop` pops a reply, and sends it or not: whether it knows the client is
the subject of `Server.Routing`. -/
def System.ioDrain (s : System) (sends : Bool) : Option (System × List Event) :=
  s.engine.replyQueue.dequeue.map fun r =>
    let reply := if sends = true then [serializeResponse r.1.response] else []
    ({ s with
      engine := { s.engine with replyQueue := r.2 }, toGateway := s.toGateway ++ reply },
      [.ledger (.taken r.1)])

/-- `_receiver_loop`: the coroutine that waits for the message goes on with it.
Messages nobody waits for are dropped. -/
def System.receive (s : System) (k : Nat) : Option (System × List Event) :=
  (s.toGateway[k]?).map fun msg =>
    let s' := { s with toGateway := s.toGateway.eraseIdx k }
    match receiverKey msg with
    | none => (s', [])
    | some key =>
        match s.tasks.findIdx? (Task.awaits key) with
        | none => (s', [])
        | some i =>
            match s.tasks[i]? with
            | none => (s', [])
            | some task => (s'.resume i task (task.job.onResponse msg), [])

/-- `asyncio.wait_for` has waited five seconds. -/
def System.timeout (s : System) (i : Nat) : Option (System × List Event) :=
  match s.tasks[i]? with
  | some ⟨job, .wait corrId⟩ => some (s.resume i ⟨job, .wait corrId⟩ job.onTimeout, [])
  | _ => none

/-- `stripe.Refund.create`: Stripe accepts the refund or not, and the call
returns or raises. -/
def System.refund (s : System) (i : Nat) (accepted : Bool) (raises : Option String) :
    Option (System × List Event) :=
  match s.tasks[i]? with
  | some ⟨.saga charge, .createRefund status⟩ =>
      some (s.resume i ⟨.saga charge, .createRefund status⟩ (.onRefund raises status),
        [.refund charge.refund accepted])
  | _ => none

/-- One step of anybody. -/
def step (settings : Settings) (s : System) : Action → Option (System × List Event)
  | .webhook request => some (s.webhook request)
  | .transfer args => some ({ s with tasks := s.tasks ++ [(Job.transfer args).start] }, [])
  | .broadcast i raises => s.broadcast i raises
  | .send i corrId fails => s.send settings i corrId fails
  | .loseRequest k => some ({ s with toEngine := s.toEngine.eraseIdx k }, [])
  | .ioReceive k uninitialised => s.ioReceive k uninitialised
  | .engine now os =>
      (s.engine.engineStep now os).map (fun r => ({ s with engine := r.1 }, r.2.map .ledger))
  | .call a =>
      if a.isCall = true then
        (Ledger.step s.engine a).map (fun r => ({ s with engine := r.1 }, r.2.map .ledger))
      else none
  | .ioDrain sends => s.ioDrain sends
  | .loseReply k => some ({ s with toGateway := s.toGateway.eraseIdx k }, [])
  | .receive k => s.receive k
  | .timeout i => s.timeout i
  | .refund i accepted raises => s.refund i accepted raises

/-- A run of the system, from its start on. -/
abbrev runSystem (settings : Settings) (wal : Wal.WriteAheadLog) (acts : List Action) :
    Option (Traced System Event) :=
  run (traced (step settings)) ⟨.started wal, []⟩ acts

/-! ## §3. What a step can do. -/

/-- What is seen of the engine. -/
def Event.asLedger : Event → Option Ledger.Event
  | .ledger e => some e
  | _ => none

/-- The record of the engine. -/
def ledgerTrace (tr : List Event) : List Ledger.Event := tr.filterMap Event.asLedger

@[simp] theorem ledgerTrace_append (tr es : List Event) :
    ledgerTrace (tr ++ es) = ledgerTrace tr ++ ledgerTrace es := List.filterMap_append

theorem ledgerTrace_map (es : List Ledger.Event) : ledgerTrace (es.map .ledger) = es := by
  unfold ledgerTrace
  rw [List.filterMap_map]
  exact List.filterMap_some

/-- The coroutine waits for the message. -/
def Task.WaitsFor (task : Task) (msg : Bytes) : Prop :=
  ∃ corrId, task.pc = .wait corrId ∧ receiverKey msg = some corrId.bytes

/-- **Everything a step can do.** -/
inductive Effect (settings : Settings) (s : System) : Action → System → List Event → Prop
  | ledger {a : Action} {b : Ledger.Action} {e : LedgerEngine} {ees : List Ledger.Event} :
      b.atQueues = false → Ledger.step s.engine b = some (e, ees) →
      Effect settings s a { s with engine := e } (ees.map .ledger)
  | submit {k : Nat} {u : Uuid} {msg : Bytes} {req : TransactionRequest} {e : LedgerEngine} :
      s.toEngine[k]? = some msg → deserializeRequest msg = some req →
      Ledger.step s.engine (.submit req) = some (e, [.submitted req]) →
      Effect settings s (.ioReceive k u) { s with engine := e, toEngine := s.toEngine.eraseIdx k }
        [.ledger (.submitted req)]
  | refuse {k : Nat} {u : Uuid} {msg : Bytes} {req : TransactionRequest} :
      s.toEngine[k]? = some msg → deserializeRequest msg = some req →
      s.engine.requestQueue.items.length = queueCapacity →
      Effect settings s (.ioReceive k u)
        { s with
          toEngine := s.toEngine.eraseIdx k
          toGateway := s.toGateway ++
            [serializeResponse (queueFullResponse req.correlationId u)] } []
  | drain {a : Action} {sends : Bool} {envelope : TxResponseEnvelope} {e : LedgerEngine} :
      Ledger.step s.engine .takeReply = some (e, [.taken envelope]) →
      Effect settings s a
        { s with
          engine := e
          toGateway := s.toGateway ++
            if sends = true then [serializeResponse envelope.response] else [] }
        [.ledger (.taken envelope)]
  | lose {a : Action} {toEngine toGateway : List Bytes} : toEngine ⊆ s.toEngine →
      toGateway ⊆ s.toGateway →
      Effect settings s a { s with toEngine := toEngine, toGateway := toGateway } []
  | start {a : Action} {job : Job} :
      Effect settings s a { s with tasks := s.tasks ++ [job.start] } []
  | note {a : Action} {es : List Event} : ledgerTrace es = [] →
      (∀ request accepted, .refund request accepted ∉ es) → Effect settings s a s es
  | send {i : Nat} {corrId : Uuid} {fails : Bool} {job : Job} {msg : Bytes} :
      s.tasks[i]? = some ⟨job, .send⟩ → corrId ∉ s.sent.map Prod.fst →
      (job.args settings).message corrId = .ok msg →
      Effect settings s (.send i corrId fails)
        { s with
          tasks := s.tasks.set i ⟨job, .wait corrId⟩
          sent := s.sent ++ [(corrId, job.args settings)]
          toEngine := s.toEngine ++ [msg] } []
  | sendFails {i : Nat} {corrId : Uuid} {fails : Bool} {job : Job} :
      s.tasks[i]? = some ⟨job, .send⟩ → corrId ∉ s.sent.map Prod.fst →
      Effect settings s (.send i corrId fails)
        { s with
          tasks := s.tasks.set i ⟨job, job.onError⟩
          sent := s.sent ++ [(corrId, job.args settings)] } []
  | receive {a : Action} {k i : Nat} {msg : Bytes} {task : Task} : s.toGateway[k]? = some msg →
      s.tasks[i]? = some task → task.WaitsFor msg →
      Effect settings s a
        { s with
          toGateway := s.toGateway.eraseIdx k
          tasks := s.tasks.set i ⟨task.job, task.job.onResponse msg⟩ } []
  | timeout {i : Nat} {job : Job} {corrId : Uuid} : s.tasks[i]? = some ⟨job, .wait corrId⟩ →
      Effect settings s (.timeout i) { s with tasks := s.tasks.set i ⟨job, job.onTimeout⟩ } []
  | broadcast {a : Action} {i : Nat} {raises : Option String} {charge : Charge} {pc : TaskPc}
      {message : SagaMessage} : s.tasks[i]? = some ⟨.saga charge, pc⟩ →
      pc.message = some message →
      Effect settings s a
        { s with tasks := s.tasks.set i ⟨.saga charge, pc.onBroadcast raises⟩ }
        [.broadcast charge.id message]
  | refund {a : Action} {i : Nat} {accepted : Bool} {raises : Option String} {charge : Charge}
      {status : SagaStatus} : s.tasks[i]? = some ⟨.saga charge, .createRefund status⟩ →
      Effect settings s a
        { s with tasks := s.tasks.set i ⟨.saga charge, .onRefund raises status⟩ }
        [.refund charge.refund accepted]

section Steps

variable {settings : Settings} {s s' : System} {a : Action} {es : List Event}

theorem ioReceive_effect {k : Nat} {u : Uuid} (h : s.ioReceive k u = some (s', es)) :
    Effect settings s (.ioReceive k u) s' es := by
  obtain ⟨msg, hmsg, h⟩ := Option.bind_eq_some_iff.mp h
  obtain ⟨req, hreq, h⟩ := Option.map_eq_some_iff.mp h
  dsimp only at h
  split at h
  next q hq =>
    cases h
    exact .submit hmsg hreq (by simp only [Ledger.step, hq, Option.map_some])
  next hq =>
    cases h
    exact .refuse hmsg hreq (Fifo.Bounded.enqueue_eq_none hq)

theorem waitsFor_of_findIdx {msg key : Bytes} {i : Nat} {task : Task}
    (hkey : receiverKey msg = some key) (hi : s.tasks.findIdx? (Task.awaits key) = some i)
    (htask : s.tasks[i]? = some task) : task.WaitsFor msg := by
  obtain ⟨hlt, hawaits, -⟩ := List.findIdx?_eq_some_iff_getElem.mp hi
  rw [List.getElem?_eq_getElem hlt, Option.some.injEq] at htask
  rw [htask] at hawaits
  unfold Task.awaits at hawaits
  split at hawaits
  next corrId hpc => exact ⟨corrId, hpc, by rw [hkey, of_decide_eq_true hawaits]⟩
  next => cases hawaits

/-- A message is dropped, or the coroutine that waits for it goes on. -/
theorem receive_inv {k : Nat} (h : s.receive k = some (s', es)) :
    ∃ msg, s.toGateway[k]? = some msg ∧ es = [] ∧
      (s' = { s with toGateway := s.toGateway.eraseIdx k } ∨
        ∃ i task, s.tasks[i]? = some task ∧ task.WaitsFor msg ∧
          s' = { s with
            toGateway := s.toGateway.eraseIdx k
            tasks := s.tasks.set i ⟨task.job, task.job.onResponse msg⟩ }) := by
  obtain ⟨msg, hmsg, h⟩ := Option.map_eq_some_iff.mp h
  refine ⟨msg, hmsg, ?_⟩
  dsimp only at h
  split at h
  next =>
    cases h
    exact ⟨rfl, .inl rfl⟩
  next key hkey =>
    split at h
    next =>
      cases h
      exact ⟨rfl, .inl rfl⟩
    next i hi =>
      split at h
      next =>
        cases h
        exact ⟨rfl, .inl rfl⟩
      next task htask =>
        cases h
        exact ⟨rfl, .inr ⟨i, task, htask, waitsFor_of_findIdx hkey hi htask, rfl⟩⟩

/-- The request is sent, or the coroutine goes on with an error. -/
theorem send_inv {i : Nat} {corrId : Uuid} {fails : Bool}
    (h : s.send settings i corrId fails = some (s', es)) :
    ∃ job, s.tasks[i]? = some ⟨job, .send⟩ ∧ corrId ∉ s.sent.map Prod.fst ∧ es = [] ∧
      ((∃ msg, (job.args settings).message corrId = .ok msg ∧
          s' = { s with
            tasks := s.tasks.set i ⟨job, .wait corrId⟩
            sent := s.sent ++ [(corrId, job.args settings)]
            toEngine := s.toEngine ++ [msg] }) ∨
        s' = { s with
          tasks := s.tasks.set i ⟨job, job.onError⟩
          sent := s.sent ++ [(corrId, job.args settings)] }) := by
  unfold System.send at h
  split at h
  next job htask =>
    split at h
    next => cases h
    next hfresh =>
      refine ⟨job, htask, hfresh, ?_⟩
      dsimp only at h
      split at h
      next msg hmsg =>
        cases h
        exact ⟨rfl, .inl ⟨msg, hmsg, rfl⟩⟩
      next =>
        cases h
        exact ⟨rfl, .inr rfl⟩
  next => cases h

theorem broadcast_inv {i : Nat} {raises : Option String}
    (h : s.broadcast i raises = some (s', es)) :
    ∃ charge pc message, s.tasks[i]? = some ⟨.saga charge, pc⟩ ∧ pc.message = some message ∧
      s' = { s with tasks := s.tasks.set i ⟨.saga charge, pc.onBroadcast raises⟩ } ∧
      es = [.broadcast charge.id message] := by
  unfold System.broadcast at h
  split at h
  next charge pc htask =>
    obtain ⟨message, hmessage, heq⟩ := Option.map_eq_some_iff.mp h
    cases heq
    exact ⟨charge, pc, message, htask, hmessage, rfl, rfl⟩
  next => cases h

theorem timeout_inv {i : Nat} (h : s.timeout i = some (s', es)) :
    ∃ job corrId, s.tasks[i]? = some ⟨job, .wait corrId⟩ ∧
      s' = { s with tasks := s.tasks.set i ⟨job, job.onTimeout⟩ } ∧ es = [] := by
  unfold System.timeout at h
  split at h
  next job corrId htask =>
    cases h
    exact ⟨job, corrId, htask, rfl, rfl⟩
  next => cases h

theorem refund_inv {i : Nat} {accepted : Bool} {raises : Option String}
    (h : s.refund i accepted raises = some (s', es)) :
    ∃ charge status, s.tasks[i]? = some ⟨.saga charge, .createRefund status⟩ ∧
      s' = { s with tasks := s.tasks.set i ⟨.saga charge, .onRefund raises status⟩ } ∧
      es = [.refund charge.refund accepted] := by
  unfold System.refund at h
  split at h
  next charge status htask =>
    cases h
    exact ⟨charge, status, htask, rfl, rfl⟩
  next => cases h

/-- **Every step is one of these.** -/
theorem step_effect (h : step settings s a = some (s', es)) : Effect settings s a s' es := by
  cases a with
  | webhook request =>
      have h := Option.some.inj h
      cases request with
      | invalidPayload | invalidSignature | other type =>
          cases h
          exact .note rfl (by simp)
      | chargeSucceeded charge | chargeRefunded charge =>
          cases h
          exact .start
  | transfer args =>
      cases h
      exact .start
  | broadcast i raises =>
      obtain ⟨charge, pc, message, htask, hmessage, rfl, rfl⟩ := broadcast_inv h
      exact .broadcast htask hmessage
  | send i corrId fails =>
      obtain ⟨job, htask, hfresh, rfl, hsent⟩ := send_inv h
      rcases hsent with ⟨msg, hmsg, rfl⟩ | rfl
      · exact .send htask hfresh hmsg
      · exact .sendFails htask hfresh
  | loseRequest k =>
      cases h
      exact .lose List.eraseIdx_subset (List.Subset.refl _)
  | ioReceive k u => exact ioReceive_effect h
  | engine now os =>
      obtain ⟨⟨e, ees⟩, he, heq⟩ := Option.map_eq_some_iff.mp h
      cases heq
      exact .ledger (b := .engine now os) rfl he
  | call b =>
      change (if b.isCall = true then _ else none) = some (s', es) at h
      split at h
      · next hcall =>
          obtain ⟨⟨e, ees⟩, he, heq⟩ := Option.map_eq_some_iff.mp h
          cases heq
          refine .ledger (b := b) ?_ he
          cases b <;> first | rfl | cases hcall
      · cases h
  | ioDrain sends =>
      obtain ⟨⟨envelope, q⟩, hq, heq⟩ := Option.map_eq_some_iff.mp h
      cases heq
      exact .drain (by simp only [Ledger.step, hq, Option.map_some])
  | loseReply k =>
      cases h
      exact .lose (List.Subset.refl _) List.eraseIdx_subset
  | receive k =>
      obtain ⟨msg, hmsg, rfl, hreceived⟩ := receive_inv h
      rcases hreceived with rfl | ⟨i, task, htask, hwaits, rfl⟩
      · exact .lose (List.Subset.refl _) List.eraseIdx_subset
      · exact .receive hmsg htask hwaits
  | timeout i =>
      obtain ⟨job, corrId, htask, rfl, rfl⟩ := timeout_inv h
      exact .timeout htask
  | refund i accepted raises =>
      obtain ⟨charge, status, htask, rfl, rfl⟩ := refund_inv h
      exact .refund htask

/-- **Each step is a step of the engine, or none to it.** -/
theorem Effect.engine (he : Effect settings s a s' es) :
    (s'.engine = s.engine ∧ ledgerTrace es = []) ∨
      ∃ b, Ledger.step s.engine b = some (s'.engine, ledgerTrace es) := by
  cases he with
  | @ledger _ b e ees _ hstep =>
      rw [ledgerTrace_map]
      exact .inr ⟨b, hstep⟩
  | submit _ _ hstep => exact .inr ⟨_, hstep⟩
  | drain hstep => exact .inr ⟨_, hstep⟩
  | note hnone _ => exact .inl ⟨rfl, hnone⟩
  | refuse | lose | start | send | sendFails | receive | timeout | broadcast | refund =>
      exact .inl ⟨rfl, rfl⟩

end Steps

/-- **Every run is a run of the engine.** -/
theorem run_ledger {settings : Settings} {wal : Wal.WriteAheadLog} {acts : List Action}
    {t : Traced System Event} (h : runSystem settings wal acts = some t) :
    ∃ bs, runEngine (.init wal) bs = some ⟨t.state.engine, ledgerTrace t.trace⟩ := by
  obtain ⟨-, hrun⟩ := run_maps System.engine Event.asLedger (fun _ _ => True)
    (fun _ _ _ _ _ _ _ => trivial) (fun _ _ _ _ _ _ hstep => (step_effect hstep).engine) trivial h
  exact hrun

/-! ## §4. What is under way was sent. -/

/-- The messages to the engine, the requests it was given and the coroutines
that wait are all of transfers that were sent, each under its own correlation id. -/
structure Honest (settings : Settings) (s : System) (tr : List Event) : Prop where
  messages : ∀ msg ∈ s.toEngine, ∃ c ∈ s.sent, c.2.message c.1 = .ok msg
  requests : ∀ req ∈ submitted (ledgerTrace tr), ∃ c ∈ s.sent, req = c.2.request c.1
  waits : ∀ task ∈ s.tasks, ∀ corrId, task.pc = .wait corrId →
    (corrId, task.job.args settings) ∈ s.sent
  distinct : (s.sent.map Prod.fst).Nodup

section Steps

variable {settings : Settings} {s s' : System} {a : Action} {tr es : List Event}

/-- A correlation id stands for one transfer. -/
theorem Honest.unique (h : Honest settings s tr) {c c' : Uuid × Transfer} (hc : c ∈ s.sent)
    (hc' : c' ∈ s.sent) (hid : c.1 = c'.1) : c = c' :=
  List.inj_on_of_nodup_map h.distinct hc hc' hid

/-- What is read of a message is a transfer that was sent. -/
theorem Honest.read (h : Honest settings s tr) {msg : Bytes} {req : TransactionRequest}
    (hmsg : msg ∈ s.toEngine) (hread : deserializeRequest msg = some req) :
    ∃ c ∈ s.sent, req = c.2.request c.1 := by
  obtain ⟨c, hc, hmessage⟩ := h.messages msg hmsg
  rw [transferMessage_read hmessage] at hread
  cases hread
  exact ⟨c, hc, rfl⟩

/-- The coroutine does not wait for an answer. -/
def TaskPc.Free (pc : TaskPc) : Prop := ∀ corrId, pc ≠ .wait corrId

theorem onError_free (job : Job) : job.onError.Free := by
  intro corrId
  cases job <;> simp [Job.onError]

theorem onTimeout_free (job : Job) : job.onTimeout.Free := by
  intro corrId
  cases job <;> simp [Job.onTimeout]

theorem onResponse_free (job : Job) (msg : Bytes) : (job.onResponse msg).Free := by
  intro corrId
  unfold Job.onResponse
  split
  next result =>
    cases job <;> simp only [Job.onResult] <;> try split
    all_goals simp
  next => exact onError_free job corrId

theorem onBroadcast_free {pc : TaskPc} {message : SagaMessage} (raises : Option String)
    (h : pc.message = some message) : (pc.onBroadcast raises).Free := by
  intro corrId
  cases pc with
  | wait => cases h
  | _ =>
      simp only [TaskPc.onBroadcast]
      try split
      all_goals simp

theorem onRefund_free (raises : Option String) (status : SagaStatus) :
    (TaskPc.onRefund raises status).Free := by
  intro corrId
  cases raises <;> simp [TaskPc.onRefund]

/-- A coroutine that does not wait is of no concern. -/
theorem waits_set {i : Nat} {job : Job} {pc : TaskPc} {sent : List (Uuid × Transfer)}
    (hwaits : ∀ task ∈ s.tasks, ∀ corrId, task.pc = .wait corrId →
      (corrId, task.job.args settings) ∈ sent) (hfree : pc.Free) :
    ∀ task ∈ s.tasks.set i ⟨job, pc⟩, ∀ corrId, task.pc = .wait corrId →
      (corrId, task.job.args settings) ∈ sent := by
  intro task htask corrId hpc
  rcases List.mem_or_eq_of_mem_set htask with hold | rfl
  · exact hwaits task hold corrId hpc
  · exact absurd hpc (hfree corrId)

/-- `uuid4` returns a new value. -/
theorem Honest.draw (h : Honest settings s tr) {corrId : Uuid} (args : Transfer)
    (hfresh : corrId ∉ s.sent.map Prod.fst) :
    Honest settings { s with sent := s.sent ++ [(corrId, args)] } tr := by
  obtain ⟨hmessages, hrequests, hwaits, hdistinct⟩ := h
  refine ⟨?_, ?_, ?_, ?_⟩
  · intro msg hmsg
    obtain ⟨c, hc, hmessage⟩ := hmessages msg hmsg
    exact ⟨c, List.mem_append_left _ hc, hmessage⟩
  · intro req hreq
    obtain ⟨c, hc, heq⟩ := hrequests req hreq
    exact ⟨c, List.mem_append_left _ hc, heq⟩
  · intro task htask corrId' hpc
    exact List.mem_append_left _ (hwaits task htask corrId' hpc)
  · rw [List.map_append, List.nodup_append]
    refine ⟨hdistinct, List.nodup_singleton _, ?_⟩
    intro id hid id' hid'
    rw [List.mem_singleton.mp hid']
    rintro rfl
    exact hfresh hid

/-- **One step.** -/
theorem Honest.step (h : Honest settings s tr) (he : Effect settings s a s' es) :
    Honest settings s' (tr ++ es) := by
  have hsent := h
  obtain ⟨hmessages, hrequests, hwaits, hdistinct⟩ := h
  have hquiet : submitted (ledgerTrace es) = [] →
      ∀ req ∈ submitted (ledgerTrace (tr ++ es)), ∃ c ∈ s.sent, req = c.2.request c.1 := by
    intro hnone
    rw [ledgerTrace_append, submitted_append, hnone, List.append_nil]
    exact hrequests
  cases he with
  | @ledger _ b e ees hb hstep =>
      refine ⟨hmessages, hquiet ?_, hwaits, hdistinct⟩
      rw [ledgerTrace_map]
      exact (step_own hstep hb).1
  | @submit k u msg req e hmsg hreq _ =>
      refine ⟨fun m hm => hmessages m (List.mem_of_mem_eraseIdx hm), ?_, hwaits, hdistinct⟩
      intro req' hreq'
      rw [ledgerTrace_append, submitted_append] at hreq'
      rcases List.mem_append.mp hreq' with hold | hnew
      · exact hrequests req' hold
      · rw [List.mem_singleton.mp hnew]
        exact hsent.read (List.mem_of_getElem? hmsg) hreq
  | refuse =>
      exact ⟨fun m hm => hmessages m (List.mem_of_mem_eraseIdx hm), hquiet rfl, hwaits, hdistinct⟩
  | drain => exact ⟨hmessages, hquiet rfl, hwaits, hdistinct⟩
  | lose hsub _ => exact ⟨fun m hm => hmessages m (hsub hm), hquiet rfl, hwaits, hdistinct⟩
  | @start _ job =>
      refine ⟨hmessages, hquiet rfl, ?_, hdistinct⟩
      intro task htask corrId hpc
      rcases List.mem_append.mp htask with hold | hnew
      · exact hwaits task hold corrId hpc
      · rw [List.mem_singleton.mp hnew] at hpc
        cases job <;> cases hpc
  | note hnone _ =>
      refine ⟨hmessages, hquiet ?_, hwaits, hdistinct⟩
      rw [hnone]
      rfl
  | @send i corrId fails job msg htask hfresh hmsg =>
      obtain ⟨hmessages', hrequests', hwaits', hdistinct'⟩ := hsent.draw (job.args settings) hfresh
      have hnew := List.mem_append_right s.sent (List.mem_singleton_self (corrId, job.args settings))
      refine ⟨?_, ?_, ?_, hdistinct'⟩
      · intro m hm
        rcases List.mem_append.mp hm with hold | hlast
        · exact hmessages' m hold
        · rw [List.mem_singleton.mp hlast]
          exact ⟨_, hnew, hmsg⟩
      · rw [List.append_nil]
        exact hrequests'
      · intro task htask' corrId' hpc
        rcases List.mem_or_eq_of_mem_set htask' with hold | rfl
        · exact hwaits' task hold corrId' hpc
        · cases hpc
          exact hnew
  | @sendFails i corrId fails job htask hfresh =>
      obtain ⟨hmessages', hrequests', hwaits', hdistinct'⟩ := hsent.draw (job.args settings) hfresh
      refine ⟨hmessages', ?_, waits_set hwaits' (onError_free job), hdistinct'⟩
      rw [List.append_nil]
      exact hrequests'
  | receive => exact ⟨hmessages, hquiet rfl, waits_set hwaits (onResponse_free _ _), hdistinct⟩
  | timeout => exact ⟨hmessages, hquiet rfl, waits_set hwaits (onTimeout_free _), hdistinct⟩
  | broadcast _ hmessage =>
      exact ⟨hmessages, hquiet rfl, waits_set hwaits (onBroadcast_free _ hmessage), hdistinct⟩
  | refund => exact ⟨hmessages, hquiet rfl, waits_set hwaits (onRefund_free _ _), hdistinct⟩

end Steps

section Runs

variable {settings : Settings} {wal : Wal.WriteAheadLog} {acts : List Action}
  {t : Traced System Event}

theorem run_honest (h : runSystem settings wal acts = some t) :
    Honest settings t.state t.trace := by
  refine traced_invariant (Honest settings) ?_ ?_ h
  · intro s tr a s' es hs hstep
    exact hs.step (step_effect hstep)
  · refine ⟨?_, ?_, ?_, List.nodup_nil⟩ <;> intro _ hmem <;> cases hmem

end Runs

/-! ## §5. Scripts. -/

/-- The settings of a gateway that books on the first two accounts. -/
def bookedSettings : Settings := ⟨"acc_0", "acc_1"⟩

/-- The two accounts. -/
def accountCalls (escrow : AccountType) : List Action :=
  (createAccountCall "Escrow" escrow ++ createAccountCall "Merchant" .revenue).map .call

/-- `n` steps of the engine thread; every call of the operating system succeeds. -/
def engineWorks (n : Nat) : List Action := List.replicate n (.engine 1000 Wal.OsReply.ok)

end ZeroLGR.Gateway
