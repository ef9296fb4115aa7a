/-
  ZeroLGR.Gateway.Deployment — the gateway in front of the server as it is.

  The coroutines of the gateway talk to the two threads of the server over the
  ROUTER socket, together with other clients, whose messages have three frames as
  its own have.  The gateway also creates accounts, for `POST /accounts`.  Whatever
  the server sends to the gateway's identity may reach it, late or never.

    • `AccountCall`, `Deployment`, `step` — the machine,
    • `run_serving` — every run is a run of the server,
    • `Ours` — what is under way was sent by a coroutine,
    • `never_confirms` — no payment is ever confirmed,
    • `created_as_asked` — an account that was returned is in the ledger.
-/
import ZeroLGR.Gateway.System
import ZeroLGR.Server.Serving

namespace ZeroLGR.Gateway

open Transition Ledger Server

/-! ## §1. `POST /accounts`. -/

/-- The detail of a response 500: the exception that was caught.  A status of the
engine that is not OK is raised as an exception too, inside the `try`. -/
inductive Detail where
  | refused (message : String)
  | timeout
  | notSent
  | python (e : PyError)
  deriving DecidableEq

/-- What the route responds. -/
inductive HttpResponse where
  | ok (result : AccountResult)
  | internalServerError (detail : Detail)
  deriving DecidableEq

/-- Where the coroutine of the route stands. -/
inductive AccountPc where
  | send
  | wait (corrId : Uuid)
  | responded (response : HttpResponse)
  deriving DecidableEq

/-- A call of `create_account` of the route, with the fields of its body. -/
structure AccountCall where
  name : String
  type : Int
  pc : AccountPc
  deriving DecidableEq

/-- `create_account` has got an answer. -/
def onAccountResponse (response : Bytes) : HttpResponse :=
  match parseAccount response with
  | .ok result =>
      if result.status = 0 then .ok result else .internalServerError (.refused result.message)
  | .error e => .internalServerError (.python e)

/-- The call waits for the correlation id. -/
def AccountCall.awaits (key : Bytes) (call : AccountCall) : Bool :=
  match call.pc with
  | .wait corrId => decide (corrId.bytes = key)
  | _ => false

/-! ## §2. The machine. -/

/-- The server, the messages between it and the gateway, and the coroutines of
the gateway with the correlation ids they were given. -/
structure Deployment where
  serving : Serving
  toEngine : List Bytes
  toGateway : List Bytes
  sent : List (Uuid × Transfer)
  tasks : List Task
  asked : List (Uuid × String × Int)
  accountCalls : List AccountCall

namespace Deployment

/-- Before the first webhook. -/
def started (wal : Wal.WriteAheadLog) : Deployment where
  serving := .started wal
  toEngine := []
  toGateway := []
  sent := []
  tasks := []
  asked := []
  accountCalls := []

/-- Who moves.  The actions of the coroutines of payments are those of
`Gateway.Action` that are not of the engine. -/
inductive Action where
  | gateway (a : Gateway.Action)
  | createAccount (name : String) (type : Int)
  | ask (i : Nat) (corrId : Uuid) (fails : Bool)
  | giveUp (i : Nat)
  | receive (k : Nat)
  | deliver (k : Nat)
  | client (identity payload : Bytes)
  | server (a : Serving.Action)

/-- What a step shows. -/
inductive Event where
  | gateway (e : Gateway.Event)
  | server (e : Serving.Event)

/-- What the coroutines of payments see. -/
def view (d : Deployment) : System where
  engine := d.serving.process.engine
  toEngine := d.toEngine
  toGateway := d.toGateway
  sent := d.sent
  tasks := d.tasks

/-- What they leave behind. -/
def update (d : Deployment) (s : System) : Deployment :=
  { d with toEngine := s.toEngine, toGateway := s.toGateway, sent := s.sent, tasks := s.tasks }

/-- The action is one of the gateway or the network.  `uuid4` returns none of the
correlation ids `asked`. -/
def ofGateway (asked : List Uuid) : Gateway.Action → Bool
  | .webhook _ => true
  | .transfer _ => true
  | .broadcast _ _ => true
  | .send _ corrId _ => decide (corrId ∉ asked)
  | .loseRequest _ => true
  | .loseReply _ => true
  | .timeout _ => true
  | .refund _ _ _ => true
  | .ioReceive _ _ => false
  | .engine _ _ => false
  | .call _ => false
  | .ioDrain _ => false
  | .receive _ => false

/-- A step of a coroutine of a payment. -/
def gatewayStep (settings : Settings) (d : Deployment) (a : Gateway.Action) :
    Option (Deployment × List Event) :=
  (Gateway.step settings d.view a).map (fun r => (d.update r.1, r.2.map .gateway))

/-- `create_account`, up to the wait for the answer. -/
def ask (d : Deployment) (i : Nat) (corrId : Uuid) (fails : Bool) :
    Option (Deployment × List Event) :=
  match d.accountCalls[i]? with
  | some ⟨name, type, .send⟩ =>
      if corrId ∈ d.asked.map Prod.fst ∨ corrId ∈ d.sent.map Prod.fst then none
      else
        let goOn (pc : AccountPc) : Deployment :=
          { d with
            asked := d.asked ++ [(corrId, name, type)]
            accountCalls := d.accountCalls.set i ⟨name, type, pc⟩ }
        match createAccountMessage corrId name type, fails with
        | .ok msg, false =>
            some ({ goOn (.wait corrId) with toEngine := d.toEngine ++ [msg] }, [])
        | .ok _, true => some (goOn (.responded (.internalServerError .notSent)), [])
        | .error e, _ => some (goOn (.responded (.internalServerError (.python e))), [])
  | _ => none

/-- `asyncio.wait_for` has waited five seconds. -/
def giveUp (d : Deployment) (i : Nat) : Option (Deployment × List Event) :=
  match d.accountCalls[i]? with
  | some ⟨name, type, .wait _⟩ =>
      some ({ d with
        accountCalls := d.accountCalls.set i
          ⟨name, type, .responded (.internalServerError .timeout)⟩ }, [])
  | _ => none

/-- `_receiver_loop`: the call that waits for the message goes on with it, or the
coroutine of a payment. -/
def receive (settings : Settings) (d : Deployment) (k : Nat) : Option (Deployment × List Event) :=
  match d.toGateway[k]? with
  | none => none
  | some msg =>
      let call := (receiverKey msg).bind (fun key =>
        (d.accountCalls.findIdx? (AccountCall.awaits key)).bind (fun i =>
          (d.accountCalls[i]?).map (fun call => (i, call))))
      match call with
      | some (i, call) =>
          some ({ d with
            toGateway := d.toGateway.eraseIdx k
            accountCalls := d.accountCalls.set i
              ⟨call.name, call.type, .responded (onAccountResponse msg)⟩ }, [])
      | none => d.gatewayStep settings (.receive k)

/-- The messages for the gateway among those sent. -/
def sentTo (gateway : Bytes) (es : List Serving.Event) : List Bytes :=
  (Serving.sent es).filterMap (fun m => if m.1 = gateway then some m.2 else none)

/-- A step of the server. -/
def serverStep (gateway : Bytes) (d : Deployment) (a : Serving.Action) :
    Option (Deployment × List Event) :=
  (Serving.step d.serving a).map (fun r =>
    ({ d with serving := r.1, toGateway := d.toGateway ++ sentTo gateway r.2 }, r.2.map .server))

/-- One step of anybody.  `gateway` is the identity the ROUTER socket has given
to the connection of the gateway. -/
def step (settings : Settings) (gateway : Bytes) (d : Deployment) :
    Action → Option (Deployment × List Event)
  | .gateway a =>
      if ofGateway (d.asked.map Prod.fst) a = true then d.gatewayStep settings a else none
  | .createAccount name type =>
      some ({ d with accountCalls := d.accountCalls ++ [⟨name, type, .send⟩] }, [])
  | .ask i corrId fails => d.ask i corrId fails
  | .giveUp i => d.giveUp i
  | .receive k => d.receive settings k
  | .deliver k =>
      (d.toEngine[k]?).bind (fun msg =>
        ({ d with toEngine := d.toEngine.eraseIdx k } : Deployment).serverStep gateway
          (.arrive [gateway, [], msg]))
  | .client identity payload =>
      if identity = gateway then none
      else d.serverStep gateway (.arrive [identity, [], payload])
  | .server a =>
      match a with
      | .arrive _ => none
      | a => d.serverStep gateway a

/-- A run of the deployment, from its start on. -/
abbrev runDeployment (settings : Settings) (gateway : Bytes) (wal : Wal.WriteAheadLog)
    (acts : List Action) : Option (Traced Deployment Event) :=
  run (traced (step settings gateway)) ⟨.started wal, []⟩ acts

/-! ## §3. As a run of the server. -/

/-- What is seen of the server. -/
def Event.asServer : Event → Option Serving.Event
  | .gateway _ => none
  | .server e => some e

/-- The record of the server. -/
def serverTrace (tr : List Event) : List Serving.Event := tr.filterMap Event.asServer

theorem serverTrace_server (es : List Serving.Event) : serverTrace (es.map .server) = es := by
  unfold serverTrace
  rw [List.filterMap_map]
  exact List.filterMap_some

theorem serverTrace_gateway (es : List Gateway.Event) : serverTrace (es.map .gateway) = [] := by
  unfold serverTrace
  rw [List.filterMap_map, List.filterMap_eq_nil_iff]
  intro e _
  rfl

/-- What a coroutine of a payment, or the network, can do. -/
inductive Moves (settings : Settings) (asked : List Uuid) (s : System) :
    System → List Gateway.Event → Prop
  | aside {toEngine toGateway : List Bytes} {es : List Gateway.Event} : toEngine ⊆ s.toEngine →
      toGateway ⊆ s.toGateway → (∀ id message, .broadcast id message ∉ es) →
      Moves settings asked s { s with toEngine := toEngine, toGateway := toGateway } es
  | start {job : Job} : Moves settings asked s { s with tasks := s.tasks ++ [job.start] } []
  | send {i : Nat} {corrId : Uuid} {job : Job} {msg : Bytes} : corrId ∉ asked →
      corrId ∉ s.sent.map Prod.fst → s.tasks[i]? = some ⟨job, .send⟩ →
      (job.args settings).message corrId = .ok msg →
      Moves settings asked s
        { s with
          tasks := s.tasks.set i ⟨job, .wait corrId⟩
          sent := s.sent ++ [(corrId, job.args settings)]
          toEngine := s.toEngine ++ [msg] } []
  | sendFails {i : Nat} {corrId : Uuid} {job : Job} : corrId ∉ asked →
      corrId ∉ s.sent.map Prod.fst → s.tasks[i]? = some ⟨job, .send⟩ →
      Moves settings asked s
        { s with
          tasks := s.tasks.set i ⟨job, job.onError⟩
          sent := s.sent ++ [(corrId, job.args settings)] } []
  | receive {k i : Nat} {msg : Bytes} {task : Task} : s.toGateway[k]? = some msg →
      s.tasks[i]? = some task →
      Moves settings asked s
        { s with
          toGateway := s.toGateway.eraseIdx k
          tasks := s.tasks.set i ⟨task.job, task.job.onResponse msg⟩ } []
  | timeout {i : Nat} {job : Job} {corrId : Uuid} : s.tasks[i]? = some ⟨job, .wait corrId⟩ →
      Moves settings asked s { s with tasks := s.tasks.set i ⟨job, job.onTimeout⟩ } []
  | broadcast {i : Nat} {raises : Option String} {charge : Charge} {pc : TaskPc}
      {message : SagaMessage} : s.tasks[i]? = some ⟨.saga charge, pc⟩ →
      pc.message = some message →
      Moves settings asked s
        { s with tasks := s.tasks.set i ⟨.saga charge, pc.onBroadcast raises⟩ }
        [.broadcast charge.id message]
  | refund {i : Nat} {accepted : Bool} {raises : Option String} {charge : Charge}
      {status : SagaStatus} : s.tasks[i]? = some ⟨.saga charge, .createRefund status⟩ →
      Moves settings asked s
        { s with tasks := s.tasks.set i ⟨.saga charge, .onRefund raises status⟩ }
        [.refund charge.refund accepted]

section Steps

variable {settings : Settings} {gateway : Bytes} {d d' : Deployment} {a : Action}
  {es : List Event}

/-- **Every step of a coroutine of a payment is one of these.** -/
theorem gatewayStep_inv {b : Gateway.Action}
    (hown : ofGateway (d.asked.map Prod.fst) b = true ∨ ∃ k, b = .receive k)
    (h : d.gatewayStep settings b = some (d', es)) :
    ∃ s' ges, Moves settings (d.asked.map Prod.fst) d.view s' ges ∧ d' = d.update s' ∧
      es = ges.map .gateway := by
  obtain ⟨⟨s', ges⟩, hstep, heq⟩ := Option.map_eq_some_iff.mp h
  cases heq
  refine ⟨s', ges, ?_, rfl, rfl⟩
  cases b with
  | webhook request =>
      have hnext := Option.some.inj hstep
      cases request with
      | invalidPayload | invalidSignature | other type =>
          cases hnext
          exact .aside (List.Subset.refl _) (List.Subset.refl _) (by simp)
      | chargeSucceeded charge | chargeRefunded charge =>
          cases hnext
          exact .start
  | transfer args =>
      cases hstep
      exact .start
  | broadcast i raises =>
      obtain ⟨charge, pc, message, htask, hmessage, rfl, rfl⟩ := broadcast_inv hstep
      exact .broadcast htask hmessage
  | send i corrId fails =>
      have hnew : corrId ∉ d.asked.map Prod.fst := by
        rcases hown with hfresh | ⟨k, heq⟩
        · exact of_decide_eq_true hfresh
        · cases heq
      obtain ⟨job, htask, hfresh, rfl, hsent⟩ := send_inv hstep
      rcases hsent with ⟨msg, hmsg, rfl⟩ | rfl
      · exact .send hnew hfresh htask hmsg
      · exact .sendFails hnew hfresh htask
  | loseRequest k =>
      cases hstep
      exact .aside List.eraseIdx_subset (List.Subset.refl _) (by simp)
  | loseReply k =>
      cases hstep
      exact .aside (List.Subset.refl _) List.eraseIdx_subset (by simp)
  | receive k =>
      obtain ⟨msg, hmsg, rfl, hreceived⟩ := receive_inv hstep
      rcases hreceived with rfl | ⟨i, task, htask, -, rfl⟩
      · exact .aside (List.Subset.refl _) List.eraseIdx_subset (by simp)
      · exact .receive hmsg htask
  | timeout i =>
      obtain ⟨job, corrId, htask, rfl, rfl⟩ := timeout_inv hstep
      exact .timeout htask
  | refund i accepted raises =>
      obtain ⟨charge, status, htask, rfl, rfl⟩ := refund_inv hstep
      exact .refund htask
  | ioReceive | engine | call | ioDrain =>
      rcases hown with hown | ⟨k, heq⟩
      · cases hown
      · cases heq

theorem serverStep_inv {b : Serving.Action} (h : d.serverStep gateway b = some (d', es)) :
    ∃ serving' ses, Serving.step d.serving b = some (serving', ses) ∧
      d' = { d with serving := serving', toGateway := d.toGateway ++ sentTo gateway ses } ∧
      es = ses.map .server := by
  obtain ⟨⟨serving', ses⟩, hstep, heq⟩ := Option.map_eq_some_iff.mp h
  cases heq
  exact ⟨serving', ses, hstep, rfl, rfl⟩

/-- A call of the route asks, and waits. -/
theorem ask_inv {i : Nat} {corrId : Uuid} {fails : Bool}
    (h : d.ask i corrId fails = some (d', es)) :
    ∃ name type pc, d.accountCalls[i]? = some ⟨name, type, .send⟩ ∧ es = [] ∧
      corrId ∉ d.asked.map Prod.fst ∧ corrId ∉ d.sent.map Prod.fst ∧
      ∃ toEngine, (toEngine = d.toEngine ∨ ∃ msg, createAccountMessage corrId name type = .ok msg ∧
          toEngine = d.toEngine ++ [msg]) ∧
        (∀ result, pc ≠ .responded (.ok result)) ∧
        (∀ corrId', pc = .wait corrId' → corrId' = corrId) ∧
        d' = { d with
          toEngine := toEngine
          asked := d.asked ++ [(corrId, name, type)]
          accountCalls := d.accountCalls.set i ⟨name, type, pc⟩ } := by
  unfold ask at h
  split at h
  next name type hcall =>
    split at h
    next => cases h
    next hfresh =>
      obtain ⟨hasked, hsent⟩ := not_or.mp hfresh
      dsimp only at h
      split at h
      next msg hmsg =>
        cases h
        exact ⟨name, type, .wait corrId, hcall, rfl, hasked, hsent, _, .inr ⟨msg, hmsg, rfl⟩,
          by simp, fun corrId' hpc => (AccountPc.wait.inj hpc).symm, rfl⟩
      next =>
        cases h
        exact ⟨name, type, _, hcall, rfl, hasked, hsent, _, .inl rfl, by simp, by simp, rfl⟩
      next =>
        cases h
        exact ⟨name, type, _, hcall, rfl, hasked, hsent, _, .inl rfl, by simp, by simp, rfl⟩
  next => cases h

theorem giveUp_inv {i : Nat} (h : d.giveUp i = some (d', es)) :
    ∃ call, d.accountCalls[i]? = some call ∧ es = [] ∧
      d' = { d with
        accountCalls := d.accountCalls.set i
          ⟨call.name, call.type, .responded (.internalServerError .timeout)⟩ } := by
  unfold giveUp at h
  split at h
  next name type corrId hcall =>
    cases h
    exact ⟨_, hcall, rfl, rfl⟩
  next => cases h

/-- A message is for a call of the route that waits for it, or for a payment. -/
theorem receive_cases {k : Nat} (h : d.receive settings k = some (d', es)) :
    (∃ msg i call corrId, d.toGateway[k]? = some msg ∧ d.accountCalls[i]? = some call ∧
        call.pc = .wait corrId ∧ receiverKey msg = some corrId.bytes ∧ es = [] ∧
        d' = { d with
          toGateway := d.toGateway.eraseIdx k
          accountCalls := d.accountCalls.set i
            ⟨call.name, call.type, .responded (onAccountResponse msg)⟩ }) ∨
      d.gatewayStep settings (.receive k) = some (d', es) := by
  unfold receive at h
  split at h
  next => cases h
  next msg hmsg =>
    dsimp only at h
    split at h
    next i call hfound =>
      cases h
      obtain ⟨key, hkey, hfound⟩ := Option.bind_eq_some_iff.mp hfound
      obtain ⟨j, hj, hfound⟩ := Option.bind_eq_some_iff.mp hfound
      obtain ⟨call', hcall, heq⟩ := Option.map_eq_some_iff.mp hfound
      cases heq
      obtain ⟨hlt, hawaits, -⟩ := List.findIdx?_eq_some_iff_getElem.mp hj
      rw [List.getElem?_eq_getElem hlt, Option.some.injEq] at hcall
      rw [hcall] at hawaits
      unfold AccountCall.awaits at hawaits
      split at hawaits
      next corrId hpc =>
        refine .inl ⟨msg, i, call, corrId, hmsg, ?_, hpc, ?_, rfl, rfl⟩
        · rw [List.getElem?_eq_getElem hlt, hcall]
        · rw [hkey, of_decide_eq_true hawaits]
      next => cases hawaits
    next => exact .inr h

/-- **Everything a step can do**: it is of a payment, of the server, a message
that arrives at the server, or of a call of the route. -/
inductive Kinds (settings : Settings) (gateway : Bytes) (d : Deployment) :
    Deployment → List Event → Prop
  | payment {s' : System} {ges : List Gateway.Event} :
      Moves settings (d.asked.map Prod.fst) d.view s' ges →
      Kinds settings gateway d (d.update s') (ges.map .gateway)
  | server {b : Serving.Action} {serving' : Serving} {ses : List Serving.Event} :
      (∀ frames, b ≠ .arrive frames) → Serving.step d.serving b = some (serving', ses) →
      Kinds settings gateway d
        { d with serving := serving', toGateway := d.toGateway ++ sentTo gateway ses }
        (ses.map .server)
  | arrive {identity payload : Bytes} {toEngine : List Bytes} {serving' : Serving} :
      (identity = gateway → payload ∈ d.toEngine) → toEngine ⊆ d.toEngine →
      Serving.step d.serving (.arrive [identity, [], payload]) = some (serving', []) →
      Kinds settings gateway d { d with serving := serving', toEngine := toEngine } []
  | starts {name : String} {type : Int} :
      Kinds settings gateway d
        { d with accountCalls := d.accountCalls ++ [⟨name, type, .send⟩] } []
  | asks {i : Nat} {corrId : Uuid} {name : String} {type : Int} {pc : AccountPc}
      {toEngine : List Bytes} : corrId ∉ d.asked.map Prod.fst → corrId ∉ d.sent.map Prod.fst →
      (toEngine = d.toEngine ∨ ∃ msg, createAccountMessage corrId name type = .ok msg ∧
        toEngine = d.toEngine ++ [msg]) →
      (∀ result, pc ≠ .responded (.ok result)) →
      (∀ corrId', pc = .wait corrId' → corrId' = corrId) →
      Kinds settings gateway d
        { d with
          toEngine := toEngine
          asked := d.asked ++ [(corrId, name, type)]
          accountCalls := d.accountCalls.set i ⟨name, type, pc⟩ } []
  | givesUp {i : Nat} {call : AccountCall} :
      Kinds settings gateway d
        { d with
          accountCalls := d.accountCalls.set i
            ⟨call.name, call.type, .responded (.internalServerError .timeout)⟩ } []
  | answered {k i : Nat} {msg : Bytes} {call : AccountCall} {corrId : Uuid} :
      d.toGateway[k]? = some msg → d.accountCalls[i]? = some call → call.pc = .wait corrId →
      receiverKey msg = some corrId.bytes →
      Kinds settings gateway d
        { d with
          toGateway := d.toGateway.eraseIdx k
          accountCalls := d.accountCalls.set i
            ⟨call.name, call.type, .responded (onAccountResponse msg)⟩ } []

/-- A message that arrives is in line, and nothing is shown. -/
theorem arrive_shows {frames : List Bytes} {serving serving' : Serving} {ses : List Serving.Event}
    (h : Serving.step serving (.arrive frames) = some (serving', ses)) :
    ses = [] ∧ serving'.process.input = serving.process.input ++ frames := by
  obtain ⟨p', pes, hp, rfl, rfl⟩ := Serving.others_inv h
  cases hp
  exact ⟨rfl, rfl⟩

theorem arrive_kind {identity payload : Bytes} {toEngine : List Bytes} {serving' : Serving}
    (hours : identity = gateway → payload ∈ d.toEngine) (hto : toEngine ⊆ d.toEngine)
    (h : Serving.step d.serving (.arrive [identity, [], payload]) = some (serving', [])) :
    Kinds settings gateway d
      { d with
        serving := serving', toEngine := toEngine
        toGateway := d.toGateway ++ sentTo gateway [] } [] := by
  rw [show sentTo gateway [] = [] from rfl, List.append_nil]
  exact .arrive hours hto h

/-- **Every step is one of these.** -/
theorem step_kinds (h : step settings gateway d a = some (d', es)) :
    Kinds settings gateway d d' es := by
  cases a with
  | gateway b =>
      change (if ofGateway (d.asked.map Prod.fst) b = true then _ else none) = some (d', es) at h
      split at h
      next hown =>
        obtain ⟨s', ges, hmoves, rfl, rfl⟩ := gatewayStep_inv (.inl hown) h
        exact .payment hmoves
      next => cases h
  | createAccount name type =>
      cases h
      exact .starts
  | ask i corrId fails =>
      obtain ⟨name, type, pc, hcall, rfl, hasked, hsent, toEngine, hto, hok, hwait, rfl⟩ :=
        ask_inv h
      exact .asks hasked hsent hto hok hwait
  | giveUp i =>
      obtain ⟨call, hcall, rfl, rfl⟩ := giveUp_inv h
      exact .givesUp
  | receive k =>
      rcases receive_cases h with
        ⟨msg, i, call, corrId, hmsg, hcall, hpc, hkey, rfl, rfl⟩ | hpayment
      · exact .answered hmsg hcall hpc hkey
      · obtain ⟨s', ges, hmoves, rfl, rfl⟩ := gatewayStep_inv (.inr ⟨k, rfl⟩) hpayment
        exact .payment hmoves
  | deliver k =>
      obtain ⟨msg, hmsg, hserver⟩ := Option.bind_eq_some_iff.mp h
      obtain ⟨serving', ses, hstep, rfl, rfl⟩ := serverStep_inv hserver
      obtain ⟨rfl, -⟩ := arrive_shows hstep
      exact arrive_kind (fun _ => List.mem_of_getElem? hmsg) List.eraseIdx_subset hstep
  | client identity payload =>
      change (if identity = gateway then none else _) = some (d', es) at h
      split at h
      next => cases h
      next hother =>
        obtain ⟨serving', ses, hstep, rfl, rfl⟩ := serverStep_inv h
        obtain ⟨rfl, -⟩ := arrive_shows hstep
        exact arrive_kind (fun hsame => absurd hsame hother) (List.Subset.refl _) hstep
  | server b =>
      cases b with
      | arrive frames => cases h
      | io | engine | stop | shutdown =>
          obtain ⟨serving', ses, hstep, rfl, rfl⟩ := serverStep_inv h
          exact .server (fun frames heq => by cases heq) hstep

/-- **Each step is a step of the server, or none to it.** -/
theorem Kinds.serving (h : Kinds settings gateway d d' es) :
    (d'.serving = d.serving ∧ serverTrace es = []) ∨
      ∃ b, Serving.step d.serving b = some (d'.serving, serverTrace es) := by
  cases h with
  | payment => exact .inl ⟨rfl, serverTrace_gateway _⟩
  | server hb hstep =>
      rw [serverTrace_server]
      exact .inr ⟨_, hstep⟩
  | arrive hidentity hto hstep => exact .inr ⟨_, hstep⟩
  | starts | asks | givesUp | answered => exact .inl ⟨rfl, rfl⟩

end Steps

/-- **Every run is a run of the server.** -/
theorem run_serving {settings : Settings} {gateway : Bytes} {wal : Wal.WriteAheadLog}
    {acts : List Action} {t : Traced Deployment Event}
    (h : runDeployment settings gateway wal acts = some t) :
    ∃ bs, Serving.runServing wal bs = some ⟨t.state.serving, serverTrace t.trace⟩ := by
  obtain ⟨-, hrun⟩ := run_maps Deployment.serving Event.asServer (fun _ _ => True)
    (fun _ _ _ _ _ _ _ => trivial)
    (fun _ _ _ _ _ _ hstep => (step_kinds hstep).serving) trivial h
  exact hrun

/-! ## §4. Payments. -/

/-- What is on its way to the gateway was sent by the server. -/
def FromServer (gateway : Bytes) (d : Deployment) (tr : List Event) : Prop :=
  ∀ msg ∈ d.toGateway, (gateway, msg) ∈ Serving.sent (serverTrace tr)

theorem mem_sentTo {gateway msg : Bytes} {es : List Serving.Event} :
    msg ∈ sentTo gateway es ↔ (gateway, msg) ∈ Serving.sent es := by
  unfold sentTo
  rw [List.mem_filterMap]
  constructor
  · intro hmem
    obtain ⟨⟨identity, message⟩, hsent, heq⟩ := hmem
    dsimp only at heq
    split at heq
    next hsame =>
      cases heq
      rw [← hsame]
      exact hsent
    next => cases heq
  · intro hsent
    exact ⟨(gateway, msg), hsent, if_pos rfl⟩

theorem sent_append (tr es : List Serving.Event) :
    Serving.sent (tr ++ es) = Serving.sent tr ++ Serving.sent es := by
  unfold Serving.sent
  rw [Serving.lines_append, List.filterMap_append]

theorem FromServer.step {settings : Settings} {gateway : Bytes} {d d' : Deployment}
    {tr es : List Event} (h : FromServer gateway d tr) (hstep : Kinds settings gateway d d' es) :
    FromServer gateway d' (tr ++ es) := by
  have hold : ∀ msg ∈ d.toGateway, (gateway, msg) ∈ Serving.sent (serverTrace (tr ++ es)) := by
    intro msg hmsg
    unfold serverTrace
    rw [List.filterMap_append, sent_append]
    exact List.mem_append_left _ (h msg hmsg)
  intro msg hmsg
  cases hstep with
  | payment hmoves =>
      refine hold msg ?_
      cases hmoves with
      | aside _ hsub _ => exact hsub hmsg
      | receive => exact List.mem_of_mem_eraseIdx hmsg
      | start | send | sendFails | timeout | broadcast | refund => exact hmsg
  | server hb hserver =>
      rcases List.mem_append.mp hmsg with hbefore | hnew
      · exact hold msg hbefore
      · unfold serverTrace
        rw [List.filterMap_append, sent_append]
        refine List.mem_append_right _ ?_
        rw [show List.filterMap _ _ = serverTrace _ from rfl, serverTrace_server]
        exact mem_sentTo.mp hnew
  | arrive | starts | asks | givesUp => exact hold msg hmsg
  | answered => exact hold msg (List.mem_of_mem_eraseIdx hmsg)

theorem run_fromServer {settings : Settings} {gateway : Bytes} {wal : Wal.WriteAheadLog}
    {acts : List Action} {t : Traced Deployment Event}
    (h : runDeployment settings gateway wal acts = some t) :
    FromServer gateway t.state t.trace := by
  refine traced_invariant (FromServer gateway) ?_ ?_ h
  · intro d tr a d' es hd hstep
    exact hd.step (step_kinds hstep)
  · intro msg hmsg
    cases hmsg

/-- The first byte that is read is the first byte. -/
theorem head_of_index {msg : Bytes} {b : UInt8} (h : index msg 0 = .ok b) : msg.head? = some b := by
  unfold index at h
  split at h
  next c hc =>
    cases h
    rw [List.head?_eq_getElem?]
    exact hc
  next => cases h

/-- Only a response to a transaction is read as one. -/
theorem head_of_parse {msg : Bytes} {result : TransactionResult}
    (h : parseTransaction msg = .ok result) : msg.head? = some MSG_TX_RESPONSE := by
  obtain ⟨type, hindex, hrest⟩ := bind_eq_ok.mp h
  split at hrest
  next => cases hrest
  next hsame => rw [head_of_index hindex, not_not.mp hsame]

/-- No message of the server says OK to a transaction. -/
theorem status_of_sent {wal : Wal.WriteAheadLog} {bs : List Serving.Action}
    {u : Traced Serving Serving.Event} (h : Serving.runServing wal bs = some u)
    {gateway msg : Bytes} (hsent : (gateway, msg) ∈ Serving.sent u.trace)
    {result : TransactionResult} (hparse : parseTransaction msg = .ok result) :
    result.status ≠ 0 := by
  obtain ⟨correlationId, uninitialised, rfl⟩ :=
    Serving.outcomes_unsent h hsent (head_of_parse hparse)
  rw [parseTransaction_status hparse]
  show statusByte .errInternal ≠ 0
  decide

/-- A place a coroutine comes to only after an answer that says OK. -/
def confirms : Job → TaskPc → Bool
  | _, .broadcastCommit _ => true
  | _, .createRefund status => decide (status = .success)
  | _, .broadcastRefund status => decide (status = .success)
  | _, .broadcastRefundFailed _ status => decide (status = .success)
  | _, .returned (some status) => decide (status = .success)
  | .transfer _, .returned none => true
  | _, _ => false

theorem confirms_onError (job : Job) : confirms job job.onError = false := by
  cases job <;> rfl

theorem confirms_onTimeout (job : Job) : confirms job job.onTimeout = false := by
  cases job <;> rfl

theorem confirms_onResponse (job : Job) {msg : Bytes}
    (h : ∀ result, parseTransaction msg = .ok result → result.status ≠ 0) :
    confirms job (job.onResponse msg) = false := by
  unfold Job.onResponse
  split
  next result hparse =>
    have hstatus := h result hparse
    cases job with
    | saga charge =>
        show confirms _ (if result.status = 0 then _ else _) = false
        rw [if_neg hstatus]
        rfl
    | reversal charge => rfl
    | transfer args =>
        show confirms _ (if result.status = 0 then _ else _) = false
        rw [if_neg hstatus]
        rfl
  next => exact confirms_onError job

theorem confirms_onBroadcast {charge : Charge} {pc : TaskPc} {message : SagaMessage}
    (raises : Option String) (h : confirms (.saga charge) pc = false)
    (hmessage : pc.message = some message) :
    confirms (.saga charge) (pc.onBroadcast raises) = false := by
  cases pc with
  | broadcastDispatch | broadcastValidationFailed | broadcastTimeout =>
      cases raises <;> rfl
  | broadcastCommit result => cases h
  | broadcastRefund status | broadcastRefundFailed reason status =>
      cases raises with
      | none => exact h
      | some text => first | rfl | exact h
  | send | wait | createRefund | returned | raised => cases hmessage

theorem confirms_onRefund {charge : Charge} {status : SagaStatus} (raises : Option String)
    (h : confirms (.saga charge) (.createRefund status) = false) :
    confirms (.saga charge) (.onRefund raises status) = false := by
  cases raises <;> exact h

/-- No coroutine was told that its transfer was committed, and none has said so. -/
structure Unconfirmed (d : Deployment) (tr : List Event) : Prop where
  tasks : ∀ task ∈ d.tasks, confirms task.job task.pc = false
  commits : ∀ id txId latency, .gateway (.broadcast id (.commit txId latency)) ∉ tr

/-- A coroutine goes on to a place that confirms nothing. -/
theorem unconfirmed_set {tasks : List Task} {i : Nat} {job : Job} {pc : TaskPc}
    (h : ∀ task ∈ tasks, confirms task.job task.pc = false) (hpc : confirms job pc = false) :
    ∀ task ∈ tasks.set i ⟨job, pc⟩, confirms task.job task.pc = false := by
  intro task htask
  rcases List.mem_or_eq_of_mem_set htask with hold | rfl
  · exact h task hold
  · exact hpc

theorem Unconfirmed.step {settings : Settings} {gateway : Bytes} {d d' : Deployment}
    {tr es : List Event} (h : Unconfirmed d tr)
    (hserver : ∀ msg ∈ d.toGateway, ∀ result, parseTransaction msg = .ok result →
      result.status ≠ 0)
    (hstep : Kinds settings gateway d d' es) : Unconfirmed d' (tr ++ es) := by
  obtain ⟨htasks, hcommits⟩ := h
  have hquiet : (∀ id txId latency, .gateway (.broadcast id (.commit txId latency)) ∉ es) →
      ∀ id txId latency, .gateway (.broadcast id (.commit txId latency)) ∉ tr ++ es := by
    intro hnone id txId latency hmem
    rcases List.mem_append.mp hmem with hold | hnew
    · exact hcommits id txId latency hold
    · exact hnone id txId latency hnew
  cases hstep with
  | server | arrive | starts | asks | givesUp | answered =>
      exact ⟨htasks, hquiet (by simp)⟩
  | payment hmoves =>
      cases hmoves with
      | aside _ _ hnone => exact ⟨htasks, hquiet (by simp [hnone])⟩
      | @start job =>
          refine ⟨?_, hquiet (by simp)⟩
          intro task htask
          rcases List.mem_append.mp htask with hold | hnew
          · exact htasks task hold
          · rw [List.mem_singleton.mp hnew]
            cases job <;> rfl
      | @send i corrId job _ _ _ _ _ =>
          exact ⟨unconfirmed_set htasks (by cases job <;> rfl), hquiet (by simp)⟩
      | sendFails =>
          exact ⟨unconfirmed_set htasks (confirms_onError _), hquiet (by simp)⟩
      | receive hmsg _ =>
          exact ⟨unconfirmed_set htasks (confirms_onResponse _
            (hserver _ (List.mem_of_getElem? hmsg))), hquiet (by simp)⟩
      | timeout =>
          exact ⟨unconfirmed_set htasks (confirms_onTimeout _), hquiet (by simp)⟩
      | @broadcast i raises charge pc message htask hmessage =>
          have hpc := htasks _ (List.mem_of_getElem? htask)
          refine ⟨unconfirmed_set htasks (confirms_onBroadcast raises hpc hmessage), hquiet ?_⟩
          intro id txId latency hmem
          -- the message is of another place
          have hcommit : message = .commit txId latency := by
            have heq := List.mem_singleton.mp hmem
            cases heq
            rfl
          subst hcommit
          cases pc <;> cases hmessage
          cases hpc
      | @refund i accepted raises charge status htask =>
          have hpc := htasks _ (List.mem_of_getElem? htask)
          exact ⟨unconfirmed_set htasks (confirms_onRefund raises hpc), hquiet (by simp)⟩

/-- What a run of the gateway tells of its payments. -/
structure NeverConfirms (t : Traced Deployment Event) : Prop where
  sagas : ∀ task ∈ t.state.tasks, ∀ charge, task.job = .saga charge →
    task.pc ≠ .returned (some .success)
  transfers : ∀ task ∈ t.state.tasks, ∀ args, task.job = .transfer args → task.pc ≠ .returned none
  commits : ∀ id txId latency, .gateway (.broadcast id (.commit txId latency)) ∉ t.trace

/-- **NO PAYMENT IS EVER CONFIRMED.**  However the two sides and the network are
scheduled, and whatever accounts there are: no saga returns a success, no
transfer returns, and no commit is broadcast.  The server sends the outcome of
no transaction. -/
theorem never_confirms {settings : Settings} {gateway : Bytes} {wal : Wal.WriteAheadLog}
    {acts : List Action} {t : Traced Deployment Event}
    (h : runDeployment settings gateway wal acts = some t) : NeverConfirms t := by
  have hinv : Unconfirmed t.state t.trace := by
    refine traced_of_takes Unconfirmed ⟨?_, ?_⟩ ?_ (visits_end h)
    · intro task htask
      cases htask
    · intro id txId latency hmem
      cases hmem
    · intro u a u' es htakes hstep hu
      obtain ⟨before, -, -, hbefore⟩ := htakes.source
      obtain ⟨bs, hserving⟩ := run_serving hbefore
      refine hu.step ?_ (step_kinds hstep)
      intro msg hmsg result hparse
      exact status_of_sent hserving (run_fromServer hbefore msg hmsg) hparse
  refine ⟨?_, ?_, hinv.commits⟩
  · intro task htask charge hjob hpc
    have hnot := hinv.tasks task htask
    rw [hpc] at hnot
    cases hnot
  · intro task htask args hjob hpc
    have hnot := hinv.tasks task htask
    rw [hpc, hjob] at hnot
    cases hnot

/-- `n` steps of the I/O thread. -/
def ioWorks (n : Nat) : List Action := List.replicate n (.server (.io Uuid.zero))

/-- An account is created through the route. -/
def accountCreated (i : Nat) (name : String) (type : Int) (corrId : Uuid) : List Action :=
  [.createAccount name type, .ask i corrId false, .deliver 0] ++ ioWorks 9 ++ [.receive 0]

/-- A charge is booked by the engine.  The gateway waits for the answer in vain,
and refunds it. -/
def bookedAndRefunded : List Action :=
  accountCreated 0 "Escrow" 1 (repeatedId 0) ++ accountCreated 1 "Merchant" 3 (repeatedId 1) ++
    [.gateway (.webhook (.chargeSucceeded ⟨"ch_1", 500, "usd"⟩)), .gateway (.broadcast 0 none),
      .gateway (.send 0 (repeatedId 2) false), .deliver 0] ++ ioWorks 9 ++
    List.replicate 16 (.server (.engine 1000 Wal.OsReply.ok)) ++ ioWorks 9 ++
    [.gateway (.timeout 0), .gateway (.broadcast 0 none), .gateway (.refund 0 true none),
      .gateway (.broadcast 0 none)]

/-- The credit is applied, and the saga reports a timeout. -/
theorem bookedAndRefunded_unconfirmed :
    ∃ t, runDeployment bookedSettings [7] newLog bookedAndRefunded = some t ∧ NeverConfirms t ∧
      t.state.tasks.map Task.pc = [.returned (some .timeoutCompensated)] ∧
      balanceOf t.state.serving.process.engine.accounts (ascii "acc_1") = 500 := by
  have hrun : (runDeployment bookedSettings [7] newLog bookedAndRefunded).map (fun t =>
      (t.state.tasks.map Task.pc,
        balanceOf t.state.serving.process.engine.accounts (ascii "acc_1"))) =
      some ([.returned (some .timeoutCompensated)], 500) := by
    decide +kernel
  obtain ⟨t, ht, heq⟩ := Option.map_eq_some_iff.mp hrun
  obtain ⟨hpc, hbalance⟩ := Prod.mk.inj heq
  exact ⟨t, ht, never_confirms ht, hpc, hbalance⟩

/-! ## §5. Accounts. -/

/-- A message of `send_transaction` begins with its type. -/
theorem transferMessage_head {corrId : Uuid} {args : Transfer} {msg : Bytes}
    (h : args.message corrId = .ok msg) : msg.head? = some Gateway.MSG_TX_REQUEST := by
  unfold Transfer.message transactionMessage at h
  obtain ⟨_, -, h⟩ := bind_eq_ok.mp h
  obtain ⟨_, -, h⟩ := bind_eq_ok.mp h
  obtain ⟨_, -, h⟩ := bind_eq_ok.mp h
  obtain ⟨_, -, h⟩ := bind_eq_ok.mp h
  obtain ⟨_, -, h⟩ := bind_eq_ok.mp h
  obtain ⟨_, -, h⟩ := bind_eq_ok.mp h
  obtain ⟨_, -, h⟩ := bind_eq_ok.mp h
  cases h
  rfl

/-- **The engine reads the account that was meant**, if the message could be
written at all. -/
theorem accountMessage_read {corrId : Uuid} {name : String} {type : Int} {msg : Bytes}
    (h : createAccountMessage corrId name type = .ok msg) :
    ∃ b : UInt8, type = b.toNat ∧
      deserializeCreateAccount msg = some ⟨corrId, encodeUtf8 name, accountTypeOf b⟩ := by
  have hwritten := h
  unfold createAccountMessage at h
  obtain ⟨_, hname, h⟩ := bind_eq_ok.mp h
  obtain ⟨_, htype, -⟩ := bind_eq_ok.mp h
  obtain ⟨b, rfl⟩ : ∃ b : UInt8, type = b.toNat := by
    unfold packB at htype
    split at htype
    next hrange =>
      refine ⟨UInt8.ofNat type.toNat, ?_⟩
      rw [UInt8.toNat_ofNat_of_lt' (by show _ < 256; omega)]
      omega
    next => cases htype
  obtain ⟨msg', hmsg', hread, -⟩ := createAccountMessage_read corrId b (length_of_writeString hname)
  rw [hmsg'] at hwritten
  cases hwritten
  exact ⟨b, rfl, hread⟩

/-- The message is one that a coroutine of the gateway has sent. -/
def Ours (d : Deployment) (payload : Bytes) : Prop :=
  (∃ c ∈ d.sent, c.2.message c.1 = .ok payload) ∨
    ∃ c ∈ d.asked, createAccountMessage c.1 c.2.1 c.2.2 = .ok payload

theorem Ours.mono {d d' : Deployment} {payload : Bytes} (h : Ours d payload)
    (hsent : d.sent ⊆ d'.sent) (hasked : d.asked ⊆ d'.asked) : Ours d' payload := by
  rcases h with ⟨c, hc, hmsg⟩ | ⟨c, hc, hmsg⟩
  · exact .inl ⟨c, hsent hc, hmsg⟩
  · exact .inr ⟨c, hasked hc, hmsg⟩

/-- The account of the answer is in the ledger, as it was asked for. -/
def Listed (e : LedgerEngine) (call : AccountCall) (result : AccountResult) : Prop :=
  e.uuidCounter ≤ 2 ^ 64 → ∃ info, e.accounts.lookup (encodeUtf8 result.accountId) = some info ∧
    info.name = encodeUtf8 call.name ∧ ((typeByte info.type).toNat : Int) = call.type

/-- **What the gateway knows of its messages.**  Those that have not been read yet
are in line as identity, delimiter and payload. -/
structure Remembers (gateway : Bytes) (d : Deployment) (tr : List Event) : Prop where
  messages : ∀ msg ∈ d.toEngine, Ours d msg
  framed : ∃ ms : List (Bytes × Bytes),
    d.serving.process.input = ms.flatMap (fun m => [m.1, [], m.2]) ∧
      ∀ m ∈ ms, m.1 = gateway → Ours d m.2
  received : ∀ payload, (gateway, payload) ∈ Serving.received (serverTrace tr) → Ours d payload
  waits : ∀ call ∈ d.accountCalls, ∀ corrId, call.pc = .wait corrId →
    (corrId, call.name, call.type) ∈ d.asked
  distinct : (d.asked.map Prod.fst).Nodup

section Steps

variable {settings : Settings} {gateway : Bytes} {d d' : Deployment} {tr es : List Event}

theorem received_append (tr es : List Serving.Event) :
    Serving.received (tr ++ es) = Serving.received tr ++ Serving.received es := by
  unfold Serving.received
  rw [Serving.lines_append, List.filterMap_append]

/-- Nothing is received, and the coroutines forget nothing. -/
theorem Remembers.keep (h : Remembers gateway d tr) (hes : serverTrace es = [])
    (hinput : d'.serving.process.input = d.serving.process.input)
    (hsent : d.sent ⊆ d'.sent) (hasked : d.asked ⊆ d'.asked)
    (hmessages : ∀ msg ∈ d'.toEngine, Ours d' msg)
    (hwaits : ∀ call ∈ d'.accountCalls, ∀ corrId, call.pc = .wait corrId →
      (corrId, call.name, call.type) ∈ d'.asked)
    (hdistinct : (d'.asked.map Prod.fst).Nodup) : Remembers gateway d' (tr ++ es) := by
  refine ⟨hmessages, ?_, ?_, hwaits, hdistinct⟩
  · obtain ⟨ms, hframes, hms⟩ := h.framed
    refine ⟨ms, hinput.trans hframes, ?_⟩
    intro m hm hidentity
    exact (hms m hm hidentity).mono hsent hasked
  · intro payload hreceived
    unfold serverTrace at hreceived hes
    rw [List.filterMap_append, hes, List.append_nil] at hreceived
    exact (h.received payload hreceived).mono hsent hasked

theorem Remembers.payment {s' : System} {ges : List Gateway.Event} (h : Remembers gateway d tr)
    (hmoves : Moves settings (d.asked.map Prod.fst) d.view s' ges) :
    Remembers gateway (d.update s') (tr ++ ges.map .gateway) := by
  have hself : ∀ {l : List (Uuid × String × Int)}, l ⊆ l := fun hx => hx
  cases hmoves with
  | aside hto _ _ =>
      refine h.keep (serverTrace_gateway _) rfl (List.Subset.refl _) hself ?_ h.waits h.distinct
      exact fun msg hmsg => h.messages msg (hto hmsg)
  | start | receive | timeout | broadcast | refund =>
      exact h.keep (serverTrace_gateway _) rfl (List.Subset.refl _) hself h.messages h.waits
        h.distinct
  | sendFails =>
      refine h.keep (serverTrace_gateway _) rfl (List.subset_append_left _ _) hself ?_ h.waits
        h.distinct
      exact fun msg hmsg => (h.messages msg hmsg).mono (List.subset_append_left _ _) hself
  | @send i corrId job msg hnew hfresh htask hmsg =>
      refine h.keep (serverTrace_gateway _) rfl (List.subset_append_left _ _) hself ?_ h.waits
        h.distinct
      intro m hm
      rcases List.mem_append.mp hm with hold | hlast
      · exact (h.messages m hold).mono (List.subset_append_left _ _) hself
      · rw [List.mem_singleton.mp hlast]
        exact .inl ⟨_, List.mem_append_right _ (List.mem_singleton_self _), hmsg⟩

/-- A message arrives behind the others. -/
theorem Remembers.arrive {identity payload : Bytes} {toEngine : List Bytes} {serving' : Serving}
    (h : Remembers gateway d tr) (hours : identity = gateway → payload ∈ d.toEngine)
    (hto : toEngine ⊆ d.toEngine)
    (harrive : Serving.step d.serving (.arrive [identity, [], payload]) = some (serving', [])) :
    Remembers gateway { d with serving := serving', toEngine := toEngine } tr := by
  refine ⟨fun msg hmsg => h.messages msg (hto hmsg), ?_, h.received, h.waits, h.distinct⟩
  obtain ⟨ms, hframes, hms⟩ := h.framed
  refine ⟨ms ++ [(identity, payload)], ?_, ?_⟩
  · show serving'.process.input = _
    rw [(arrive_shows harrive).2, hframes, List.flatMap_append]
    rfl
  · intro m hm hidentity
    rcases List.mem_append.mp hm with hold | hnew
    · exact hms m hold hidentity
    · rw [List.mem_singleton.mp hnew] at hidentity ⊢
      exact h.messages payload (hours hidentity)

/-- The server takes the first message that waits. -/
theorem Remembers.server {b : Serving.Action} {serving' : Serving} {ses : List Serving.Event}
    (h : Remembers gateway d tr) (hb : ∀ frames, b ≠ .arrive frames)
    (hstep : Serving.step d.serving b = some (serving', ses)) (toGateway : List Bytes) :
    Remembers gateway { d with serving := serving', toGateway := toGateway }
      (tr ++ ses.map .server) := by
  obtain ⟨ms, hframes, hms⟩ := h.framed
  obtain ⟨first, rest, rfl, hinput, hreceived⟩ := Serving.step_receives_first hstep hb hframes
  refine ⟨h.messages, ⟨rest, hinput, fun m hm => hms m (List.mem_append_right _ hm)⟩, ?_,
    h.waits, h.distinct⟩
  intro p hp
  unfold serverTrace at hp
  rw [List.filterMap_append, received_append,
    show List.filterMap _ (ses.map Event.server) = serverTrace _ from rfl, serverTrace_server,
    hreceived] at hp
  rcases List.mem_append.mp hp with hold | hnew
  · exact h.received p hold
  · exact hms _ (List.mem_append_left _ hnew) rfl

/-- A call that does not wait is of no concern. -/
theorem waits_set_call {calls : List AccountCall} {asked : List (Uuid × String × Int)} {i : Nat}
    {call : AccountCall}
    (h : ∀ call ∈ calls, ∀ corrId, call.pc = .wait corrId →
      (corrId, call.name, call.type) ∈ asked)
    (hcall : ∀ corrId, call.pc = .wait corrId → (corrId, call.name, call.type) ∈ asked) :
    ∀ c ∈ calls.set i call, ∀ corrId, c.pc = .wait corrId → (corrId, c.name, c.type) ∈ asked := by
  intro c hc corrId hpc
  rcases List.mem_or_eq_of_mem_set hc with hold | rfl
  · exact h c hold corrId hpc
  · exact hcall corrId hpc

/-- **One step.** -/
theorem Remembers.step (h : Remembers gateway d tr) (hstep : Kinds settings gateway d d' es) :
    Remembers gateway d' (tr ++ es) := by
  have hself : ∀ {l : List (Uuid × String × Int)}, l ⊆ l := fun hx => hx
  cases hstep with
  | payment hmoves => exact h.payment hmoves
  | server hb hserver => exact h.server hb hserver _
  | arrive hours hto harrive =>
      rw [List.append_nil]
      exact h.arrive hours hto harrive
  | starts =>
      refine h.keep rfl rfl (List.Subset.refl _) hself h.messages ?_ h.distinct
      intro call hcall corrId hpc
      rcases List.mem_append.mp hcall with hold | hnew
      · exact h.waits call hold corrId hpc
      · rw [List.mem_singleton.mp hnew] at hpc
        cases hpc
  | @asks i corrId name type pc toEngine hasked hsent hto hok hwait =>
      have hnew : (corrId, name, type) ∈ d.asked ++ [(corrId, name, type)] :=
        List.mem_append_right _ (List.mem_singleton_self _)
      have hmore : d.asked ⊆ d.asked ++ [(corrId, name, type)] := List.subset_append_left _ _
      refine h.keep rfl rfl (List.Subset.refl _) hmore ?_ ?_ ?_
      · intro msg hmsg
        rcases hto with heq | ⟨m, hm, heq⟩
        · have hbefore : msg ∈ d.toEngine := heq ▸ hmsg
          exact (h.messages msg hbefore).mono (List.Subset.refl _) hmore
        · have hin : msg ∈ d.toEngine ++ [m] := heq ▸ hmsg
          rcases List.mem_append.mp hin with hold | hlast
          · exact (h.messages msg hold).mono (List.Subset.refl _) hmore
          · rw [List.mem_singleton.mp hlast]
            exact .inr ⟨_, hnew, hm⟩
      · refine waits_set_call (fun call hcall id hpc => hmore (h.waits call hcall id hpc)) ?_
        intro id hpc
        rw [hwait id hpc]
        exact hnew
      · show ((d.asked ++ [(corrId, name, type)]).map Prod.fst).Nodup
        rw [List.map_append, List.nodup_append]
        refine ⟨h.distinct, List.nodup_singleton _, ?_⟩
        intro id hid id' hid'
        rw [List.mem_singleton.mp hid']
        rintro rfl
        exact hasked hid
  | givesUp =>
      refine h.keep rfl rfl (List.Subset.refl _) hself h.messages ?_ h.distinct
      exact waits_set_call h.waits (by simp)
  | answered =>
      refine h.keep rfl rfl (List.Subset.refl _) hself h.messages ?_ h.distinct
      exact waits_set_call h.waits (by simp)

end Steps

section Runs

variable {settings : Settings} {gateway : Bytes} {wal : Wal.WriteAheadLog} {acts : List Action}
  {t : Traced Deployment Event}

theorem run_remembers (h : runDeployment settings gateway wal acts = some t) :
    Remembers gateway t.state t.trace := by
  refine traced_invariant (Remembers gateway) ?_ ?_ h
  · intro d tr a d' es hd hstep
    exact hd.step (step_kinds hstep)
  · refine ⟨?_, ⟨[], rfl, by simp⟩, ?_, ?_, List.nodup_nil⟩
    · intro msg hmsg
      cases hmsg
    · intro payload hreceived
      cases hreceived
    · intro call hcall
      cases hcall

/-- Every run is a run of the engine. -/
theorem run_engine (h : runDeployment settings gateway wal acts = some t) :
    ∃ bs tr, runEngine (.init wal) bs = some ⟨t.state.serving.process.engine, tr⟩ := by
  obtain ⟨bs, hserving⟩ := run_serving h
  obtain ⟨cs, hprocess⟩ := Serving.run_process hserving
  obtain ⟨ds, hengine⟩ := Process.run_engine hprocess
  exact ⟨ds, _, hengine⟩

/-- What the parser returns of an account response. -/
theorem parseAccount_inv {resp : CreateAccountResponse} {result : AccountResult}
    (h : parseAccount (serializeCreateAccountResponse resp) = .ok result) :
    result.status = statusByte resp.status ∧
      (resp.accountId.length < 2 ^ 32 → encodeUtf8 result.accountId = resp.accountId) := by
  rw [serializeCreateAccountResponse_eq] at h
  obtain ⟨htype, -, hpayload⟩ := at_header MSG_CREATE_RESPONSE resp.correlationId
    ([statusByte resp.status] ++ (appendString resp.accountId ++ appendString resp.message))
  simp only [Span.at_append, List.length_singleton, Nat.reduceAdd] at hpayload
  obtain ⟨hstatus, hid, -⟩ := hpayload
  obtain ⟨hlength, hbytes⟩ := Span.at_append.mp hid
  have hword := unpackFrom_at hlength
  have hslice := slice_at hbytes
  rw [Wal.length_le32] at hword hslice
  unfold parseAccount at h
  simp only [index_at htype, ok_bind, ne_eq, not_true_eq_false, if_false, index_at hstatus] at h
  obtain ⟨accountId, haccount, h⟩ := bind_eq_ok.mp h
  obtain ⟨message, -, h⟩ := bind_eq_ok.mp h
  cases h
  refine ⟨rfl, ?_⟩
  intro hshort
  unfold Gateway.readString at haccount
  simp only [hword, ok_bind, Wal.ofLE_le32 hshort, hslice] at haccount
  obtain ⟨s, hs, heq⟩ := bind_eq_ok.mp haccount
  cases heq
  exact encodeUtf8_of_decodeUtf8 hs

/-- Identifiers are short. -/
theorem length_accountId (k : Nat) : (accountId k).length < 2 ^ 32 := by
  have hvalue : counterValue k < 10 ^ 20 := by
    have hlt : counterValue k < 2 ^ 64 := Nat.mod_lt _ (Nat.two_pow_pos 64)
    omega
  have hdigits : (toDecimal (counterValue k)).length ≤ 20 := by
    unfold toDecimal
    rw [List.length_map]
    exact (Nat.length_toDigits_le_iff (by decide) (by decide)).mpr hvalue
  unfold accountId
  rw [List.length_append]
  have hprefix : (ascii "acc_").length = 4 := by decide +kernel
  omega

/-- **The answer to a call is that of its own account.** -/
theorem listed_of_answer (h : runDeployment settings gateway wal acts = some t) {msg : Bytes}
    (hmsg : msg ∈ t.state.toGateway) {call : AccountCall} (hcall : call ∈ t.state.accountCalls)
    {corrId : Uuid} (hpc : call.pc = .wait corrId) (hkey : receiverKey msg = some corrId.bytes)
    {result : AccountResult} (hresult : onAccountResponse msg = .ok result) :
    Listed t.state.serving.process.engine call result := by
  obtain ⟨bs, hserving⟩ := run_serving h
  obtain ⟨cs, tr, hengine⟩ := run_engine h
  have hremembers := run_remembers h
  -- the message is an account response, and its status is OK
  unfold onAccountResponse at hresult
  split at hresult
  next parsed hparse =>
    split at hresult
    next hok =>
      cases hresult
      have htype : msg.head? = some Server.MSG_CREATE_RESPONSE := by
        obtain ⟨type, hindex, hrest⟩ := bind_eq_ok.mp hparse
        split at hrest
        next => cases hrest
        next hsame =>
          rw [head_of_index hindex, not_not.mp hsame]
          rfl
      obtain ⟨payload, req, resp, hreceived, hhead, hread, hcorr, rfl, hentered⟩ :=
        Serving.created_entered hserving (run_fromServer h msg hmsg) htype
      -- the message it answers is one of ours
      rcases hremembers.received payload hreceived with ⟨c, -, hsent⟩ | ⟨c, hc, hasked⟩
      · rw [transferMessage_head hsent] at hhead
        cases hhead
      · obtain ⟨b, htypeByte, hmeant⟩ := accountMessage_read hasked
        rw [hmeant] at hread
        cases hread
        -- and of this call, by its correlation id
        have hsame : corrId = c.1 := by
          rw [serializeCreateAccountResponse_eq, receiverKey_header, hcorr] at hkey
          have hbytes := Option.some.inj hkey
          exact Uuid.ext hbytes.symm
        subst hsame
        have hcall' := hremembers.waits call hcall c.1 hpc
        have hpair := List.inj_on_of_nodup_map hremembers.distinct hcall' hc rfl
        obtain ⟨hstatus, hid⟩ := parseAccount_inv hparse
        have hokStatus : resp.status = .ok := by
          refine statusByte_inj ?_
          rw [← hstatus, hok]
          rfl
        intro hk
        obtain ⟨info, hlookup, -, hname, htype⟩ := hentered hk hokStatus
        have hmem := AList.lookup_isSome.mp (Option.isSome_of_mem hlookup)
        obtain ⟨j, -, hj⟩ := (run_identifiers hengine hk).stored _ hmem
        refine ⟨info, ?_, ?_, ?_⟩
        · rw [hid (by rw [hj]; exact length_accountId j)]
          exact hlookup
        · rw [hname, ← hpair]
        · rw [htype, typeByte_accountTypeOf, ← htypeByte, ← hpair]
    next => cases hresult
  next => cases hresult

/-- What is listed stays listed. -/
theorem listed_step (h : runDeployment settings gateway wal acts = some t) {b : Serving.Action}
    {serving' : Serving} {ses : List Serving.Event}
    (hstep : Serving.step t.state.serving b = some (serving', ses)) {call : AccountCall}
    {result : AccountResult} (hlisted : Listed t.state.serving.process.engine call result) :
    Listed serving'.process.engine call result := by
  obtain ⟨cs, tr, hengine⟩ := run_engine h
  obtain ⟨c, hc⟩ := Serving.step_process hstep
  rcases Process.step_engine hc with ⟨hsame, -⟩ | ⟨l, hl⟩
  · rw [hsame]
    exact hlisted
  · have he := Ledger.step_effect hl
    intro hk
    have hbefore := he.counter_le.trans hk
    obtain ⟨info, hlookup, hname, htype⟩ := hlisted hbefore
    obtain ⟨balance, hlookup'⟩ := lookup_step (run_identifiers hengine hbefore) he hlookup
    exact ⟨_, hlookup', hname, htype⟩

/-- Every account that was returned is listed. -/
def AllListed (d : Deployment) : Prop :=
  ∀ call ∈ d.accountCalls, ∀ result, call.pc = .responded (.ok result) →
    Listed d.serving.process.engine call result

theorem listed_set {e : LedgerEngine} {calls : List AccountCall} {i : Nat} {call : AccountCall}
    (h : ∀ call ∈ calls, ∀ result, call.pc = .responded (.ok result) → Listed e call result)
    (hcall : ∀ result, call.pc = .responded (.ok result) → Listed e call result) :
    ∀ c ∈ calls.set i call, ∀ result, c.pc = .responded (.ok result) → Listed e c result := by
  intro c hc result hpc
  rcases List.mem_or_eq_of_mem_set hc with hold | rfl
  · exact h c hold result hpc
  · exact hcall result hpc

/-- **One step.** -/
theorem AllListed.step {d' : Deployment} {es : List Event}
    (h : runDeployment settings gateway wal acts = some t) (hlisted : AllListed t.state)
    (hstep : Kinds settings gateway t.state d' es) : AllListed d' := by
  cases hstep with
  | payment => exact hlisted
  | server hb hserver =>
      exact fun call hcall result hpc => listed_step h hserver (hlisted call hcall result hpc)
  | arrive hours hto harrive =>
      exact fun call hcall result hpc => listed_step h harrive (hlisted call hcall result hpc)
  | starts =>
      intro call hcall result hpc
      rcases List.mem_append.mp hcall with hold | hnew
      · exact hlisted call hold result hpc
      · rw [List.mem_singleton.mp hnew] at hpc
        cases hpc
  | asks hasked hsent hto hok hwait =>
      exact listed_set hlisted (fun result hpc => absurd hpc (hok result))
  | givesUp => exact listed_set hlisted (by simp)
  | answered hmsg hcall hpc hkey =>
      refine listed_set hlisted ?_
      intro result hresponse
      exact listed_of_answer h (List.mem_of_getElem? hmsg) (List.mem_of_getElem? hcall) hpc hkey
        (AccountPc.responded.inj hresponse)

/-- **AN ACCOUNT THAT WAS RETURNED IS IN THE LEDGER.**  When `POST /accounts`
responds with an identifier, an account with this identifier, the name and the
type of the call is in the engine from then on, however many calls, payments,
other clients and lost or late messages there are in between. -/
theorem created_as_asked (h : runDeployment settings gateway wal acts = some t)
    (hk : t.state.serving.process.engine.uuidCounter ≤ 2 ^ 64) {call : AccountCall}
    (hcall : call ∈ t.state.accountCalls) {result : AccountResult}
    (hpc : call.pc = .responded (.ok result)) :
    ∃ info, t.state.serving.process.engine.accounts.lookup (encodeUtf8 result.accountId) =
        some info ∧
      info.name = encodeUtf8 call.name ∧ ((typeByte info.type).toNat : Int) = call.type := by
  have hall : AllListed t.state := by
    refine traced_of_takes (fun d _ => AllListed d) ?_ ?_ (visits_end h)
    · intro call' hcall'
      cases hcall'
    · intro u a u' es htakes hstep hu
      obtain ⟨before, -, -, hbefore⟩ := htakes.source
      exact hu.step hbefore (step_kinds hstep)
  exact hall call hcall result hpc hk

/-- Two accounts were created through the route. -/
theorem bookedAndRefunded_created :
    ∃ (t : Traced Deployment Event) (call : AccountCall) (result : AccountResult),
      runDeployment bookedSettings [7] newLog bookedAndRefunded = some t ∧
      call ∈ t.state.accountCalls ∧ call.name = "Merchant" ∧
      ∃ info, t.state.serving.process.engine.accounts.lookup (encodeUtf8 result.accountId) =
          some info ∧
        info.name = encodeUtf8 call.name ∧ ((typeByte info.type).toNat : Int) = call.type := by
  have hrun : (runDeployment bookedSettings [7] newLog bookedAndRefunded).map (fun t =>
      (t.state.serving.process.engine.uuidCounter, t.state.accountCalls)) =
      some (3, [⟨"Escrow", 1, .responded (.ok ⟨"acc_0", 0, ""⟩)⟩,
        ⟨"Merchant", 3, .responded (.ok ⟨"acc_1", 0, ""⟩)⟩]) := by
    decide +kernel
  obtain ⟨t, ht, heq⟩ := Option.map_eq_some_iff.mp hrun
  obtain ⟨hcounter, hcalls⟩ := Prod.mk.inj heq
  have hmem : (⟨"Merchant", 3, .responded (.ok ⟨"acc_1", 0, ""⟩)⟩ : AccountCall) ∈
      t.state.accountCalls := by
    rw [hcalls]
    exact List.mem_cons_of_mem _ List.mem_cons_self
  refine ⟨t, _, ⟨"acc_1", 0, ""⟩, ht, hmem, rfl, ?_⟩
  exact created_as_asked ht (by rw [hcounter]; decide) hmem rfl

end Runs

end Deployment

end ZeroLGR.Gateway
