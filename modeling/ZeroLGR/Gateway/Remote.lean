/-
  ZeroLGR.Gateway.Remote — a call, from `_send_and_wait` to the engine and back.

  The routes, the sagas and the metrics collector share one `ZMQClient`.  Its
  calls move from `await` to `await`, their messages and the answers are on the
  way for any time, or lost, other clients send messages of three frames to the
  same socket, and the server is the two threads as they are.

    • `Query`, `Remote`, `step` — the machine,
    • `Effect`, `step_effect` — everything a step can do,
    • `run_client`, `run_serving` — every run is one of the client and one of the
      server,
    • `Accounted` — where the messages of the calls are,
    • `remote_calls` — a call reaches the server at most once, and returns with
      the server's answer to itself.
-/
import ZeroLGR.Gateway.Correlation
import ZeroLGR.Gateway.Deployment
import Mathlib.Data.List.Perm.Basic

namespace ZeroLGR.Gateway

open Transition Ledger Server
open scoped List

/-! ## §1. The machine. -/

def MSG_METRICS_REQUEST : UInt8 := 0x03
def MSG_BALANCE_REQUEST : UInt8 := 0x04

/-- The message of `get_metrics`. -/
def getMetricsMessage (corrId : Uuid) : Bytes := MSG_METRICS_REQUEST :: corrId.bytes

/-- The message of `get_balance_snapshot`. -/
def getBalanceSnapshotMessage (corrId : Uuid) : Bytes := MSG_BALANCE_REQUEST :: corrId.bytes

/-- What a coroutine calls. -/
inductive Query where
  | sendTransaction (args : Transfer)
  | createAccount (name : String) (accountType : Int)
  | getMetrics
  | getBalanceSnapshot
  deriving DecidableEq

/-- The message of a call, or what is raised when it is written. -/
def Query.message (corrId : Uuid) : Query → Py Bytes
  | .sendTransaction args => args.message corrId
  | .createAccount name accountType => createAccountMessage corrId name accountType
  | .getMetrics => .ok (getMetricsMessage corrId)
  | .getBalanceSnapshot => .ok (getBalanceSnapshotMessage corrId)

/-- A call that was made. -/
structure Asked where
  corrId : Uuid
  query : Query
  message : Bytes

/-- Where `poll_loop` of the collector stands: it sleeps, call number `i` of the
client is its `get_metrics`, it broadcasts, or it was cancelled. -/
inductive CollectorPc where
  | sleep
  | getMetrics (i : Nat)
  | broadcast (sample : MetricsResult)
  | cancelled
  deriving DecidableEq

/-- The client, with what its calls ask for in the order of the calls, the
messages that are on the way, the server and the collector. -/
structure Remote where
  client : ZmqClient
  asked : List Asked
  toEngine : List Bytes
  toGateway : List Bytes
  serving : Serving
  collector : CollectorPc

namespace Remote

/-- The gateway after its startup. -/
def started (wal : Wal.WriteAheadLog) : Remote where
  client := .connected
  asked := []
  toEngine := []
  toGateway := []
  serving := .started wal
  collector := .sleep

/-- Who moves: a coroutine makes a call, a call moves inside `_send_and_wait`,
the network, the server, another client, or the collector. -/
inductive Action where
  | ask (query : Query) (corrId : Uuid)
  | call (a : ZmqClient.Action)
  | receive (k : Nat)
  | loseRequest (k : Nat)
  | loseReply (k : Nat)
  | deliver (k : Nat)
  | otherClient (identity payload : Bytes)
  | server (a : Serving.Action)
  | poll (corrId : Uuid)
  | collect
  | broadcastEnds
  | stop

/-- What a step shows. -/
inductive Event where
  | client (e : ZmqClient.Event)
  | server (e : Serving.Event)
  | metrics (sample : MetricsResult)

/-- The calls themselves begin with `ask`, and what they receive comes from the
server. -/
def inside : ZmqClient.Action → Bool
  | .call _ => false
  | .receive _ => false
  | _ => true

/-- A call up to its first `await`.  `uuid4` returns no id twice.  The message is
on the way, also if `send_multipart` is going to raise. -/
def register (r : Remote) (query : Query) (corrId : Uuid) (collector : CollectorPc) :
    Option (Remote × List Event) :=
  if corrId ∈ r.asked.map Asked.corrId then none
  else
    match query.message corrId with
    | .ok message =>
        (r.client.step (.call corrId.bytes)).map (fun c =>
          ({ r with
            client := c.1
            asked := r.asked ++ [⟨corrId, query, message⟩]
            toEngine := r.toEngine ++ [message]
            collector := collector }, c.2.map .client))
    -- it is raised before anything is sent
    | .error _ => some (r, [])

/-- A step of the client, which leaves the collector at a place. -/
def clientStep (r : Remote) (a : ZmqClient.Action) (collector : CollectorPc) :
    Option (Remote × List Event) :=
  (r.client.step a).map (fun c =>
    ({ r with client := c.1, collector := collector }, c.2.map .client))

theorem frames_ne_nil (msg : Bytes) : [[], msg] ≠ [] := List.cons_ne_nil _ _

/-- `_receiver_loop` takes the two frames that the socket has for a message. -/
def receive (r : Remote) (k : Nat) : Option (Remote × List Event) :=
  (r.toGateway[k]?).bind (fun msg =>
    ({ r with toGateway := r.toGateway.eraseIdx k } : Remote).clientStep
      (.receive ⟨[[], msg], frames_ne_nil msg⟩) r.collector)

/-- A step of the server. -/
def serverStep (gateway : Bytes) (r : Remote) (a : Serving.Action) :
    Option (Remote × List Event) :=
  (Serving.step r.serving a).map (fun s =>
    ({ r with
      serving := s.1
      toGateway := r.toGateway ++ Deployment.sentTo gateway s.2 }, s.2.map .server))

/-- `poll_loop` behind its `get_metrics`: it broadcasts the sample, or prints what
was raised. -/
def collect (r : Remote) : Option (Remote × List Event) :=
  match r.collector with
  | .getMetrics i =>
      (r.client.calls[i]?).bind (fun call =>
        match call.pc with
        | .returned msg =>
            match parseMetrics msg with
            | .ok sample => some ({ r with collector := .broadcast sample }, [.metrics sample])
            | .error _ => some ({ r with collector := .sleep }, [])
        | .raised => some ({ r with collector := .sleep }, [])
        | _ => none)
  | _ => none

/-- `broadcaster.broadcast` returns, or raises what is printed then. -/
def broadcastEnds (r : Remote) : Option (Remote × List Event) :=
  match r.collector with
  | .broadcast _ => some ({ r with collector := .sleep }, [])
  | _ => none

/-- `MetricsCollector.stop`: the task is cancelled where it waits. -/
def stop (r : Remote) : Remote × List Event :=
  match r.collector with
  | .getMetrics i =>
      match r.clientStep (.cancel i) .cancelled with
      | some stopped => stopped
      | none => ({ r with collector := .cancelled }, [])
  | _ => ({ r with collector := .cancelled }, [])

/-- One step of anybody.  `gateway` is the identity the ROUTER socket has given
to the connection of the client. -/
def step (gateway : Bytes) (r : Remote) : Action → Option (Remote × List Event)
  | .ask query corrId => r.register query corrId r.collector
  | .call a => if inside a = true then r.clientStep a r.collector else none
  | .receive k => r.receive k
  | .loseRequest k => some ({ r with toEngine := r.toEngine.eraseIdx k }, [])
  | .loseReply k => some ({ r with toGateway := r.toGateway.eraseIdx k }, [])
  | .deliver k =>
      (r.toEngine[k]?).bind (fun msg =>
        ({ r with toEngine := r.toEngine.eraseIdx k } : Remote).serverStep gateway
          (.arrive [gateway, [], msg]))
  | .otherClient identity payload =>
      if identity = gateway then none
      else r.serverStep gateway (.arrive [identity, [], payload])
  | .server a =>
      match a with
      | .arrive _ => none
      | a => r.serverStep gateway a
  | .poll corrId =>
      if r.collector = .sleep then
        r.register .getMetrics corrId (.getMetrics r.client.calls.length)
      else none
  | .collect => r.collect
  | .broadcastEnds => r.broadcastEnds
  | .stop => some r.stop

/-- A run, from the startup on. -/
abbrev runRemote (gateway : Bytes) (wal : Wal.WriteAheadLog) (acts : List Action) :
    Option (Traced Remote Event) :=
  run (traced (step gateway)) ⟨.started wal, []⟩ acts

/-! ## §2. What a step can do. -/

/-- The collector finds its call returned, and the sample can be read. -/
def Collects (r : Remote) (sample : MetricsResult) : Prop :=
  ∃ (i : Nat) (call : Call) (msg : Bytes), r.client.calls[i]? = some call ∧
    call.pc = .returned msg ∧ parseMetrics msg = .ok sample

/-- **Everything a step can do.** -/
inductive Effect (gateway : Bytes) (r : Remote) : Remote → List Event → Prop
  | asks {corrId : Uuid} {query : Query} {message : Bytes} {collector : CollectorPc} :
      corrId ∉ r.asked.map Asked.corrId → query.message corrId = .ok message →
      Effect gateway r
        { r with
          client := r.client.register corrId.bytes
          asked := r.asked ++ [⟨corrId, query, message⟩]
          toEngine := r.toEngine ++ [message]
          collector := collector }
        [.client (.registered r.client.calls.length corrId.bytes)]
  | moves {a : ZmqClient.Action} {client : ZmqClient} {ces : List ZmqClient.Event}
      {collector : CollectorPc} : inside a = true → r.client.step a = some (client, ces) →
      Effect gateway r { r with client := client, collector := collector } (ces.map .client)
  | receives {k : Nat} {m : Incoming} {msg : Bytes} {client : ZmqClient}
      {ces : List ZmqClient.Event} : r.toGateway[k]? = some msg → m.parts.getLast? = some msg →
      r.client.step (.receive m) = some (client, ces) →
      Effect gateway r { r with client := client, toGateway := r.toGateway.eraseIdx k }
        (ces.map .client)
  | loses {toEngine toGateway : List Bytes} : toEngine.Sublist r.toEngine →
      toGateway.Sublist r.toGateway →
      Effect gateway r { r with toEngine := toEngine, toGateway := toGateway } []
  | delivers {k : Nat} {msg : Bytes} {serving : Serving} : r.toEngine[k]? = some msg →
      Serving.step r.serving (.arrive [gateway, [], msg]) = some (serving, []) →
      Effect gateway r { r with serving := serving, toEngine := r.toEngine.eraseIdx k } []
  | arrives {identity payload : Bytes} {serving : Serving} : identity ≠ gateway →
      Serving.step r.serving (.arrive [identity, [], payload]) = some (serving, []) →
      Effect gateway r { r with serving := serving } []
  | serves {a : Serving.Action} {serving : Serving} {ses : List Serving.Event} :
      (∀ frames, a ≠ .arrive frames) → Serving.step r.serving a = some (serving, ses) →
      Effect gateway r
        { r with serving := serving, toGateway := r.toGateway ++ Deployment.sentTo gateway ses }
        (ses.map .server)
  | collects {sample : MetricsResult} : r.Collects sample →
      Effect gateway r { r with collector := .broadcast sample } [.metrics sample]
  | goesOn {collector : CollectorPc} : Effect gateway r { r with collector := collector } []

section Steps

variable {gateway : Bytes} {r r' : Remote} {es : List Event}

theorem register_effect {query : Query} {corrId : Uuid} {collector : CollectorPc}
    (h : r.register query corrId collector = some (r', es)) : Effect gateway r r' es := by
  unfold register at h
  split at h
  next => cases h
  next hnew =>
    split at h
    next message hmessage =>
      cases h
      exact .asks hnew hmessage
    next =>
      cases h
      exact .goesOn

theorem clientStep_effect {a : ZmqClient.Action} {collector : CollectorPc} (ha : inside a = true)
    (h : r.clientStep a collector = some (r', es)) : Effect gateway r r' es := by
  obtain ⟨⟨client, ces⟩, hstep, heq⟩ := Option.map_eq_some_iff.mp h
  cases heq
  exact .moves ha hstep

theorem receive_effect {k : Nat} (h : r.receive k = some (r', es)) : Effect gateway r r' es := by
  obtain ⟨msg, hmsg, hstep⟩ := Option.bind_eq_some_iff.mp h
  obtain ⟨⟨client, ces⟩, hclient, heq⟩ := Option.map_eq_some_iff.mp hstep
  cases heq
  exact .receives hmsg rfl hclient

/-- What a step of the server is. -/
theorem serverStep_inv {b : Serving.Action} (h : r.serverStep gateway b = some (r', es)) :
    ∃ serving ses, Serving.step r.serving b = some (serving, ses) ∧
      r' = { r with
        serving := serving
        toGateway := r.toGateway ++ Deployment.sentTo gateway ses } ∧ es = ses.map .server := by
  obtain ⟨⟨serving, ses⟩, hstep, heq⟩ := Option.map_eq_some_iff.mp h
  cases heq
  exact ⟨serving, ses, hstep, rfl, rfl⟩

/-- A message arrives at the socket. -/
theorem arrive_inv {frames : List Bytes}
    (h : r.serverStep gateway (.arrive frames) = some (r', es)) :
    ∃ serving, Serving.step r.serving (.arrive frames) = some (serving, []) ∧
      r' = { r with serving := serving } ∧ es = [] := by
  obtain ⟨serving, ses, hstep, rfl, rfl⟩ := serverStep_inv h
  obtain ⟨rfl, -⟩ := Deployment.arrive_shows hstep
  refine ⟨serving, hstep, ?_, rfl⟩
  rw [show Deployment.sentTo gateway [] = [] from rfl, List.append_nil]

theorem collect_effect (h : r.collect = some (r', es)) : Effect gateway r r' es := by
  unfold collect at h
  split at h
  next i hpc =>
    obtain ⟨call, hcall, h⟩ := Option.bind_eq_some_iff.mp h
    split at h
    next msg hreturned =>
      split at h
      next sample hparse =>
        cases h
        exact .collects ⟨i, call, msg, hcall, hreturned, hparse⟩
      next =>
        cases h
        exact .goesOn
    next =>
      cases h
      exact .goesOn
    next => cases h
  next => cases h

theorem stop_effect (h : r.stop = (r', es)) : Effect gateway r r' es := by
  unfold stop at h
  split at h
  next i hpc =>
    split at h
    next stopped hstep =>
      rw [h] at hstep
      exact clientStep_effect rfl hstep
    next =>
      cases h
      exact .goesOn
  next =>
    cases h
    exact .goesOn

/-- **Every step is one of these.** -/
theorem step_effect {a : Action} (h : step gateway r a = some (r', es)) :
    Effect gateway r r' es := by
  cases a with
  | ask query corrId => exact register_effect h
  | call b =>
      change (if inside b = true then _ else none) = some (r', es) at h
      split at h
      next hb => exact clientStep_effect hb h
      next => cases h
  | receive k => exact receive_effect h
  | loseRequest k =>
      cases h
      exact .loses (List.eraseIdx_sublist _ _) (List.Sublist.refl _)
  | loseReply k =>
      cases h
      exact .loses (List.Sublist.refl _) (List.eraseIdx_sublist _ _)
  | deliver k =>
      obtain ⟨msg, hmsg, harrive⟩ := Option.bind_eq_some_iff.mp h
      obtain ⟨serving, hstep, rfl, rfl⟩ := arrive_inv harrive
      exact .delivers hmsg hstep
  | otherClient identity payload =>
      change (if identity = gateway then none else _) = some (r', es) at h
      split at h
      next => cases h
      next hother =>
        obtain ⟨serving, hstep, rfl, rfl⟩ := arrive_inv h
        exact .arrives hother hstep
  | server b =>
      cases b with
      | arrive frames => cases h
      | io | engine | stop | shutdown =>
          obtain ⟨serving, ses, hstep, rfl, rfl⟩ := serverStep_inv h
          exact .serves (fun frames heq => by cases heq) hstep
  | poll corrId =>
      change (if r.collector = .sleep then _ else none) = some (r', es) at h
      split at h
      next => exact register_effect h
      next => cases h
  | collect => exact collect_effect h
  | broadcastEnds =>
      change r.broadcastEnds = some (r', es) at h
      unfold broadcastEnds at h
      split at h
      next =>
        cases h
        exact .goesOn
      next => cases h
  | stop => exact stop_effect (Option.some.inj h)

end Steps

/-! ## §3. As a run of the client, and of the server. -/

/-- What is seen of the client. -/
def Event.asClient : Event → Option ZmqClient.Event
  | .client e => some e
  | .server _ => none
  | .metrics _ => none

/-- What is seen of the server. -/
def Event.asServer : Event → Option Serving.Event
  | .client _ => none
  | .server e => some e
  | .metrics _ => none

/-- The record of the client. -/
def clientTrace (tr : List Event) : List ZmqClient.Event := tr.filterMap Event.asClient

/-- The record of the server. -/
def serverTrace (tr : List Event) : List Serving.Event := tr.filterMap Event.asServer

theorem clientTrace_append (tr es : List Event) :
    clientTrace (tr ++ es) = clientTrace tr ++ clientTrace es := List.filterMap_append

theorem serverTrace_append (tr es : List Event) :
    serverTrace (tr ++ es) = serverTrace tr ++ serverTrace es := List.filterMap_append

@[simp] theorem clientTrace_client (ces : List ZmqClient.Event) :
    clientTrace (ces.map .client) = ces := by
  unfold clientTrace
  rw [List.filterMap_map]
  exact List.filterMap_some

@[simp] theorem clientTrace_server (ses : List Serving.Event) :
    clientTrace (ses.map .server) = [] := by
  unfold clientTrace
  rw [List.filterMap_map, List.filterMap_eq_nil_iff]
  intro e _
  rfl

@[simp] theorem serverTrace_server (ses : List Serving.Event) :
    serverTrace (ses.map .server) = ses := by
  unfold serverTrace
  rw [List.filterMap_map]
  exact List.filterMap_some

@[simp] theorem serverTrace_client (ces : List ZmqClient.Event) :
    serverTrace (ces.map .client) = [] := by
  unfold serverTrace
  rw [List.filterMap_map, List.filterMap_eq_nil_iff]
  intro e _
  rfl

section Parts

variable {gateway : Bytes} {r r' : Remote} {es : List Event}

/-- **Each step is a step of the client, or none to it.** -/
theorem Effect.client (h : Effect gateway r r' es) :
    (r'.client = r.client ∧ clientTrace es = []) ∨
      ∃ a, r.client.step a = some (r'.client, clientTrace es) := by
  cases h with
  | asks hnew hmessage => exact .inr ⟨.call _, rfl⟩
  | moves ha hstep | receives hmsg hparts hstep =>
      rw [clientTrace_client]
      exact .inr ⟨_, hstep⟩
  | serves ha hstep => exact .inl ⟨rfl, clientTrace_server _⟩
  | loses | delivers | arrives | collects | goesOn => exact .inl ⟨rfl, rfl⟩

/-- **Each step is a step of the server, or none to it.** -/
theorem Effect.serving (h : Effect gateway r r' es) :
    (r'.serving = r.serving ∧ serverTrace es = []) ∨
      ∃ a, Serving.step r.serving a = some (r'.serving, serverTrace es) := by
  cases h with
  | serves ha hstep =>
      rw [serverTrace_server]
      exact .inr ⟨_, hstep⟩
  | delivers hmsg hstep => exact .inr ⟨_, hstep⟩
  | arrives hother hstep => exact .inr ⟨_, hstep⟩
  | moves | receives => exact .inl ⟨rfl, serverTrace_client _⟩
  | asks | loses | collects | goesOn => exact .inl ⟨rfl, rfl⟩

/-- Calls are not forgotten. -/
theorem Effect.asked (h : Effect gateway r r' es) : r.asked <+: r'.asked := by
  cases h with
  | asks => exact List.prefix_append _ _
  | moves | receives | loses | delivers | arrives | serves | collects | goesOn =>
      exact List.prefix_rfl

/-- Only a call that begins is shown as registered, and only what the client
receives as received. -/
theorem step_shows {c c' : ZmqClient} {a : ZmqClient.Action} {ces : List ZmqClient.Event}
    (h : c.step a = some (c', ces)) (ha : ∀ corrId, a ≠ .call corrId) :
    (∀ i corrId, .registered i corrId ∉ ces) ∧
      ∀ n parts, .received n parts ∈ ces → ∃ m : Incoming, a = .receive m ∧ m.parts = parts := by
  have hnothing : ces = [] → (∀ i corrId, .registered i corrId ∉ ces) ∧
      ∀ n parts, .received n parts ∈ ces → ∃ m : Incoming, a = .receive m ∧ m.parts = parts := by
    rintro rfl
    exact ⟨by simp, by simp⟩
  cases a with
  | call corrId => exact absurd rfl (ha corrId)
  | sent i | sendFails i | resume i | expire i | timeout i | cancel i =>
      exact hnothing (move_inv h).1
  | disconnect =>
      change (if c.receiver = .receiving then _ else none) = some (c', ces) at h
      split at h <;> cases h
      exact hnothing rfl
  | receive m =>
      change (if c.receiver = .receiving then _ else none) = some (c', ces) at h
      split at h
      next =>
        obtain ⟨msg, hmsg⟩ : ∃ msg, m.parts.getLast? = some msg :=
          ⟨_, List.getLast?_eq_some_getLast m.sent⟩
        rcases receive_cases c hmsg with hcase | ⟨-, hcase | ⟨i, call, -, -, -, hcase⟩⟩
        all_goals
          rw [hcase] at h
          cases h
          refine ⟨by simp, ?_⟩
          intro n parts hmem
          have hboth : n = c.received ∧ parts = m.parts := by simpa using hmem
          exact ⟨m, rfl, hboth.2.symm⟩
      next => cases h

/-- A call that is under way keeps its id. -/
theorem ids_of_effect {c c' : ZmqClient} {ces : List ZmqClient.Event}
    (h : ZmqClient.Effect c c' ces) (hold : ∀ i corrId, .registered i corrId ∉ ces) :
    c'.calls.map Call.corrId = c.calls.map Call.corrId := by
  have hset : ∀ {i : Nat} {call call' : Call}, c.calls[i]? = some call →
      call'.corrId = call.corrId →
      (c.calls.set i call').map Call.corrId = c.calls.map Call.corrId := by
    intro i call call' hcall hid
    obtain ⟨hlt, heq⟩ := List.getElem?_eq_some_iff.mp hcall
    have hmap : i < (c.calls.map Call.corrId).length := by
      rw [List.length_map]
      exact hlt
    have hvalue : (c.calls.map Call.corrId)[i] = call'.corrId := by
      rw [List.getElem_map, heq, hid]
    rw [List.map_set, ← hvalue, List.set_getElem_self]
  cases h with
  | register corrId => exact absurd (List.mem_singleton_self _) (hold _ _)
  | move hcall hcalls hid => rw [hcalls, hset hcall hid]
  | drop parts hcalls => rw [hcalls]
  | complete hmsg hlen hlookup hcall hfuture hcalls =>
      rw [hcalls]
      exact hset hcall rfl
  | stop => rfl

end Parts

section Runs

variable {gateway : Bytes} {wal : Wal.WriteAheadLog} {acts : List Action}
  {t : Traced Remote Event}

/-- **Every run is a run of the client.** -/
theorem run_client (h : runRemote gateway wal acts = some t) :
    ∃ bs, run (traced ZmqClient.step) ⟨.connected, []⟩ bs =
      some ⟨t.state.client, clientTrace t.trace⟩ := by
  obtain ⟨-, hrun⟩ := run_maps Remote.client Event.asClient (fun _ _ => True)
    (fun _ _ _ _ _ _ _ => trivial)
    (fun _ _ _ _ _ _ hstep => (step_effect hstep).client) trivial h
  exact hrun

/-- **Every run is a run of the server.** -/
theorem run_serving (h : runRemote gateway wal acts = some t) :
    ∃ bs, Serving.runServing wal bs = some ⟨t.state.serving, serverTrace t.trace⟩ := by
  obtain ⟨-, hrun⟩ := run_maps Remote.serving Event.asServer (fun _ _ => True)
    (fun _ _ _ _ _ _ _ => trivial)
    (fun _ _ _ _ _ _ hstep => (step_effect hstep).serving) trivial h
  exact hrun

theorem run_matched (h : runRemote gateway wal acts = some t) :
    Matched t.state.client (clientTrace t.trace) := by
  obtain ⟨bs, hbs⟩ := run_client h
  exact traced_invariant Matched (fun s tr a s' es hs hstep => hs.step hstep) matched_connected hbs

end Runs

/-! ## §4. Where the messages are. -/

/-- The payloads that came from the gateway. -/
def fromGateway (gateway : Bytes) (ms : List (Bytes × Bytes)) : List Bytes :=
  ms.filterMap (fun m => if m.1 = gateway then some m.2 else none)

theorem fromGateway_append (gateway : Bytes) (ms ms' : List (Bytes × Bytes)) :
    fromGateway gateway (ms ++ ms') = fromGateway gateway ms ++ fromGateway gateway ms' :=
  List.filterMap_append

/-- **Where the messages of the calls are.**  Each is in one place: on the way to
the server, in line at its socket, or received; or it was lost. -/
structure Accounted (gateway : Bytes) (r : Remote) (tr : List Event) : Prop where
  calls : r.client.calls.map Call.corrId = r.asked.map (fun q => q.corrId.bytes)
  distinct : (r.asked.map Asked.corrId).Nodup
  written : ∀ q ∈ r.asked, q.query.message q.corrId = .ok q.message
  messages : ∃ ms : List (Bytes × Bytes),
    r.serving.process.input = ms.flatMap (fun m => [m.1, [], m.2]) ∧
      (r.toEngine ++ (fromGateway gateway ms ++
        fromGateway gateway (Serving.received (serverTrace tr)))).Subperm
          (r.asked.map Asked.message)
  replies : ∀ msg ∈ r.toGateway, (gateway, msg) ∈ Serving.sent (serverTrace tr)
  heard : ∀ n parts, .received n parts ∈ clientTrace tr →
    ∃ msg, parts.getLast? = some msg ∧ (gateway, msg) ∈ Serving.sent (serverTrace tr)

theorem accounted_started (gateway : Bytes) (wal : Wal.WriteAheadLog) :
    Accounted gateway (started wal) [] := by
  refine ⟨rfl, List.nodup_nil, ?_, ⟨[], rfl, List.Subperm.refl _⟩, ?_, ?_⟩
  · intro q hq
    cases hq
  · intro msg hmsg
    cases hmsg
  · intro n parts hmem
    cases hmem

section Steps

variable {gateway : Bytes} {r r' : Remote} {tr es : List Event}

/-- What was sent stays sent. -/
theorem sent_mono {m : Bytes × Bytes} (h : m ∈ Serving.sent (serverTrace tr)) :
    m ∈ Serving.sent (serverTrace (tr ++ es)) := by
  rw [serverTrace_append, Deployment.sent_append]
  exact List.mem_append_left _ h

/-- The client moves, and nobody else. -/
theorem Accounted.clientMoves {c : ZmqClient} {ces : List ZmqClient.Event} {toGateway : List Bytes}
    (h : Accounted gateway r tr) (collector : CollectorPc)
    (hids : c.calls.map Call.corrId = r.client.calls.map Call.corrId)
    (hreplies : toGateway ⊆ r.toGateway)
    (hheard : ∀ n parts, .received n parts ∈ ces →
      ∃ msg, parts.getLast? = some msg ∧ msg ∈ r.toGateway) :
    Accounted gateway { r with client := c, toGateway := toGateway, collector := collector }
      (tr ++ ces.map .client) := by
  refine ⟨hids.trans h.calls, h.distinct, h.written, ?_, ?_, ?_⟩
  · rw [serverTrace_append, serverTrace_client, List.append_nil]
    exact h.messages
  · exact fun msg hmsg => sent_mono (h.replies msg (hreplies hmsg))
  · intro n parts hmem
    rw [clientTrace_append, clientTrace_client] at hmem
    rcases List.mem_append.mp hmem with hold | hnew
    · obtain ⟨msg, hmsg, hsent⟩ := h.heard n parts hold
      exact ⟨msg, hmsg, sent_mono hsent⟩
    · obtain ⟨msg, hmsg, hin⟩ := hheard n parts hnew
      exact ⟨msg, hmsg, sent_mono (h.replies msg hin)⟩

/-- A message takes another place. -/
theorem Accounted.relocates (h : Accounted gateway r tr) (toEngine toGateway : List Bytes)
    (serving : Serving) (ses : List Serving.Event)
    (hplaces : ∀ ms : List (Bytes × Bytes),
      r.serving.process.input = ms.flatMap (fun m => [m.1, [], m.2]) →
      ∃ ms' : List (Bytes × Bytes),
        serving.process.input = ms'.flatMap (fun m => [m.1, [], m.2]) ∧
          ∀ received, (toEngine ++ (fromGateway gateway ms' ++ (received ++
            fromGateway gateway (Serving.received ses)))).Subperm
              (r.toEngine ++ (fromGateway gateway ms ++ received)))
    (hreplies : ∀ msg ∈ toGateway, msg ∈ r.toGateway ∨ (gateway, msg) ∈ Serving.sent ses) :
    Accounted gateway
      { r with toEngine := toEngine, toGateway := toGateway, serving := serving }
      (tr ++ ses.map .server) := by
  obtain ⟨ms, hms, hsub⟩ := h.messages
  obtain ⟨ms', hinput, hplaced⟩ := hplaces ms hms
  refine ⟨h.calls, h.distinct, h.written, ⟨ms', hinput, ?_⟩, ?_, ?_⟩
  · rw [serverTrace_append, serverTrace_server, Deployment.received_append, fromGateway_append]
    exact (hplaced _).trans hsub
  · intro msg hmsg
    rw [serverTrace_append, serverTrace_server, Deployment.sent_append]
    rcases hreplies msg hmsg with hold | hnew
    · exact List.mem_append_left _ (h.replies msg hold)
    · exact List.mem_append_right _ hnew
  · intro n parts hmem
    rw [clientTrace_append, clientTrace_server, List.append_nil] at hmem
    obtain ⟨msg, hmsg, hsent⟩ := h.heard n parts hmem
    exact ⟨msg, hmsg, sent_mono hsent⟩

/-- Messages get lost. -/
theorem Accounted.loses {toEngine toGateway : List Bytes} (h : Accounted gateway r tr)
    (hto : toEngine.Sublist r.toEngine) (hreplies : toGateway.Sublist r.toGateway) :
    Accounted gateway { r with toEngine := toEngine, toGateway := toGateway } tr := by
  have hsame := h.relocates toEngine toGateway r.serving [] ?_
    (fun msg hmsg => .inl (hreplies.subset hmsg))
  · rwa [List.map_nil, List.append_nil] at hsame
  · intro ms hms
    refine ⟨ms, hms, ?_⟩
    intro received
    rw [show fromGateway gateway (Serving.received []) = [] from rfl, List.append_nil]
    exact (hto.append_right _).subperm

/-- A message of the gateway gets in line. -/
theorem Accounted.delivers {k : Nat} {msg : Bytes} {serving : Serving}
    (h : Accounted gateway r tr) (hmsg : r.toEngine[k]? = some msg)
    (hinput : serving.process.input = r.serving.process.input ++ [gateway, [], msg]) :
    Accounted gateway { r with serving := serving, toEngine := r.toEngine.eraseIdx k } tr := by
  have hsame := h.relocates (r.toEngine.eraseIdx k) r.toGateway serving [] ?_
    (fun msg hmsg => .inl hmsg)
  · rwa [List.map_nil, List.append_nil] at hsame
  · intro ms hms
    refine ⟨ms ++ [(gateway, msg)], ?_, ?_⟩
    · rw [hinput, hms, List.flatMap_append]
      rfl
    · intro received
      obtain ⟨hlt, heq⟩ := List.getElem?_eq_some_iff.mp hmsg
      have hlast : fromGateway gateway [(gateway, msg)] = [msg] := by
        unfold fromGateway
        simp
      have hmoved := List.getElem_cons_eraseIdx_perm hlt
      rw [heq] at hmoved
      rw [show fromGateway gateway (Serving.received []) = [] from rfl, List.append_nil,
        fromGateway_append, hlast]
      refine List.Perm.subperm ?_
      calc r.toEngine.eraseIdx k ++ ((fromGateway gateway ms ++ [msg]) ++ received)
          _ = r.toEngine.eraseIdx k ++ (fromGateway gateway ms ++ msg :: received) := by simp
          _ ~ r.toEngine.eraseIdx k ++ msg :: (fromGateway gateway ms ++ received) :=
            .append_left _ List.perm_middle
          _ ~ msg :: (r.toEngine.eraseIdx k ++ (fromGateway gateway ms ++ received)) :=
            List.perm_middle
          _ ~ r.toEngine ++ (fromGateway gateway ms ++ received) := hmoved.append_right _

/-- Another client's message gets in line. -/
theorem Accounted.arrives {identity payload : Bytes} {serving : Serving}
    (h : Accounted gateway r tr) (hother : identity ≠ gateway)
    (hinput : serving.process.input = r.serving.process.input ++ [identity, [], payload]) :
    Accounted gateway { r with serving := serving } tr := by
  have hsame := h.relocates r.toEngine r.toGateway serving [] ?_ (fun msg hmsg => .inl hmsg)
  · rwa [List.map_nil, List.append_nil] at hsame
  · intro ms hms
    refine ⟨ms ++ [(identity, payload)], ?_, ?_⟩
    · rw [hinput, hms, List.flatMap_append]
      rfl
    · intro received
      have hlast : fromGateway gateway [(identity, payload)] = [] := by
        unfold fromGateway
        simp [hother]
      rw [show fromGateway gateway (Serving.received []) = [] from rfl, List.append_nil,
        fromGateway_append, hlast, List.append_nil]

/-- The server goes on; it may take the first message in line. -/
theorem Accounted.serves {b : Serving.Action} {serving : Serving} {ses : List Serving.Event}
    (h : Accounted gateway r tr) (hb : ∀ frames, b ≠ .arrive frames)
    (hstep : Serving.step r.serving b = some (serving, ses)) :
    Accounted gateway
      { r with serving := serving, toGateway := r.toGateway ++ Deployment.sentTo gateway ses }
      (tr ++ ses.map .server) := by
  refine h.relocates r.toEngine _ serving ses ?_ ?_
  · intro ms hms
    obtain ⟨first, rest, rfl, hinput, hreceived⟩ := Serving.step_receives_first hstep hb hms
    refine ⟨rest, hinput, ?_⟩
    intro received
    rw [hreceived, fromGateway_append]
    generalize fromGateway gateway first = taken
    generalize fromGateway gateway rest = waiting
    refine List.Perm.subperm (.append_left _ ?_)
    calc waiting ++ (received ++ taken)
        _ = (waiting ++ received) ++ taken := (List.append_assoc _ _ _).symm
        _ ~ taken ++ (waiting ++ received) := List.perm_append_comm
        _ = (taken ++ waiting) ++ received := (List.append_assoc _ _ _).symm
  · intro msg hmsg
    rcases List.mem_append.mp hmsg with hold | hnew
    · exact .inl hold
    · exact .inr (Deployment.mem_sentTo.mp hnew)

/-- A call begins. -/
theorem Accounted.asks {corrId : Uuid} {query : Query} {message : Bytes}
    (h : Accounted gateway r tr) (collector : CollectorPc)
    (hnew : corrId ∉ r.asked.map Asked.corrId) (hmessage : query.message corrId = .ok message) :
    Accounted gateway
      { r with
        client := r.client.register corrId.bytes
        asked := r.asked ++ [⟨corrId, query, message⟩]
        toEngine := r.toEngine ++ [message]
        collector := collector }
      (tr ++ [.client (.registered r.client.calls.length corrId.bytes)]) := by
  obtain ⟨ms, hms, hsub⟩ := h.messages
  refine ⟨?_, ?_, ?_, ⟨ms, hms, ?_⟩, ?_, ?_⟩
  · show (r.client.calls ++ [_]).map Call.corrId = _
    rw [List.map_append, List.map_append, h.calls]
    rfl
  · show ((r.asked ++ [_]).map Asked.corrId).Nodup
    rw [List.map_append, List.nodup_append]
    refine ⟨h.distinct, List.nodup_singleton _, ?_⟩
    intro id hid id' hid'
    rw [List.mem_singleton.mp hid']
    rintro rfl
    exact hnew hid
  · intro q hq
    rcases List.mem_append.mp hq with hold | hlast
    · exact h.written q hold
    · rw [List.mem_singleton.mp hlast]
      exact hmessage
  · rw [serverTrace_append, show serverTrace [.client _] = [] from rfl, List.append_nil,
      List.map_append]
    generalize fromGateway gateway ms ++ _ = later at hsub ⊢
    have hmoved : (r.toEngine ++ [message]) ++ later ~ (r.toEngine ++ later) ++ [message] := by
      rw [List.append_assoc, List.append_assoc]
      exact .append_left _ List.perm_append_comm
    exact hmoved.subperm.trans ((List.subperm_append_right [message]).mpr hsub)
  · exact fun msg hmsg => sent_mono (h.replies msg hmsg)
  · intro n parts hmem
    rw [clientTrace_append] at hmem
    rcases List.mem_append.mp hmem with hold | hlast
    · obtain ⟨msg, hmsg, hsent⟩ := h.heard n parts hold
      exact ⟨msg, hmsg, sent_mono hsent⟩
    · cases List.mem_singleton.mp hlast

/-- **One step.** -/
theorem Accounted.step (h : Accounted gateway r tr) (hstep : Effect gateway r r' es) :
    Accounted gateway r' (tr ++ es) := by
  have hquiet : ∀ {collector : CollectorPc} {e : List Event}, clientTrace e = [] →
      serverTrace e = [] → Accounted gateway { r with collector := collector } (tr ++ e) := by
    intro collector e hclient hserver
    refine ⟨h.calls, h.distinct, h.written, ?_, ?_, ?_⟩
    · rw [serverTrace_append, hserver, List.append_nil]
      exact h.messages
    · exact fun msg hmsg => sent_mono (h.replies msg hmsg)
    · intro n parts hmem
      rw [clientTrace_append, hclient, List.append_nil] at hmem
      obtain ⟨msg, hmsg, hsent⟩ := h.heard n parts hmem
      exact ⟨msg, hmsg, sent_mono hsent⟩
  cases hstep with
  | asks hnew hmessage => exact h.asks _ hnew hmessage
  | @moves a client ces collector ha hclient =>
      have hcall : ∀ corrId, a ≠ .call corrId := by
        rintro corrId rfl
        cases ha
      obtain ⟨hregistered, hreceived⟩ := step_shows hclient hcall
      refine h.clientMoves collector
        (ids_of_effect (ZmqClient.step_effect hclient) hregistered) (List.Subset.refl _) ?_
      intro n parts hmem
      obtain ⟨m, rfl, -⟩ := hreceived n parts hmem
      cases ha
  | @receives k m msg client ces hmsg hparts hclient =>
      obtain ⟨hregistered, hreceived⟩ := step_shows hclient (fun _ heq => by cases heq)
      refine h.clientMoves r.collector
        (ids_of_effect (ZmqClient.step_effect hclient) hregistered) List.eraseIdx_subset ?_
      intro n parts hmem
      obtain ⟨m', heq, rfl⟩ := hreceived n parts hmem
      cases heq
      exact ⟨msg, hparts, List.mem_of_getElem? hmsg⟩
  | loses hto hreplies =>
      rw [List.append_nil]
      exact h.loses hto hreplies
  | delivers hmsg harrive =>
      rw [List.append_nil]
      exact h.delivers hmsg (Deployment.arrive_shows harrive).2
  | arrives hother harrive =>
      rw [List.append_nil]
      exact h.arrives hother (Deployment.arrive_shows harrive).2
  | serves hb hserver => exact h.serves hb hserver
  | collects => exact hquiet rfl rfl
  | goesOn => exact hquiet rfl rfl

theorem run_accounted {wal : Wal.WriteAheadLog} {acts : List Action} {t : Traced Remote Event}
    (h : runRemote gateway wal acts = some t) : Accounted gateway t.state t.trace :=
  traced_invariant (Accounted gateway) (fun _ _ _ _ _ hr hstep => hr.step (step_effect hstep))
    (accounted_started gateway wal) h

end Steps

/-! ## §5. Answers. -/

/-- A message begins with its type and its correlation id. -/
theorem readCorrelationId_of_prefix (type : UInt8) {corrId : Uuid} {msg : Bytes}
    (h : type :: corrId.bytes <+: msg) : readCorrelationId msg = some corrId := by
  obtain ⟨rest, rfl⟩ := h
  exact readCorrelationId_at (at_header type corrId rest).2.1

theorem receiverKey_of_prefix (type : UInt8) {corrId : Uuid} {msg : Bytes}
    (h : type :: corrId.bytes <+: msg) : receiverKey msg = some corrId.bytes := by
  obtain ⟨rest, rfl⟩ := h
  exact receiverKey_header type corrId rest

/-- Every message of a call carries the correlation id of the call. -/
theorem readCorrelationId_message {query : Query} {corrId : Uuid} {message : Bytes}
    (h : query.message corrId = .ok message) : readCorrelationId message = some corrId := by
  cases query with
  | sendTransaction args =>
      change transactionMessage corrId _ _ _ _ _ _ _ = .ok message at h
      unfold transactionMessage at h
      obtain ⟨amount, -, h⟩ := bind_eq_ok.mp h
      obtain ⟨debit, -, h⟩ := bind_eq_ok.mp h
      obtain ⟨credit, -, h⟩ := bind_eq_ok.mp h
      obtain ⟨key, -, h⟩ := bind_eq_ok.mp h
      obtain ⟨text, -, h⟩ := bind_eq_ok.mp h
      obtain ⟨unit, -, h⟩ := bind_eq_ok.mp h
      obtain ⟨charge, -, h⟩ := bind_eq_ok.mp h
      cases h
      refine readCorrelationId_of_prefix MSG_TX_REQUEST ?_
      simp only [List.append_assoc]
      exact List.prefix_append _ _
  | createAccount name accountType =>
      change createAccountMessage corrId name accountType = .ok message at h
      unfold createAccountMessage at h
      obtain ⟨encoded, -, h⟩ := bind_eq_ok.mp h
      obtain ⟨type, -, h⟩ := bind_eq_ok.mp h
      cases h
      refine readCorrelationId_of_prefix MSG_CREATE_ACCOUNT ?_
      simp only [List.append_assoc]
      exact List.prefix_append _ _
  | getMetrics | getBalanceSnapshot =>
      cases h
      exact readCorrelationId_of_prefix _ List.prefix_rfl

/-- **An answer has the correlation id of the message it answers**, where the
receiver loop looks for it. -/
theorem exchange_key {e : LedgerEngine} {b : List Serving.Line} {identity msg : Bytes}
    (h : Serving.Exchange e b) (hsent : .sent identity msg ∈ b) :
    ∃ payload corrId, .received identity payload ∈ b ∧ readCorrelationId payload = some corrId ∧
      receiverKey msg = some corrId.bytes := by
  cases h with
  | accepted hhead hparse => simp at hsent
  | ignored hother => simp at hsent
  | refused hhead hparse =>
      simp only [List.mem_cons, reduceCtorEq, List.not_mem_nil, or_false, false_or] at hsent
      cases hsent
      refine ⟨_, _, List.mem_cons_self, (deserializeRequest_inv hparse).1, ?_⟩
      exact receiverKey_serialize _
  | created hhead hparse hcorr hentered =>
      simp only [List.mem_cons, reduceCtorEq, List.not_mem_nil, or_false, false_or] at hsent
      cases hsent
      obtain ⟨corrId, hid, hparse⟩ := Option.bind_eq_some_iff.mp hparse
      obtain ⟨name, -, hparse⟩ := Option.bind_eq_some_iff.mp hparse
      obtain ⟨type, -, rfl⟩ := Option.map_eq_some_iff.mp hparse
      refine ⟨_, corrId, List.mem_cons_self, hid, ?_⟩
      rw [serializeCreateAccountResponse_eq, receiverKey_header, hcorr]
  | @sampled _ _ corrId sample hhead hread =>
      simp only [List.mem_cons, reduceCtorEq, List.not_mem_nil, or_false, false_or] at hsent
      cases hsent
      refine ⟨_, corrId, List.mem_cons_self, hread,
        receiverKey_of_prefix Server.MSG_METRICS_RESPONSE ?_⟩
      unfold serializeMetrics
      simp only [List.append_assoc]
      exact List.prefix_append _ _
  | @snapshot _ _ corrId data hhead hread =>
      simp only [List.mem_cons, reduceCtorEq, List.not_mem_nil, or_false, false_or] at hsent
      cases hsent
      refine ⟨_, corrId, List.mem_cons_self, hread,
        receiverKey_of_prefix Server.MSG_BALANCE_RESPONSE ?_⟩
      unfold serializeBalanceSnapshot
      simp only [List.append_assoc]
      exact List.prefix_append _ _

section Runs

variable {gateway : Bytes} {wal : Wal.WriteAheadLog} {acts : List Action}
  {t : Traced Remote Event}

/-- The messages of the calls differ, as their ids do. -/
theorem Accounted.messages_nodup {r : Remote} {tr : List Event} (h : Accounted gateway r tr) :
    (r.asked.map Asked.message).Nodup := by
  have hids : (r.asked.map Asked.message).map readCorrelationId =
      (r.asked.map Asked.corrId).map some := by
    rw [List.map_map, List.map_map]
    refine List.map_congr_left ?_
    intro q hq
    exact readCorrelationId_message (h.written q hq)
  refine List.Nodup.of_map readCorrelationId ?_
  rw [hids]
  exact h.distinct.map (Option.some_injective _)

/-- The call is the one of its place. -/
theorem Accounted.asked_of_id {r : Remote} {tr : List Event} (h : Accounted gateway r tr)
    {i : Nat} {call : Call} (hcall : r.client.calls[i]? = some call) {q : Asked}
    (hq : q ∈ r.asked) (hid : call.corrId = q.corrId.bytes) : r.asked[i]? = some q := by
  have hplace : (r.asked.map (fun q => q.corrId.bytes))[i]? = some call.corrId := by
    rw [← h.calls, List.getElem?_map, hcall]
    rfl
  rw [List.getElem?_map] at hplace
  obtain ⟨q', hq', heq⟩ := Option.map_eq_some_iff.mp hplace
  have hsame : q'.corrId = q.corrId := Uuid.ext (heq.trans hid)
  rw [hq', List.inj_on_of_nodup_map h.distinct (List.mem_of_getElem? hq') hq hsame]

/-- The server receives from the gateway the messages of its calls. -/
theorem Accounted.ours {r : Remote} {tr : List Event} (h : Accounted gateway r tr) {payload : Bytes}
    (hpayload : payload ∈ fromGateway gateway (Serving.received (serverTrace tr))) :
    ∃ q ∈ r.asked, q.message = payload := by
  obtain ⟨ms, -, hsub⟩ := h.messages
  exact List.mem_map.mp
    (hsub.subset (List.mem_append_right _ (List.mem_append_right _ hpayload)))

/-- The server receives no message of a call twice: the messages differ, and each
is in one place. -/
theorem Accounted.once {r : Remote} {tr : List Event} (h : Accounted gateway r tr) :
    (fromGateway gateway (Serving.received (serverTrace tr))).Nodup := by
  obtain ⟨ms, -, placed, hperm, hsublist⟩ := h.messages
  have hplaced := hperm.nodup_iff.mp (h.messages_nodup.sublist hsublist)
  exact (List.nodup_append.mp (List.nodup_append.mp hplaced).2.1).2.1

/-- When a call is made, the server has received no message with its id. -/
def Unheard (gateway : Bytes) (before : List Event) (e : Event) : Prop :=
  ∀ i corrId, e = .client (.registered i corrId.bytes) →
    ∀ payload ∈ fromGateway gateway (Serving.received (serverTrace before)),
      readCorrelationId payload ≠ some corrId

theorem run_unheard (h : runRemote gateway wal acts = some t) :
    Justified (Unheard gateway) t.trace := by
  have hboth := traced_invariant (fun r tr => Accounted gateway r tr ∧
    Justified (Unheard gateway) tr) ?_ ⟨accounted_started gateway wal, justified_nil _⟩ h
  · exact hboth.2
  · intro r tr a r' es hr hstep
    obtain ⟨hA, hjustified⟩ := hr
    have heffect := step_effect hstep
    refine ⟨hA.step heffect, ?_⟩
    have hquiet : (∀ i corrId, .client (.registered i corrId) ∉ es) →
        Justified (Unheard gateway) (tr ++ es) := by
      intro hnone
      refine hjustified.append ?_
      rintro e he before i corrId rfl
      exact absurd he (hnone i _)
    have hclient : ∀ {ces : List ZmqClient.Event}, (∀ i corrId, .registered i corrId ∉ ces) →
        ∀ i corrId, Event.client (.registered i corrId) ∉ ces.map Event.client := by
      intro ces hces i corrId hmem
      obtain ⟨e, he, heq⟩ := List.mem_map.mp hmem
      cases heq
      exact hces i corrId he
    cases heffect with
    | @asks corrId query message collector hnew hmessage =>
        refine justified_snoc.mpr ⟨hjustified, ?_⟩
        intro i id heq payload hpayload hread
        -- an id that has been used before
        obtain ⟨q, hq, rfl⟩ := hA.ours hpayload
        rw [readCorrelationId_message (hA.written q hq), Option.some.injEq] at hread
        have hsame : corrId = id := by
          injection heq with heq
          injection heq with _ hbytes
          exact Uuid.ext hbytes
        rw [hsame, ← hread] at hnew
        exact hnew (List.mem_map_of_mem hq)
    | @moves b client ces collector hb hstep' =>
        have hcall : ∀ corrId, b ≠ .call corrId := by
          rintro corrId rfl
          cases hb
        exact hquiet (hclient (step_shows hstep' hcall).1)
    | receives hmsg hparts hstep' =>
        exact hquiet (hclient (step_shows hstep' (fun _ heq => by cases heq)).1)
    | loses | delivers | arrives | serves | collects | goesOn => exact hquiet (by simp)

/-- **The server's own answer**: it has received the message of the call from the
gateway, and `msg` is what it has sent for it. -/
def OwnAnswer (gateway : Bytes) (t : Traced Remote Event) (q : Asked) (msg : Bytes) : Prop :=
  ∃ b, Serving.Exchange t.state.serving.process.engine b ∧ .received gateway q.message ∈ b ∧
    .sent gateway msg ∈ b ∧ ∀ line ∈ b, line ∈ Serving.lines (serverTrace t.trace)

/-- **A call that returns** has the server's own answer, and the server had not
received its message before the call was made. -/
theorem run_returned (h : runRemote gateway wal acts = some t) {i : Nat} {call : Call} {msg : Bytes}
    (hcall : t.state.client.calls[i]? = some call) (hpc : call.pc = .returned msg) :
    ∃ q, t.state.asked[i]? = some q ∧ OwnAnswer gateway t q msg ∧ call.corrId = q.corrId.bytes ∧
      ∃ before after, t.trace = before ++ .client (.registered i call.corrId) :: after ∧
        q.message ∉ fromGateway gateway (Serving.received (serverTrace before)) := by
  have hM := run_matched h
  have hA := run_accounted h
  obtain ⟨bs, hserving⟩ := run_serving h
  obtain ⟨a, b, c, n, parts, htr, -, hlast, hlength, hid⟩ := hM.returned i call msg hcall hpc
  have hheard : .received n parts ∈ clientTrace t.trace := by
    rw [htr]
    simp
  obtain ⟨msg', hlast', hsent⟩ := hA.heard n parts hheard
  rw [hlast, Option.some.injEq] at hlast'
  subst hlast'
  obtain ⟨block, hexchange, hin, hlines⟩ := Serving.sent_exchange hserving hsent
  obtain ⟨payload, corrId, hreceived, hread, hkey⟩ := exchange_key hexchange hin
  -- the message that was answered is that of one of our calls
  have hpayload : payload ∈ fromGateway gateway (Serving.received (serverTrace t.trace)) := by
    refine List.mem_filterMap.mpr ⟨(gateway, payload), ?_, if_pos rfl⟩
    exact List.mem_filterMap.mpr ⟨_, hlines _ hreceived, rfl⟩
  obtain ⟨q, hq, rfl⟩ := hA.ours hpayload
  rw [readCorrelationId_message (hA.written q hq), Option.some.injEq] at hread
  -- and of this call, by its id
  have hsame : call.corrId = q.corrId.bytes := by
    unfold receiverKey at hkey
    rw [if_neg (Nat.not_lt.mpr hlength), Option.some.injEq] at hkey
    rw [hread, ← hkey, ← hid]
    rfl
  refine ⟨q, hA.asked_of_id hcall hq hsame, ⟨block, hexchange, hreceived, hin, hlines⟩, hsame, ?_⟩
  obtain ⟨e, he, heq⟩ := List.mem_filterMap.mp (hM.registered i call hcall)
  have hmade : .client (.registered i call.corrId) ∈ t.trace := by
    cases e with
    | client ce =>
        cases heq
        exact he
    | server | metrics => cases heq
  obtain ⟨before, after, htrace⟩ := List.append_of_mem hmade
  refine ⟨before, after, htrace, ?_⟩
  intro hbefore
  rw [hsame] at htrace
  exact run_unheard h before _ after htrace i q.corrId rfl _ hbefore
    (readCorrelationId_message (hA.written q hq))

/-- **What the calls can rely on.** -/
structure RemoteCalls (gateway : Bytes) (t : Traced Remote Event) : Prop where
  /-- The server receives from the gateway the messages of its calls, each at most once. -/
  atMostOnce : (fromGateway gateway (Serving.received (serverTrace t.trace))).Nodup
  ours : ∀ payload ∈ fromGateway gateway (Serving.received (serverTrace t.trace)),
    ∃ q ∈ t.state.asked, q.message = payload
  /-- A call returns with the answer to its own message, which the server had not
  received before the call was made. -/
  returned : ∀ (i : Nat) (call : Call) (msg : Bytes), t.state.client.calls[i]? = some call →
    call.pc = .returned msg → ∃ q, t.state.asked[i]? = some q ∧ OwnAnswer gateway t q msg ∧
      ∃ before after, t.trace = before ++ .client (.registered i call.corrId) :: after ∧
        q.message ∉ fromGateway gateway (Serving.received (serverTrace before))

/-- **CALLS ARE MADE AT MOST ONCE, AND RETURN WITH THEIR OWN ANSWERS.**  For every
interleaving of any calls of the gateway with the server, its engine and other
clients, with late and lost messages, timeouts and cancelled coroutines. -/
theorem remote_calls (h : runRemote gateway wal acts = some t) : RemoteCalls gateway t := by
  have hA := run_accounted h
  refine ⟨hA.once, fun payload hpayload => hA.ours hpayload, ?_⟩
  intro i call msg hcall hpc
  obtain ⟨q, hq, hown, -, hfresh⟩ := run_returned h hcall hpc
  exact ⟨q, hq, hown, hfresh⟩

end Runs

/-- `n` steps of the I/O thread. -/
def ioWorks (n : Nat) : List Action := List.replicate n (.server (.io Uuid.zero))

/-- An account is created; a request for the balances gets lost and times out,
and another one is answered. -/
def accountThenReports : List Action :=
  [.ask (.createAccount "Escrow" 1) (repeatedId 1), .call (.sent 0), .deliver 0] ++ ioWorks 9 ++
    [.receive 0, .call (.resume 0), .ask .getBalanceSnapshot (repeatedId 2), .call (.sent 1),
      .loseRequest 0, .call (.expire 1), .call (.timeout 1),
      .ask .getBalanceSnapshot (repeatedId 3), .call (.sent 2), .deliver 0] ++ ioWorks 9 ++
    [.receive 0, .call (.resume 2)]

/-- Two of the three calls return. -/
theorem accountThenReports_answered :
    ∃ t, runRemote [7] newLog accountThenReports = some t ∧
      t.state.client.calls.map Call.pc =
        [.returned (serializeCreateAccountResponse ⟨repeatedId 1, ascii "acc_0", .ok, []⟩), .raised,
          .returned (serializeBalanceSnapshot (repeatedId 3)
            ⟨[⟨ascii "acc_0", ascii "Escrow", .liability, 0⟩], 0, 0, 0, true⟩)] ∧
      RemoteCalls [7] t := by
  have hrun : (runRemote [7] newLog accountThenReports).map (fun t =>
      t.state.client.calls.map Call.pc) =
      some [.returned (serializeCreateAccountResponse ⟨repeatedId 1, ascii "acc_0", .ok, []⟩),
        .raised, .returned (serializeBalanceSnapshot (repeatedId 3)
          ⟨[⟨ascii "acc_0", ascii "Escrow", .liability, 0⟩], 0, 0, 0, true⟩)] := by
    decide +kernel
  obtain ⟨t, ht, hpcs⟩ := Option.map_eq_some_iff.mp hrun
  exact ⟨t, ht, hpcs, remote_calls ht⟩

end Remote

end ZeroLGR.Gateway
