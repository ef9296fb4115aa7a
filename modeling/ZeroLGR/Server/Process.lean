/-
  ZeroLGR.Server.Process — the engine and the I/O thread together.

  `run()` of the engine and `io_loop()` of the server share the two queues and
  nothing else that matters to them.  The machine interleaves their steps, and
  lets the engine's other member functions be called at any time.  It is an
  engine to one side and a server to the other, so what holds of either holds
  of the process.

    • `Process`, `step` — the machine,
    • `step_engine`, `step_server` — each step, as a step of either side,
    • `run_engine`, `run_server` — every run, as a run of either side,
    • `run_lengthsFit`, `logged_stands` — the requests that the engine gets have
      strings whose lengths the log can write, so what it logs can be read,
    • `RepliesKept`, `FewUnderway`, `run_repliesKept` — no reply is lost while
      few requests are in flight,
    • `crowd_loses` — with 1024 of them, and the I/O thread stalled, one is.
-/
import ZeroLGR.Ledger.Certificate
import ZeroLGR.Ledger.Restart
import ZeroLGR.Ledger.Traffic
import ZeroLGR.Server.Routing
import ZeroLGR.Server.Wire

namespace ZeroLGR.Server

open Transition Ledger

/-! ## §1. The machine. -/

/-- The engine with its thread, and what the I/O thread has of its own. -/
structure Process where
  engine : LedgerEngine
  running : Bool
  input : List Bytes
  casePendingIdentities : Identities
  drainPendingIdentities : Identities
  ioPc : IoPc

namespace Process

/-- The process after `start()`. -/
def started (wal : Wal.WriteAheadLog) : Process where
  engine := .init wal
  running := true
  input := []
  casePendingIdentities := ∅
  drainPendingIdentities := ∅
  ioPc := .loadRunning

/-- What the I/O thread works with: the queues are the engine's. -/
def server (p : Process) : EngineServer where
  running := p.running
  input := p.input
  requestQueue := p.engine.requestQueue
  replyQueue := p.engine.replyQueue
  working := p.engine.pc.inHand
  casePendingIdentities := p.casePendingIdentities
  drainPendingIdentities := p.drainPendingIdentities
  pc := p.ioPc

/-- What the I/O thread leaves behind. -/
def update (p : Process) (s : EngineServer) : Process where
  engine := { p.engine with requestQueue := s.requestQueue, replyQueue := s.replyQueue }
  running := s.running
  input := s.input
  casePendingIdentities := s.casePendingIdentities
  drainPendingIdentities := s.drainPendingIdentities
  ioPc := s.pc

/-- Who moves. -/
inductive Action where
  | io (answer : Bytes) (uninitialised : Uuid)
  | engine (now : Int64) (os : Wal.OsReply)
  | call (a : Ledger.Action)
  | arrive (frames : List Bytes)
  | stop

/-- What a step shows. -/
inductive Event where
  | io (e : Server.Event)
  | engine (e : Ledger.Event)

/-- One step of either thread, a call, a message or `stop()`. -/
def step (p : Process) : Action → Option (Process × List Event)
  | .io answer uninitialised =>
      (p.server.ioStep answer uninitialised).map (fun r => (p.update r.1, r.2.map .io))
  | .engine now os =>
      (p.engine.engineStep now os).map (fun r => ({ p with engine := r.1 }, r.2.map .engine))
  | .call a =>
      if a.isCall = true then
        (Ledger.step p.engine a).map (fun r => ({ p with engine := r.1 }, r.2.map .engine))
      else none
  | .arrive frames => some ({ p with input := p.input ++ frames }, [])
  | .stop => some ({ p with running := false }, [])

/-- A run of the process, from its start on. -/
abbrev runProcess (wal : Wal.WriteAheadLog) (acts : List Action) :
    Option (Traced Process Event) :=
  run (traced step) ⟨.started wal, []⟩ acts

/-! ## §2. As a run of the engine. -/

/-- What the engine's queues see of the I/O thread. -/
def ofIo : Server.Event → Option Ledger.Event
  | .accepted _ req => some (.submitted req)
  | .answered _ _ => none
  | .drained envelope _ => some (.taken envelope)

/-- What is seen of the engine. -/
def Event.asEngine : Event → Option Ledger.Event
  | .io e => ofIo e
  | .engine e => some e

/-- What is seen of the I/O thread. -/
def Event.asIo : Event → Option Server.Event
  | .io e => some e
  | .engine _ => none

/-- The record of the engine. -/
def engineTrace (tr : List Event) : List Ledger.Event := tr.filterMap Event.asEngine

/-- The record of the I/O thread. -/
def ioTrace (tr : List Event) : List Server.Event := tr.filterMap Event.asIo

theorem engineTrace_io (es : List Server.Event) : engineTrace (es.map .io) = es.filterMap ofIo := by
  unfold engineTrace
  rw [List.filterMap_map]
  rfl

theorem engineTrace_engine (es : List Ledger.Event) : engineTrace (es.map .engine) = es := by
  unfold engineTrace
  rw [List.filterMap_map]
  exact List.filterMap_some

theorem ioTrace_io (es : List Server.Event) : ioTrace (es.map .io) = es := by
  unfold ioTrace
  rw [List.filterMap_map]
  exact List.filterMap_some

theorem ioTrace_engine (es : List Ledger.Event) : ioTrace (es.map .engine) = [] := by
  unfold ioTrace
  rw [List.filterMap_map, List.filterMap_eq_nil_iff]
  intro e _
  rfl

section Steps

variable {p p' : Process} {a : Action} {es : List Event}

/-- What the I/O thread does to the queues in one step. -/
structure AtQueues (s s' : EngineServer) (es : List Server.Event) : Prop where
  working : s'.working = s.working
  queues : ∀ e : LedgerEngine, e.requestQueue = s.requestQueue → e.replyQueue = s.replyQueue →
    let e' := { e with requestQueue := s'.requestQueue, replyQueue := s'.replyQueue }
    (e' = e ∧ es.filterMap ofIo = []) ∨ ∃ b, Ledger.step e b = some (e', es.filterMap ofIo)

theorem AtQueues.aside {s s' : EngineServer} {es : List Server.Event}
    (hworking : s'.working = s.working) (hrequests : s'.requestQueue = s.requestQueue)
    (hreplies : s'.replyQueue = s.replyQueue) (hes : es.filterMap ofIo = []) :
    AtQueues s s' es := by
  refine ⟨hworking, ?_⟩
  intro e hreq hrep
  refine .inl ⟨?_, hes⟩
  rw [hrequests, hreplies, ← hreq, ← hrep]

theorem handleRequest_atQueues {s s' : EngineServer} {uninitialised : Uuid}
    {identity payload : Bytes} {es : List Server.Event}
    (h : s.handleRequest uninitialised identity payload = (s', es)) : AtQueues s s' es := by
  unfold EngineServer.handleRequest at h
  split at h
  next =>
    cases h
    exact .aside rfl rfl rfl rfl
  next req hreq =>
    split at h
    next =>
      cases h
      exact .aside rfl rfl rfl rfl
    next q hq =>
      cases h
      refine ⟨rfl, ?_⟩
      intro e hrequests hreplies
      refine .inr ⟨.submit req, ?_⟩
      simp only [Ledger.step, hrequests, hq, Option.map_some]
      rw [← hreplies]
      rfl

theorem handle_atQueues {s s' : EngineServer} {answer : Bytes} {uninitialised : Uuid}
    {identity payload : Bytes} {es : List Server.Event}
    (h : s.handle answer uninitialised identity payload = (s', es)) : AtQueues s s' es := by
  unfold EngineServer.handle at h
  split at h
  next =>
    cases h
    exact .aside rfl rfl rfl rfl
  next =>
    split at h
    · exact handleRequest_atQueues h
    · -- the other types of messages are at no queue
      split at h
      · split at h <;> cases h <;> exact .aside rfl rfl rfl rfl
      · split at h
        · split at h <;> cases h <;> exact .aside rfl rfl rfl rfl
        · cases h
          exact .aside rfl rfl rfl rfl

theorem drainOne_atQueues {s s' : EngineServer} {es : List Server.Event}
    (h : s.drainOne = (s', es)) : AtQueues s s' es := by
  unfold EngineServer.drainOne at h
  split at h
  next =>
    cases h
    exact .aside rfl rfl rfl rfl
  next envelope q hq =>
    have htake : ∀ e : LedgerEngine, e.requestQueue = s.requestQueue →
        e.replyQueue = s.replyQueue → Ledger.step e .takeReply =
          some ({ e with requestQueue := s.requestQueue, replyQueue := q }, [.taken envelope]) := by
      intro e hrequests hreplies
      simp only [Ledger.step, hreplies, hq, Option.map_some]
      rw [← hrequests]
    dsimp only at h
    split at h <;> cases h <;>
      exact ⟨rfl, fun e hrequests hreplies => .inr ⟨.takeReply, htake e hrequests hreplies⟩⟩

theorem ioStep_atQueues {s s' : EngineServer} {answer : Bytes} {uninitialised : Uuid}
    {es : List Server.Event} (h : s.ioStep answer uninitialised = some (s', es)) :
    AtQueues s s' es := by
  unfold EngineServer.ioStep at h
  split at h
  next => split at h <;> cases h <;> exact .aside rfl rfl rfl rfl
  next =>
    split at h
    · cases h
      exact .aside rfl rfl rfl rfl
    · cases h
      exact .aside rfl rfl rfl rfl
    · cases h
  next => exact handle_atQueues (Option.some.inj h)
  next =>
    cases h
    exact .aside rfl rfl rfl rfl
  next => exact drainOne_atQueues (Option.some.inj h)
  next => cases h
  next => cases h

/-- **Each step is a step of the engine, or none to it.** -/
theorem step_engine (h : step p a = some (p', es)) :
    (p'.engine = p.engine ∧ engineTrace es = []) ∨
      ∃ b, Ledger.step p.engine b = some (p'.engine, engineTrace es) := by
  cases a with
  | io answer uninitialised =>
      obtain ⟨⟨s', ios⟩, hio, heq⟩ := Option.map_eq_some_iff.mp h
      cases heq
      rw [engineTrace_io]
      exact (ioStep_atQueues hio).queues p.engine rfl rfl
  | engine now os =>
      obtain ⟨⟨e', ees⟩, he, heq⟩ := Option.map_eq_some_iff.mp h
      cases heq
      rw [engineTrace_engine]
      exact .inr ⟨.engine now os, he⟩
  | call b =>
      change (if b.isCall = true then _ else none) = some (p', es) at h
      split at h
      · obtain ⟨⟨e', ees⟩, he, heq⟩ := Option.map_eq_some_iff.mp h
        cases heq
        rw [engineTrace_engine]
        exact .inr ⟨b, he⟩
      · cases h
  | arrive frames | stop =>
      cases h
      exact .inl ⟨rfl, rfl⟩

/-! ## §3. As a run of the server. -/

/-- The response that is ready is for the request in hand. -/
def Addressed (p : Process) : Prop :=
  ∀ resp, p.engine.pc.ready = some resp →
    p.engine.pc.inHand.map (·.correlationId) = [resp.correlationId]

/-- A step of the engine is one of those the server reckons with. -/
theorem queueEffect_server {e' : LedgerEngine} {ees : List Ledger.Event} (hp : Addressed p)
    (he : QueueEffect p.engine e' ees) (hown : submitted ees = [] ∧ taken ees = []) :
    { p with engine := e' }.server = p.server ∨
      ∃ b, Server.step p.server b = some ({ p with engine := e' }.server, []) := by
  cases he with
  | within hsame =>
      left
      unfold server
      rw [hsame.requests, hsame.replies, hsame.hand]
  | submit hq => cases hown.1
  | take hq => cases hown.2
  | @pop req q hhand hq =>
      refine .inr ⟨.engineTake, ?_⟩
      simp only [Server.step, server, hq, hhand, Option.map_some]
      rfl
  | @push req resp q next hhand hready hq hnext _ =>
      -- the reply carries the correlation id of its request already
      have hid := hp resp hready
      simp only [hhand, List.map_cons, List.map_nil, List.cons.injEq, and_true] at hid
      refine .inr ⟨.engineReply 0 resp, ?_⟩
      simp only [Server.step, server, EngineServer.answer, hhand, hid, hq, hnext,
        List.getElem?_cons_zero, Option.map_some]
      rfl
  | @lose req resp next hhand hready hq hnext _ =>
      have hid := hp resp hready
      simp only [hhand, List.map_cons, List.map_nil, List.cons.injEq, and_true] at hid
      refine .inr ⟨.engineReply 0 resp, ?_⟩
      simp only [Server.step, server, EngineServer.answer, hhand, hid, hq, hnext,
        List.getElem?_cons_zero, Option.map_some]
      rfl

theorem server_update {s' : EngineServer} (h : s'.working = p.engine.pc.inHand) :
    (p.update s').server = s' := by
  show { s' with working := p.engine.pc.inHand } = s'
  rw [← h]

/-- **Each step is a step of the server, or none to it.** -/
theorem step_server (hp : Addressed p) (h : step p a = some (p', es)) :
    (p'.server = p.server ∧ ioTrace es = []) ∨
      ∃ b, Server.step p.server b = some (p'.server, ioTrace es) := by
  have hmember : ∀ b e' ees, b.atQueues = false → Ledger.step p.engine b = some (e', ees) →
      ({ p with engine := e' }.server = p.server ∧ ioTrace (ees.map .engine) = []) ∨
        ∃ c, Server.step p.server c =
          some ({ p with engine := e' }.server, ioTrace (ees.map .engine)) := by
    intro b e' ees hb he
    rw [ioTrace_engine]
    rcases queueEffect_server hp (step_queueEffect he) (step_own he hb) with hsame | hstep
    · exact .inl ⟨hsame, rfl⟩
    · exact .inr hstep
  cases a with
  | io answer uninitialised =>
      obtain ⟨⟨s', ios⟩, hio, heq⟩ := Option.map_eq_some_iff.mp h
      cases heq
      rw [ioTrace_io]
      refine .inr ⟨.io answer uninitialised, ?_⟩
      dsimp only
      rw [server_update (ioStep_atQueues hio).working]
      exact hio
  | engine now os =>
      obtain ⟨⟨e', ees⟩, he, heq⟩ := Option.map_eq_some_iff.mp h
      cases heq
      exact hmember (.engine now os) e' ees rfl he
  | call b =>
      change (if b.isCall = true then _ else none) = some (p', es) at h
      split at h
      · next hcall =>
          obtain ⟨⟨e', ees⟩, he, heq⟩ := Option.map_eq_some_iff.mp h
          cases heq
          refine hmember b e' ees ?_ he
          cases b <;> first | rfl | cases hcall
      · cases h
  | arrive frames => exact .inr ⟨.arrive frames, by cases h; rfl⟩
  | stop => exact .inr ⟨.stop, by cases h; rfl⟩

end Steps

/-- **Every run is a run of the engine.** -/
theorem run_engine {wal : Wal.WriteAheadLog} {acts : List Action} {t : Traced Process Event}
    (h : runProcess wal acts = some t) :
    ∃ bs, runEngine (.init wal) bs = some ⟨t.state.engine, engineTrace t.trace⟩ := by
  obtain ⟨-, hrun⟩ := run_maps Process.engine Event.asEngine (fun _ _ => True)
    (fun _ _ _ _ _ _ _ => trivial) (fun _ _ _ _ _ _ hstep => step_engine hstep) trivial h
  exact hrun

@[simp] theorem engineTrace_append (tr es : List Event) :
    engineTrace (tr ++ es) = engineTrace tr ++ engineTrace es := List.filterMap_append

theorem traffic_step {p p' : Process} {a : Action} {tr es : List Event}
    (h : Traffic p.engine (engineTrace tr)) (hstep : step p a = some (p', es)) :
    Traffic p'.engine (engineTrace (tr ++ es)) := by
  rw [engineTrace_append]
  rcases step_engine hstep with ⟨hsame, hnone⟩ | ⟨b, hb⟩
  · rw [hsame, hnone, List.append_nil]
    exact h
  · exact h.step (step_queueEffect hb)

/-- **Every run is a run of the server**, which knows nothing of the engine. -/
theorem run_server {wal : Wal.WriteAheadLog} {acts : List Action} {t : Traced Process Event}
    (h : runProcess wal acts = some t) :
    ∃ bs, run (traced Server.step) ⟨.started, []⟩ bs = some ⟨t.state.server, ioTrace t.trace⟩ := by
  obtain ⟨-, hrun⟩ := run_maps Process.server Event.asIo
    (fun p tr => Traffic p.engine (engineTrace tr))
    (fun _ _ _ _ _ htraffic hstep => traffic_step htraffic hstep)
    (fun _ _ _ _ _ htraffic hstep => step_server htraffic.ready hstep) (traffic_init wal) h
  exact hrun

/-! ## §4. What the engine is handed. -/

/-- A request gets into the queue when it has been read from a message. -/
theorem step_submits {p p' : Process} {a : Action} {es : List Event}
    (h : step p a = some (p', es)) {req : TransactionRequest}
    (hreq : req ∈ submitted (engineTrace es)) :
    ∃ payload, deserializeRequest payload = some req := by
  have hown : ∀ b e' ees, b.atQueues = false → Ledger.step p.engine b = some (e', ees) →
      req ∉ submitted (engineTrace (ees.map .engine)) := by
    intro b e' ees hb he
    rw [engineTrace_engine, (step_own he hb).1]
    exact List.not_mem_nil
  cases a with
  | io answer uninitialised =>
      obtain ⟨⟨s', ios⟩, hio, heq⟩ := Option.map_eq_some_iff.mp h
      cases heq
      rw [engineTrace_io] at hreq
      cases ioStep_effect hio with
      | aside | answer | record | drainFound | drainNotFound => cases hreq
      | accept hparse =>
          cases List.mem_singleton.mp hreq
          exact ⟨_, hparse⟩
  | engine now os =>
      obtain ⟨⟨e', ees⟩, he, heq⟩ := Option.map_eq_some_iff.mp h
      cases heq
      exact absurd hreq (hown (.engine now os) e' ees rfl he)
  | call b =>
      change (if b.isCall = true then _ else none) = some (p', es) at h
      split at h
      next hcall =>
        obtain ⟨⟨e', ees⟩, he, heq⟩ := Option.map_eq_some_iff.mp h
        cases heq
        refine absurd hreq (hown b e' ees ?_ he)
        cases b <;> first | rfl | cases hcall
      next => cases h
  | arrive frames | stop =>
      cases h
      cases hreq

/-- **The strings of every request that is accepted** have lengths of 32 bits. -/
theorem run_lengthsFit {wal : Wal.WriteAheadLog} {acts : List Action} {t : Traced Process Event}
    (h : runProcess wal acts = some t) :
    ∀ req ∈ accepted (engineTrace t.trace), req.LengthsFit := by
  have hsubmitted : ∀ req ∈ submitted (engineTrace t.trace), req.LengthsFit := by
    refine traced_invariant
      (fun _ tr => ∀ req ∈ submitted (engineTrace tr), req.LengthsFit) ?_ ?_ h
    · intro p tr a p' es hp hstep req hreq
      rw [engineTrace_append, submitted_append] at hreq
      rcases List.mem_append.mp hreq with hold | hnew
      · exact hp req hold
      · obtain ⟨payload, hparse⟩ := step_submits hstep hnew
        exact deserializeRequest_lengthsFit hparse
    · intro req hreq
      cases hreq
  intro req hreq
  obtain ⟨bs, hengine⟩ := run_engine h
  refine hsubmitted req ?_
  rw [(run_traffic hengine).requests]
  exact List.mem_append_left _ ((run_bookkeeping hengine).accepted_popped hreq)

/-- **What a process logs stands in its file and can be read**, on any opened
log, also after an append has thrown: no request that comes in is too long for
its record. -/
theorem logged_stands {wal : Wal.WriteAheadLog} (hwal : wal.WellMapped) {acts : List Action}
    {t : Traced Process Event} (h : runProcess wal acts = some t) {l : LogEntry}
    (hl : l ∈ logged (engineTrace t.trace)) :
    (∃ k, (logged (engineTrace t.trace))[k]? = some l ∧
      Bytes.readAt t.state.engine.wal.file.byte
          (frameOffset wal.writeOffset (logged (engineTrace t.trace)) k) (12 + l.payload.length) =
        Wal.encodeFrame l.payload) ∧
      auditPayload l.payload = some (l.txId, l.req) := by
  obtain ⟨bs, hengine⟩ := run_engine h
  have hlengths := run_lengthsFit h
  have hbooks := run_bookkeeping hengine
  have hframe := (run_kept hwal hengine).frame hl
  -- a request whose append has thrown was accepted, so it is not too long
  have hover : ¬ t.state.engine.pc.oversized := by
    intro hover
    cases hpc : t.state.engine.pc with
    | terminated req =>
        rw [hpc] at hover
        refine hover (hlengths req ?_)
        rw [hbooks.accepted_eq, hpc]
        exact List.mem_append_right _ (List.mem_singleton_self _)
    | _ =>
        rw [hpc] at hover
        exact hover
  have haccepted : l.req ∈ accepted (engineTrace t.trace) := by
    rw [hbooks.accepted_eq]
    exact List.mem_append_left _ (List.mem_map_of_mem hl)
  exact ⟨hframe.stands hover, hframe.reads (hlengths l.req haccepted)⟩

/-! ## §5. No reply is lost. -/

/-- **No reply is lost**: every push of a reply succeeds, and the replies popped
are those of the requests popped, in their order, up to the replies still
queued and the request in hand. -/
structure RepliesKept (t : Traced Process Event) : Prop where
  pushed : lost (engineTrace t.trace) = []
  inOrder : (popped (engineTrace t.trace)).map (·.correlationId) =
    (taken (engineTrace t.trace)).map (·.correlationId) ++
      t.state.engine.replyQueue.items.map (·.response.correlationId) ++
      t.state.engine.pc.inHand.map (·.correlationId)

/-- A request is pushed only while fewer than 1023 are in flight. -/
def FewUnderway (wal : Wal.WriteAheadLog) (acts : List Action) : Prop :=
  ∀ t a t', Takes (traced step) ⟨.started wal, []⟩ acts t a t' →
    submitted (engineTrace t'.trace) ≠ submitted (engineTrace t.trace) →
      underway t.state.engine < queueCapacity

theorem repliesKept_of_traffic {t : Traced Process Event}
    (h : Traffic t.state.engine (engineTrace t.trace)) (hlost : lost (engineTrace t.trace) = []) :
    RepliesKept t := by
  refine ⟨hlost, ?_⟩
  rw [h.answers hlost, h.replies, List.map_append, List.map_map]
  rfl

/-- The bound on the flight, and what follows from it. -/
structure Bounded (p : Process) (tr : List Event) : Prop where
  flight : underway p.engine ≤ queueCapacity
  kept : lost (engineTrace tr) = []

theorem Bounded.step {p p' : Process} {a : Action} {tr es : List Event} (h : Bounded p tr)
    (hstep : step p a = some (p', es))
    (hfew : submitted (engineTrace es) ≠ [] → underway p.engine < queueCapacity) :
    Bounded p' (tr ++ es) := by
  obtain ⟨hflight, hkept⟩ := h
  rcases step_engine hstep with ⟨hsame, hnone⟩ | ⟨b, hb⟩
  · refine ⟨?_, ?_⟩
    · rw [hsame]
      exact hflight
    · rw [engineTrace_append, hnone, List.append_nil]
      exact hkept
  · have heffect := step_queueEffect hb
    have hlost := heffect.lost_eq_nil hflight
    have hbalance := heffect.balance
    refine ⟨?_, ?_⟩
    · by_cases hpush : submitted (engineTrace es) = []
      · rw [hpush, List.length_nil] at hbalance
        omega
      · have hone := heffect.submitted_le
        have hroom := hfew hpush
        omega
    · rw [engineTrace_append, lost_append, hkept, hlost]
      rfl

/-- **NO REPLY IS LOST WHILE FEW ARE IN FLIGHT.**  Over every run of the two
threads that pushes a request only while fewer than 1023 are in flight, and in
every state it passes through. -/
theorem run_repliesKept {wal : Wal.WriteAheadLog} {acts : List Action}
    (hfew : FewUnderway wal acts) {t : Traced Process Event}
    (h : Visits (traced step) ⟨.started wal, []⟩ acts t) : RepliesKept t := by
  have hinv : Traffic t.state.engine (engineTrace t.trace) ∧ Bounded t.state t.trace := by
    refine visits_of_takes
      (fun t => Traffic t.state.engine (engineTrace t.trace) ∧ Bounded t.state t.trace)
      ⟨traffic_init wal, ⟨Nat.zero_le _, rfl⟩⟩ ?_ h
    intro u a u' htakes hu
    obtain ⟨htraffic, hbounded⟩ := hu
    obtain ⟨es, hes, htrace⟩ := htakes.shows
    rw [htrace]
    refine ⟨traffic_step htraffic hes, hbounded.step hes ?_⟩
    intro hpush
    refine hfew u a u' htakes ?_
    rw [htrace, engineTrace_append, submitted_append]
    intro hsame
    exact hpush (List.append_right_eq_self.mp hsame)
  exact repliesKept_of_traffic hinv.1 hinv.2.kept

/-- Each step pushes one request at most, so a short run has few underway. -/
theorem underway_le {wal : Wal.WriteAheadLog} : ∀ {acts : List Action} {t : Traced Process Event},
    runProcess wal acts = some t → underway t.state.engine ≤ acts.length := by
  intro acts
  induction acts using List.reverseRecOn with
  | nil =>
      intro t h
      cases h
      exact Nat.le_refl 0
  | append_singleton acts a ih =>
      intro t h
      rw [runProcess, run_snoc] at h
      obtain ⟨u, hu, hstep⟩ := Option.bind_eq_some_iff.mp h
      have hbefore := ih hu
      obtain ⟨es, hes, -⟩ := traced_eq_some.mp hstep
      rw [List.length_append, List.length_singleton]
      rcases step_engine hes with ⟨hsame, -⟩ | ⟨b, hb⟩
      · rw [hsame]
        omega
      · have hbalance := (step_queueEffect hb).balance
        have hone := (step_queueEffect hb).submitted_le
        omega

theorem fewUnderway_of_length {wal : Wal.WriteAheadLog} {acts : List Action}
    (h : acts.length ≤ queueCapacity) : FewUnderway wal acts := by
  intro t a t' htakes _
  obtain ⟨before, after, hacts, hrun, -⟩ := htakes
  have hle := underway_le hrun
  rw [hacts, List.length_append, List.length_cons] at h
  omega

/-- One client sends two requests, the engine answers both, the replies are drained. -/
def twoRequests : List Action :=
  [.arrive [[7], [], smallRequest, [8], [], smallRequest]] ++
    List.replicate 10 (.io [] Uuid.zero) ++ List.replicate 20 (.engine 1000 Wal.OsReply.ok) ++
    List.replicate 5 (.io [] Uuid.zero)

/-- Both replies come out. -/
theorem twoRequests_kept :
    (runProcess newLog twoRequests).map (fun t => (taken (engineTrace t.trace)).length) = some 2 ∧
      ∀ t, Visits (traced step) ⟨.started newLog, []⟩ twoRequests t → RepliesKept t :=
  ⟨by decide +kernel, fun _ => run_repliesKept (fewUnderway_of_length (by decide))⟩

/-! ## §6. A crowd. -/

/-- The request in `smallRequest`. -/
def smallParsed : TransactionRequest where
  correlationId := Uuid.zero
  idempotencyKey := []
  description := []
  debitAccountId := []
  creditAccountId := []
  amountMinor := 0
  currency := []
  stripeChargeId := []

/-- `n` messages from one client. -/
def crowd : Nat → List Bytes
  | 0 => []
  | n + 1 => [7] :: [] :: smallRequest :: crowd n

/-- One iteration of `io_loop()` that takes a request. -/
def ioIteration : List Action := List.replicate 5 (.io [] Uuid.zero)

theorem io_pushes {e : LedgerEngine} {q} (hq : e.requestQueue.enqueue smallParsed = some q)
    (hr : e.replyQueue.dequeue = none) (rest : List Bytes) (c d : Identities) (tr : List Event) :
    ∃ c', run (traced step)
      ⟨⟨e, true, [7] :: [] :: smallRequest :: rest, c, d, .loadRunning⟩, tr⟩ ioIteration =
        some ⟨⟨{ e with requestQueue := q }, true, rest, c', d, .loadRunning⟩,
          tr ++ [.io (.accepted [7] smallParsed)]⟩ := by
  have hparse : deserializeRequest smallRequest = some smallParsed := by decide +kernel
  have hload : step ⟨e, true, [7] :: [] :: smallRequest :: rest, c, d, .loadRunning⟩
      (.io [] Uuid.zero) =
        some (⟨e, true, [7] :: [] :: smallRequest :: rest, c, d, .poll⟩, []) := rfl
  have hpoll : step ⟨e, true, [7] :: [] :: smallRequest :: rest, c, d, .poll⟩
      (.io [] Uuid.zero) = some (⟨e, true, rest, c, d, .handle [7] smallRequest⟩, []) := rfl
  have hhandle : step ⟨e, true, rest, c, d, .handle [7] smallRequest⟩ (.io [] Uuid.zero) =
      some (⟨{ e with requestQueue := q }, true, rest, c, d, .recordIdentity [7] smallRequest⟩,
        [.io (.accepted [7] smallParsed)]) := by
    have hcase : ∀ s : EngineServer, s.handle [] Uuid.zero [7] smallRequest =
        s.handleRequest Uuid.zero [7] smallRequest := fun _ => rfl
    simp only [step, server, EngineServer.ioStep, hcase, EngineServer.handleRequest, hparse, hq]
    rfl
  have hrecord : step
      ⟨{ e with requestQueue := q }, true, rest, c, d, .recordIdentity [7] smallRequest⟩
      (.io [] Uuid.zero) = some (⟨{ e with requestQueue := q }, true, rest,
        c.insert ((smallRequest.drop 1).take 16) [7], d, .drain⟩, []) := rfl
  have hdrain : ∀ c', step ⟨{ e with requestQueue := q }, true, rest, c', d, .drain⟩
      (.io [] Uuid.zero) =
        some (⟨{ e with requestQueue := q }, true, rest, c', d, .loadRunning⟩, []) := by
    intro c'
    simp only [step, EngineServer.ioStep, EngineServer.drainOne, server, hr]
    rfl
  refine ⟨c.insert ((smallRequest.drop 1).take 16) [7], ?_⟩
  unfold ioIteration
  simp only [List.replicate]
  rw [run_traced_cons hload, run_traced_cons hpoll, run_traced_cons hhandle,
    run_traced_cons hrecord, run_traced_cons (hdrain _)]
  simp [run]

/-- **The I/O thread fills the queue** while the engine does nothing. -/
theorem io_fills : ∀ (n : Nat) {e : LedgerEngine}, e.replyQueue.dequeue = none →
    e.requestQueue.items.length + n ≤ queueCapacity → ∀ (rest : List Bytes) (c d : Identities)
      (tr : List Event), ∃ c' q acts tr', run (traced step)
        ⟨⟨e, true, crowd n ++ rest, c, d, .loadRunning⟩, tr⟩ acts =
          some ⟨⟨{ e with requestQueue := q }, true, rest, c', d, .loadRunning⟩, tr'⟩ ∧
        q.items.length = e.requestQueue.items.length + n := by
  intro n
  induction n with
  | zero =>
      intro e _ _ rest c d tr
      exact ⟨c, e.requestQueue, [], tr, rfl, rfl⟩
  | succ n ih =>
      intro e hreply hroom rest c d tr
      obtain ⟨q, hq, hitems⟩ := Fifo.Bounded.enqueue_of_lt (a := smallParsed)
        (show e.requestQueue.items.length < queueCapacity by omega)
      have hlength : q.items.length = e.requestQueue.items.length + 1 := by
        rw [hitems, List.length_append, List.length_singleton]
      obtain ⟨c₁, hpush⟩ := io_pushes hq hreply (crowd n ++ rest) c d tr
      obtain ⟨c₂, q₂, acts, tr₂, hrun, hfull⟩ := ih (e := { e with requestQueue := q }) hreply
        (show q.items.length + n ≤ queueCapacity by omega) rest c₁ d
        (tr ++ [.io (.accepted [7] smallParsed)])
      refine ⟨c₂, q₂, ioIteration ++ acts, tr₂, ?_, ?_⟩
      · rw [run_append]
        show (run (traced step) ⟨⟨e, true, [7] :: [] :: smallRequest :: (crowd n ++ rest), c, d,
          .loadRunning⟩, tr⟩ ioIteration).bind _ = _
        rw [hpush]
        exact hrun
      · rw [hfull]
        show q.items.length + n = _
        omega

/-- **The engine takes a request** up, in two steps. -/
theorem engine_takes {e : LedgerEngine} {req : TransactionRequest}
    {q : Fifo.Bounded TransactionRequest queueCapacity} (hpc : e.pc = .loadRunning)
    (hrunning : e.running = true) (hq : e.requestQueue.dequeue = some (req, q))
    (frames : List Bytes) (c d : Identities) (tr : List Event) :
    run (traced step) ⟨⟨e, true, frames, c, d, .loadRunning⟩, tr⟩
      (List.replicate 2 (.engine 1000 Wal.OsReply.ok)) =
        some ⟨⟨{ e with requestQueue := q, pc := .findCached req }, true, frames, c, d,
          .loadRunning⟩, tr ++ [.engine (.popped req)]⟩ := by
  have hload : step ⟨e, true, frames, c, d, .loadRunning⟩ (.engine 1000 Wal.OsReply.ok) =
      some (⟨{ e with pc := .popRequest }, true, frames, c, d, .loadRunning⟩, []) := by
    simp only [step, LedgerEngine.engineStep, hpc, hrunning]
    rfl
  have hpop : step ⟨{ e with pc := .popRequest }, true, frames, c, d, .loadRunning⟩
      (.engine 1000 Wal.OsReply.ok) =
        some (⟨{ e with requestQueue := q, pc := .findCached req }, true, frames, c, d,
          .loadRunning⟩, [.engine (.popped req)]) := by
    simp only [step, LedgerEngine.engineStep, hq]
    rfl
  simp only [List.replicate]
  rw [run_traced_cons hload, run_traced_cons hpop, List.append_nil]
  rfl

/-- A run of the engine thread, in the process. -/
theorem run_engineSteps : ∀ (n : Nat) {p : Process} {tr : List Event}
    {u : Traced LedgerEngine Ledger.Event}, runEngine p.engine (engineSteps n) = some u →
      run (traced step) ⟨p, tr⟩ (List.replicate n (.engine 1000 Wal.OsReply.ok)) =
        some ⟨{ p with engine := u.state }, tr ++ u.trace.map .engine⟩ := by
  intro n
  induction n with
  | zero =>
      intro p tr u h
      cases h
      simp [run]
  | succ n ih =>
      intro p tr u h
      obtain ⟨m, hm, hrest⟩ := Option.bind_eq_some_iff.mp h
      obtain ⟨es, hes, htrace⟩ := traced_eq_some.mp hm
      have hstep : step p (.engine 1000 Wal.OsReply.ok) =
          some ({ p with engine := m.state }, es.map .engine) := by
        show (p.engine.engineStep 1000 Wal.OsReply.ok).map _ = _
        rw [show p.engine.engineStep 1000 Wal.OsReply.ok = some (m.state, es) from hes]
        rfl
      -- the rest of the run has nothing on record yet
      have hfrom := run_traced_from Ledger.step (engineSteps n) m.state m.trace
      rw [show run _ ⟨m.state, m.trace⟩ (engineSteps n) = some u from hrest] at hfrom
      obtain ⟨v, hv, hu⟩ := Option.map_eq_some_iff.mp hfrom.symm
      rw [List.replicate_succ, run_traced_cons hstep,
        ih (p := { p with engine := m.state }) hv, ← hu, htrace]
      simp

/-- The engine takes one request, and the I/O thread fills the queue behind it. -/
theorem crowd_forms :
    ∃ acts u, runProcess newLog acts = some u ∧ underway u.state.engine = 1024 ∧
      Working u.state.engine ∧ Unused u.state.engine [] := by
  obtain ⟨q₁, hq₁, hitems₁⟩ := Fifo.Bounded.enqueue_of_lt (a := smallParsed)
    (q := (LedgerEngine.init newLog).requestQueue) (by decide)
  obtain ⟨q₂, hq₂, hitems₂⟩ := Fifo.Bounded.dequeue_of_cons hitems₁
  obtain ⟨c₁, hfirst⟩ := io_pushes (e := .init newLog) hq₁ rfl (crowd 1023) ∅ ∅ []
  let taking : LedgerEngine :=
    { LedgerEngine.init newLog with requestQueue := q₂, pc := .findCached smallParsed }
  have hempty : q₂.items.length = 0 := by
    rw [hitems₂]
    rfl
  obtain ⟨c₃, q₃, acts, tr, hfill, hfull⟩ := io_fills 1023 (e := taking) rfl
    (show q₂.items.length + 1023 ≤ 1023 by omega) [] c₁ ∅
    [.io (.accepted [7] smallParsed), .engine (.popped smallParsed)]
  have harrive : run (traced step) ⟨.started newLog, []⟩ [.arrive (crowd 1024)] = some
      ⟨⟨.init newLog, true, [7] :: [] :: smallRequest :: crowd 1023, ∅, ∅, .loadRunning⟩, []⟩ := rfl
  -- the engine takes the first request up before the others arrive
  have htake : run (traced step)
      ⟨⟨{ LedgerEngine.init newLog with requestQueue := q₁ }, true, crowd 1023, c₁, ∅,
        .loadRunning⟩, [] ++ [.io (.accepted [7] smallParsed)]⟩
      (List.replicate 2 (.engine 1000 Wal.OsReply.ok)) = some
        ⟨⟨taking, true, crowd 1023, c₁, ∅, .loadRunning⟩,
          [.io (.accepted [7] smallParsed), .engine (.popped smallParsed)]⟩ :=
    engine_takes rfl rfl hq₂ (crowd 1023) c₁ ∅ _
  rw [List.append_nil] at hfill
  have hfilled : runProcess newLog ([.arrive (crowd 1024)] ++ ioIteration ++
      List.replicate 2 (.engine 1000 Wal.OsReply.ok) ++ acts) =
        some ⟨⟨{ taking with requestQueue := q₃ }, true, [], c₃, ∅, .loadRunning⟩, tr⟩ := by
    rw [runProcess, run_append, run_append, run_append, harrive, Option.bind_some, hfirst,
      Option.bind_some, htake, Option.bind_some]
    exact hfill
  have hunderway : underway { taking with requestQueue := q₃ } = 1024 := by
    show q₃.items.length + 1 + 0 = 1024
    rw [hfull]
    show q₂.items.length + 1023 + 1 + 0 = 1024
    omega
  exact ⟨_, _, hfilled, hunderway, ⟨rfl, by intro h; cases h⟩, ⟨rfl, rfl, rfl, rfl⟩⟩

/-- **A reply is lost** when 1024 requests are underway and the I/O thread stalls
while the engine answers them. -/
theorem crowd_loses_reply :
    ∃ acts u n t, runProcess newLog acts = some u ∧ underway u.state.engine = 1024 ∧
      runProcess newLog (acts ++ List.replicate n (.engine 1000 Wal.OsReply.ok)) = some t ∧
      ¬ RepliesKept t := by
  obtain ⟨acts, u, hfilled, hunderway, hworking, hunused⟩ := crowd_forms
  have hcrowd : queueCapacity < underway u.state.engine := by
    rw [hunderway]
    decide
  obtain ⟨n, v, hrun, hend⟩ := crowd_loses hworking hunused.alive hcrowd
  -- without accounts there is nothing the engine could die over
  have hlost : lost v.trace ≠ [] := by
    refine hend.resolve_left ?_
    rw [(engineSteps_unused hunused hrun).alive]
    exact Bool.false_ne_true
  have hwhole : runProcess newLog (acts ++ List.replicate n (.engine 1000 Wal.OsReply.ok)) =
      some ⟨{ u.state with engine := v.state }, u.trace ++ v.trace.map .engine⟩ := by
    rw [runProcess, run_append, show run _ _ acts = some u from hfilled]
    exact run_engineSteps n hrun
  refine ⟨acts, u, n, _, hfilled, hunderway, hwhole, ?_⟩
  intro hkept
  have hnone := hkept.pushed
  rw [engineTrace_append, engineTrace_engine, lost_append] at hnone
  exact hlost (List.append_eq_nil_iff.mp hnone).2

end Process

end ZeroLGR.Server
