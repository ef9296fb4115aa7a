/-
  ZeroLGR.Server.Buffered — the process with the ring buffers the source has.

  `request_queue` and `reply_queue` are two `SPSCRingBuffer<T, 1024>`, and each
  load and store of a `push` or a `pop` is a step of its own.  The rest of the
  two threads is that of the process with atomic queues.

    • `Buffered`, `step` — the machine,
    • `step_simulated` — each step, as steps of the engine with atomic queues:
      the engine sees a request when it sees the tail, and room for a reply
      when it sees the head,
    • `run_engine` — so every run is a run of that engine,
    • `replies_in_order` — and the replies come out in the order in which the
      requests went in.
-/
import ZeroLGR.RingBuffer.Views
import ZeroLGR.Server.Stop

namespace ZeroLGR.Server

open Transition Ledger Delayed

/-! ## §1. The machine. -/

/-- The template argument of both queues. -/
def ring1024 : RingBuffer.Capacity := ⟨1024, by decide, by decide⟩

/-- The two threads with the two ring buffers between them.  The queues inside
`process` are used by nobody: the ring buffers stand in their place. -/
structure Buffered where
  process : Process
  requestQueue : RingBuffer.System TransactionRequest
  replyQueue : RingBuffer.System TxResponseEnvelope

/-- The request that the I/O thread is about to push, or pushes. -/
def IoPc.pushes : IoPc → Option TransactionRequest
  | .handle _ (msgType :: rest) =>
      if msgType = MSG_TX_REQUEST then deserializeRequest (msgType :: rest) else none
  | _ => none

/-- The I/O thread is at `reply_queue.pop`. -/
def IoPc.pops : IoPc → Bool
  | .drain => true
  | _ => false

/-- The envelope that the engine is about to push, or pushes. -/
def enginePushes : Ledger.Pc → Option TxResponseEnvelope
  | .replyCached _ resp | .pushReply _ resp => some ⟨[], resp⟩
  | _ => none

/-- The engine is at `request_queue.pop`. -/
def enginePops : Ledger.Pc → Bool
  | .popRequest => true
  | _ => false

/-- A call at a ring buffer begins where the thread makes it. -/
def mayTake {α : Type} [DecidableEq α] (pushes : Option α) (pops : Bool) :
    RingBuffer.Action α → Bool
  | .pushLoadTail val => decide (pushes = some val)
  | .popLoadHead => pops
  | _ => true

namespace Process

/-- The thread that moves is at a call of a ring buffer. -/
def atRing (p : Process) : Action → Bool
  | .io _ _ => p.ioPc.pushes.isSome || p.ioPc.pops
  | .engine _ _ => (enginePushes p.engine.pc).isSome || enginePops p.engine.pc
  | _ => false

/-- `push` or `pop` of the request queue returns. -/
def requestReturned (p : Process) (uninitialised : Uuid) :
    RingBuffer.Event TransactionRequest → Process × List Event
  | .pushed req =>
      match p.ioPc with
      | .handle identity payload =>
          ({ p with ioPc := .recordIdentity identity payload }, [.io (.accepted identity req)])
      | _ => (p, [])
  | .pushFailed =>
      match p.ioPc, p.ioPc.pushes with
      | .handle identity _, some req =>
          ({ p with ioPc := .drain },
            [.io (.answered identity
              (serializeResponse (queueFullResponse req.correlationId uninitialised)))])
      | _, _ => (p, [])
  | .popped req =>
      ({ p with engine := { p.engine with pc := .findCached req } }, [.engine (.popped req)])
  | .popFailed => ({ p with engine := { p.engine with pc := .loadRunning } }, [])

/-- `push` of the reply queue returns; the engine does not look at the result. -/
def replied (p : Process) (pushed : Bool) : Process × List Event :=
  match p.engine.pc with
  | .replyCached req resp =>
      ({ p with engine := { p.engine with pc := .loadRunning } },
        [.engine (.replied req resp pushed)])
  | .pushReply req resp =>
      ({ p with engine := { p.engine with pc := .countTotal resp.latencyUs } },
        [.engine (.replied req resp pushed)])
  | _ => (p, [])

/-- The body of the drain. -/
def drained (p : Process) (envelope : TxResponseEnvelope) : Process × List Event :=
  let corrKey := envelope.response.correlationId.bytes
  match p.drainPendingIdentities.lookup corrKey with
  | some identity =>
      ({ p with drainPendingIdentities := p.drainPendingIdentities.erase corrKey },
        [.io (.drained envelope [(identity, serializeResponse envelope.response)])])
  | none => (p, [.io (.drained envelope [])])

/-- `push` or `pop` of the reply queue returns. -/
def replyReturned (p : Process) : RingBuffer.Event TxResponseEnvelope → Process × List Event
  | .pushed _ => p.replied true
  | .pushFailed => p.replied false
  | .popped envelope => p.drained envelope
  | .popFailed => ({ p with ioPc := .loadRunning }, [])

end Process

/-- A step inside a call leaves the thread where it is. -/
def returned {α : Type} (p : Process) (f : RingBuffer.Event α → Process × List Process.Event) :
    List (RingBuffer.Event α) → Process × List Process.Event
  | [] => (p, [])
  | e :: _ => f e

namespace Buffered

/-- Who moves: a thread outside the queues, a client, a call of another member
function, or a thread inside a call at one of the queues. -/
inductive Action where
  | process (a : Process.Action)
  | requests (a : RingBuffer.Action TransactionRequest) (uninitialised : Uuid)
  | replies (a : RingBuffer.Action TxResponseEnvelope)

section Machine

variable (movedRequest : TransactionRequest → TransactionRequest)
  (movedEnvelope : TxResponseEnvelope → TxResponseEnvelope)

/-- One step. -/
def step (b : Buffered) : Action → Option (Buffered × List Process.Event)
  | .process a =>
      if b.process.atRing a = true then none
      else (b.process.step a).map (fun r => ({ b with process := r.1 }, r.2))
  | .requests a uninitialised =>
      if mayTake b.process.ioPc.pushes (enginePops b.process.engine.pc) a = true then
        (RingBuffer.step ring1024 movedRequest b.requestQueue a).map (fun r =>
          let back := returned b.process (b.process.requestReturned uninitialised) r.2
          ({ b with process := back.1, requestQueue := r.1 }, back.2))
      else none
  | .replies a =>
      if mayTake (enginePushes b.process.engine.pc) b.process.ioPc.pops a = true then
        (RingBuffer.step ring1024 movedEnvelope b.replyQueue a).map (fun r =>
          let back := returned b.process b.process.replyReturned r.2
          ({ b with process := back.1, replyQueue := r.1 }, back.2))
      else none

end Machine

/-- The process after `start()`, with whatever is in the slots. -/
def started (wal : Wal.WriteAheadLog) (requests : UInt64 → TransactionRequest)
    (replies : UInt64 → TxResponseEnvelope) : Buffered where
  process := .started wal
  requestQueue := .init requests
  replyQueue := .init replies

end Buffered

/-! ## §2. The engine with other queues. -/

/-- The engine with these queues. -/
def withQueues (e : LedgerEngine) (q : Fifo.Bounded TransactionRequest queueCapacity)
    (r : Fifo.Bounded TxResponseEnvelope queueCapacity) : LedgerEngine :=
  { e with requestQueue := q, replyQueue := r }

section Queues

variable {e e' : LedgerEngine} {q q' : Fifo.Bounded TransactionRequest queueCapacity}
  {r r' : Fifo.Bounded TxResponseEnvelope queueCapacity} {es etr : List Ledger.Event}

/-- A step of the engine thread at neither queue. -/
theorem engineStep_withQueues {now : Int64} {os : Wal.OsReply}
    (hpushes : enginePushes e.pc = none) (hpops : enginePops e.pc = false)
    (h : e.engineStep now os = some (e', es)) :
    (withQueues e q r).engineStep now os = some (withQueues e' q r, es) := by
  have hpc : (withQueues e q r).pc = e.pc := rfl
  unfold LedgerEngine.engineStep at h ⊢
  rw [hpc]
  split at h
  case h_2 hp =>
    rw [hp] at hpops
    cases hpops
  case h_4 hp | h_11 hp =>
    rw [hp] at hpushes
    cases hpushes
  case h_7 =>
    unfold LedgerEngine.appendWal at h ⊢
    dsimp only [withQueues] at h ⊢
    split at h <;> cases h <;> rfl
  -- the steps with a branch of their own
  case h_1 | h_10 =>
    split at h <;> next hc =>
      cases h
      first | exact if_pos hc | exact if_neg hc
  case h_5 =>
    dsimp only at h
    split at h <;> next hc =>
      cases h
      first | exact if_pos hc | exact if_neg hc
  case h_3 =>
    split at h <;> next hc =>
      cases h
      dsimp only [withQueues]
      rw [hc]
  case h_15 | h_16 => cases h
  all_goals
    cases h
    rfl

/-- A call of another member function. -/
theorem call_withQueues {a : Ledger.Action} (hcall : a.isCall = true)
    (h : Ledger.step e a = some (e', es)) :
    Ledger.step (withQueues e q r) a = some (withQueues e' q r, es) := by
  cases a with
  | engine now os | submit req | takeReply => cases hcall
  | drawAccountId req | getBalanceSnapshot | shutdown =>
      cases h
      rfl
  | commitAccount i =>
      obtain ⟨c, hc, heq⟩ := Option.map_eq_some_iff.mp h
      cases heq
      show (e.creating[i]?).map _ = _
      rw [hc]
      rfl
  | getMetricsSample | resetMetricsWindow =>
      change (if e.metrics = .idle then _ else none) = some (e', es) at h
      split at h <;> cases h
      next hc => exact if_pos hc
  | metrics =>
      change e.metricsStep = some (e', es) at h
      show (withQueues e q r).metricsStep = _
      have hpc : (withQueues e q r).metrics = e.metrics := rfl
      unfold LedgerEngine.metricsStep at h ⊢
      rw [hpc]
      split at h <;> cases h <;> rfl

/-- Several requests are pushed. -/
theorem run_submits (e : LedgerEngine) (r : Fifo.Bounded TxResponseEnvelope queueCapacity)
    (etr : List Ledger.Event) {xs : List TransactionRequest} (h : q'.items = q.items ++ xs) :
    run (traced Ledger.step) ⟨withQueues e q r, etr⟩ (xs.map .submit) =
      some ⟨withQueues e q' r, etr ++ xs.map .submitted⟩ := by
  induction xs generalizing q etr with
  | nil =>
      rw [List.append_nil] at h
      rw [bounded_ext h]
      simp [run]
  | cons x xs ih =>
      have hroom : q.items.length < queueCapacity := by
        have hbound := q'.bound
        rw [h, List.length_append, List.length_cons] at hbound
        omega
      obtain ⟨m, hm, hitems⟩ := Fifo.Bounded.enqueue_of_lt hroom x
      have hstep : Ledger.step (withQueues e q r) (.submit x) =
          some (withQueues e m r, [.submitted x]) := by
        show (q.enqueue x).map _ = _
        rw [hm]
        rfl
      have hrest : q'.items = m.items ++ xs := by
        rw [h, hitems, List.append_assoc]
        rfl
      rw [List.map_cons, run_traced_cons hstep, ih _ hrest]
      simp

/-- Several replies are popped. -/
theorem run_takes (e : LedgerEngine) (q : Fifo.Bounded TransactionRequest queueCapacity)
    (etr : List Ledger.Event) {xs : List TxResponseEnvelope} (h : r.items = xs ++ r'.items) :
    run (traced Ledger.step) ⟨withQueues e q r, etr⟩ (xs.map fun _ => .takeReply) =
      some ⟨withQueues e q r', etr ++ xs.map .taken⟩ := by
  induction xs generalizing r etr with
  | nil =>
      rw [bounded_ext h]
      simp [run]
  | cons x xs ih =>
      obtain ⟨m, hm, hitems⟩ := Fifo.Bounded.dequeue_of_cons h
      have hstep : Ledger.step (withQueues e q r) .takeReply =
          some (withQueues e q m, [.taken x]) := by
        show r.dequeue.map _ = _
        rw [hm]
        rfl
      rw [List.map_cons, run_traced_cons hstep, ih _ hitems]
      simp

theorem dequeue_of_nil {α : Type} {cap : Nat} {q : Fifo.Bounded α cap} (h : q.items = []) :
    q.dequeue = none := by
  cases hq : q.dequeue with
  | none => rfl
  | some x =>
      have hitems := Fifo.Bounded.dequeue_eq_some hq
      rw [h] at hitems
      cases hitems

theorem popRequest_of_pops (hpc : enginePops e.pc = true) : e.pc = .popRequest := by
  unfold enginePops at hpc
  split at hpc
  · next h => exact h
  · cases hpc

/-- The engine pops a request. -/
theorem engine_popped {req : TransactionRequest} (now : Int64) (os : Wal.OsReply)
    (hpc : enginePops e.pc = true) (h : q.items = req :: q'.items) :
    Ledger.step (withQueues e q r) (.engine now os) =
      some (withQueues { e with pc := .findCached req } q' r, [.popped req]) := by
  obtain ⟨m, hm, hitems⟩ := Fifo.Bounded.dequeue_of_cons h
  have hsame : (withQueues e q r).pc = .popRequest := popRequest_of_pops hpc
  have hqueue : (withQueues e q r).requestQueue.dequeue = some (req, q') := by
    rw [← bounded_ext hitems]
    exact hm
  show LedgerEngine.engineStep _ _ _ = _
  unfold LedgerEngine.engineStep
  rw [hsame]
  dsimp only
  rw [hqueue]
  rfl

/-- The engine finds no request. -/
theorem engine_popFailed (now : Int64) (os : Wal.OsReply)
    (hpc : enginePops e.pc = true) (h : q.items = []) :
    Ledger.step (withQueues e q r) (.engine now os) =
      some (withQueues { e with pc := .loadRunning } q r, []) := by
  have hsame : (withQueues e q r).pc = .popRequest := popRequest_of_pops hpc
  have hqueue : (withQueues e q r).requestQueue.dequeue = none := dequeue_of_nil h
  show LedgerEngine.engineStep _ _ _ = _
  unfold LedgerEngine.engineStep
  rw [hsame]
  dsimp only
  rw [hqueue]
  rfl

/-- Where the engine goes on behind the push of a reply. -/
inductive Replies (e : LedgerEngine) (envelope : TxResponseEnvelope) :
    TransactionRequest → TransactionResponse → Ledger.Pc → Prop
  | cached {req : TransactionRequest} {resp : TransactionResponse} :
      e.pc = .replyCached req resp → envelope = ⟨[], resp⟩ →
      Replies e envelope req resp .loadRunning
  | fresh {req : TransactionRequest} {resp : TransactionResponse} :
      e.pc = .pushReply req resp → envelope = ⟨[], resp⟩ →
      Replies e envelope req resp (.countTotal resp.latencyUs)

theorem replies_of_pushes {envelope : TxResponseEnvelope}
    (h : enginePushes e.pc = some envelope) :
    ∃ req resp next, Replies e envelope req resp next := by
  unfold enginePushes at h
  split at h
  · next req resp hpc => exact ⟨req, resp, _, .cached hpc (Option.some.inj h).symm⟩
  · next req resp hpc => exact ⟨req, resp, _, .fresh hpc (Option.some.inj h).symm⟩
  · cases h

theorem replied_eq {p : Process} {envelope : TxResponseEnvelope} {req : TransactionRequest}
    {resp : TransactionResponse} {next : Ledger.Pc} (h : Replies p.engine envelope req resp next)
    (pushed : Bool) :
    p.replied pushed = ({ p with engine := { p.engine with pc := next } },
      [.engine (.replied req resp pushed)]) := by
  unfold Process.replied
  cases h with
  | cached hpc _ | fresh hpc _ => rw [hpc]

/-- The engine pushes a reply into a queue that takes it, or does not. -/
theorem engine_replied {envelope : TxResponseEnvelope} {req : TransactionRequest}
    {resp : TransactionResponse} {next : Ledger.Pc} {pushed : Bool} (now : Int64)
    (os : Wal.OsReply) (hpc : Replies e envelope req resp next)
    (h : (pushed = true ∧ r'.items = r.items ++ [envelope]) ∨
      (pushed = false ∧ r.items.length = queueCapacity ∧ r' = r)) :
    Ledger.step (withQueues e q r) (.engine now os) =
      some (withQueues { e with pc := next } q r', [.replied req resp pushed]) := by
  have hpush : (withQueues e q r).pushReply req resp next =
      (withQueues { e with pc := next } q r', [.replied req resp pushed]) := by
    have hsame : envelope = ⟨[], resp⟩ := by cases hpc <;> assumption
    unfold LedgerEngine.pushReply
    rcases h with ⟨rfl, hitems⟩ | ⟨rfl, hfull, rfl⟩
    · have hroom : r.items.length < queueCapacity := by
        have hbound := r'.bound
        rw [hitems, List.length_append, List.length_singleton] at hbound
        omega
      have hqueue : (withQueues e q r).replyQueue.enqueue ⟨[], resp⟩ = some r' := by
        obtain ⟨m, hm, hm'⟩ := Fifo.Bounded.enqueue_of_lt hroom envelope
        rw [← hsame, ← bounded_ext (hm'.trans hitems.symm)]
        exact hm
      rw [hqueue]
      rfl
    · have hqueue : (withQueues e q r').replyQueue.enqueue ⟨[], resp⟩ = none := by
        rw [← hsame]
        exact Fifo.Bounded.enqueue_of_full hfull envelope
      rw [hqueue]
      rfl
  show LedgerEngine.engineStep _ _ _ = _
  unfold LedgerEngine.engineStep
  cases hpc with
  | cached hpc _ | fresh hpc _ =>
      have hsame : (withQueues e q r).pc = e.pc := rfl
      rw [hsame, hpc]
      exact congrArg some hpush

end Queues

/-! ## §3. Where the threads are inside their calls. -/

theorem handle_of_pushes {pc : IoPc} {req : TransactionRequest} (h : pc.pushes = some req) :
    ∃ identity rest, pc = .handle identity (MSG_TX_REQUEST :: rest) ∧
      deserializeRequest (MSG_TX_REQUEST :: rest) = some req := by
  unfold IoPc.pushes at h
  split at h
  · next identity msgType rest =>
      split at h
      · next htype =>
          rw [htype] at h ⊢
          exact ⟨identity, rest, rfl, h⟩
      · cases h
  · cases h

theorem drain_of_pops {pc : IoPc} (h : pc.pops = true) : pc = .drain := by
  unfold IoPc.pops at h
  split at h
  · rfl
  · cases h

/-- The drain is a matter of the I/O thread, and of its map. -/
theorem Process.drained_stays (p : Process) (envelope : TxResponseEnvelope) :
    (p.drained envelope).1.ioPc = p.ioPc ∧ (p.drained envelope).1.engine = p.engine ∧
      Process.engineTrace (p.drained envelope).2 = [.taken envelope] := by
  unfold Process.drained
  dsimp only
  split <;> exact ⟨rfl, rfl, rfl⟩

namespace Buffered

/-- A thread that is inside a call at a ring buffer is where it made the call. -/
structure AtCalls (b : Buffered) : Prop where
  pushing : ∀ req, b.requestQueue.producer.value = some req → b.process.ioPc.pushes = some req
  popping : b.requestQueue.consumer.busy = true → enginePops b.process.engine.pc = true
  replying : ∀ envelope, b.replyQueue.producer.value = some envelope →
    enginePushes b.process.engine.pc = some envelope
  draining : b.replyQueue.consumer.busy = true → b.process.ioPc.pops = true

theorem atCalls_started (wal : Wal.WriteAheadLog) (requests : UInt64 → TransactionRequest)
    (replies : UInt64 → TxResponseEnvelope) : AtCalls (started wal requests replies) := by
  refine ⟨?_, ?_, ?_, ?_⟩
  · intro req hreq
    cases hreq
  · intro hbusy
    cases hbusy
  · intro envelope henvelope
    cases henvelope
  · intro hbusy
    cases hbusy

section Steps

variable {movedRequest : TransactionRequest → TransactionRequest}
  {movedEnvelope : TxResponseEnvelope → TxResponseEnvelope} {b b' : Buffered} {a : Action}
  {p' : Process} {es : List Process.Event}

/-- The I/O thread moves on outside the queues. -/
theorem AtCalls.ioMoves (h : AtCalls b) (hpushes : b.process.ioPc.pushes = none)
    (hpops : b.process.ioPc.pops = false) (hpc : p'.engine.pc = b.process.engine.pc) :
    AtCalls { b with process := p' } := by
  refine ⟨?_, ?_, ?_, ?_⟩
  · intro req hreq
    have hold := h.pushing req hreq
    rw [hpushes] at hold
    cases hold
  · intro hbusy
    show enginePops p'.engine.pc = true
    rw [hpc]
    exact h.popping hbusy
  · intro envelope henvelope
    show enginePushes p'.engine.pc = some envelope
    rw [hpc]
    exact h.replying envelope henvelope
  · intro hbusy
    have hold := h.draining hbusy
    rw [hpops] at hold
    cases hold

/-- The engine thread moves on outside the queues. -/
theorem AtCalls.engineMoves (h : AtCalls b) (hpushes : enginePushes b.process.engine.pc = none)
    (hpops : enginePops b.process.engine.pc = false) (hpc : p'.ioPc = b.process.ioPc) :
    AtCalls { b with process := p' } := by
  refine ⟨?_, ?_, ?_, ?_⟩
  · intro req hreq
    show p'.ioPc.pushes = some req
    rw [hpc]
    exact h.pushing req hreq
  · intro hbusy
    have hold := h.popping hbusy
    rw [hpops] at hold
    cases hold
  · intro envelope henvelope
    have hold := h.replying envelope henvelope
    rw [hpushes] at hold
    cases hold
  · intro hbusy
    show p'.ioPc.pops = true
    rw [hpc]
    exact h.draining hbusy

/-- Neither thread moves. -/
theorem AtCalls.stay (h : AtCalls b) (hio : p'.ioPc = b.process.ioPc)
    (hengine : p'.engine.pc = b.process.engine.pc) : AtCalls { b with process := p' } := by
  refine ⟨?_, ?_, ?_, ?_⟩
  · intro req hreq
    show p'.ioPc.pushes = some req
    rw [hio]
    exact h.pushing req hreq
  · intro hbusy
    show enginePops p'.engine.pc = true
    rw [hengine]
    exact h.popping hbusy
  · intro envelope henvelope
    show enginePushes p'.engine.pc = some envelope
    rw [hengine]
    exact h.replying envelope henvelope
  · intro hbusy
    show p'.ioPc.pops = true
    rw [hio]
    exact h.draining hbusy

/-- A thread that is at neither queue. -/
theorem off_ring {α : Type} {pushes : Option α} {pops : Bool}
    (h : (pushes.isSome || pops) = false) : pushes = none ∧ pops = false := by
  obtain ⟨hpushes, hpops⟩ := Bool.or_eq_false_iff.mp h
  rw [Option.isSome_eq_false_iff, Option.isNone_iff_eq_none] at hpushes
  exact ⟨hpushes, hpops⟩

/-- Outside the queues the I/O thread is no matter of the engine's. -/
theorem io_engine {p p' : Process} {answer : Bytes} {uninitialised : Uuid}
    (hpushes : p.ioPc.pushes = none) (hpops : p.ioPc.pops = false)
    (hs : p.step (.io answer uninitialised) = some (p', es)) :
    p'.engine = p.engine ∧ Process.engineTrace es = [] := by
  obtain ⟨⟨s', ios⟩, hio, heq⟩ := Option.map_eq_some_iff.mp hs
  cases heq
  rw [Process.engineTrace_io]
  unfold EngineServer.ioStep at hio
  split at hio
  case h_1 => split at hio <;> cases hio <;> exact ⟨rfl, rfl⟩
  case h_2 => split at hio <;> cases hio <;> exact ⟨rfl, rfl⟩
  case h_3 identity payload hpc =>
    change p.ioPc = .handle identity payload at hpc
    rw [hpc] at hpushes
    have hhandle := Option.some.inj hio
    unfold EngineServer.handle at hhandle
    split at hhandle
    · cases hhandle
      exact ⟨rfl, rfl⟩
    · next msgType rest =>
        split at hhandle
        · next htype =>
            -- a request is either pushed or cannot be read
            change (if msgType = MSG_TX_REQUEST then _ else none) = none at hpushes
            rw [if_pos htype] at hpushes
            unfold EngineServer.handleRequest at hhandle
            rw [hpushes] at hhandle
            cases hhandle
            exact ⟨rfl, rfl⟩
        · split at hhandle
          · split at hhandle <;> cases hhandle <;> exact ⟨rfl, rfl⟩
          · split at hhandle
            · split at hhandle <;> cases hhandle <;> exact ⟨rfl, rfl⟩
            · cases hhandle
              exact ⟨rfl, rfl⟩
  case h_4 =>
    cases hio
    exact ⟨rfl, rfl⟩
  case h_5 hpc =>
    change p.ioPc = .drain at hpc
    rw [hpc] at hpops
    cases hpops
  case h_6 => cases hio
  case h_7 => cases hio

/-- A step at neither queue. -/
theorem AtCalls.atProcess {x : Process.Action} (h : AtCalls b)
    (hring : b.process.atRing x = false) (hs : b.process.step x = some (p', es)) :
    AtCalls { b with process := p' } := by
  cases x with
  | io answer uninitialised =>
      obtain ⟨hpushes, hpops⟩ := off_ring hring
      obtain ⟨hengine, -⟩ := io_engine hpushes hpops hs
      exact h.ioMoves hpushes hpops (by rw [hengine])
  | engine now os =>
      obtain ⟨hpushes, hpops⟩ := off_ring hring
      obtain ⟨r, -, heq⟩ := Option.map_eq_some_iff.mp hs
      cases heq
      exact h.engineMoves hpushes hpops rfl
  | call a =>
      change (if a.isCall = true then _ else none) = some (p', es) at hs
      split at hs
      · next hcall =>
          obtain ⟨r, hr, heq⟩ := Option.map_eq_some_iff.mp hs
          cases heq
          exact h.stay rfl (call_stays hcall hr).1
      · cases hs
  | arrive frames | stop =>
      cases hs
      exact h.stay rfl rfl

/-- A step at the request queue. -/
theorem AtCalls.atRequests (h : AtCalls b) (uninitialised : Uuid)
    {x : RingBuffer.Action TransactionRequest} {ring : RingBuffer.System TransactionRequest}
    {res : List (RingBuffer.Event TransactionRequest)}
    (hmay : mayTake b.process.ioPc.pushes (enginePops b.process.engine.pc) x = true)
    (hstands : RingBuffer.Stands b.requestQueue ring x res) :
    AtCalls { b with
      process := (returned b.process (b.process.requestReturned uninitialised) res).1
      requestQueue := ring } := by
  cases hstands with
  | inside hproducer hconsumer =>
      refine ⟨?_, ?_, h.replying, h.draining⟩
      · intro req hreq
        rcases hproducer req hreq with hold | rfl
        · exact h.pushing req hold
        · exact of_decide_eq_true hmay
      · intro hbusy
        rcases hconsumer hbusy with hold | rfl
        · exact h.popping hold
        · exact hmay
  | @pushed req hvalue hnone hsame | @pushFailed req _ _ hvalue hnone hsame =>
      have hpushes := h.pushing req hvalue
      obtain ⟨identity, rest, hpc, -⟩ := handle_of_pushes hpushes
      -- the I/O thread pushed, so it is not inside `pop` of the other queue
      have hidle : b.replyQueue.consumer.busy ≠ true := by
        intro hbusy
        have hpops := h.draining hbusy
        rw [hpc] at hpops
        cases hpops
      simp only [returned, Process.requestReturned, hpushes]
      rw [hpc]
      refine ⟨?_, ?_, h.replying, fun hbusy => absurd hbusy hidle⟩
      · intro v hv
        rw [hnone] at hv
        cases hv
      · intro hbusy
        rw [hsame] at hbusy
        exact h.popping hbusy
  | popped hbusy hdone hsame | popFailed _ hbusy hdone hsame =>
      have hpc := popRequest_of_pops (h.popping hbusy)
      refine ⟨?_, ?_, ?_, h.draining⟩
      · intro v hv
        rw [hsame] at hv
        exact h.pushing v hv
      · intro hagain
        rw [hdone] at hagain
        cases hagain
      · intro envelope henvelope
        have hold := h.replying envelope henvelope
        rw [hpc] at hold
        cases hold

/-- A step at the reply queue. -/
theorem AtCalls.atReplies (h : AtCalls b) {x : RingBuffer.Action TxResponseEnvelope}
    {ring : RingBuffer.System TxResponseEnvelope}
    {res : List (RingBuffer.Event TxResponseEnvelope)}
    (hmay : mayTake (enginePushes b.process.engine.pc) b.process.ioPc.pops x = true)
    (hstands : RingBuffer.Stands b.replyQueue ring x res) :
    AtCalls { b with
      process := (returned b.process b.process.replyReturned res).1
      replyQueue := ring } := by
  cases hstands with
  | inside hproducer hconsumer =>
      refine ⟨h.pushing, h.popping, ?_, ?_⟩
      · intro envelope henvelope
        rcases hproducer envelope henvelope with hold | rfl
        · exact h.replying envelope hold
        · exact of_decide_eq_true hmay
      · intro hbusy
        rcases hconsumer hbusy with hold | rfl
        · exact h.draining hold
        · exact hmay
  | @pushed envelope hvalue hnone hsame | @pushFailed envelope _ _ hvalue hnone hsame =>
      obtain ⟨req, resp, next, hreplies⟩ := replies_of_pushes (h.replying envelope hvalue)
      have hidle : b.requestQueue.consumer.busy ≠ true := by
        intro hbusy
        have hpops := popRequest_of_pops (h.popping hbusy)
        cases hreplies with
        | cached hpc _ | fresh hpc _ =>
            rw [hpc] at hpops
            cases hpops
      simp only [returned, Process.replyReturned, Process.replied]
      cases hreplies with
      | cached hpc _ | fresh hpc _ =>
          rw [hpc]
          refine ⟨h.pushing, fun hbusy => absurd hbusy hidle, ?_, ?_⟩
          · intro v hv
            rw [hnone] at hv
            cases hv
          · intro hbusy
            rw [hsame] at hbusy
            exact h.draining hbusy
  | @popped envelope hbusy hdone hsame =>
      obtain ⟨hio, hengine, -⟩ := Process.drained_stays b.process envelope
      refine ⟨?_, ?_, ?_, ?_⟩
      · intro v hv
        show (b.process.drained envelope).1.ioPc.pushes = some v
        rw [hio]
        exact h.pushing v hv
      · intro hpopping
        show enginePops (b.process.drained envelope).1.engine.pc = true
        rw [hengine]
        exact h.popping hpopping
      · intro v hv
        rw [hsame] at hv
        show enginePushes (b.process.drained envelope).1.engine.pc = some v
        rw [hengine]
        exact h.replying v hv
      · intro hagain
        rw [hdone] at hagain
        cases hagain
  | popFailed _ hbusy hdone hsame =>
      have hpc := drain_of_pops (h.draining hbusy)
      refine ⟨?_, h.popping, ?_, ?_⟩
      · intro v hv
        have hold := h.pushing v hv
        rw [hpc] at hold
        cases hold
      · intro v hv
        rw [hsame] at hv
        exact h.replying v hv
      · intro hagain
        rw [hdone] at hagain
        cases hagain

end Steps

/-! ## §4. The engine with atomic queues. -/

/-- The event is the engine's own: it is none of the other end of a queue. -/
def isOwn : Ledger.Event → Bool
  | .submitted _ | .taken _ => false
  | _ => true

/-- The engine with atomic queues, whose record is `etr`, is where the engine
with the ring buffers is; of the queues it has what the engine sees of them. -/
structure Simulation (wal : Wal.WriteAheadLog) (b : Buffered) (tr : List Process.Event)
    (requests : Channel TransactionRequest ring1024.capacity)
    (replies : Channel TxResponseEnvelope ring1024.capacity) (etr : List Ledger.Event) : Prop where
  calls : AtCalls b
  atRequests : RingBuffer.Tracks ring1024 b.requestQueue requests
  atReplies : RingBuffer.Tracks ring1024 b.replyQueue replies
  engine : ∃ bs, runEngine (.init wal) bs =
    some ⟨withQueues b.process.engine requests.inbox replies.outbox, etr⟩
  own : etr.filter isOwn = (Process.engineTrace tr).filter isOwn
  arrived : submitted etr = requests.sent.take requests.arrived
  sent : submitted (Process.engineTrace tr) = requests.sent
  noticed : taken etr = (replies.sent.take replies.noticed).map (·.response)
  drained : taken (Process.engineTrace tr) = (replies.sent.take replies.taken).map (·.response)

section Simulation

variable {wal : Wal.WriteAheadLog} {b b' : Buffered} {tr es : List Process.Event}
  {requests requests' : Channel TransactionRequest ring1024.capacity}
  {replies replies' : Channel TxResponseEnvelope ring1024.capacity}
  {etr : List Ledger.Event}

theorem simulation_started (wal : Wal.WriteAheadLog) (requests : UInt64 → TransactionRequest)
    (replies : UInt64 → TxResponseEnvelope) :
    Simulation wal (started wal requests replies) [] .new .new [] where
  calls := atCalls_started wal requests replies
  atRequests := RingBuffer.tracks_init ring1024 requests
  atReplies := RingBuffer.tracks_init ring1024 replies
  engine := ⟨[], rfl⟩
  own := rfl
  arrived := rfl
  sent := rfl
  noticed := rfl
  drained := rfl

/-- The engine takes some steps more. -/
theorem engine_extend {s : LedgerEngine} {t : Traced LedgerEngine Ledger.Event}
    (h : ∃ bs, runEngine (.init wal) bs = some ⟨s, etr⟩)
    (hmore : ∃ cs, run (traced Ledger.step) ⟨s, etr⟩ cs = some t) :
    ∃ bs, runEngine (.init wal) bs = some t := by
  obtain ⟨bs, hbs⟩ := h
  obtain ⟨cs, hcs⟩ := hmore
  refine ⟨bs ++ cs, ?_⟩
  unfold runEngine at hbs ⊢
  rw [run_append, hbs]
  exact hcs

/-- A step at neither queue. -/
theorem Simulation.aside {p' : Process} (h : Simulation wal b tr requests replies etr)
    (hcalls : AtCalls { b with process := p' })
    (hengine : ∃ cs, run (traced Ledger.step)
      ⟨withQueues b.process.engine requests.inbox replies.outbox, etr⟩ cs =
        some ⟨withQueues p'.engine requests.inbox replies.outbox,
          etr ++ Process.engineTrace es⟩)
    (hown : submitted (Process.engineTrace es) = [] ∧ taken (Process.engineTrace es) = []) :
    Simulation wal { b with process := p' } (tr ++ es) requests replies
      (etr ++ Process.engineTrace es) := by
  obtain ⟨hsubmitted, htaken⟩ := hown
  refine ⟨hcalls, h.atRequests, h.atReplies, engine_extend h.engine hengine, ?_, ?_, ?_, ?_, ?_⟩
  · rw [Process.engineTrace_append, List.filter_append, List.filter_append, h.own]
  · rw [submitted_append, hsubmitted, List.append_nil, h.arrived]
  · rw [Process.engineTrace_append, submitted_append, hsubmitted, List.append_nil, h.sent]
  · rw [taken_append, htaken, List.append_nil, h.noticed]
  · rw [Process.engineTrace_append, taken_append, htaken, List.append_nil, h.drained]

theorem submitted_map (xs : List TransactionRequest) : submitted (xs.map .submitted) = xs := by
  unfold submitted
  rw [List.filterMap_map]
  exact List.filterMap_some

theorem submitted_taken (xs : List TxResponseEnvelope) : submitted (xs.map .taken) = [] := by
  unfold submitted
  rw [List.filterMap_map, List.filterMap_eq_nil_iff]
  intro e _
  rfl

theorem taken_map (xs : List TxResponseEnvelope) :
    taken (xs.map .taken) = xs.map (·.response) := by
  unfold taken
  rw [List.filterMap_map]
  exact List.filterMap_eq_map (f := TxResponseEnvelope.response) ▸ rfl

theorem taken_submitted (xs : List TransactionRequest) : taken (xs.map .submitted) = [] := by
  unfold taken
  rw [List.filterMap_map, List.filterMap_eq_nil_iff]
  intro e _
  rfl

/-- A step at the request queue: what arrives is pushed, then the engine makes
its own step, if it made one. -/
theorem Simulation.requestStep {cs : List (Call TransactionRequest)}
    (h : Simulation wal b tr requests replies etr) (ees : List Ledger.Event) (hcalls : AtCalls b')
    (htracks : RingBuffer.Tracks ring1024 b'.requestQueue requests')
    (hsame : b'.replyQueue = b.replyQueue) (hmoves : Moves requests cs requests')
    (hengine : ∀ mid etr', Calls mid (cs.filter Call.isPop) requests'.inbox →
      ∃ bs, run (traced Ledger.step) ⟨withQueues b.process.engine mid replies.outbox, etr'⟩ bs =
        some ⟨withQueues b'.process.engine requests'.inbox replies.outbox, etr' ++ ees⟩)
    (hees : submitted ees = [] ∧ taken ees = [])
    (hown : ees.filter isOwn = (Process.engineTrace es).filter isOwn)
    (hsent : submitted (Process.engineTrace es) = cs.filterMap Call.pushedValue)
    (hdrained : taken (Process.engineTrace es) = []) :
    ∃ etr', Simulation wal b' (tr ++ es) requests' replies etr' := by
  obtain ⟨mid, xs, hmid, hown', harrived⟩ := hmoves.inbox
  obtain ⟨hrecord, -⟩ := hmoves.record
  obtain ⟨hnone, hnone'⟩ := hees
  have harrive := engine_extend h.engine
    ⟨_, run_submits b.process.engine replies.outbox etr hmid⟩
  refine ⟨etr ++ xs.map .submitted ++ ees, hcalls, htracks, by rw [hsame]; exact h.atReplies,
    engine_extend harrive (hengine mid _ hown'), ?_, ?_, ?_, ?_, ?_⟩
  · have hothers : (xs.map Ledger.Event.submitted).filter isOwn = [] := by
      rw [List.filter_eq_nil_iff]
      intro e he
      obtain ⟨x, -, rfl⟩ := List.mem_map.mp he
      exact Bool.false_ne_true
    rw [Process.engineTrace_append, List.filter_append, List.filter_append, List.filter_append,
      hothers, List.append_nil, h.own, hown]
  · rw [submitted_append, submitted_append, submitted_map, hnone, List.append_nil, h.arrived,
      harrived]
  · rw [Process.engineTrace_append, submitted_append, h.sent, hsent, hrecord]
  · rw [taken_append, taken_append, taken_submitted, hnone', List.append_nil, List.append_nil,
      h.noticed]
  · rw [Process.engineTrace_append, taken_append, hdrained, List.append_nil, h.drained]

/-- A step at the reply queue: what was noticed to be taken is popped, then the
engine makes its own step, if it made one. -/
theorem Simulation.replyStep {cs : List (Call TxResponseEnvelope)}
    (h : Simulation wal b tr requests replies etr) (ees : List Ledger.Event) (hcalls : AtCalls b')
    (htracks : RingBuffer.Tracks ring1024 b'.replyQueue replies')
    (hsame : b'.requestQueue = b.requestQueue) (hmoves : Moves replies cs replies')
    (hengine : ∀ mid etr', Calls mid (cs.filter Call.isPush) replies'.outbox →
      ∃ bs, run (traced Ledger.step) ⟨withQueues b.process.engine requests.inbox mid, etr'⟩ bs =
        some ⟨withQueues b'.process.engine requests.inbox replies'.outbox, etr' ++ ees⟩)
    (hees : submitted ees = [] ∧ taken ees = [])
    (hown : ees.filter isOwn = (Process.engineTrace es).filter isOwn)
    (hsent : submitted (Process.engineTrace es) = [])
    (hdrained : taken (Process.engineTrace es) =
      (cs.filterMap Call.poppedValue).map (·.response)) :
    ∃ etr', Simulation wal b' (tr ++ es) requests replies' etr' := by
  obtain ⟨mid, xs, hmid, hown', hnoticed⟩ := hmoves.outbox
  obtain ⟨-, hrecord⟩ := hmoves.record
  obtain ⟨hnone, hnone'⟩ := hees
  have htakes := engine_extend h.engine
    ⟨_, run_takes b.process.engine requests.inbox etr hmid⟩
  refine ⟨etr ++ xs.map .taken ++ ees, hcalls, by rw [hsame]; exact h.atRequests, htracks,
    engine_extend htakes (hengine mid _ hown'), ?_, ?_, ?_, ?_, ?_⟩
  · have hothers : (xs.map Ledger.Event.taken).filter isOwn = [] := by
      rw [List.filter_eq_nil_iff]
      intro e he
      obtain ⟨x, -, rfl⟩ := List.mem_map.mp he
      exact Bool.false_ne_true
    rw [Process.engineTrace_append, List.filter_append, List.filter_append, List.filter_append,
      hothers, List.append_nil, h.own, hown]
  · rw [submitted_append, submitted_append, submitted_taken, hnone, List.append_nil,
      List.append_nil, h.arrived]
  · rw [Process.engineTrace_append, submitted_append, hsent, List.append_nil, h.sent]
  · rw [taken_append, taken_append, taken_map, hnone', List.append_nil, h.noticed, hnoticed,
      List.map_append]
  · rw [Process.engineTrace_append, taken_append, h.drained, hdrained, hrecord, List.map_append]

/-! ## §5. Each step. -/

variable {movedRequest : TransactionRequest → TransactionRequest}
  {movedEnvelope : TxResponseEnvelope → TxResponseEnvelope}

theorem Simulation.atRequestQueue {x : RingBuffer.Action TransactionRequest}
    {ring : RingBuffer.System TransactionRequest} {uninitialised : Uuid}
    {res : List (RingBuffer.Event TransactionRequest)}
    (h : Simulation wal b tr requests replies etr)
    (hmay : mayTake b.process.ioPc.pushes (enginePops b.process.engine.pc) x = true)
    (hstep : RingBuffer.step ring1024 movedRequest b.requestQueue x = some (ring, res))
    {back : Process × List Process.Event}
    (hback : returned b.process (b.process.requestReturned uninitialised) res = back) :
    ∃ requests' etr', Simulation wal { b with process := back.1, requestQueue := ring }
      (tr ++ back.2) requests' replies etr' := by
  obtain ⟨requests', hmoves, htracks⟩ := RingBuffer.step_moves h.atRequests hstep
  have hstands := RingBuffer.step_stands hstep
  have hcalls := h.calls.atRequests uninitialised hmay hstands
  rw [hback] at hcalls
  refine ⟨requests', ?_⟩
  cases hstands with
  | inside _ _ =>
      cases hback
      refine h.requestStep [] hcalls htracks rfl hmoves ?_ ⟨rfl, rfl⟩ rfl rfl rfl
      intro mid etr' hmid
      rw [calls_nil hmid, List.append_nil]
      exact ⟨[], rfl⟩
  | @pushed req hvalue _ _ =>
      obtain ⟨identity, rest, hpc, -⟩ := handle_of_pushes (h.calls.pushing req hvalue)
      simp only [returned, Process.requestReturned] at hback
      rw [hpc] at hback
      cases hback
      refine h.requestStep [] hcalls htracks rfl hmoves ?_ ⟨rfl, rfl⟩ rfl rfl rfl
      intro mid etr' hmid
      rw [calls_nil hmid, List.append_nil]
      exact ⟨[], rfl⟩
  | @pushFailed req _ _ hvalue _ _ =>
      have hpushes := h.calls.pushing req hvalue
      obtain ⟨identity, rest, hpc, -⟩ := handle_of_pushes hpushes
      simp only [returned, Process.requestReturned, hpushes] at hback
      rw [hpc] at hback
      cases hback
      refine h.requestStep [] hcalls htracks rfl hmoves ?_ ⟨rfl, rfl⟩ rfl rfl rfl
      intro mid etr' hmid
      rw [calls_nil hmid, List.append_nil]
      exact ⟨[], rfl⟩
  | @popped req hbusy _ _ =>
      have hpops := h.calls.popping hbusy
      cases hback
      refine h.requestStep [.popped req] hcalls htracks rfl hmoves ?_ ⟨rfl, rfl⟩ rfl rfl rfl
      intro mid etr' hmid
      -- the call, on the atomic queue
      cases calls_one hmid with
      | popped hitems =>
          exact ⟨[.engine 0 .ok], run_traced_cons (engine_popped 0 .ok hpops hitems) etr' []⟩
  | popFailed _ hbusy _ _ =>
      have hpops := h.calls.popping hbusy
      cases hback
      refine h.requestStep [] hcalls htracks rfl hmoves ?_ ⟨rfl, rfl⟩ rfl rfl rfl
      intro mid etr' hmid
      generalize hq : requests'.inbox = q' at hmid
      cases calls_one hmid with
      | empty hitems =>
          exact ⟨[.engine 0 .ok], run_traced_cons (engine_popFailed 0 .ok hpops hitems) etr' []⟩

theorem Simulation.atReplyQueue {x : RingBuffer.Action TxResponseEnvelope}
    {ring : RingBuffer.System TxResponseEnvelope}
    {res : List (RingBuffer.Event TxResponseEnvelope)}
    (h : Simulation wal b tr requests replies etr)
    (hmay : mayTake (enginePushes b.process.engine.pc) b.process.ioPc.pops x = true)
    (hstep : RingBuffer.step ring1024 movedEnvelope b.replyQueue x = some (ring, res))
    {back : Process × List Process.Event}
    (hback : returned b.process b.process.replyReturned res = back) :
    ∃ replies' etr', Simulation wal { b with process := back.1, replyQueue := ring }
      (tr ++ back.2) requests replies' etr' := by
  obtain ⟨replies', hmoves, htracks⟩ := RingBuffer.step_moves h.atReplies hstep
  have hstands := RingBuffer.step_stands hstep
  have hcalls := h.calls.atReplies hmay hstands
  rw [hback] at hcalls
  refine ⟨replies', ?_⟩
  cases hstands with
  | inside _ _ =>
      cases hback
      refine h.replyStep [] hcalls htracks rfl hmoves ?_ ⟨rfl, rfl⟩ rfl rfl rfl
      intro mid etr' hmid
      rw [calls_nil hmid, List.append_nil]
      exact ⟨[], rfl⟩
  | @pushed envelope hvalue _ _ =>
      obtain ⟨req, resp, next, hreplies⟩ := replies_of_pushes (h.calls.replying envelope hvalue)
      change b.process.replied true = back at hback
      rw [replied_eq hreplies] at hback
      cases hback
      refine h.replyStep [.replied req resp true] hcalls htracks rfl hmoves ?_
        ⟨rfl, rfl⟩ rfl rfl rfl
      intro mid etr' hmid
      cases calls_one hmid with
      | pushed hitems =>
          exact ⟨[.engine 0 .ok],
            run_traced_cons (engine_replied 0 .ok hreplies (.inl ⟨rfl, hitems⟩)) etr' []⟩
  | @pushFailed envelope _ _ hvalue _ _ =>
      obtain ⟨req, resp, next, hreplies⟩ := replies_of_pushes (h.calls.replying envelope hvalue)
      change b.process.replied false = back at hback
      rw [replied_eq hreplies] at hback
      cases hback
      refine h.replyStep [.replied req resp false] hcalls htracks rfl hmoves ?_
        ⟨rfl, rfl⟩ rfl rfl rfl
      intro mid etr' hmid
      generalize hq : replies'.outbox = q' at hmid
      cases calls_one hmid with
      | full hfull =>
          exact ⟨[.engine 0 .ok],
            run_traced_cons (engine_replied 0 .ok hreplies (.inr ⟨rfl, hfull, rfl⟩)) etr' []⟩
  | @popped envelope _ _ _ =>
      change b.process.drained envelope = back at hback
      obtain ⟨hio, hengine, htrace⟩ := Process.drained_stays b.process envelope
      rw [hback] at hio hengine htrace
      refine h.replyStep [] hcalls htracks rfl hmoves ?_ ⟨rfl, rfl⟩ ?_ ?_ ?_
      · intro mid etr' hmid
        rw [calls_nil hmid, List.append_nil, hengine]
        exact ⟨[], rfl⟩
      · rw [htrace]
        rfl
      · rw [htrace]
        rfl
      · rw [htrace]
        rfl
  | popFailed _ _ _ _ =>
      cases hback
      refine h.replyStep [] hcalls htracks rfl hmoves ?_ ⟨rfl, rfl⟩ rfl rfl rfl
      intro mid etr' hmid
      rw [calls_nil hmid, List.append_nil]
      exact ⟨[], rfl⟩

/-- A step at neither queue. -/
theorem Simulation.atProcess {p' : Process} {x : Process.Action}
    (h : Simulation wal b tr requests replies etr) (hring : b.process.atRing x = false)
    (hs : b.process.step x = some (p', es)) :
    Simulation wal { b with process := p' } (tr ++ es) requests replies
      (etr ++ Process.engineTrace es) := by
  have hcalls := h.calls.atProcess hring hs
  cases x with
  | io answer uninitialised =>
      obtain ⟨hpushes, hpops⟩ := off_ring hring
      obtain ⟨hengine, htrace⟩ := io_engine hpushes hpops hs
      refine h.aside hcalls ?_ ?_
      · rw [htrace, hengine, List.append_nil]
        exact ⟨[], rfl⟩
      · rw [htrace]
        exact ⟨rfl, rfl⟩
  | engine now os =>
      obtain ⟨hpushes, hpops⟩ := off_ring hring
      obtain ⟨⟨e', ees⟩, he, heq⟩ := Option.map_eq_some_iff.mp hs
      cases heq
      refine h.aside hcalls ?_ ?_
      · rw [Process.engineTrace_engine]
        exact ⟨[.engine now os],
          run_traced_cons (engineStep_withQueues hpushes hpops he) etr []⟩
      · rw [Process.engineTrace_engine]
        exact step_own (a := .engine now os) he rfl
  | call a =>
      change (if a.isCall = true then _ else none) = some (p', es) at hs
      split at hs
      · next hcall =>
          obtain ⟨⟨e', ees⟩, he, heq⟩ := Option.map_eq_some_iff.mp hs
          cases heq
          refine h.aside hcalls ?_ ?_
          · rw [Process.engineTrace_engine]
            exact ⟨[a], run_traced_cons (call_withQueues hcall he) etr []⟩
          · rw [Process.engineTrace_engine]
            refine step_own he ?_
            cases a <;> first | rfl | cases hcall
      · cases hs
  | arrive frames | stop =>
      cases hs
      exact h.aside hcalls ⟨[], by simp [run, Process.engineTrace]⟩ ⟨rfl, rfl⟩

/-- **Each step.** -/
theorem Simulation.step {x : Action} (h : Simulation wal b tr requests replies etr)
    (hs : step movedRequest movedEnvelope b x = some (b', es)) :
    ∃ requests' replies' etr', Simulation wal b' (tr ++ es) requests' replies' etr' := by
  cases x with
  | process x =>
      change (if b.process.atRing x = true then none else _) = some (b', es) at hs
      split at hs
      · cases hs
      · next hring =>
          obtain ⟨r, hr, heq⟩ := Option.map_eq_some_iff.mp hs
          cases heq
          exact ⟨requests, replies, _, h.atProcess (Bool.eq_false_iff.mpr hring) hr⟩
  | requests x uninitialised =>
      change (if mayTake _ _ x = true then _ else none) = some (b', es) at hs
      split at hs
      · next hmay =>
          obtain ⟨r, hr, heq⟩ := Option.map_eq_some_iff.mp hs
          cases heq
          obtain ⟨requests', etr', h'⟩ := h.atRequestQueue hmay hr rfl
          exact ⟨requests', replies, etr', h'⟩
      · cases hs
  | replies x =>
      change (if mayTake _ _ x = true then _ else none) = some (b', es) at hs
      split at hs
      · next hmay =>
          obtain ⟨r, hr, heq⟩ := Option.map_eq_some_iff.mp hs
          cases heq
          obtain ⟨replies', etr', h'⟩ := h.atReplyQueue hmay hr rfl
          exact ⟨requests, replies', etr', h'⟩
      · cases hs

end Simulation

end Buffered

/-! ## §6. The order of the replies. -/

/-- The reply that the engine pushed, whether it fitted or not. -/
def asOffered : Ledger.Event → Option TransactionResponse
  | .replied _ resp _ => some resp
  | _ => none

/-- The replies that the engine pushed, or tried to. -/
def offered (etr : List Ledger.Event) : List TransactionResponse := etr.filterMap asOffered

theorem offered_append (etr ees : List Ledger.Event) :
    offered (etr ++ ees) = offered etr ++ offered ees := List.filterMap_append

/-- Each request popped gets its reply in its turn, but for the one in hand. -/
theorem offered_step {e e' : LedgerEngine} {etr ees : List Ledger.Event}
    (hready : ∀ resp, e.pc.ready = some resp →
      e.pc.inHand.map (·.correlationId) = [resp.correlationId])
    (h : (popped etr).map (·.correlationId) =
      (offered etr).map (·.correlationId) ++ e.pc.inHand.map (·.correlationId))
    (he : QueueEffect e e' ees) :
    (popped (etr ++ ees)).map (·.correlationId) =
      (offered (etr ++ ees)).map (·.correlationId) ++ e'.pc.inHand.map (·.correlationId) := by
  rw [popped_append, offered_append, List.map_append, List.map_append]
  cases he with
  | within hsame =>
      obtain ⟨-, hpop, -⟩ := hsame.lists
      have hnone : offered ees = [] := by
        refine hsame.filterMap ?_
        intro x hx
        cases x <;> first | rfl | cases hx
      rw [hpop, hnone, hsame.hand, h]
      simp
  | submit _ | take _ =>
      show (popped etr).map _ ++ [] = (offered etr).map _ ++ [] ++ e.pc.inHand.map _
      rw [List.append_nil, List.append_nil]
      exact h
  | @pop req q hhand _ =>
      rw [hhand, List.map_nil, List.append_nil] at h
      rw [h]
      show _ ++ [req.correlationId] = _ ++ [] ++ [req.correlationId]
      rw [List.append_nil]
  | push hhand hresp _ hnext _ | lose hhand hresp _ hnext _ =>
      rw [hready _ hresp] at h
      show (popped etr).map _ ++ [] = _ ++ _ ++ _
      rw [h, hnext, List.map_nil, List.append_nil, List.append_nil]
      rfl

theorem run_offered {wal : Wal.WriteAheadLog} {bs : List Ledger.Action}
    {u : Traced LedgerEngine Ledger.Event} (h : runEngine (.init wal) bs = some u) :
    (popped u.trace).map (·.correlationId) =
      (offered u.trace).map (·.correlationId) ++ u.state.pc.inHand.map (·.correlationId) := by
  have hboth := traced_invariant (fun e etr => Traffic e etr ∧
    (popped etr).map (·.correlationId) =
      (offered etr).map (·.correlationId) ++ e.pc.inHand.map (·.correlationId)) ?_
    ⟨traffic_init wal, rfl⟩ h
  · exact hboth.2
  · intro e etr a e' ees he hstep
    obtain ⟨htraffic, hoffered⟩ := he
    have heffect := step_queueEffect hstep
    exact ⟨htraffic.step heffect, offered_step htraffic.ready hoffered heffect⟩

/-- The replies that fitted are some of those that were offered. -/
theorem replied_sublist (etr : List Ledger.Event) : (replied etr).Sublist (offered etr) := by
  induction etr with
  | nil => exact .slnil
  | cons e etr ih =>
      unfold replied offered at ih ⊢
      rw [List.filterMap_cons, List.filterMap_cons]
      cases e with
      | replied req resp pushed =>
          cases pushed with
          | true => exact ih.cons_cons resp
          | false => exact ih.cons resp
      | _ => exact ih

namespace Buffered

/-! ## §7. Every run. -/

/-- A run of the process with its ring buffers, whatever is in their slots at the
start and whatever `std::move` leaves behind. -/
abbrev runBuffered (movedRequest : TransactionRequest → TransactionRequest)
    (movedEnvelope : TxResponseEnvelope → TxResponseEnvelope)
    (requests : UInt64 → TransactionRequest) (replies : UInt64 → TxResponseEnvelope)
    (wal : Wal.WriteAheadLog) (acts : List Action) : Option (Traced Buffered Process.Event) :=
  run (traced (step movedRequest movedEnvelope)) ⟨started wal requests replies, []⟩ acts

section Runs

variable {movedRequest : TransactionRequest → TransactionRequest}
  {movedEnvelope : TxResponseEnvelope → TxResponseEnvelope}
  {requestSlots : UInt64 → TransactionRequest} {replySlots : UInt64 → TxResponseEnvelope}
  {wal : Wal.WriteAheadLog} {acts : List Action} {t : Traced Buffered Process.Event}

theorem run_simulation
    (h : runBuffered movedRequest movedEnvelope requestSlots replySlots wal acts = some t) :
    ∃ requests replies etr, Simulation wal t.state t.trace requests replies etr := by
  refine traced_invariant (fun b tr => ∃ requests replies etr,
    Simulation wal b tr requests replies etr) ?_
    ⟨_, _, _, simulation_started wal requestSlots replySlots⟩ h
  intro b tr x b' es hb hstep
  obtain ⟨requests, replies, etr, hsim⟩ := hb
  exact hsim.step hstep

/-- What went into the reply queue is what the engine pushed. -/
theorem replied_eq_sent {b : Buffered} {tr : List Process.Event}
    {requests : Channel TransactionRequest ring1024.capacity}
    {replies : Channel TxResponseEnvelope ring1024.capacity} {etr : List Ledger.Event}
    (hsim : Simulation wal b tr requests replies etr) :
    replied etr = replies.sent.map (·.response) := by
  obtain ⟨bs, hbs⟩ := hsim.engine
  have hqueue : replied etr = taken etr ++ (replies.sent.drop replies.noticed).map (·.response) :=
    (run_traffic hbs).replies
  rw [hqueue, hsim.noticed, ← List.map_append, List.take_append_drop]

/-- What a run with the ring buffers and a run with atomic queues have in common:
everything but the queues, everything the engine does itself, and the order of
what goes in and out. -/
structure SameEngine (t : Traced Buffered Process.Event)
    (u : Traced LedgerEngine Ledger.Event) : Prop where
  state : t.state.process.engine =
    withQueues u.state t.state.process.engine.requestQueue t.state.process.engine.replyQueue
  own : u.trace.filter isOwn = (Process.engineTrace t.trace).filter isOwn
  submitted : submitted u.trace <+: submitted (Process.engineTrace t.trace)
  taken : taken u.trace <+: taken (Process.engineTrace t.trace)

/-- **THE ENGINE DOES NOT NOTICE THE RING BUFFERS.**  For every interleaving of
the single loads and stores of both threads, with stale loads, there is a run of
the engine with atomic queues in which it does the same in the same order. -/
theorem buffered_refines_engine
    (h : runBuffered movedRequest movedEnvelope requestSlots replySlots wal acts = some t) :
    ∃ bs u, runEngine (.init wal) bs = some u ∧ SameEngine t u := by
  obtain ⟨requests, replies, etr, hsim⟩ := run_simulation h
  obtain ⟨bs, hbs⟩ := hsim.engine
  refine ⟨bs, _, hbs, rfl, hsim.own, ?_, ?_⟩
  · show submitted etr <+: _
    rw [hsim.arrived, hsim.sent]
    exact List.take_prefix _ _
  · show taken etr <+: _
    rw [hsim.noticed, hsim.drained]
    exact (List.take_prefix_take_left replies.noticed_le).map _

/-- The reply to the request in `smallRequest`. -/
def smallReply : TxResponseEnvelope := ⟨[], smallResponse⟩

/-- A request and its reply.  The engine looks for the request when it is there
and does not see it; then it sees it. -/
def staleRoundTrip : List Action :=
  [.process (.arrive [[7], [], smallRequest]), .process (.io [] Uuid.zero),
    .process (.io [] Uuid.zero), .requests (.pushLoadTail Process.smallParsed) Uuid.zero,
    .process (.engine 0 .ok), .requests (.pushLoadHead 0) Uuid.zero,
    .requests .pushWriteSlot Uuid.zero, .requests .pushStoreTail Uuid.zero,
    .requests .popLoadHead Uuid.zero, .requests (.popLoadTail 0) Uuid.zero,
    .process (.engine 0 .ok), .requests .popLoadHead Uuid.zero,
    .requests (.popLoadTail 1) Uuid.zero, .requests .popReadSlot Uuid.zero,
    .requests .popStoreHead Uuid.zero, .process (.io [] Uuid.zero)] ++
  List.replicate 4 (.process (.engine 0 .ok)) ++
  [.replies (.pushLoadTail smallReply), .replies .popLoadHead, .replies (.pushLoadHead 0),
    .replies .pushWriteSlot, .replies .pushStoreTail, .replies (.popLoadTail 1),
    .replies .popReadSlot, .replies .popStoreHead]

/-- The engine with atomic queues makes the same round trip. -/
theorem staleRoundTrip_refines :
    ∃ t bs u, runBuffered id id (fun _ => Process.smallParsed) (fun _ => smallReply) newLog
        staleRoundTrip = some t ∧
      (popped (Process.engineTrace t.trace)).length = 1 ∧
      runEngine (.init newLog) bs = some u ∧ SameEngine t u := by
  have hrun : (runBuffered id id (fun _ => Process.smallParsed) (fun _ => smallReply) newLog
      staleRoundTrip).map (fun t => (popped (Process.engineTrace t.trace)).length) = some 1 := by
    decide +kernel
  obtain ⟨t, ht, hlength⟩ := Option.map_eq_some_iff.mp hrun
  obtain ⟨bs, u, hu, hsame⟩ := buffered_refines_engine ht
  exact ⟨t, bs, u, ht, hlength, hu, hsame⟩

/-- **REPLIES COME OUT IN THE ORDER OF THE REQUESTS.**  What the I/O thread pops
from the reply queue are replies to requests it pushed, each to another one, in
the order in which it pushed them. -/
theorem replies_in_order
    (h : runBuffered movedRequest movedEnvelope requestSlots replySlots wal acts = some t) :
    ((taken (Process.engineTrace t.trace)).map (·.correlationId)).Sublist
      ((submitted (Process.engineTrace t.trace)).map (·.correlationId)) := by
  obtain ⟨requests, replies, etr, hsim⟩ := run_simulation h
  obtain ⟨bs, hbs⟩ := hsim.engine
  have hoffered := run_offered hbs
  -- what was taken is among what was pushed into the reply queue
  have htaken : (taken (Process.engineTrace t.trace)).Sublist (offered etr) := by
    rw [hsim.drained]
    refine ((List.take_sublist _ _).map _).trans ?_
    rw [← replied_eq_sent hsim]
    exact replied_sublist etr
  -- the replies follow the requests popped, and these the requests pushed
  have hpopped : (offered etr).map (·.correlationId) <+: (popped etr).map (·.correlationId) := by
    rw [hoffered]
    exact List.prefix_append _ _
  have harrived : popped etr <+: submitted etr := by
    rw [(run_traffic hbs).requests]
    exact List.prefix_append _ _
  have hsubmitted : submitted etr <+: submitted (Process.engineTrace t.trace) := by
    rw [hsim.arrived, hsim.sent]
    exact List.take_prefix _ _
  exact (htaken.map _).trans (hpopped.sublist.trans ((harrived.trans hsubmitted).map _).sublist)

/-- One request went in, its reply came out. -/
theorem staleRoundTrip_inOrder :
    ∃ t, runBuffered id id (fun _ => Process.smallParsed) (fun _ => smallReply) newLog
        staleRoundTrip = some t ∧
      (submitted (Process.engineTrace t.trace), taken (Process.engineTrace t.trace)) =
        ([Process.smallParsed], [smallResponse]) ∧
      ((taken (Process.engineTrace t.trace)).map (·.correlationId)).Sublist
        ((submitted (Process.engineTrace t.trace)).map (·.correlationId)) := by
  have hrun : (runBuffered id id (fun _ => Process.smallParsed) (fun _ => smallReply) newLog
      staleRoundTrip).map (fun t => (submitted (Process.engineTrace t.trace),
        taken (Process.engineTrace t.trace))) = some ([Process.smallParsed], [smallResponse]) := by
    decide +kernel
  obtain ⟨t, ht, hlists⟩ := Option.map_eq_some_iff.mp hrun
  exact ⟨t, ht, hlists, replies_in_order ht⟩

end Runs

end Buffered

end ZeroLGR.Server
