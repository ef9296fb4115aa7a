/-
  ZeroLGR.Server.Sequential — the ring buffers when no load is stale.

  If every load of the other side's index sees its newest value, one queue fits
  both threads: a `push` happens where the tail is stored, a `pop` where the
  head is, and a call that fails does so where it loads.  Then the process with
  the ring buffers is the process with atomic queues, event by event.

    • `ioStep_withQueues`, `process_withQueues` — steps at neither queue,
    • `io_pushed`, `io_full`, `io_drained`, `io_drainEmpty` — the I/O thread at
      the queues,
    • `InStep` — the two processes side by side,
    • `buffered_refines_process` — every run is a run with atomic queues.
-/
import ZeroLGR.Server.Buffered

namespace ZeroLGR.Server

open Transition Ledger

/-! ## §1. The process with other queues. -/

section Queues

variable {q q' : Fifo.Bounded TransactionRequest queueCapacity}
  {r r' : Fifo.Bounded TxResponseEnvelope queueCapacity}

/-- The server with these queues. -/
def EngineServer.withQueues (s : EngineServer)
    (q : Fifo.Bounded TransactionRequest queueCapacity)
    (r : Fifo.Bounded TxResponseEnvelope queueCapacity) : EngineServer :=
  { s with requestQueue := q, replyQueue := r }

/-- A step of the I/O thread at neither queue. -/
theorem ioStep_withQueues {s s' : EngineServer} {es : List Server.Event} {answer : Bytes}
    {uninitialised : Uuid} (hpushes : s.pc.pushes = none) (hpops : s.pc.pops = false)
    (h : s.ioStep answer uninitialised = some (s', es)) :
    (s.withQueues q r).ioStep answer uninitialised = some (s'.withQueues q r, es) := by
  have hpc : (s.withQueues q r).pc = s.pc := rfl
  unfold EngineServer.ioStep at h ⊢
  rw [hpc]
  split at h
  case h_1 =>
    split at h <;> next hc =>
      cases h
      first | exact if_pos hc | exact if_neg hc
  case h_2 =>
    have hinput : (s.withQueues q r).input = s.input := rfl
    rw [hinput]
    split at h <;> cases h <;> rfl
  case h_3 identity payload hp =>
    rw [hp] at hpushes
    have hhandle := Option.some.inj h
    unfold EngineServer.handle at hhandle ⊢
    split at hhandle
    · cases hhandle
      rfl
    · next msgType rest =>
        split at hhandle
        · next htype =>
            change (if msgType = MSG_TX_REQUEST then _ else none) = none at hpushes
            rw [if_pos htype] at hpushes ⊢
            unfold EngineServer.handleRequest at hhandle ⊢
            rw [hpushes] at hhandle ⊢
            cases hhandle
            rfl
        · next htype =>
            rw [if_neg htype]
            split at hhandle
            · next htype' =>
                rw [if_pos htype']
                split at hhandle <;> next hc =>
                  cases hhandle
                  first
                    | exact congrArg some (if_pos hc)
                    | exact congrArg some (if_neg hc)
            · next htype' =>
                rw [if_neg htype']
                split at hhandle
                · next htype'' =>
                    rw [if_pos htype'']
                    split at hhandle <;> next hc =>
                      cases hhandle
                      first
                        | exact congrArg some (if_pos hc)
                        | exact congrArg some (if_neg hc)
                · next htype'' =>
                    rw [if_neg htype'']
                    cases hhandle
                    rfl
  case h_4 =>
    cases h
    rfl
  case h_5 hp =>
    rw [hp] at hpops
    cases hpops
  case h_6 => cases h
  case h_7 => cases h

/-- The process with these queues. -/
def Process.withQueues (p : Process) (q : Fifo.Bounded TransactionRequest queueCapacity)
    (r : Fifo.Bounded TxResponseEnvelope queueCapacity) : Process :=
  { p with engine := Server.withQueues p.engine q r }

/-- A step at neither queue. -/
theorem process_withQueues {p p' : Process} {x : Process.Action} {es : List Process.Event}
    (hring : p.atRing x = false) (h : p.step x = some (p', es)) :
    (p.withQueues q r).step x = some (p'.withQueues q r, es) := by
  cases x with
  | io answer uninitialised =>
      obtain ⟨hpushes, hpops⟩ := Buffered.off_ring hring
      obtain ⟨⟨s', ios⟩, hio, heq⟩ := Option.map_eq_some_iff.mp h
      cases heq
      have hstep := ioStep_withQueues (q := q) (r := r) hpushes hpops hio
      show ((p.server.withQueues q r).ioStep answer uninitialised).map _ = _
      rw [hstep]
      rfl
  | engine now os =>
      obtain ⟨hpushes, hpops⟩ := Buffered.off_ring hring
      obtain ⟨⟨e', ees⟩, he, heq⟩ := Option.map_eq_some_iff.mp h
      cases heq
      show ((Server.withQueues p.engine q r).engineStep now os).map _ = _
      rw [engineStep_withQueues hpushes hpops he]
      rfl
  | call a =>
      change (if a.isCall = true then _ else none) = some (p', es) at h
      split at h
      · next hcall =>
          obtain ⟨⟨e', ees⟩, he, heq⟩ := Option.map_eq_some_iff.mp h
          cases heq
          show (if a.isCall = true then
            (Ledger.step (Server.withQueues p.engine q r) a).map _ else none) = _
          rw [if_pos hcall, call_withQueues hcall he]
          rfl
      · cases h
  | arrive frames | stop =>
      cases h
      rfl

/-! ## §2. The I/O thread at the queues. -/

variable {p : Process} {req : TransactionRequest} {envelope : TxResponseEnvelope}
  (uninitialised : Uuid)

/-- The I/O thread at `request_queue.push`, by the result. -/
theorem ioStep_push {s : EngineServer} {identity rest : Bytes}
    (hpc : s.pc = .handle identity (MSG_TX_REQUEST :: rest))
    (hreq : deserializeRequest (MSG_TX_REQUEST :: rest) = some req) :
    s.ioStep [] uninitialised = some (match s.requestQueue.enqueue req with
      | none => ({ s with pc := .drain },
          [.answered identity
            (serializeResponse (queueFullResponse req.correlationId uninitialised))])
      | some q => ({ s with
          requestQueue := q, pc := .recordIdentity identity (MSG_TX_REQUEST :: rest) },
          [.accepted identity req])) := by
  unfold EngineServer.ioStep
  rw [hpc]
  show some (s.handle [] uninitialised identity (MSG_TX_REQUEST :: rest)) = _
  cases hq : s.requestQueue.enqueue req with
  | none => simp only [EngineServer.handle, if_true, EngineServer.handleRequest, hreq, hq]
  | some q => simp only [EngineServer.handle, if_true, EngineServer.handleRequest, hreq, hq]

/-- `push` took the request. -/
theorem io_pushed (hpushes : p.ioPc.pushes = some req) (h : q'.items = q.items ++ [req]) :
    (p.withQueues q r).step (.io [] uninitialised) =
      some ((p.requestReturned uninitialised (.pushed req)).1.withQueues q' r,
        (p.requestReturned uninitialised (.pushed req)).2) := by
  obtain ⟨identity, rest, hpc, hreq⟩ := handle_of_pushes hpushes
  have hroom : q.items.length < queueCapacity := by
    have hbound := q'.bound
    rw [h, List.length_append, List.length_singleton] at hbound
    omega
  obtain ⟨m, hm, hitems⟩ := Fifo.Bounded.enqueue_of_lt hroom req
  have hstep := ioStep_push (s := p.server.withQueues q r) uninitialised hpc hreq
  have hqueue : (p.server.withQueues q r).requestQueue = q := rfl
  rw [hqueue, hm, Delayed.bounded_ext (hitems.trans h.symm)] at hstep
  show ((p.server.withQueues q r).ioStep [] uninitialised).map _ = _
  rw [hstep]
  simp only [Process.requestReturned, hpc]
  rfl

/-- `push` found the queue full. -/
theorem io_full (hpushes : p.ioPc.pushes = some req) (h : q.items.length = queueCapacity) :
    (p.withQueues q r).step (.io [] uninitialised) =
      some ((p.requestReturned uninitialised .pushFailed).1.withQueues q r,
        (p.requestReturned uninitialised .pushFailed).2) := by
  obtain ⟨identity, rest, hpc, hreq⟩ := handle_of_pushes hpushes
  have hstep := ioStep_push (s := p.server.withQueues q r) uninitialised hpc hreq
  have hqueue : (p.server.withQueues q r).requestQueue = q := rfl
  rw [hqueue, Fifo.Bounded.enqueue_of_full h] at hstep
  show ((p.server.withQueues q r).ioStep [] uninitialised).map _ = _
  rw [hstep]
  simp only [Process.requestReturned, hpushes]
  rw [hpc]
  rfl

/-- The I/O thread at `reply_queue.pop`. -/
theorem ioStep_pop {s : EngineServer} (hpc : s.pc = .drain) :
    s.ioStep [] uninitialised = some s.drainOne := by
  unfold EngineServer.ioStep
  rw [hpc]

/-- `pop` gave an envelope. -/
theorem io_drained (hpops : p.ioPc.pops = true) (h : r.items = envelope :: r'.items) :
    (p.withQueues q r).step (.io [] uninitialised) =
      some ((p.drained envelope).1.withQueues q r', (p.drained envelope).2) := by
  obtain ⟨m, hm, hitems⟩ := Fifo.Bounded.dequeue_of_cons h
  have hstep := ioStep_pop (s := p.server.withQueues q r) uninitialised
    (drain_of_pops hpops)
  show ((p.server.withQueues q r).ioStep [] uninitialised).map _ = _
  rw [hstep]
  unfold EngineServer.drainOne Process.drained
  have hqueue : (p.server.withQueues q r).replyQueue = r := rfl
  have hmap : (p.server.withQueues q r).drainPendingIdentities = p.drainPendingIdentities := rfl
  rw [hqueue, hm, Delayed.bounded_ext hitems]
  dsimp only
  rw [hmap]
  cases p.drainPendingIdentities.lookup envelope.response.correlationId.bytes <;> rfl

/-- `pop` found the queue empty. -/
theorem io_drainEmpty (hpops : p.ioPc.pops = true) (h : r.items = []) :
    (p.withQueues q r).step (.io [] uninitialised) =
      some ((p.replyReturned .popFailed).1.withQueues q r, []) := by
  have hstep := ioStep_pop (s := p.server.withQueues q r) uninitialised
    (drain_of_pops hpops)
  show ((p.server.withQueues q r).ioStep [] uninitialised).map _ = _
  rw [hstep]
  unfold EngineServer.drainOne
  have hqueue : (p.server.withQueues q r).replyQueue = r := rfl
  rw [hqueue, dequeue_of_nil h]
  rfl

/-! ## §3. The engine at the queues. -/

/-- A step of the engine, as one of the process. -/
theorem process_engine {ees : List Ledger.Event} {e' : LedgerEngine} {now : Int64}
    {os : Wal.OsReply}
    (h : Ledger.step (Server.withQueues p.engine q r) (.engine now os) =
      some (Server.withQueues e' q' r', ees)) :
    (p.withQueues q r).step (.engine now os) =
      some (({ p with engine := e' } : Process).withQueues q' r', ees.map .engine) := by
  show ((Server.withQueues p.engine q r).engineStep now os).map _ = _
  change (Server.withQueues p.engine q r).engineStep now os = _ at h
  rw [h]
  rfl

end Queues

/-! ## §4. Side by side. -/

namespace Buffered

/-- No load of a step is stale. -/
def fresh (b : Buffered) : Action → Bool
  | .requests x _ => RingBuffer.fresh b.requestQueue x
  | .replies x => RingBuffer.fresh b.replyQueue x
  | .process _ => true

/-- The atomic queues `q` and `r` hold what the ring buffers hold. -/
structure InStep (b : Buffered) (q : Fifo.Bounded TransactionRequest queueCapacity)
    (r : Fifo.Bounded TxResponseEnvelope queueCapacity) : Prop where
  calls : AtCalls b
  requests : RingBuffer.Inv ring1024 b.requestQueue q.items
  replies : RingBuffer.Inv ring1024 b.replyQueue r.items

theorem inStep_started (wal : Wal.WriteAheadLog) (requests : UInt64 → TransactionRequest)
    (replies : UInt64 → TxResponseEnvelope) :
    InStep (started wal requests replies) .empty .empty :=
  ⟨atCalls_started wal requests replies, RingBuffer.inv_init ring1024 requests,
    RingBuffer.inv_init ring1024 replies⟩

/-- What a ring buffer holds, as an atomic queue. -/
theorem held_queue {α : Type} {s : RingBuffer.System α} {items : List α}
    (h : RingBuffer.Inv ring1024 s items) :
    ∃ q : Fifo.Bounded α queueCapacity, q.items = items := by
  obtain ⟨C, hC⟩ := h
  exact ⟨⟨items, hC.length_le⟩, rfl⟩

/-- The process with atomic queues takes some steps. -/
def Follows (p : Process) (es : List Process.Event) (p' : Process) : Prop :=
  ∀ tr, ∃ xs, run (traced Process.step) ⟨p, tr⟩ xs = some ⟨p', tr ++ es⟩

theorem follows_none (p : Process) : Follows p [] p := by
  intro tr
  exact ⟨[], by rw [List.append_nil]; rfl⟩

theorem follows_one {p p' : Process} {x : Process.Action} {es : List Process.Event}
    (h : p.step x = some (p', es)) : Follows p es p' := by
  intro tr
  exact ⟨[x], run_traced_cons h tr []⟩

section Steps

variable {movedRequest : TransactionRequest → TransactionRequest}
  {movedEnvelope : TxResponseEnvelope → TxResponseEnvelope} {b b' : Buffered}
  {es : List Process.Event} {q : Fifo.Bounded TransactionRequest queueCapacity}
  {r : Fifo.Bounded TxResponseEnvelope queueCapacity}

theorem InStep.atRequestQueue {x : RingBuffer.Action TransactionRequest}
    {ring : RingBuffer.System TransactionRequest} {uninitialised : Uuid}
    {res : List (RingBuffer.Event TransactionRequest)} (h : InStep b q r)
    (hmay : mayTake b.process.ioPc.pushes (enginePops b.process.engine.pc) x = true)
    (hfresh : RingBuffer.fresh b.requestQueue x = true)
    (hstep : RingBuffer.step ring1024 movedRequest b.requestQueue x = some (ring, res))
    {back : Process × List Process.Event}
    (hback : returned b.process (b.process.requestReturned uninitialised) res = back) :
    ∃ q', Follows (b.process.withQueues q r) back.2 (back.1.withQueues q' r) ∧
      InStep { b with process := back.1, requestQueue := ring } q' r := by
  obtain ⟨items, hinv, hmove⟩ := RingBuffer.step_inv h.requests hstep
  obtain ⟨q', hq'⟩ := held_queue hinv
  rw [← hq'] at hinv hmove
  have hstands := RingBuffer.step_stands hstep
  have hcalls := h.calls.atRequests uninitialised hmay hstands
  rw [hback] at hcalls
  refine ⟨q', ?_, hcalls, hinv, h.replies⟩
  cases hstands with
  | inside _ _ =>
      cases hback
      have hsame : q' = q := Delayed.bounded_ext hmove.of_silent
      rw [hsame]
      exact follows_none _
  | @pushed req hvalue _ _ =>
      cases hback
      exact follows_one (io_pushed uninitialised (h.calls.pushing req hvalue) hmove.of_pushed)
  | @pushFailed req i hx hvalue _ _ =>
      subst hx
      cases hback
      have hfull : q.items.length = queueCapacity :=
        RingBuffer.pushFailed_full h.requests (of_decide_eq_true hfresh) hstep
      have hsame : q' = q := Delayed.bounded_ext hmove.of_pushFailed
      rw [hsame]
      exact follows_one (io_full uninitialised (h.calls.pushing req hvalue) hfull)
  | @popped req hbusy _ _ =>
      cases hback
      exact follows_one (process_engine
        (engine_popped 0 .ok (h.calls.popping hbusy) hmove.of_popped))
  | @popFailed i hx hbusy _ _ =>
      subst hx
      cases hback
      have hempty : q.items = [] :=
        RingBuffer.popFailed_empty h.requests (of_decide_eq_true hfresh) hstep
      have hsame : q' = q := Delayed.bounded_ext hmove.of_popFailed
      rw [hsame]
      exact follows_one (process_engine
        (engine_popFailed 0 .ok (h.calls.popping hbusy) hempty))

theorem InStep.atReplyQueue {x : RingBuffer.Action TxResponseEnvelope}
    {ring : RingBuffer.System TxResponseEnvelope}
    {res : List (RingBuffer.Event TxResponseEnvelope)} (h : InStep b q r)
    (hmay : mayTake (enginePushes b.process.engine.pc) b.process.ioPc.pops x = true)
    (hfresh : RingBuffer.fresh b.replyQueue x = true)
    (hstep : RingBuffer.step ring1024 movedEnvelope b.replyQueue x = some (ring, res))
    {back : Process × List Process.Event}
    (hback : returned b.process b.process.replyReturned res = back) :
    ∃ r', Follows (b.process.withQueues q r) back.2 (back.1.withQueues q r') ∧
      InStep { b with process := back.1, replyQueue := ring } q r' := by
  obtain ⟨items, hinv, hmove⟩ := RingBuffer.step_inv h.replies hstep
  obtain ⟨r', hr'⟩ := held_queue hinv
  rw [← hr'] at hinv hmove
  have hstands := RingBuffer.step_stands hstep
  have hcalls := h.calls.atReplies hmay hstands
  rw [hback] at hcalls
  refine ⟨r', ?_, hcalls, h.requests, hinv⟩
  cases hstands with
  | inside _ _ =>
      cases hback
      have hsame : r' = r := Delayed.bounded_ext hmove.of_silent
      rw [hsame]
      exact follows_none _
  | @pushed envelope hvalue _ _ =>
      obtain ⟨req, resp, next, hreplies⟩ := replies_of_pushes (h.calls.replying envelope hvalue)
      change b.process.replied true = back at hback
      rw [replied_eq hreplies] at hback
      cases hback
      exact follows_one (process_engine
        (engine_replied 0 .ok hreplies (.inl ⟨rfl, hmove.of_pushed⟩)))
  | @pushFailed envelope i hx hvalue _ _ =>
      subst hx
      obtain ⟨req, resp, next, hreplies⟩ := replies_of_pushes (h.calls.replying envelope hvalue)
      change b.process.replied false = back at hback
      rw [replied_eq hreplies] at hback
      cases hback
      have hfull : r.items.length = queueCapacity :=
        RingBuffer.pushFailed_full h.replies (of_decide_eq_true hfresh) hstep
      have hsame : r' = r := Delayed.bounded_ext hmove.of_pushFailed
      exact follows_one (process_engine
        (engine_replied 0 .ok hreplies (.inr ⟨rfl, hfull, hsame⟩)))
  | @popped envelope hbusy _ _ =>
      cases hback
      exact follows_one
        (io_drained Uuid.zero (h.calls.draining hbusy) hmove.of_popped)
  | @popFailed i hx hbusy _ _ =>
      subst hx
      cases hback
      have hempty : r.items = [] :=
        RingBuffer.popFailed_empty h.replies (of_decide_eq_true hfresh) hstep
      have hsame : r' = r := Delayed.bounded_ext hmove.of_popFailed
      rw [hsame]
      exact follows_one
        (io_drainEmpty Uuid.zero (h.calls.draining hbusy) hempty)

/-- **Each step.** -/
theorem InStep.step {x : Action} (h : InStep b q r) (hfresh : b.fresh x = true)
    (hs : step movedRequest movedEnvelope b x = some (b', es)) :
    ∃ q' r', Follows (b.process.withQueues q r) es (b'.process.withQueues q' r') ∧
      InStep b' q' r' := by
  cases x with
  | process x =>
      change (if b.process.atRing x = true then none else _) = some (b', es) at hs
      split at hs
      · cases hs
      · next hring =>
          obtain ⟨⟨p', pes⟩, hr, heq⟩ := Option.map_eq_some_iff.mp hs
          cases heq
          have hoff := Bool.eq_false_iff.mpr hring
          exact ⟨q, r, follows_one (process_withQueues hoff hr), h.calls.atProcess hoff hr,
            h.requests, h.replies⟩
  | requests x uninitialised =>
      change (if mayTake _ _ x = true then _ else none) = some (b', es) at hs
      split at hs
      · next hmay =>
          obtain ⟨res, hr, heq⟩ := Option.map_eq_some_iff.mp hs
          cases heq
          obtain ⟨q', hfollows, hin⟩ := h.atRequestQueue hmay hfresh hr rfl
          exact ⟨q', r, hfollows, hin⟩
      · cases hs
  | replies x =>
      change (if mayTake _ _ x = true then _ else none) = some (b', es) at hs
      split at hs
      · next hmay =>
          obtain ⟨res, hr, heq⟩ := Option.map_eq_some_iff.mp hs
          cases heq
          obtain ⟨r', hfollows, hin⟩ := h.atReplyQueue hmay hfresh hr rfl
          exact ⟨q, r', hfollows, hin⟩
      · cases hs

end Steps

/-! ## §5. Every run. -/

/-- **WITH FRESH LOADS THE RING BUFFERS ARE ATOMIC QUEUES.**  For every
interleaving of the single loads and stores of both threads in which each load
of the other side's index sees its newest value, the process with atomic queues
has a run with the same record, to the same state but for the queues. -/
theorem buffered_refines_process {movedRequest : TransactionRequest → TransactionRequest}
    {movedEnvelope : TxResponseEnvelope → TxResponseEnvelope}
    {requestSlots : UInt64 → TransactionRequest} {replySlots : UInt64 → TxResponseEnvelope}
    {wal : Wal.WriteAheadLog} {acts : List Action} {t : Traced Buffered Process.Event}
    (h : runBuffered movedRequest movedEnvelope requestSlots replySlots wal acts = some t)
    (hfresh : ∀ u x u', Takes (traced (step movedRequest movedEnvelope))
      ⟨started wal requestSlots replySlots, []⟩ acts u x u' → u.state.fresh x = true) :
    ∃ xs q r, Process.runProcess wal xs = some ⟨t.state.process.withQueues q r, t.trace⟩ := by
  have hinv : ∃ q r, InStep t.state q r ∧
      ∃ xs, Process.runProcess wal xs = some ⟨t.state.process.withQueues q r, t.trace⟩ := by
    refine traced_of_takes (fun b tr => ∃ q r, InStep b q r ∧
      ∃ xs, Process.runProcess wal xs = some ⟨b.process.withQueues q r, tr⟩)
      ⟨_, _, inStep_started wal requestSlots replySlots, [], rfl⟩ ?_ (visits_end h)
    intro u x u' es htakes hstep hu
    obtain ⟨q, r, hin, xs, hxs⟩ := hu
    obtain ⟨q', r', hfollows, hin'⟩ := hin.step (hfresh u x u' htakes) hstep
    obtain ⟨ys, hys⟩ := hfollows u.trace
    refine ⟨q', r', hin', xs ++ ys, ?_⟩
    unfold Process.runProcess at hxs ⊢
    rw [run_append, hxs]
    exact hys
  obtain ⟨q, r, -, xs, hxs⟩ := hinv
  exact ⟨xs, q, r, hxs⟩

/-- A request and its reply, each seen at once. -/
def freshRoundTrip : List Action :=
  [.process (.arrive [[7], [], smallRequest]), .process (.io [] Uuid.zero),
    .process (.io [] Uuid.zero), .requests (.pushLoadTail Process.smallParsed) Uuid.zero,
    .process (.engine 0 .ok), .requests (.pushLoadHead 0) Uuid.zero,
    .requests .pushWriteSlot Uuid.zero, .requests .popLoadHead Uuid.zero,
    .requests .pushStoreTail Uuid.zero, .requests (.popLoadTail 1) Uuid.zero,
    .requests .popReadSlot Uuid.zero, .requests .popStoreHead Uuid.zero,
    .process (.io [] Uuid.zero)] ++
  List.replicate 4 (.process (.engine 0 .ok)) ++
  [.replies (.pushLoadTail smallReply), .replies .popLoadHead, .replies (.pushLoadHead 0),
    .replies .pushWriteSlot, .replies .pushStoreTail, .replies (.popLoadTail 1),
    .replies .popReadSlot, .replies .popStoreHead]

theorem freshRoundTrip_refines :
    ∃ t xs q r, runBuffered id id (fun _ => Process.smallParsed) (fun _ => smallReply) newLog
        freshRoundTrip = some t ∧
      (submitted (Process.engineTrace t.trace), taken (Process.engineTrace t.trace)) =
        ([Process.smallParsed], [smallResponse]) ∧
      Process.runProcess newLog xs = some ⟨t.state.process.withQueues q r, t.trace⟩ := by
  have hrun : (runBuffered id id (fun _ => Process.smallParsed) (fun _ => smallReply) newLog
      freshRoundTrip).map (fun t => (submitted (Process.engineTrace t.trace),
        taken (Process.engineTrace t.trace))) = some ([Process.smallParsed], [smallResponse]) := by
    decide +kernel
  let ok : Traced Buffered Process.Event → Action → Bool := fun u x => u.state.fresh x
  have hok : checked (traced (step id id)) ok
      ⟨started newLog (fun _ => Process.smallParsed) (fun _ => smallReply), []⟩
      freshRoundTrip = true := by
    decide +kernel
  obtain ⟨t, ht, hlists⟩ := Option.map_eq_some_iff.mp hrun
  obtain ⟨xs, q, r, hxs⟩ := buffered_refines_process ht
    (fun u x u' htakes => show ok u x = true from htakes.checked hok)
  exact ⟨t, xs, q, r, ht, hlists, hxs⟩

end Buffered

end ZeroLGR.Server
