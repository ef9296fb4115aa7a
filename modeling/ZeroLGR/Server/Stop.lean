/-
  ZeroLGR.Server.Stop — `EngineServer::stop()` returns.

  `stop()` sets both flags and joins the two threads.  The I/O thread looks at
  its flag once in an iteration, and empties the reply queue in each; the engine
  thread goes on to push replies into that queue.  Each request in flight is
  drained once, so an iteration is bounded all the same.

    • `EngineServer.left`, `ioStep_left` — the steps the I/O thread has left in
      its iteration,
    • `Pc.left`, `engineStep_left` — the steps of the engine thread,
    • `io_iteration_bounded` — the I/O thread comes back to its flag,
    • `stop_terminates` — after `stop()` both threads are at their end after a
      bounded number of steps, a read past the end of a message and an append
      that throws being ends too.
-/
import ZeroLGR.Ledger.Waiting
import ZeroLGR.Server.Process

namespace ZeroLGR.Ledger

/-! ## §1. What is left of `run()`. -/

/-- The steps from a place of the loop to the flag, at most. -/
def Pc.left : Pc → Nat
  | .loadRunning => 1
  | .popRequest => 13
  | .findCached _ => 12
  | .validate _ => 11
  | .generateUuid _ _ => 10
  | .appendWal _ _ _ => 9
  | .applyTransaction _ _ _ => 8
  | .buildResponse _ _ _ _ => 7
  | .cacheResponse _ _ => 6
  | .pushReply _ _ => 5
  | .countTotal _ => 4
  | .countWindow _ => 3
  | .addLatency _ => 2
  | .replyCached _ _ => 2
  | .returned => 0
  | .terminated _ => 0

theorem Pc.left_le (pc : Pc) : pc.left ≤ 13 := by
  cases pc <;> simp [Pc.left]

section Steps

variable {s s' : LedgerEngine} {now : Int64} {os : Wal.OsReply} {es : List Event}

theorem pushReply_pc {req : TransactionRequest} {resp : TransactionResponse} {next : Pc}
    (h : s.pushReply req resp next = (s', es)) : s'.pc = next ∧ s'.running = s.running := by
  obtain ⟨q, pushed, hpush⟩ := pushReply_eq s req resp next
  rw [hpush] at h
  cases h
  exact ⟨rfl, rfl⟩

/-- **Each step of the engine thread lowers what it has left**, until it looks at
its flag and finds it set. -/
theorem engineStep_left (h : s.engineStep now os = some (s', es))
    (hflag : s.pc = .loadRunning → s.running = false) :
    s'.pc.left < s.pc.left ∧ s'.running = s.running := by
  unfold LedgerEngine.engineStep at h
  split at h
  next hpc =>
    rw [if_neg (by rw [hflag hpc]; decide)] at h
    cases h
    rw [hpc]
    exact ⟨by simp [Pc.left], rfl⟩
  next hpc =>
    rw [hpc]
    split at h <;> cases h <;> exact ⟨by simp [Pc.left], rfl⟩
  next req hpc =>
    rw [hpc]
    split at h <;> cases h <;> exact ⟨by simp [Pc.left], rfl⟩
  next req resp hpc =>
    obtain ⟨hnext, hrunning⟩ := pushReply_pc (Option.some.inj h)
    rw [hpc, hnext]
    exact ⟨by simp [Pc.left], hrunning⟩
  next req hpc =>
    rw [hpc]
    dsimp only at h
    split at h <;> cases h <;> exact ⟨by simp [Pc.left], rfl⟩
  next req tStart hpc =>
    cases h
    rw [hpc]
    exact ⟨by simp [Pc.left], rfl⟩
  next req tStart txId hpc =>
    rw [hpc]
    unfold LedgerEngine.appendWal at h
    split at h <;> cases h <;> exact ⟨by simp [Pc.left], rfl⟩
  next req tStart txId hpc =>
    cases h
    rw [hpc]
    exact ⟨by simp [Pc.left], rfl⟩
  next req tStart txId status hpc =>
    cases h
    rw [hpc]
    exact ⟨by simp [Pc.left], rfl⟩
  next req resp hpc =>
    rw [hpc]
    split at h <;> cases h <;> exact ⟨by simp [Pc.left], rfl⟩
  next req resp hpc =>
    obtain ⟨hnext, hrunning⟩ := pushReply_pc (Option.some.inj h)
    rw [hpc, hnext]
    exact ⟨by simp [Pc.left], hrunning⟩
  next latency hpc =>
    cases h
    rw [hpc]
    exact ⟨by simp [Pc.left], rfl⟩
  next latency hpc =>
    cases h
    rw [hpc]
    exact ⟨by simp [Pc.left], rfl⟩
  next latency hpc =>
    cases h
    rw [hpc]
    exact ⟨by simp [Pc.left], rfl⟩
  next => cases h
  next => cases h

/-- A call from outside moves the engine thread nowhere, and sets no flag back. -/
theorem call_stays {a : Action} (hcall : a.isCall = true) (h : step s a = some (s', es)) :
    s'.pc = s.pc ∧ (s.running = false → s'.running = false) := by
  cases a with
  | engine now os | submit req | takeReply => cases hcall
  | drawAccountId req | getBalanceSnapshot =>
      cases h
      exact ⟨rfl, id⟩
  | commitAccount i =>
      obtain ⟨c, -, heq⟩ := Option.map_eq_some_iff.mp h
      cases heq
      exact ⟨rfl, id⟩
  | getMetricsSample =>
      change (if s.metrics = .idle then _ else none) = some (s', es) at h
      split at h
      · cases h
        exact ⟨rfl, id⟩
      · cases h
  | resetMetricsWindow =>
      change (if s.metrics = .idle then _ else none) = some (s', es) at h
      split at h
      · cases h
        exact ⟨rfl, id⟩
      · cases h
  | metrics =>
      change s.metricsStep = some (s', es) at h
      unfold LedgerEngine.metricsStep at h
      split at h <;> cases h <;> exact ⟨rfl, id⟩
  | shutdown =>
      cases h
      exact ⟨rfl, fun _ => rfl⟩

end Steps

end ZeroLGR.Ledger

namespace ZeroLGR.Server

open Transition Ledger

/-! ## §2. One iteration of the I/O thread. -/

/-- The requests in flight, as the I/O thread sees them. -/
def EngineServer.underway (s : EngineServer) : Nat :=
  s.requestQueue.items.length + s.working.length + s.replyQueue.items.length

/-- The steps from a place of the loop to the flag, at most, with `n` requests in
flight. -/
def IoPc.left (n : Nat) : IoPc → Nat
  | .loadRunning => 1
  | .poll => n + 6
  | .handle _ _ => n + 5
  | .recordIdentity _ _ => n + 3
  | .drain => n + 2
  | .returned => 0
  | .undefinedRead => 0

/-- The steps the I/O thread has left, at most, until it has looked at its flag. -/
def EngineServer.left (s : EngineServer) : Nat := s.pc.left s.underway

/-- What is left at a place. -/
theorem left_at {s : EngineServer} {pc : IoPc} (hpc : s.pc = pc) :
    s.left = pc.left s.underway := by
  unfold EngineServer.left
  rw [hpc]

section Steps

variable {s s' : EngineServer} {answer : Bytes} {uninitialised : Uuid} {es : List Event}

theorem handle_left {identity payload : Bytes}
    (h : s.handle answer uninitialised identity payload = (s', es)) :
    s'.left < s.underway + 5 := by
  unfold EngineServer.handle at h
  split at h
  next =>
    cases h
    show 1 < s.underway + 5
    omega
  next =>
    split at h
    next =>
      unfold EngineServer.handleRequest at h
      split at h
      next =>
        cases h
        show 0 < s.underway + 5
        omega
      next req hreq =>
        split at h
        next =>
          cases h
          show s.underway + 2 < s.underway + 5
          omega
        next q hq =>
          -- the request pushed is one more in flight
          cases h
          have hlength : q.items.length = s.requestQueue.items.length + 1 := by
            rw [Fifo.Bounded.enqueue_eq_some hq, List.length_append, List.length_singleton]
          show q.items.length + s.working.length + s.replyQueue.items.length + 3 < s.underway + 5
          unfold EngineServer.underway
          omega
    next =>
      have hdrain : ∀ s₁ : EngineServer, s₁.underway = s.underway → s₁.pc = .drain →
          s₁.left < s.underway + 5 := by
        intro s₁ hsame hpc
        rw [left_at hpc, hsame]
        show s.underway + 2 < s.underway + 5
        omega
      have hread : ∀ s₁ : EngineServer, s₁.pc = .undefinedRead → s₁.left < s.underway + 5 := by
        intro s₁ hpc
        rw [left_at hpc]
        exact Nat.succ_pos _
      split at h
      · split at h
        · cases h
          exact hdrain _ rfl rfl
        · cases h
          exact hread _ rfl
      · split at h
        · split at h
          · cases h
            exact hdrain _ rfl rfl
          · cases h
            exact hread _ rfl
        · cases h
          exact hdrain _ rfl rfl

theorem drainOne_left (h : s.drainOne = (s', es)) (hpc : s.pc = .drain) :
    s'.left < s.underway + 2 := by
  unfold EngineServer.drainOne at h
  split at h
  next =>
    cases h
    show 1 < s.underway + 2
    omega
  next envelope q hq =>
    -- the envelope popped is in flight no more
    have hlength : s.replyQueue.items.length = q.items.length + 1 := by
      rw [Fifo.Bounded.dequeue_eq_some hq, List.length_cons]
    have hleft : ∀ s₁ : EngineServer, s₁.pc = .drain → s₁.requestQueue = s.requestQueue →
        s₁.working = s.working → s₁.replyQueue = q → s₁.left < s.underway + 2 := by
      intro s₁ hpc₁ hrequests hworking hreplies
      rw [left_at hpc₁]
      unfold EngineServer.underway
      rw [hrequests, hworking, hreplies]
      show s.requestQueue.items.length + s.working.length + q.items.length + 2 < _
      omega
    dsimp only at h
    split at h
    · cases h
      exact hleft _ hpc rfl rfl rfl
    · cases h
      exact hleft _ hpc rfl rfl rfl

/-- **Each step of the I/O thread lowers what it has left**, until it looks at
its flag and finds it set. -/
theorem ioStep_left (h : s.ioStep answer uninitialised = some (s', es))
    (hflag : s.pc = .loadRunning → s.running = false) : s'.left < s.left := by
  unfold EngineServer.ioStep at h
  split at h
  next hpc =>
    rw [hflag hpc, if_neg (by decide)] at h
    cases h
    rw [left_at hpc]
    exact Nat.one_pos
  next hpc =>
    rw [left_at hpc]
    split at h
    · cases h
      show s.underway + 2 < s.underway + 6
      omega
    · cases h
      show s.underway + 5 < s.underway + 6
      omega
    · cases h
  next identity payload hpc =>
    rw [left_at hpc]
    exact handle_left (Option.some.inj h)
  next identity payload hpc =>
    cases h
    rw [left_at hpc]
    show s.underway + 2 < s.underway + 3
    omega
  next hpc =>
    rw [left_at hpc]
    exact drainOne_left (Option.some.inj h) hpc
  next => cases h
  next => cases h

/-- What a step does at the socket: nothing, or it takes a message. -/
inductive AtSocket (s s' : EngineServer) : Prop
  | stays : s'.input = s.input → (s.pc = .poll → s'.pc = .drain) → AtSocket s s'
  | takes {identity delimiter payload : Bytes} :
      s.input = identity :: delimiter :: payload :: s'.input → s.pc = .poll →
      s'.pc = .handle identity payload → AtSocket s s'

/-- At another place nothing is taken. -/
theorem AtSocket.away {pc : IoPc} (hpc : s.pc = pc) (hne : pc ≠ .poll)
    (hinput : s'.input = s.input) : AtSocket s s' := by
  refine .stays hinput ?_
  intro hpoll
  exact absurd (hpc.symm.trans hpoll) hne

/-- The I/O thread sets no flag, and takes its messages at one place. -/
theorem ioStep_atSocket (h : s.ioStep answer uninitialised = some (s', es)) :
    s'.running = s.running ∧ AtSocket s s' := by
  unfold EngineServer.ioStep at h
  split at h
  next hpc => split at h <;> cases h <;> exact ⟨rfl, .away hpc (by decide) rfl⟩
  next hpc =>
    split at h
    next =>
      cases h
      exact ⟨rfl, .stays rfl (fun _ => rfl)⟩
    next identity delimiter payload rest hinput =>
      cases h
      exact ⟨rfl, .takes hinput hpc rfl⟩
    next => cases h
  next identity payload hpc =>
    have haway : s'.running = s.running → s'.input = s.input →
        s'.running = s.running ∧ AtSocket s s' :=
      fun hrunning hinput => ⟨hrunning, .away hpc (by simp) hinput⟩
    have hhandle := Option.some.inj h
    unfold EngineServer.handle at hhandle
    split at hhandle
    next =>
      cases hhandle
      exact haway rfl rfl
    next =>
      split at hhandle
      next =>
        unfold EngineServer.handleRequest at hhandle
        split at hhandle
        next =>
          cases hhandle
          exact haway rfl rfl
        next => split at hhandle <;> cases hhandle <;> exact haway rfl rfl
      next =>
        split at hhandle
        · split at hhandle <;> cases hhandle <;> exact haway rfl rfl
        · split at hhandle
          · split at hhandle <;> cases hhandle <;> exact haway rfl rfl
          · cases hhandle
            exact haway rfl rfl
  next hpc =>
    cases h
    exact ⟨rfl, .away hpc (by simp) rfl⟩
  next hpc =>
    have hdrain := Option.some.inj h
    unfold EngineServer.drainOne at hdrain
    split at hdrain
    next =>
      cases hdrain
      exact ⟨rfl, .away hpc (by decide) rfl⟩
    next =>
      dsimp only at hdrain
      split at hdrain <;> cases hdrain <;> exact ⟨rfl, .away hpc (by decide) rfl⟩
  next => cases h
  next => cases h

/-- `recv` waits for a frame that is not there. -/
def EngineServer.Blocked (s : EngineServer) : Prop :=
  s.pc = .poll ∧ (s.input.length = 1 ∨ s.input.length = 2)

/-- **The I/O thread goes on**, unless it is at its end or waits in `recv`. -/
theorem ioStep_enabled (h : s.ioStep answer uninitialised = none) :
    s.pc = .returned ∨ s.pc = .undefinedRead ∨ s.Blocked := by
  unfold EngineServer.ioStep at h
  split at h
  next => split at h <;> cases h
  next hpc =>
    split at h
    next => cases h
    next => cases h
    next hempty hthree =>
      refine .inr (.inr ⟨hpc, ?_⟩)
      match hinput : s.input with
      | [] => exact absurd hinput hempty
      | [_] => exact .inl rfl
      | [_, _] => exact .inr rfl
      | identity :: delimiter :: payload :: rest => exact absurd hinput (hthree _ _ _ _)
  next => cases h
  next => cases h
  next => cases h
  next hpc => exact .inl hpc
  next hpc => exact .inr (.inl hpc)

end Steps

/-! ## §3. Both threads. -/

namespace Process

/-- The steps of the I/O thread. -/
def Action.ofIoThread : Action → Bool
  | .io _ _ => true
  | _ => false

/-- The steps of the engine thread. -/
def Action.ofEngineThread : Action → Bool
  | .engine _ _ => true
  | _ => false

/-- Both flags are set for the threads to stop. -/
structure Stopped (p : Process) : Prop where
  server : p.running = false
  engine : p.engine.running = false

section Steps

variable {p p' : Process} {a : Action} {es : List Event}

theorem step_io {answer : Bytes} {uninitialised : Uuid}
    (h : step p (.io answer uninitialised) = some (p', es)) :
    ∃ ios, p.server.ioStep answer uninitialised = some (p'.server, ios) ∧
      p'.engine.pc = p.engine.pc ∧ p'.engine.running = p.engine.running := by
  obtain ⟨⟨s', ios⟩, hio, heq⟩ := Option.map_eq_some_iff.mp h
  cases heq
  refine ⟨ios, ?_, rfl, rfl⟩
  show _ = some ((p.update s').server, ios)
  rw [server_update (ioStep_atQueues hio).working]
  exact hio

theorem step_call {b : Ledger.Action} (h : step p (.call b) = some (p', es)) :
    ∃ ees, b.isCall = true ∧ Ledger.step p.engine b = some (p'.engine, ees) ∧
      p'.ioPc = p.ioPc ∧ p'.running = p.running := by
  change (if b.isCall = true then _ else none) = some (p', es) at h
  split at h
  next hcall =>
    obtain ⟨⟨e', ees⟩, he, heq⟩ := Option.map_eq_some_iff.mp h
    cases heq
    exact ⟨ees, hcall, he, rfl, rfl⟩
  next => cases h

theorem step_engineThread {now : Int64} {os : Wal.OsReply}
    (h : step p (.engine now os) = some (p', es)) :
    ∃ ees, p.engine.engineStep now os = some (p'.engine, ees) ∧
      p'.ioPc = p.ioPc ∧ p'.running = p.running := by
  obtain ⟨⟨e', ees⟩, he, heq⟩ := Option.map_eq_some_iff.mp h
  cases heq
  exact ⟨ees, he, rfl, rfl⟩

/-- The server's flag stays set. -/
theorem step_running (hserver : p.running = false) (h : step p a = some (p', es)) :
    p'.running = false := by
  cases a with
  | io answer uninitialised =>
      obtain ⟨ios, hio, -, -⟩ := step_io h
      have hflag : p'.server.running = p.server.running := (ioStep_atSocket hio).1
      exact Eq.trans hflag hserver
  | engine now os =>
      obtain ⟨ees, -, -, hrunning⟩ := step_engineThread h
      exact hrunning.trans hserver
  | call b =>
      obtain ⟨ees, -, -, -, hrunning⟩ := step_call h
      exact hrunning.trans hserver
  | arrive frames =>
      cases h
      exact hserver
  | stop =>
      cases h
      rfl

/-- **The flags stay set.** -/
theorem Stopped.step (h : Stopped p) (hstep : step p a = some (p', es)) : Stopped p' := by
  refine ⟨step_running h.server hstep, ?_⟩
  have hengine := h.engine
  cases a with
  | io answer uninitialised =>
      obtain ⟨ios, -, -, hrunning⟩ := step_io hstep
      exact hrunning.trans hengine
  | engine now os =>
      obtain ⟨ees, he, -, -⟩ := step_engineThread hstep
      exact (engineStep_left he (fun _ => hengine)).2.trans hengine
  | call b =>
      obtain ⟨ees, hcall, he, -, -⟩ := step_call hstep
      exact (call_stays hcall he).2 hengine
  | arrive frames | stop =>
      cases hstep
      exact hengine

/-- Whoever moves, the I/O thread excepted, puts nothing in flight. -/
theorem underway_others (hother : a.ofIoThread = false) (h : step p a = some (p', es)) :
    p'.server.left ≤ p.server.left := by
  have hmono : ∀ {m n : Nat} {pc : IoPc}, m ≤ n → pc.left m ≤ pc.left n := by
    intro m n pc hmn
    cases pc <;> simp only [IoPc.left] <;> omega
  have hmember : ∀ b ees, b.atQueues = false → Ledger.step p.engine b = some (p'.engine, ees) →
      p'.ioPc = p.ioPc → p'.server.left ≤ p.server.left := by
    intro b ees hb he hpc
    have hbalance := (step_queueEffect he).balance
    rw [(step_own he hb).1, List.length_nil] at hbalance
    show p'.ioPc.left (underway p'.engine) ≤ p.ioPc.left (underway p.engine)
    rw [hpc]
    exact hmono (by omega)
  cases a with
  | io answer uninitialised => cases hother
  | engine now os =>
      obtain ⟨ees, he, hpc, -⟩ := step_engineThread h
      exact hmember (.engine now os) ees rfl he hpc
  | call b =>
      obtain ⟨ees, hcall, he, hpc, -⟩ := step_call h
      refine hmember b ees ?_ he hpc
      cases b <;> first | rfl | cases hcall
  | arrive frames | stop =>
      cases h
      exact Nat.le_refl _

theorem pc_others (hother : a.ofEngineThread = false) (h : step p a = some (p', es)) :
    p'.engine.pc = p.engine.pc := by
  cases a with
  | engine now os => cases hother
  | io answer uninitialised =>
      obtain ⟨ios, -, hpc, -⟩ := step_io h
      exact hpc
  | call b =>
      obtain ⟨ees, hcall, he, -, -⟩ := step_call h
      exact (call_stays hcall he).1
  | arrive frames | stop =>
      cases h
      rfl

end Steps

/-- Messages come as a whole: identity, delimiter and payload. -/
def Whole (acts : List Action) : Prop :=
  ∀ frames, .arrive frames ∈ acts → frames.length % 3 = 0

theorem input_step {p p' : Process} {a : Action} {es : List Event}
    (hwhole : ∀ frames, a = .arrive frames → frames.length % 3 = 0)
    (hp : p.input.length % 3 = 0) (h : step p a = some (p', es)) : p'.input.length % 3 = 0 := by
  cases a with
  | io answer uninitialised =>
      obtain ⟨ios, hio, -, -⟩ := step_io h
      cases (ioStep_atSocket hio).2 with
      | stays hsame _ =>
          have hinput : p'.input = p.input := hsame
          rw [hinput]
          exact hp
      | takes htaken _ _ =>
          have hthree : p.input.length = p'.input.length + 3 := congrArg List.length htaken
          omega
  | engine now os =>
      obtain ⟨r, -, heq⟩ := Option.map_eq_some_iff.mp h
      cases heq
      exact hp
  | call b =>
      change (if b.isCall = true then _ else none) = some (p', es) at h
      split at h
      next =>
        obtain ⟨r, -, heq⟩ := Option.map_eq_some_iff.mp h
        cases heq
        exact hp
      next => cases h
  | arrive frames =>
      cases h
      have hthree := hwhole frames rfl
      show (p.input ++ frames).length % 3 = 0
      rw [List.length_append]
      omega
  | stop =>
      cases h
      exact hp

theorem run_input {wal : Wal.WriteAheadLog} {acts : List Action} {t : Traced Process Event}
    (hwhole : Whole acts) (h : runProcess wal acts = some t) : t.state.input.length % 3 = 0 := by
  have hstart : ([] : List Bytes).length % 3 = 0 := rfl
  refine run_invariant_of (fun u : Traced Process Event => u.state.input.length % 3 = 0) ?_
    hstart h
  intro a ha u u' hu hstep
  obtain ⟨es, hes, -⟩ := traced_eq_some.mp hstep
  exact input_step (fun frames hframes => hwhole frames (hframes ▸ ha)) hu hes

/-- Both queues full, and one request in hand. -/
theorem left_le (p : Process) : p.server.left ≤ 2053 := by
  have hrequests := p.engine.requestQueue.bound
  have hreplies := p.engine.replyQueue.bound
  have hhand : p.engine.pc.inHand.length ≤ 1 := by
    cases p.engine.pc <;> simp [Pc.inHand]
  have hunderway : underway p.engine ≤ 2047 := by
    unfold underway
    unfold queueCapacity at hrequests hreplies
    omega
  show p.ioPc.left (underway p.engine) ≤ 2053
  cases p.ioPc <;> simp only [IoPc.left] <;> omega

/-- The I/O thread counts down, while it does not go around the loop. -/
theorem io_countsDown {u : Traced Process Event} {acts : List Action}
    (hflag : ∀ s a s', Takes (traced step) u acts s a s' → a.ofIoThread = true →
      s.state.ioPc = .loadRunning → s.state.running = false) :
    Rank.CountsDown (traced step) Action.ofIoThread
      (fun s : Traced Process Event => s.state.server.left) u acts := by
  refine ⟨?_, ?_⟩
  · intro s a s' htakes hown
    obtain ⟨es, hes, -⟩ := htakes.shows
    cases a with
    | io answer uninitialised =>
        obtain ⟨ios, hio, -, -⟩ := step_io hes
        exact ioStep_left hio (hflag s _ s' htakes hown)
    | engine | call | arrive | stop => cases hown
  · intro s a s' htakes hother
    obtain ⟨es, hes, -⟩ := htakes.shows
    exact underway_others hother hes

theorem engine_countsDown {u : Traced Process Event} {acts : List Action}
    (hflag : ∀ s a s', Takes (traced step) u acts s a s' → a.ofEngineThread = true →
      s.state.engine.pc = .loadRunning → s.state.engine.running = false) :
    Rank.CountsDown (traced step) Action.ofEngineThread
      (fun s : Traced Process Event => s.state.engine.pc.left) u acts := by
  refine ⟨?_, ?_⟩
  · intro s a s' htakes hown
    obtain ⟨es, hes, -⟩ := htakes.shows
    cases a with
    | engine now os =>
        obtain ⟨ees, he, -, -⟩ := step_engineThread hes
        exact (engineStep_left he (hflag s _ s' htakes hown)).1
    | io | call | arrive | stop => cases hown
  · intro s a s' htakes hother
    obtain ⟨es, hes, -⟩ := htakes.shows
    rw [pc_others hother hes]

/-- The two calls of `stop()` set the flags, whatever happens between them. -/
theorem stopped_of_calls {wal : Wal.WriteAheadLog} {before between : List Action}
    {u : Traced Process Event}
    (h : runProcess wal (before ++ .stop :: between ++ [.call .shutdown]) = some u) :
    Stopped u.state := by
  rw [runProcess, run_snoc, run_append] at h
  obtain ⟨m, hm, hshutdown⟩ := Option.bind_eq_some_iff.mp h
  obtain ⟨v, -, hrest⟩ := Option.bind_eq_some_iff.mp hm
  obtain ⟨w, hw, hbetween⟩ := Option.bind_eq_some_iff.mp hrest
  have hserver : m.state.running = false := by
    refine run_invariant (fun s : Traced Process Event => s.state.running = false) ?_ ?_ hbetween
    · intro a s s' hs hstep
      obtain ⟨es, hes, -⟩ := traced_eq_some.mp hstep
      exact step_running hs hes
    · obtain ⟨es, hes, -⟩ := traced_eq_some.mp hw
      have hset := (Prod.mk.inj (Option.some.inj hes)).1
      rw [← hset]
  obtain ⟨es, hes, -⟩ := traced_eq_some.mp hshutdown
  obtain ⟨ees, -, he, -, hrunning⟩ := step_call hes
  refine ⟨hrunning.trans hserver, ?_⟩
  have hset := (Prod.mk.inj (Option.some.inj he)).1
  rw [← hset]

/-- **THE I/O THREAD COMES BACK TO ITS FLAG.**  However the engine answers
meanwhile, and whatever arrives, a run that never takes the I/O thread around
its loop gives it at most 2053 steps. -/
theorem io_iteration_bounded {u t : Traced Process Event} {acts : List Action}
    (h : run (traced step) u acts = some t)
    (hflag : ∀ s a s', Takes (traced step) u acts s a s' → a.ofIoThread = true →
      s.state.ioPc ≠ .loadRunning) :
    acts.countP Action.ofIoThread ≤ 2053 := by
  have hcount := Rank.own_steps_le
    (io_countsDown (fun s a s' htakes hown hpc => absurd hpc (hflag s a s' htakes hown))) h
  have hbound := left_le u.state
  omega

/-- One iteration that takes a request, while the engine looks for one. -/
def oneIteration : List Action :=
  [.io [] Uuid.zero, .engine 1000 Wal.OsReply.ok, .io [] Uuid.zero, .io [] Uuid.zero,
    .engine 1000 Wal.OsReply.ok, .io [] Uuid.zero]

/-- It is within the bound. -/
theorem oneIteration_bounded :
    ∃ u t, runProcess newLog [.arrive [[7], [], smallRequest], .io [] Uuid.zero] = some u ∧
      run (traced step) u oneIteration = some t ∧ oneIteration.countP Action.ofIoThread ≤ 2053 := by
  let off : Traced Process Event → Action → Bool :=
    fun s a => !a.ofIoThread || decide (s.state.ioPc ≠ .loadRunning)
  have hrun : (runProcess newLog [.arrive [[7], [], smallRequest], .io [] Uuid.zero]).map
      (fun u => ((run (traced step) u oneIteration).isSome,
        checked (traced step) off u oneIteration)) = some (true, true) := by
    decide +kernel
  obtain ⟨u, hu, heq⟩ := Option.map_eq_some_iff.mp hrun
  simp only [Prod.mk.injEq] at heq
  obtain ⟨hsome, hok⟩ := heq
  obtain ⟨t, ht⟩ := Option.isSome_iff_exists.mp hsome
  refine ⟨u, t, hu, ht, io_iteration_bounded ht ?_⟩
  intro s a s' htakes hown hpc
  have hoff := htakes.checked hok
  simp [off, hown, hpc] at hoff

/-- **STOP RETURNS.**  After `stop()` the I/O thread takes at most 2053 steps more
and the engine thread at most 13, however they and the clients are scheduled;
and as long as either is not at its end, it can take its next one. -/
theorem stop_terminates {wal : Wal.WriteAheadLog} {before between after : List Action}
    {t : Traced Process Event}
    (h : runProcess wal (before ++ .stop :: between ++ .call .shutdown :: after) = some t)
    (hwhole : Whole (before ++ .stop :: between ++ .call .shutdown :: after)) :
    after.countP Action.ofIoThread ≤ 2053 ∧ after.countP Action.ofEngineThread ≤ 13 ∧
      (∀ answer uninitialised, step t.state (.io answer uninitialised) = none →
        t.state.ioPc = .returned ∨ t.state.ioPc = .undefinedRead) ∧
      ∀ now os, step t.state (.engine now os) = none →
        t.state.engine.pc = .returned ∨ ∃ req, t.state.engine.pc = .terminated req := by
  have hinput := run_input hwhole h
  have hsplit : before ++ .stop :: between ++ .call .shutdown :: after =
      (before ++ .stop :: between ++ [.call .shutdown]) ++ after := by
    simp
  rw [hsplit, runProcess, run_append] at h
  obtain ⟨u, hu, hafter⟩ := Option.bind_eq_some_iff.mp h
  -- both flags are set when the two calls have been made, and stay so
  have hstopped := stopped_of_calls hu
  have hstays : ∀ s, Visits (traced step) u after s → Stopped s.state := by
    intro s hvisit
    refine visits_of_takes (fun s : Traced Process Event => Stopped s.state) hstopped ?_ hvisit
    intro v a v' htakes hv
    obtain ⟨es, hes, -⟩ := htakes.shows
    exact hv.step hes
  have hio := Rank.own_steps_le
    (io_countsDown (fun s a s' htakes _ _ => (hstays s htakes.source).server)) hafter
  have hengine := Rank.own_steps_le
    (engine_countsDown (fun s a s' htakes _ _ => (hstays s htakes.source).engine)) hafter
  have hioBound := left_le u.state
  have hengineBound := u.state.engine.pc.left_le
  refine ⟨by omega, by omega, ?_, ?_⟩
  · intro answer uninitialised hnone
    rcases ioStep_enabled (Option.map_eq_none_iff.mp hnone) with hreturned | hread | ⟨-, hblocked⟩
    · exact .inl hreturned
    · exact .inr hread
    · have hframes : t.state.input.length = 1 ∨ t.state.input.length = 2 := hblocked
      omega
  · intro now os hnone
    exact engineStep_enabled (Option.map_eq_none_iff.mp hnone)

/-- Two requests are in flight when the server is stopped.  The first was taken
up and is answered. -/
def stopAmidTraffic : List Action :=
  [.arrive [[7], [], smallRequest, [8], [], smallRequest]] ++
    List.replicate 10 (.io [] Uuid.zero) ++ List.replicate 3 (.engine 1000 Wal.OsReply.ok) ++
    .stop :: [] ++ .call .shutdown ::
      (List.replicate 8 (.engine 1000 Wal.OsReply.ok) ++ List.replicate 1 (.io [] Uuid.zero))

/-- Both threads are at their end. -/
theorem stopAmidTraffic_ends :
    ∃ t, runProcess newLog stopAmidTraffic = some t ∧
      (t.state.ioPc = .returned ∨ t.state.ioPc = .undefinedRead) ∧
      (t.state.engine.pc = .returned ∨ ∃ req, t.state.engine.pc = .terminated req) := by
  have hrun : (runProcess newLog stopAmidTraffic).map (fun t =>
      ((step t.state (.io [] Uuid.zero)).isNone,
        (step t.state (.engine 1000 Wal.OsReply.ok)).isNone)) = some (true, true) := by
    decide +kernel
  obtain ⟨t, ht, heq⟩ := Option.map_eq_some_iff.mp hrun
  simp only [Prod.mk.injEq, Option.isNone_iff_eq_none] at heq
  obtain ⟨hio, hengine⟩ := heq
  have hwhole : Whole stopAmidTraffic := by
    intro frames hframes
    simp [stopAmidTraffic] at hframes
    rw [hframes]
    rfl
  obtain ⟨-, -, hioEnd, hengineEnd⟩ := stop_terminates ht hwhole
  exact ⟨t, ht, hioEnd _ _ hio, hengineEnd _ _ hengine⟩

end Process

end ZeroLGR.Server
