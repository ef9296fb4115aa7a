/-
  ZeroLGR.Gateway.Benchmark — what the benchmark measures.

  `POST /benchmark/start` makes workers, each of which sends one transfer after
  the other and collects the latencies of the answers.  They share the client
  with the routes, the sagas and the collector.  The accounts they name are never
  there, and the only answer to a transfer is that the queue is full.

    • `batches`, `Worker`, `Figures`, `Benchmarked`, `step` — the machine,
    • `Effect`, `step_effect` — everything a step can do,
    • `run_remote` — every run is one of the client and the server,
    • `turnedAway_of_returned`, `not_admitted` — what a transfer is told, and that
      one which was turned away is not in the queue,
    • `Tracked`, `run_tracked` — what the workers have asked and collected,
    • `benchmark_measures_nothing` — the statement for every run.
-/
import ZeroLGR.Gateway.Remote
import ZeroLGR.Ledger.Issued
import Mathlib.Algebra.Field.Rat

namespace ZeroLGR.Gateway

open Transition Ledger Server

/-! ## §1. The machine. -/

/-- What a worker sends, again and again. -/
def benchmarkTransfer : Transfer where
  debitAccountId := "acc_benchmark_source"
  creditAccountId := "acc_benchmark_dest"
  amountMinor := 1
  currency := "USD"
  description := "Benchmark TX"
  idempotencyKey := ""
  stripeChargeId := ""

/-- How many transfers each worker sends: a thousand, and the last one the rest.
`//` and `%` round down, so a negative count leaves a rest too. -/
def batches (txCount : Int) : List Nat :=
  List.replicate (txCount / 1000).toNat 1000 ++
    if txCount % 1000 = 0 then [] else [(txCount % 1000).toNat]

/-- Where a worker stands: at the head of its loop, or call number `i` of the
client is its `send_transaction`, or it is over. -/
inductive WorkerPc where
  | next
  | waits (i : Nat)
  | returned
  | raised
  deriving DecidableEq

/-- A worker, with the iterations that are left. -/
structure Worker where
  left : Nat
  latencies : List Int
  pc : WorkerPc
  deriving DecidableEq

def Worker.start (batch : Nat) : Worker := ⟨batch, [], .next⟩

def Worker.done (worker : Worker) : Bool :=
  match worker.pc with
  | .returned | .raised => true
  | _ => false

/-- What `gather` has of a worker: its list, or an exception, which is skipped. -/
def Worker.result (worker : Worker) : List Int :=
  match worker.pc with
  | .returned => worker.latencies
  | _ => []

/-- What is reported of the latencies.  `int(len * 0.99)` rounds down, and no value
at that place would be an `IndexError`. -/
structure Figures where
  avgLatencyUs : ℚ
  p99LatencyUs : Option Int
  deriving DecidableEq

def figures (latencies : List Int) : Figures :=
  if latencies = [] then ⟨0, some 0⟩
  else ⟨latencies.sum / latencies.length, latencies.mergeSort[latencies.length * 99 / 100]?⟩

inductive Status where
  | starting
  | running
  | completed (figures : Figures)
  deriving DecidableEq

/-- An entry of `benchmarks`, with the tasks of its run. -/
structure Benchmark where
  txCount : Int
  workers : List Worker
  status : Status
  deriving DecidableEq

/-- The gateway with its benchmarks, in the order they were asked for. -/
structure Benchmarked where
  remote : Remote
  benchmarks : List Benchmark

/-- Worker `w` of benchmark `b`. -/
def workerAt (benchmarks : List Benchmark) (b w : Nat) : Option Worker :=
  (benchmarks[b]?).bind (fun benchmark => benchmark.workers[w]?)

/-- It goes on. -/
def setWorker (benchmarks : List Benchmark) (b w : Nat) (worker : Worker) : List Benchmark :=
  benchmarks.modify b (fun benchmark =>
    { benchmark with workers := benchmark.workers.set w worker })

namespace Benchmarked

def started (wal : Wal.WriteAheadLog) : Benchmarked := ⟨.started wal, []⟩

/-- Who moves: anybody but the benchmarks, `POST /benchmark/start`, the task of a
benchmark, or a worker. -/
inductive Action where
  | remote (a : Remote.Action)
  | post (txCount : Int)
  | launch (b : Nat)
  | iterate (b w : Nat) (corrId : Uuid)
  | resume (b w : Nat)
  | finish (b : Nat)

/-- What a step shows: worker `w` of benchmark `b` makes call number `i` of the
client, and it collects what that call has returned. -/
inductive Event where
  | remote (e : Remote.Event)
  | calls (b w i : Nat)
  | timed (b w i : Nat) (result : TransactionResult)

/-- A step of the worker. -/
def work (s : Benchmarked) (b w : Nat) (f : Worker → Option (Remote × Worker × List Event)) :
    Option (Benchmarked × List Event) :=
  (workerAt s.benchmarks b w).bind (fun worker =>
    (f worker).map (fun m => (⟨m.1, setWorker s.benchmarks b w m.2.1⟩, m.2.2)))

/-- The head of the loop, up to the next `await`. -/
def iterate (gateway : Bytes) (r : Remote) (b w : Nat) (corrId : Uuid) (worker : Worker) :
    Option (Remote × Worker × List Event) :=
  match worker.pc, worker.left with
  | .next, 0 => some (r, { worker with pc := .returned }, [])
  | .next, left + 1 =>
      match benchmarkTransfer.message corrId with
      | .ok _ =>
          (r.step gateway (.ask (.sendTransaction benchmarkTransfer) corrId)).map (fun m =>
            (m.1, { worker with left := left, pc := .waits r.client.calls.length },
              m.2.map .remote ++ [.calls b w r.client.calls.length]))
      | .error _ => some (r, { worker with pc := .raised }, [])
  | _, _ => none

/-- `send_transaction` returns, or it raises. -/
def resume (r : Remote) (b w : Nat) (worker : Worker) : Option (Remote × Worker × List Event) :=
  match worker.pc with
  | .waits i =>
      (r.client.calls[i]?).bind (fun call =>
        match call.pc with
        | .returned msg =>
            match parseTransaction msg with
            | .ok result =>
                some (r,
                  { worker with latencies := worker.latencies ++ [result.latencyUs], pc := .next },
                  [.timed b w i result])
            | .error _ => some (r, { worker with pc := .raised }, [])
        | .raised => some (r, { worker with pc := .raised }, [])
        | _ => none)
  | _ => none

/-- The task has its tasks made, and waits for them. -/
def launch (s : Benchmarked) (b : Nat) : Option Benchmarked :=
  (s.benchmarks[b]?).bind (fun benchmark =>
    if benchmark.status = .starting then
      some { s with
        benchmarks := s.benchmarks.set b { benchmark with
          workers := (batches benchmark.txCount).map .start
          status := .running } }
    else none)

/-- `gather` returns when all of them are over. -/
def finish (s : Benchmarked) (b : Nat) : Option Benchmarked :=
  (s.benchmarks[b]?).bind (fun benchmark =>
    if benchmark.status = .running ∧ ∀ worker ∈ benchmark.workers, worker.done = true then
      some { s with
        benchmarks := s.benchmarks.set b { benchmark with
          status := .completed (figures (benchmark.workers.flatMap Worker.result)) } }
    else none)

/-- One step of anybody. -/
def step (gateway : Bytes) (s : Benchmarked) : Action → Option (Benchmarked × List Event)
  | .remote a =>
      (s.remote.step gateway a).map (fun m => ({ s with remote := m.1 }, m.2.map .remote))
  | .post txCount =>
      some ({ s with benchmarks := s.benchmarks ++ [⟨txCount, [], .starting⟩] }, [])
  | .launch b => (s.launch b).map (fun s' => (s', []))
  | .iterate b w corrId => s.work b w (iterate gateway s.remote b w corrId)
  | .resume b w => s.work b w (resume s.remote b w)
  | .finish b => (s.finish b).map (fun s' => (s', []))

/-- A run, from the startup on. -/
abbrev runBenchmarked (gateway : Bytes) (wal : Wal.WriteAheadLog) (acts : List Action) :
    Option (Traced Benchmarked Event) :=
  run (traced (step gateway)) ⟨.started wal, []⟩ acts

/-! ## §2. What a step can do. -/

/-- A worker is over: it returns behind its last iteration, or it raises. -/
def Ends (worker : Worker) (pc : WorkerPc) : Prop :=
  pc = .returned ∧ worker.pc = .next ∧ worker.left = 0 ∨
    pc = .raised ∧ (worker.pc = .next ∨ ∃ i, worker.pc = .waits i)

/-- **Everything a step can do.** -/
inductive Effect (gateway : Bytes) (s : Benchmarked) : Benchmarked → List Event → Prop
  | remote {a : Remote.Action} {r : Remote} {res : List Remote.Event} :
      s.remote.step gateway a = some (r, res) →
      Effect gateway s ⟨r, s.benchmarks⟩ (res.map .remote)
  | posts {txCount : Int} :
      Effect gateway s ⟨s.remote, s.benchmarks ++ [⟨txCount, [], .starting⟩]⟩ []
  | launches {b : Nat} {benchmark : Benchmark} : s.benchmarks[b]? = some benchmark →
      benchmark.status = .starting →
      Effect gateway s ⟨s.remote, s.benchmarks.set b { benchmark with
        workers := (batches benchmark.txCount).map .start
        status := .running }⟩ []
  | completes {b : Nat} {benchmark : Benchmark} : s.benchmarks[b]? = some benchmark →
      benchmark.status = .running → (∀ worker ∈ benchmark.workers, worker.done = true) →
      Effect gateway s ⟨s.remote, s.benchmarks.set b { benchmark with
        status := .completed (figures (benchmark.workers.flatMap Worker.result)) }⟩ []
  | ends {b w : Nat} {worker : Worker} {pc : WorkerPc} :
      workerAt s.benchmarks b w = some worker → Ends worker pc →
      Effect gateway s ⟨s.remote, setWorker s.benchmarks b w { worker with pc := pc }⟩ []
  | calls {b w left : Nat} {corrId : Uuid} {worker : Worker} {r : Remote}
      {res : List Remote.Event} : workerAt s.benchmarks b w = some worker → worker.pc = .next →
      worker.left = left + 1 →
      s.remote.step gateway (.ask (.sendTransaction benchmarkTransfer) corrId) = some (r, res) →
      Effect gateway s
        ⟨r, setWorker s.benchmarks b w
          { worker with left := left, pc := .waits s.remote.client.calls.length }⟩
        (res.map .remote ++ [.calls b w s.remote.client.calls.length])
  | times {b w i : Nat} {worker : Worker} {call : Call} {msg : Bytes}
      {result : TransactionResult} : workerAt s.benchmarks b w = some worker →
      worker.pc = .waits i → s.remote.client.calls[i]? = some call → call.pc = .returned msg →
      parseTransaction msg = .ok result →
      Effect gateway s
        ⟨s.remote, setWorker s.benchmarks b w
          { worker with latencies := worker.latencies ++ [result.latencyUs], pc := .next }⟩
        [.timed b w i result]

section Steps

variable {gateway : Bytes} {s s' : Benchmarked} {es : List Event}

/-- What a step of a worker is. -/
theorem work_inv {b w : Nat} {f : Worker → Option (Remote × Worker × List Event)}
    (h : s.work b w f = some (s', es)) :
    ∃ worker r worker', workerAt s.benchmarks b w = some worker ∧
      f worker = some (r, worker', es) ∧ s' = ⟨r, setWorker s.benchmarks b w worker'⟩ := by
  obtain ⟨worker, hworker, h⟩ := Option.bind_eq_some_iff.mp h
  obtain ⟨⟨r, worker', es'⟩, hf, heq⟩ := Option.map_eq_some_iff.mp h
  cases heq
  exact ⟨worker, r, worker', hworker, hf, rfl⟩

theorem iterate_effect {b w : Nat} {corrId : Uuid}
    (h : s.work b w (iterate gateway s.remote b w corrId) = some (s', es)) :
    Effect gateway s s' es := by
  obtain ⟨worker, r, worker', hworker, hf, rfl⟩ := work_inv h
  unfold iterate at hf
  split at hf
  next hpc hleft =>
    cases hf
    exact .ends hworker (.inl ⟨rfl, hpc, hleft⟩)
  next left hpc hleft =>
    split at hf
    next =>
      obtain ⟨⟨r', res⟩, hstep, heq⟩ := Option.map_eq_some_iff.mp hf
      cases heq
      exact .calls hworker hpc hleft hstep
    next =>
      cases hf
      exact .ends hworker (.inr ⟨rfl, .inl hpc⟩)
  next => cases hf

theorem resume_effect {b w : Nat} (h : s.work b w (resume s.remote b w) = some (s', es)) :
    Effect gateway s s' es := by
  obtain ⟨worker, r, worker', hworker, hf, rfl⟩ := work_inv h
  unfold resume at hf
  split at hf
  next i hpc =>
    obtain ⟨call, hcall, hf⟩ := Option.bind_eq_some_iff.mp hf
    split at hf
    next msg hreturned =>
      split at hf
      next result hparse =>
        cases hf
        exact .times hworker hpc hcall hreturned hparse
      next =>
        cases hf
        exact .ends hworker (.inr ⟨rfl, .inr ⟨i, hpc⟩⟩)
    next =>
      cases hf
      exact .ends hworker (.inr ⟨rfl, .inr ⟨i, hpc⟩⟩)
    next => cases hf
  next => cases hf

/-- **Every step is one of these.** -/
theorem step_effect {a : Action} (h : step gateway s a = some (s', es)) :
    Effect gateway s s' es := by
  cases a with
  | remote a =>
      obtain ⟨⟨r, res⟩, hstep, heq⟩ := Option.map_eq_some_iff.mp h
      cases heq
      exact .remote hstep
  | post txCount =>
      cases h
      exact .posts
  | launch b =>
      obtain ⟨u, hlaunch, heq⟩ := Option.map_eq_some_iff.mp h
      cases heq
      obtain ⟨benchmark, hb, hlaunch⟩ := Option.bind_eq_some_iff.mp hlaunch
      split at hlaunch
      next hstarting =>
        cases hlaunch
        exact .launches hb hstarting
      next => cases hlaunch
  | iterate b w corrId => exact iterate_effect h
  | resume b w => exact resume_effect h
  | finish b =>
      obtain ⟨u, hfinish, heq⟩ := Option.map_eq_some_iff.mp h
      cases heq
      obtain ⟨benchmark, hb, hfinish⟩ := Option.bind_eq_some_iff.mp hfinish
      split at hfinish
      next hover =>
        cases hfinish
        exact .completes hb hover.1 hover.2
      next => cases hfinish

end Steps

/-! ## §3. As a run of the client and the server. -/

/-- What is seen of them. -/
def Event.asRemote : Event → Option Remote.Event
  | .remote e => some e
  | .calls _ _ _ => none
  | .timed _ _ _ _ => none

def remoteTrace (tr : List Event) : List Remote.Event := tr.filterMap Event.asRemote

/-- The record of the engine. -/
def ledgerTrace (tr : List Event) : List Ledger.Event :=
  Process.engineTrace (Serving.processTrace (Remote.serverTrace (remoteTrace tr)))

theorem remoteTrace_append (tr es : List Event) :
    remoteTrace (tr ++ es) = remoteTrace tr ++ remoteTrace es := List.filterMap_append

theorem remoteTrace_remote (res : List Remote.Event) : remoteTrace (res.map .remote) = res := by
  unfold remoteTrace
  rw [List.filterMap_map]
  exact List.filterMap_some

/-- **Each step is a step of them, or none to them.** -/
theorem Effect.remoteStep {gateway : Bytes} {s s' : Benchmarked} {es : List Event}
    (h : Effect gateway s s' es) :
    (s'.remote = s.remote ∧ remoteTrace es = []) ∨
      ∃ a, s.remote.step gateway a = some (s'.remote, remoteTrace es) := by
  cases h with
  | remote hstep =>
      rw [remoteTrace_remote]
      exact .inr ⟨_, hstep⟩
  | calls hworker hpc hleft hstep =>
      have hlast : ∀ b w i, remoteTrace [.calls b w i] = [] := fun _ _ _ => rfl
      rw [remoteTrace_append, remoteTrace_remote, hlast, List.append_nil]
      exact .inr ⟨_, hstep⟩
  | posts | launches | completes | ends | times => exact .inl ⟨rfl, rfl⟩

section Runs

variable {gateway : Bytes} {wal : Wal.WriteAheadLog} {acts : List Action}
  {t : Traced Benchmarked Event}

/-- **Every run is a run of the client and the server.** -/
theorem run_remote (h : runBenchmarked gateway wal acts = some t) :
    ∃ bs, Remote.runRemote gateway wal bs = some ⟨t.state.remote, remoteTrace t.trace⟩ := by
  obtain ⟨-, hrun⟩ := run_maps Benchmarked.remote Event.asRemote (fun _ _ => True)
    (fun _ _ _ _ _ _ _ => trivial)
    (fun _ _ _ _ _ _ hstep => (step_effect hstep).remoteStep) trivial h
  exact hrun

/-- And so one of the engine. -/
theorem run_ledger (h : runBenchmarked gateway wal acts = some t) :
    ∃ bs, runEngine (.init wal) bs =
      some ⟨t.state.remote.serving.process.engine, ledgerTrace t.trace⟩ := by
  obtain ⟨as, hremote⟩ := run_remote h
  obtain ⟨bs, hserving⟩ := Remote.run_serving hremote
  obtain ⟨cs, hprocess⟩ := Serving.run_process hserving
  exact Process.run_engine hprocess

end Runs

/-! ## §4. What a transfer is told. -/

/-- The server has told call number `i` that the queue is full. -/
def TurnedAway (gateway : Bytes) (r : Remote) (tr : List Remote.Event) (i : Nat) : Prop :=
  ∃ q uninitialised, r.asked[i]? = some q ∧
    (gateway, serializeResponse (queueFullResponse q.corrId uninitialised)) ∈
      Serving.sent (Remote.serverTrace tr)

/-- The transfer of call number `i` has got into the queue. -/
def Admitted (gateway : Bytes) (r : Remote) (tr : List Remote.Event) (i : Nat) : Prop :=
  ∃ q req, r.asked[i]? = some q ∧
    .accepted gateway req ∈ Serving.lines (Remote.serverTrace tr) ∧ req.correlationId = q.corrId

/-- The message is plain text, so the answer can be read. -/
theorem queueFull_text (correlationId uninitialised : Uuid) :
    Text (queueFullResponse correlationId uninitialised).message := by
  show Text (ascii "Engine queue full")
  exact ⟨by decide +kernel, "Engine queue full", by decide +kernel⟩

/-- The engine has measured nothing for it. -/
theorem latency_of_queueFull {correlationId uninitialised : Uuid} {result : TransactionResult}
    (h : parseTransaction (serializeResponse (queueFullResponse correlationId uninitialised)) =
      .ok result) : result.latencyUs = 0 := by
  obtain ⟨result', hparse, hshows⟩ :=
    parseTransaction_serialize (queueFull_text correlationId uninitialised)
  rw [hparse] at h
  cases h
  rw [hshows.latencyUs]
  rfl

section Answers

variable {gateway : Bytes} {wal : Wal.WriteAheadLog} {acts : List Remote.Action}
  {t : Traced Remote Remote.Event} {i : Nat}

/-- **A transfer that is answered was turned away.** -/
theorem turnedAway_of_returned (h : Remote.runRemote gateway wal acts = some t) {call : Call}
    {msg : Bytes} {result : TransactionResult} (hcall : t.state.client.calls[i]? = some call)
    (hpc : call.pc = .returned msg) (hparse : parseTransaction msg = .ok result) :
    result.latencyUs = 0 ∧ TurnedAway gateway t.state t.trace i := by
  obtain ⟨q, hq, ⟨b, hexchange, hreceived, hsent, hlines⟩, -, -⟩ := Remote.run_returned h hcall hpc
  have hread := Remote.readCorrelationId_message
    ((Remote.run_accounted h).written q (List.mem_of_getElem? hq))
  have hout : (gateway, msg) ∈ Serving.sent (Remote.serverTrace t.trace) :=
    List.mem_filterMap.mpr ⟨_, hlines _ hsent, rfl⟩
  obtain ⟨payload, req, uninitialised, hrequest, rfl, rfl⟩ :=
    hexchange.refused_of_head hsent (Deployment.head_of_parse hparse)
  simp only [List.mem_cons, reduceCtorEq, List.not_mem_nil, or_false] at hreceived
  cases hreceived
  rw [(deserializeRequest_inv hrequest).1, Option.some.injEq] at hread
  refine ⟨latency_of_queueFull hparse, q, uninitialised, hq, ?_⟩
  rw [← hread]
  exact hout

/-- The messages of the calls are told apart by their ids. -/
theorem message_of_id {r : Remote} {tr : List Remote.Event} (h : Remote.Accounted gateway r tr)
    {q : Asked} (hq : q ∈ r.asked) {payload : Bytes}
    (hpayload : (gateway, payload) ∈ Serving.received (Remote.serverTrace tr))
    (hread : readCorrelationId payload = some q.corrId) : payload = q.message := by
  obtain ⟨q', hq', rfl⟩ := h.ours (List.mem_filterMap.mpr ⟨_, hpayload, if_pos rfl⟩)
  rw [Remote.readCorrelationId_message (h.written q' hq'), Option.some.injEq] at hread
  rw [List.inj_on_of_nodup_map h.distinct hq' hq hread]

/-- An exchange in which a transfer is turned away. -/
theorem exchange_refused {e : LedgerEngine} {b : List Serving.Line} (h : Serving.Exchange e b)
    {identity : Bytes} {corrId uninitialised : Uuid}
    (hsent : .sent identity (serializeResponse (queueFullResponse corrId uninitialised)) ∈ b) :
    ∃ payload message, readCorrelationId payload = some corrId ∧
      b = [.received identity payload, .sent identity message] := by
  obtain ⟨payload, req, uninitialised', hrequest, heq, rfl⟩ := h.refused_of_head hsent rfl
  have hkey := congrArg receiverKey heq
  rw [receiverKey_serialize, receiverKey_serialize, Option.some.injEq] at hkey
  have hid : corrId = req.correlationId := Uuid.ext hkey
  rw [hid]
  exact ⟨payload, _, (deserializeRequest_inv hrequest).1, rfl⟩

/-- An exchange in which a transfer is taken. -/
theorem exchange_accepted {e : LedgerEngine} {b : List Serving.Line} (h : Serving.Exchange e b)
    {identity : Bytes} {req : TransactionRequest} (haccepted : .accepted identity req ∈ b) :
    ∃ payload, readCorrelationId payload = some req.correlationId ∧
      b = [.received identity payload, .accepted identity req] := by
  cases h with
  | accepted hhead hrequest =>
      simp only [List.mem_cons, reduceCtorEq, List.not_mem_nil, or_false, false_or] at haccepted
      cases haccepted
      exact ⟨_, (deserializeRequest_inv hrequest).1, rfl⟩
  | refused | ignored | created | sampled | snapshot => simp at haccepted

/-- **And what was turned away is not in the queue**: its message was received
once. -/
theorem not_admitted (h : Remote.runRemote gateway wal acts = some t)
    (haway : TurnedAway gateway t.state t.trace i) : ¬ Admitted gateway t.state t.trace i := by
  rintro ⟨q, req, hq, haccepted, hid⟩
  obtain ⟨q', uninitialised, hq', hsent⟩ := haway
  rw [hq, Option.some.injEq] at hq'
  subst hq'
  have hA := Remote.run_accounted h
  obtain ⟨bs, hserving⟩ := Remote.run_serving h
  obtain ⟨blocks, rest, hlines, hblocks, hquiet, hnone⟩ := Serving.run_exchanges hserving
  -- both are in finished exchanges
  obtain ⟨b, hb, hbin⟩ : ∃ b ∈ blocks,
      .sent gateway (serializeResponse (queueFullResponse q.corrId uninitialised)) ∈ b := by
    unfold Serving.sent at hsent
    rw [hlines, List.filterMap_append, hquiet, List.append_nil, List.mem_filterMap] at hsent
    obtain ⟨line, hline, hasSent⟩ := hsent
    cases line with
    | sent identity message =>
        cases hasSent
        exact List.mem_flatten.mp hline
    | received | accepted | created | sampled | snapshot => cases hasSent
  obtain ⟨c, hc, hcin⟩ : ∃ c ∈ blocks, .accepted gateway req ∈ c := by
    rw [hlines] at haccepted
    rcases List.mem_append.mp haccepted with hfinished | hopen
    · exact List.mem_flatten.mp hfinished
    · exact absurd hopen (hnone _ _)
  obtain ⟨payload, message, hread, rfl⟩ := exchange_refused (hblocks b hb) hbin
  obtain ⟨payload', hread', rfl⟩ := exchange_accepted (hblocks c hc) hcin
  rw [hid] at hread'
  -- which are about one message
  have hmessage : ∀ {block : List Serving.Line} {payload : Bytes}, block ∈ blocks →
      .received gateway payload ∈ block → readCorrelationId payload = some q.corrId →
      payload = q.message := by
    intro block payload hblock hmem hread
    refine message_of_id hA (List.mem_of_getElem? hq) ?_ hread
    refine List.mem_filterMap.mpr ⟨.received gateway payload, ?_, rfl⟩
    rw [hlines]
    exact List.mem_append_left _ (List.mem_flatten.mpr ⟨block, hblock, hmem⟩)
  obtain rfl := hmessage hb List.mem_cons_self hread
  obtain rfl := hmessage hc List.mem_cons_self hread'
  -- so they are one
  have honce := hA.once
  unfold Remote.fromGateway Serving.received at honce
  rw [List.filterMap_filterMap, hlines, List.filterMap_append] at honce
  have hsame := Dialogue.exchange_eq_of_asks (List.nodup_append.mp honce).1 hb hc
    (List.mem_filterMap.mpr ⟨.received gateway q.message, List.mem_cons_self, if_pos rfl⟩)
    (List.mem_filterMap.mpr ⟨.received gateway q.message, List.mem_cons_self, if_pos rfl⟩)
  cases hsame

end Answers

/-! ## §5. What the workers have asked and collected. -/

/-- The calls of a worker. -/
def Event.asCall (b w : Nat) : Event → Option Nat
  | .remote _ => none
  | .calls b' w' i => if b' = b ∧ w' = w then some i else none
  | .timed _ _ _ _ => none

/-- What a worker has collected. -/
def Event.asTimed (b w : Nat) : Event → Option (Nat × TransactionResult)
  | .remote _ => none
  | .calls _ _ _ => none
  | .timed b' w' i result => if b' = b ∧ w' = w then some (i, result) else none

def callsOf (b w : Nat) (tr : List Event) : List Nat := tr.filterMap (Event.asCall b w)

def timedOf (b w : Nat) (tr : List Event) : List (Nat × TransactionResult) :=
  tr.filterMap (Event.asTimed b w)

theorem callsOf_append (b w : Nat) (tr es : List Event) :
    callsOf b w (tr ++ es) = callsOf b w tr ++ callsOf b w es := List.filterMap_append

theorem timedOf_append (b w : Nat) (tr es : List Event) :
    timedOf b w (tr ++ es) = timedOf b w tr ++ timedOf b w es := List.filterMap_append

@[simp] theorem callsOf_remote (b w : Nat) (res : List Remote.Event) :
    callsOf b w (res.map .remote) = [] := by
  unfold callsOf
  rw [List.filterMap_map, List.filterMap_eq_nil_iff]
  intro e _
  rfl

@[simp] theorem timedOf_remote (b w : Nat) (res : List Remote.Event) :
    timedOf b w (res.map .remote) = [] := by
  unfold timedOf
  rw [List.filterMap_map, List.filterMap_eq_nil_iff]
  intro e _
  rfl

/-- The calls of a worker that have not been collected, by its place. -/
def Uncollected : WorkerPc → List Nat → Prop
  | .next, last => last = []
  | .waits i, last => last = [i]
  | .returned, last => last = []
  | .raised, last => last.length ≤ 1

/-- **The books of a worker.** -/
structure Books (worker : Worker) (batch : Nat) (calls : List Nat)
    (timed : List (Nat × TransactionResult)) : Prop where
  latencies : worker.latencies = timed.map (fun m => m.2.latencyUs)
  asked : ∃ last, calls = timed.map Prod.fst ++ last ∧ Uncollected worker.pc last
  left : worker.left + calls.length = batch
  returned : worker.pc = .returned → worker.left = 0

/-- The batch of a worker. -/
def batchAt (benchmarks : List Benchmark) (b w : Nat) : Option Nat :=
  (benchmarks[b]?).bind (fun benchmark => (batches benchmark.txCount)[w]?)

/-- **The books of all of them.** -/
structure Tracked (benchmarks : List Benchmark) (tr : List Event) : Prop where
  fresh : ∀ b w, workerAt benchmarks b w = none → callsOf b w tr = [] ∧ timedOf b w tr = []
  workers : ∀ b w worker, workerAt benchmarks b w = some worker →
    ∃ batch, batchAt benchmarks b w = some batch ∧
      Books worker batch (callsOf b w tr) (timedOf b w tr)
  starting : ∀ benchmark ∈ benchmarks, benchmark.status = .starting → benchmark.workers = []
  completed : ∀ benchmark ∈ benchmarks, ∀ rep, benchmark.status = .completed rep →
    (∀ worker ∈ benchmark.workers, worker.done = true) ∧
      rep = figures (benchmark.workers.flatMap Worker.result)

section Lists

variable {benchmarks : List Benchmark} {b w : Nat} {worker : Worker}

theorem workerAt_setWorker (h : workerAt benchmarks b w = some worker) (worker' : Worker)
    (b' w' : Nat) : workerAt (setWorker benchmarks b w worker') b' w' =
      if b' = b ∧ w' = w then some worker' else workerAt benchmarks b' w' := by
  obtain ⟨benchmark, hb, hw⟩ := Option.bind_eq_some_iff.mp h
  unfold workerAt setWorker
  rw [List.getElem?_modify]
  by_cases hbs : b = b'
  · subst hbs
    rw [hb]
    by_cases hws : w = w'
    · subst hws
      simp [(List.getElem?_eq_some_iff.mp hw).1]
    · simp [List.getElem?_set_ne hws, Ne.symm hws]
  · simp [hbs, Ne.symm hbs]

theorem batchAt_setWorker (worker' : Worker) (b' w' : Nat) :
    batchAt (setWorker benchmarks b w worker') b' w' = batchAt benchmarks b' w' := by
  unfold batchAt setWorker
  rw [List.getElem?_modify]
  cases benchmarks[b']? with
  | none => rfl
  | some benchmark =>
      by_cases hbs : b = b'
      · simp [hbs]
      · simp [hbs]

/-- Only one entry is another one. -/
theorem mem_setWorker {worker' : Worker} {benchmark' : Benchmark}
    (h : benchmark' ∈ setWorker benchmarks b w worker') : benchmark' ∈ benchmarks ∨
      ∃ benchmark, benchmarks[b]? = some benchmark ∧
        benchmark' = { benchmark with workers := benchmark.workers.set w worker' } := by
  obtain ⟨j, hj⟩ := List.mem_iff_getElem?.mp h
  unfold setWorker at hj
  rw [List.getElem?_modify] at hj
  obtain ⟨benchmark, hbenchmark, heq⟩ := Option.map_eq_some_iff.mp hj
  by_cases hbs : b = j
  · subst hbs
    rw [if_pos rfl] at heq
    exact .inr ⟨benchmark, hbenchmark, heq.symm⟩
  · rw [if_neg hbs] at heq
    exact .inl (heq ▸ List.mem_of_getElem? hbenchmark)

end Lists

section Tracking

variable {benchmarks : List Benchmark} {tr es : List Event}

/-- A step that makes no call and collects nothing, and leaves the workers. -/
theorem Tracked.keep (h : Tracked benchmarks tr) {benchmarks' : List Benchmark}
    (hcalls : ∀ b w, callsOf b w es = [] ∧ timedOf b w es = [])
    (hworkers : ∀ b w, workerAt benchmarks' b w = workerAt benchmarks b w)
    (hbatches : ∀ b w, workerAt benchmarks b w ≠ none →
      batchAt benchmarks' b w = batchAt benchmarks b w)
    (hentries : ∀ benchmark ∈ benchmarks', benchmark ∈ benchmarks ∨
      (benchmark.status = .starting → benchmark.workers = []) ∧
        ∀ rep, benchmark.status = .completed rep →
          (∀ worker ∈ benchmark.workers, worker.done = true) ∧
            rep = figures (benchmark.workers.flatMap Worker.result)) :
    Tracked benchmarks' (tr ++ es) := by
  have hsame : ∀ b w, callsOf b w (tr ++ es) = callsOf b w tr ∧
      timedOf b w (tr ++ es) = timedOf b w tr := by
    intro b w
    obtain ⟨hnone, hnone'⟩ := hcalls b w
    rw [callsOf_append, timedOf_append, hnone, hnone', List.append_nil, List.append_nil]
    exact ⟨rfl, rfl⟩
  refine ⟨?_, ?_, ?_, ?_⟩
  · intro b w hnone
    rw [hworkers] at hnone
    rw [(hsame b w).1, (hsame b w).2]
    exact h.fresh b w hnone
  · intro b w worker hworker
    rw [hworkers] at hworker
    obtain ⟨batch, hbatch, hbooks⟩ := h.workers b w worker hworker
    rw [(hsame b w).1, (hsame b w).2, hbatches b w (by rw [hworker]; simp)]
    exact ⟨batch, hbatch, hbooks⟩
  · intro benchmark hin
    rcases hentries benchmark hin with hold | hnew
    · exact h.starting benchmark hold
    · exact hnew.1
  · intro benchmark hin
    rcases hentries benchmark hin with hold | hnew
    · exact h.completed benchmark hold
    · exact hnew.2

/-- A step of one worker that is not over. -/
theorem Tracked.moves (h : Tracked benchmarks tr) {b w : Nat} {worker worker' : Worker}
    (hworker : workerAt benchmarks b w = some worker) (hbusy : worker.done = false)
    (hothers : ∀ b' w', ¬ (b' = b ∧ w' = w) → callsOf b' w' es = [] ∧ timedOf b' w' es = [])
    (hbooks : ∀ batch, Books worker batch (callsOf b w tr) (timedOf b w tr) →
      Books worker' batch (callsOf b w (tr ++ es)) (timedOf b w (tr ++ es))) :
    Tracked (setWorker benchmarks b w worker') (tr ++ es) := by
  have hsame : ∀ b' w', ¬ (b' = b ∧ w' = w) → callsOf b' w' (tr ++ es) = callsOf b' w' tr ∧
      timedOf b' w' (tr ++ es) = timedOf b' w' tr := by
    intro b' w' hne
    obtain ⟨hnone, hnone'⟩ := hothers b' w' hne
    rw [callsOf_append, timedOf_append, hnone, hnone', List.append_nil, List.append_nil]
    exact ⟨rfl, rfl⟩
  obtain ⟨benchmark, hb, hw⟩ := Option.bind_eq_some_iff.mp hworker
  have hin := List.mem_of_getElem? hb
  refine ⟨?_, ?_, ?_, ?_⟩
  · intro b' w' hnone
    rw [workerAt_setWorker hworker] at hnone
    split at hnone
    next => cases hnone
    next hne =>
      rw [(hsame b' w' hne).1, (hsame b' w' hne).2]
      exact h.fresh b' w' hnone
  · intro b' w' worker'' hworker'
    rw [workerAt_setWorker hworker] at hworker'
    rw [batchAt_setWorker]
    split at hworker'
    next heq =>
      obtain ⟨rfl, rfl⟩ := heq
      cases hworker'
      obtain ⟨batch, hbatch, hold⟩ := h.workers b' w' worker hworker
      exact ⟨batch, hbatch, hbooks batch hold⟩
    next hne =>
      rw [(hsame b' w' hne).1, (hsame b' w' hne).2]
      exact h.workers b' w' worker'' hworker'
  · intro entry hentry hstarting
    rcases mem_setWorker hentry with hold | ⟨old, hold, rfl⟩
    · exact h.starting entry hold hstarting
    · show old.workers.set w worker' = []
      rw [h.starting old (List.mem_of_getElem? hold) hstarting]
      rfl
  · intro entry hentry rep hcompleted
    rcases mem_setWorker hentry with hold | ⟨old, hold, rfl⟩
    · exact h.completed entry hold rep hcompleted
    · -- all of its workers are over, and this one is not
      rw [hb, Option.some.injEq] at hold
      subst hold
      have hdone := (h.completed benchmark hin rep hcompleted).1 worker (List.mem_of_getElem? hw)
      rw [hbusy] at hdone
      cases hdone

/-- The workers of a benchmark that has begun. -/
theorem workerAt_launch {b : Nat} {benchmark : Benchmark} (hb : benchmarks[b]? = some benchmark)
    (b' w' : Nat) :
    workerAt (benchmarks.set b { benchmark with
      workers := (batches benchmark.txCount).map .start
      status := .running }) b' w' =
      if b' = b then ((batches benchmark.txCount)[w']?).map .start
      else workerAt benchmarks b' w' := by
  unfold workerAt
  by_cases hbs : b = b'
  · subst hbs
    rw [List.getElem?_set_self (List.getElem?_eq_some_iff.mp hb).1, if_pos rfl]
    exact List.getElem?_map
  · rw [List.getElem?_set_ne hbs, if_neg (Ne.symm hbs)]

theorem Tracked.launches (h : Tracked benchmarks tr) {b : Nat} {benchmark : Benchmark}
    (hb : benchmarks[b]? = some benchmark) (hstarting : benchmark.status = .starting) :
    Tracked (benchmarks.set b { benchmark with
      workers := (batches benchmark.txCount).map .start
      status := .running }) tr := by
  have hnone : ∀ w, callsOf b w tr = [] ∧ timedOf b w tr = [] := by
    intro w
    refine h.fresh b w ?_
    show (benchmarks[b]?).bind _ = none
    rw [hb]
    show benchmark.workers[w]? = none
    rw [h.starting benchmark (List.mem_of_getElem? hb) hstarting]
    rfl
  refine ⟨?_, ?_, ?_, ?_⟩
  · intro b' w' hfresh
    rw [workerAt_launch hb] at hfresh
    split at hfresh
    next heq => exact heq ▸ hnone w'
    next => exact h.fresh b' w' hfresh
  · intro b' w' worker hworker
    rw [workerAt_launch hb] at hworker
    have hbatch : batchAt (benchmarks.set b { benchmark with
        workers := (batches benchmark.txCount).map .start
        status := .running }) b' w' = batchAt benchmarks b' w' := by
      unfold batchAt
      by_cases hbs : b = b'
      · subst hbs
        rw [List.getElem?_set_self (List.getElem?_eq_some_iff.mp hb).1, hb]
        rfl
      · rw [List.getElem?_set_ne hbs]
    rw [hbatch]
    split at hworker
    next heq =>
      subst heq
      obtain ⟨batch, hat, rfl⟩ := Option.map_eq_some_iff.mp hworker
      refine ⟨batch, ?_, ?_⟩
      · show (benchmarks[b']?).bind _ = _
        rw [hb]
        exact hat
      · rw [(hnone w').1, (hnone w').2]
        exact ⟨rfl, ⟨[], rfl, rfl⟩, rfl, fun hpc => by cases hpc⟩
    next => exact h.workers b' w' worker hworker
  · intro entry hentry hstarting'
    rcases List.mem_or_eq_of_mem_set hentry with hold | rfl
    · exact h.starting entry hold hstarting'
    · cases hstarting'
  · intro entry hentry rep hcompleted
    rcases List.mem_or_eq_of_mem_set hentry with hold | rfl
    · exact h.completed entry hold rep hcompleted
    · cases hcompleted

/-- A call is one of its worker, and nothing else is shown of the workers. -/
theorem callsOf_calls (b w i : Nat) (res : List Remote.Event) (b' w' : Nat) :
    callsOf b' w' (res.map .remote ++ [.calls b w i]) = if b = b' ∧ w = w' then [i] else [] := by
  rw [callsOf_append, callsOf_remote, List.nil_append]
  unfold callsOf
  rw [List.filterMap_cons, List.filterMap_nil]
  unfold Event.asCall
  split <;> simp_all

theorem timedOf_timed (b w i : Nat) (result : TransactionResult) (b' w' : Nat) :
    timedOf b' w' [.timed b w i result] = if b = b' ∧ w = w' then [(i, result)] else [] := by
  unfold timedOf
  rw [List.filterMap_cons, List.filterMap_nil]
  unfold Event.asTimed
  split <;> simp_all

theorem timedOf_calls (b w i : Nat) (res : List Remote.Event) (b' w' : Nat) :
    timedOf b' w' (res.map .remote ++ [.calls b w i]) = [] := by
  rw [timedOf_append, timedOf_remote]
  rfl

theorem callsOf_timed (b w i : Nat) (result : TransactionResult) (b' w' : Nat) :
    callsOf b' w' [.timed b w i result] = [] := rfl

/-- A new entry has no workers. -/
theorem workerAt_post (txCount : Int) (b w : Nat) :
    workerAt (benchmarks ++ [⟨txCount, [], .starting⟩]) b w = workerAt benchmarks b w := by
  unfold workerAt
  by_cases hb : b < benchmarks.length
  · rw [List.getElem?_append_left hb]
  · rw [List.getElem?_append_right (Nat.not_lt.mp hb), List.getElem?_eq_none (Nat.not_lt.mp hb)]
    cases b - benchmarks.length <;> rfl

/-- The status is none of a worker's business. -/
theorem workerAt_complete {b : Nat} {benchmark : Benchmark} (hb : benchmarks[b]? = some benchmark)
    (status : Status) (b' w' : Nat) :
    workerAt (benchmarks.set b { benchmark with status := status }) b' w' =
        workerAt benchmarks b' w' ∧
      batchAt (benchmarks.set b { benchmark with status := status }) b' w' =
        batchAt benchmarks b' w' := by
  unfold workerAt batchAt
  by_cases hbs : b = b'
  · subst hbs
    rw [List.getElem?_set_self (List.getElem?_eq_some_iff.mp hb).1, hb]
    exact ⟨rfl, rfl⟩
  · rw [List.getElem?_set_ne hbs]
    exact ⟨rfl, rfl⟩

theorem Ends.busy {worker : Worker} {pc : WorkerPc} (h : Ends worker pc) :
    worker.done = false := by
  unfold Worker.done
  rcases h with ⟨-, hpc, -⟩ | ⟨-, hpc | ⟨i, hpc⟩⟩
  all_goals rw [hpc]

/-- A worker is over. -/
theorem Books.ends {worker : Worker} {pc : WorkerPc} {batch : Nat} {calls : List Nat}
    {timed : List (Nat × TransactionResult)} (h : Books worker batch calls timed)
    (hends : Ends worker pc) : Books { worker with pc := pc } batch calls timed := by
  obtain ⟨last, hcalls, hlast⟩ := h.asked
  rcases hends with ⟨rfl, hpc, hleft⟩ | ⟨rfl, hpc | ⟨i, hpc⟩⟩
  all_goals rw [hpc] at hlast
  · exact ⟨h.latencies, ⟨last, hcalls, hlast⟩, h.left, fun _ => hleft⟩
  · refine ⟨h.latencies, ⟨last, hcalls, ?_⟩, h.left, fun heq => by cases heq⟩
    rw [show last = [] from hlast]
    exact Nat.zero_le 1
  · refine ⟨h.latencies, ⟨last, hcalls, ?_⟩, h.left, fun heq => by cases heq⟩
    rw [show last = [i] from hlast]
    exact Nat.le_refl 1

/-- A worker makes a call. -/
theorem Books.calls {worker : Worker} {batch left i : Nat} {calls : List Nat}
    {timed : List (Nat × TransactionResult)} (h : Books worker batch calls timed)
    (hpc : worker.pc = .next) (hleft : worker.left = left + 1) :
    Books { worker with left := left, pc := .waits i } batch (calls ++ [i]) timed := by
  obtain ⟨last, hcalls, hlast⟩ := h.asked
  rw [hpc] at hlast
  refine ⟨h.latencies, ⟨[i], ?_, rfl⟩, ?_, fun heq => by cases heq⟩
  · rw [hcalls, show last = [] from hlast, List.append_nil]
  · rw [← h.left, hleft, List.length_append, List.length_singleton]
    dsimp only
    omega

/-- A worker collects what its call has returned. -/
theorem Books.times {worker : Worker} {batch i : Nat} {calls : List Nat}
    {timed : List (Nat × TransactionResult)} {result : TransactionResult}
    (h : Books worker batch calls timed) (hpc : worker.pc = .waits i) :
    Books { worker with latencies := worker.latencies ++ [result.latencyUs], pc := .next } batch
      calls (timed ++ [(i, result)]) := by
  obtain ⟨last, hcalls, hlast⟩ := h.asked
  rw [hpc] at hlast
  refine ⟨?_, ⟨[], ?_, rfl⟩, h.left, fun heq => by cases heq⟩
  · rw [h.latencies, List.map_append]
    rfl
  · rw [hcalls, show last = [i] from hlast, List.map_append, List.append_nil]
    rfl

/-- **One step.** -/
theorem Tracked.step {gateway : Bytes} {s s' : Benchmarked} (h : Tracked s.benchmarks tr)
    (hstep : Effect gateway s s' es) : Tracked s'.benchmarks (tr ++ es) := by
  cases hstep with
  | remote hremote =>
      exact h.keep (fun b w => ⟨callsOf_remote b w _, timedOf_remote b w _⟩) (fun _ _ => rfl)
        (fun _ _ _ => rfl) (fun _ hin => .inl hin)
  | posts =>
      refine h.keep (fun _ _ => ⟨rfl, rfl⟩) (workerAt_post _) ?_ ?_
      · intro b w hsome
        have hb : b < s.benchmarks.length := by
          by_contra hb
          refine hsome ?_
          unfold workerAt
          rw [List.getElem?_eq_none (Nat.not_lt.mp hb)]
          rfl
        unfold batchAt
        rw [List.getElem?_append_left hb]
      · intro benchmark hin
        rcases List.mem_append.mp hin with hold | hnew
        · exact .inl hold
        · rw [List.mem_singleton.mp hnew]
          exact .inr ⟨fun _ => rfl, fun rep heq => by cases heq⟩
  | launches hb hstarting =>
      rw [List.append_nil]
      exact h.launches hb hstarting
  | completes hb hrunning hdone =>
      refine h.keep (fun _ _ => ⟨rfl, rfl⟩) (fun b w => (workerAt_complete hb _ b w).1)
        (fun b w _ => (workerAt_complete hb _ b w).2) ?_
      intro entry hentry
      rcases List.mem_or_eq_of_mem_set hentry with hold | rfl
      · exact .inl hold
      · refine .inr ⟨?_, ?_⟩
        · intro heq
          cases heq
        · intro rep heq
          cases heq
          exact ⟨hdone, rfl⟩
  | ends hworker hends =>
      refine h.moves hworker hends.busy (fun _ _ _ => ⟨rfl, rfl⟩) ?_
      intro batch hbooks
      rw [List.append_nil]
      exact hbooks.ends hends
  | calls hworker hpc hleft hremote =>
      refine h.moves hworker (by unfold Worker.done; rw [hpc]) ?_ ?_
      · intro b' w' hne
        rw [callsOf_calls, timedOf_calls, if_neg (fun heq => hne ⟨heq.1.symm, heq.2.symm⟩)]
        exact ⟨rfl, rfl⟩
      · intro batch hbooks
        rw [callsOf_append, timedOf_append, callsOf_calls, timedOf_calls, if_pos ⟨rfl, rfl⟩,
          List.append_nil]
        exact hbooks.calls hpc hleft
  | times hworker hpc hcall hreturned hparse =>
      refine h.moves hworker (by unfold Worker.done; rw [hpc]) ?_ ?_
      · intro b' w' hne
        rw [callsOf_timed, timedOf_timed, if_neg (fun heq => hne ⟨heq.1.symm, heq.2.symm⟩)]
        exact ⟨rfl, rfl⟩
      · intro batch hbooks
        rw [callsOf_append, timedOf_append, callsOf_timed, timedOf_timed, if_pos ⟨rfl, rfl⟩,
          List.append_nil]
        exact hbooks.times hpc

end Tracking

/-! ## §6. Every run. -/

/-- The accounts of the benchmark cannot be: the byte after `acc_` is a `b`. -/
theorem benchmarkTransfer_namesOther (corrId : Uuid) :
    NamesOther (benchmarkTransfer.request corrId) := by
  have htext : encodeUtf8 benchmarkTransfer.debitAccountId =
      ascii "acc_" ++ ascii "benchmark_source" := by
    decide +kernel
  refine .inl ?_
  show ¬ Issued (encodeUtf8 benchmarkTransfer.debitAccountId)
  rw [htext]
  exact not_issued (b := 98) (by decide +kernel) (by decide)

/-- Zeroes are reported as zeroes. -/
theorem figures_of_zeroes {latencies : List Int} (h : ∀ latency ∈ latencies, latency = 0) :
    figures latencies = ⟨0, some 0⟩ := by
  unfold figures
  split
  next => rfl
  next hsome =>
    have hlength : 0 < latencies.length := List.length_pos_iff.mpr hsome
    have hzeroes : latencies = List.replicate latencies.length 0 :=
      List.eq_replicate_iff.mpr ⟨rfl, h⟩
    have hsum : latencies.sum = 0 := by
      rw [hzeroes]
      simp
    have hplace : latencies.length * 99 / 100 < latencies.mergeSort.length := by
      rw [List.length_mergeSort]
      omega
    have hvalue : latencies.mergeSort[latencies.length * 99 / 100] = 0 :=
      h _ (List.mem_mergeSort.mp (List.getElem_mem hplace))
    rw [hsum, List.getElem?_eq_getElem hplace, hvalue]
    simp

section Runs

variable {gateway : Bytes} {wal : Wal.WriteAheadLog} {acts : List Action}
  {t : Traced Benchmarked Event}

theorem run_tracked (h : runBenchmarked gateway wal acts = some t) :
    Tracked t.state.benchmarks t.trace := by
  refine traced_invariant (fun s tr => Tracked s.benchmarks tr)
    (fun _ _ _ _ _ hs hstep => hs.step (step_effect hstep)) ?_ h
  refine ⟨fun _ _ _ => ⟨rfl, rfl⟩, ?_, ?_, ?_⟩
  · intro b w worker hworker
    cases hworker
  · intro benchmark hin
    cases hin
  · intro benchmark hin
    cases hin

/-- What a call was told stays so. -/
theorem TurnedAway.append {r r' : Remote} {tr res : List Remote.Event} {i : Nat}
    (h : TurnedAway gateway r tr i) (hasked : r.asked <+: r'.asked) :
    TurnedAway gateway r' (tr ++ res) i := by
  obtain ⟨q, uninitialised, hq, hsent⟩ := h
  refine ⟨q, uninitialised, ?_, Remote.sent_mono hsent⟩
  obtain ⟨later, heq⟩ := hasked
  rw [← heq, List.getElem?_append_left (List.getElem?_eq_some_iff.mp hq).1]
  exact hq

/-- The calls that were made stay at their places. -/
theorem Effect.asked {s s' : Benchmarked} {es : List Event} (h : Effect gateway s s' es) :
    s.remote.asked <+: s'.remote.asked := by
  rcases h.remoteStep with ⟨hsame, -⟩ | ⟨a, hstep⟩
  · rw [hsame]
  · exact (Remote.step_effect hstep).asked

/-- What a worker collects is from a call that has returned. -/
theorem Effect.collects {s s' : Benchmarked} {es : List Event} (h : Effect gateway s s' es)
    {b w : Nat} {m : Nat × TransactionResult} (hm : m ∈ timedOf b w es) :
    ∃ call msg, s.remote.client.calls[m.1]? = some call ∧ call.pc = .returned msg ∧
      parseTransaction msg = .ok m.2 := by
  cases h with
  | remote =>
      rw [timedOf_remote] at hm
      cases hm
  | calls =>
      rw [timedOf_calls] at hm
      cases hm
  | posts | launches | completes | ends => cases hm
  | times hworker hpc hcall hreturned hparse =>
      rw [timedOf_timed] at hm
      split at hm
      next =>
        rw [List.mem_singleton.mp hm]
        exact ⟨_, _, hcall, hreturned, hparse⟩
      next => cases hm

/-- **What a worker collects** is that the queue was full. -/
theorem run_collected (h : runBenchmarked gateway wal acts = some t) (b w : Nat) :
    ∀ m ∈ timedOf b w t.trace, m.2.latencyUs = 0 ∧
      TurnedAway gateway t.state.remote (remoteTrace t.trace) m.1 := by
  refine traced_of_takes (fun s tr => ∀ m ∈ timedOf b w tr, m.2.latencyUs = 0 ∧
    TurnedAway gateway s.remote (remoteTrace tr) m.1) ?_ ?_ (visits_end h)
  · intro m hm
    cases hm
  · intro u a u' es htakes hstep hu m hm
    obtain ⟨before, -, -, hbefore⟩ := htakes.source
    have heffect := step_effect hstep
    rw [remoteTrace_append]
    rw [timedOf_append] at hm
    rcases List.mem_append.mp hm with hold | hnew
    · obtain ⟨hzero, haway⟩ := hu m hold
      exact ⟨hzero, haway.append heffect.asked⟩
    · obtain ⟨call, msg, hcall, hpc, hparse⟩ := heffect.collects hnew
      obtain ⟨bs, hremote⟩ := run_remote hbefore
      obtain ⟨hzero, haway⟩ := turnedAway_of_returned hremote hcall hpc hparse
      exact ⟨hzero, haway.append heffect.asked⟩

/-- **What the benchmarks come to.** -/
structure MeasuresNothing (gateway : Bytes) (t : Traced Benchmarked Event) : Prop where
  /-- No transfer of theirs is logged, and none is applied. -/
  unlogged : ∀ l ∈ logged (ledgerTrace t.trace), ∀ corrId,
    l.req ≠ benchmarkTransfer.request corrId
  unapplied : ∀ corrId, benchmarkTransfer.request corrId ∉ applied (ledgerTrace t.trace)
  /-- A worker makes no more calls than its batch has.  One that returns has made
  all of them, and every one was turned away. -/
  returned : ∀ b w worker, workerAt t.state.benchmarks b w = some worker →
    ∃ batch, batchAt t.state.benchmarks b w = some batch ∧
      (callsOf b w t.trace).length ≤ batch ∧
      (worker.pc = .returned → (callsOf b w t.trace).length = batch ∧
        ∀ i ∈ callsOf b w t.trace,
          TurnedAway gateway t.state.remote (remoteTrace t.trace) i)
  /-- One transfer of a worker at most gets into the queue, and the worker is
  stuck with it. -/
  admitted : ∀ b w worker, workerAt t.state.benchmarks b w = some worker →
    ∀ i ∈ callsOf b w t.trace, Admitted gateway t.state.remote (remoteTrace t.trace) i →
      (worker.pc = .waits i ∨ worker.pc = .raised) ∧
        ∀ j ∈ callsOf b w t.trace,
          Admitted gateway t.state.remote (remoteTrace t.trace) j → j = i
  /-- Every report says zero. -/
  figures : ∀ benchmark ∈ t.state.benchmarks, ∀ rep, benchmark.status = .completed rep →
    rep = ⟨0, some 0⟩

/-- A worker of a benchmark, by its place. -/
theorem workerAt_of_mem {benchmarks : List Benchmark} {benchmark : Benchmark} {worker : Worker}
    (hb : benchmark ∈ benchmarks) (hw : worker ∈ benchmark.workers) :
    ∃ b w, workerAt benchmarks b w = some worker := by
  obtain ⟨b, hb⟩ := List.mem_iff_getElem?.mp hb
  obtain ⟨w, hw⟩ := List.mem_iff_getElem?.mp hw
  refine ⟨b, w, ?_⟩
  unfold workerAt
  rw [hb]
  exact hw

/-- **THE BENCHMARK MEASURES NOTHING.**  In every run, with any number of
benchmarks next to everything else the gateway does: their transfers move no
money, and their reports say zero, however fast or slow the engine is. -/
theorem benchmark_measures_nothing (h : runBenchmarked gateway wal acts = some t) :
    MeasuresNothing gateway t := by
  have hT := run_tracked h
  obtain ⟨as, hremote⟩ := run_remote h
  obtain ⟨bs, hledger⟩ := run_ledger h
  have hexcluded := run_excluded hledger
  have hcollected : ∀ b w, ∀ i ∈ (timedOf b w t.trace).map Prod.fst,
      TurnedAway gateway t.state.remote (remoteTrace t.trace) i := by
    intro b w i hi
    obtain ⟨m, hm, rfl⟩ := List.mem_map.mp hi
    exact (run_collected h b w m hm).2
  refine ⟨?_, ?_, ?_, ?_, ?_⟩
  · intro l hl corrId heq
    exact hexcluded.logged l hl (heq ▸ benchmarkTransfer_namesOther corrId)
  · intro corrId hmem
    exact hexcluded.applied _ hmem (benchmarkTransfer_namesOther corrId)
  · intro b w worker hworker
    obtain ⟨batch, hbatch, hbooks⟩ := hT.workers b w worker hworker
    have hleft := hbooks.left
    refine ⟨batch, hbatch, by omega, ?_⟩
    intro hpc
    have hnone := hbooks.returned hpc
    refine ⟨by omega, ?_⟩
    obtain ⟨last, hcalls, hlast⟩ := hbooks.asked
    rw [hpc] at hlast
    rw [hcalls, show last = [] from hlast, List.append_nil]
    exact hcollected b w
  · intro b w worker hworker i hi hadmitted
    obtain ⟨batch, -, hbooks⟩ := hT.workers b w worker hworker
    obtain ⟨last, hcalls, hlast⟩ := hbooks.asked
    -- it has not been collected
    have hopen : ∀ j ∈ callsOf b w t.trace,
        Admitted gateway t.state.remote (remoteTrace t.trace) j → j ∈ last := by
      intro j hj hin
      rw [hcalls] at hj
      rcases List.mem_append.mp hj with hold | hnew
      · exact absurd hin (not_admitted hremote (hcollected b w j hold))
      · exact hnew
    have hlasti := hopen i hi hadmitted
    cases hpc : worker.pc with
    | next | returned =>
        rw [hpc] at hlast
        rw [show last = [] from hlast] at hlasti
        cases hlasti
    | waits k =>
        rw [hpc] at hlast
        have hone : last = [k] := hlast
        rw [hone] at hlasti hopen
        rw [List.mem_singleton.mp hlasti]
        exact ⟨.inl rfl, fun j hj hin => List.mem_singleton.mp (hopen j hj hin)⟩
    | raised =>
        rw [hpc] at hlast
        refine ⟨.inr rfl, ?_⟩
        intro j hj hin
        have hone : last.length ≤ 1 := hlast
        match last, hone, hlasti, hopen j hj hin with
        | [k], _, hi, hj => exact (List.mem_singleton.mp hj).trans (List.mem_singleton.mp hi).symm
  · intro benchmark hin rep hcompleted
    obtain ⟨-, rfl⟩ := hT.completed benchmark hin rep hcompleted
    refine figures_of_zeroes ?_
    intro latency hlatency
    obtain ⟨worker, hw, hmem⟩ := List.mem_flatMap.mp hlatency
    obtain ⟨b, w, hworker⟩ := workerAt_of_mem hin hw
    obtain ⟨batch, -, hbooks⟩ := hT.workers b w worker hworker
    unfold Worker.result at hmem
    split at hmem
    next =>
      rw [hbooks.latencies] at hmem
      obtain ⟨m, hm, rfl⟩ := List.mem_map.mp hmem
      exact (run_collected h b w m hm).1
    next => cases hmem

end Runs

/-- The identities that `io_loop` has on record after requests like `smallRequest`. -/
def crowdIdentities : Identities :=
  (∅ : Identities).insert ((smallRequest.drop 1).take 16) [7]

/-- The request queue holds `n` requests of another client. -/
def crowdQueue (n : Nat) (h : n ≤ queueCapacity) :
    Fifo.Bounded TransactionRequest queueCapacity :=
  ⟨List.replicate n Process.smallParsed, by rw [List.length_replicate]; exact h⟩

/-- The gateway has done nothing yet, a queue is waiting for the engine, and the
I/O thread stands at `pc`. -/
def crowded (q : Fifo.Bounded TransactionRequest queueCapacity) (input : List Bytes)
    (c : Identities) (pc : IoPc) : Benchmarked :=
  ⟨{ Remote.started newLog with
      serving :=
        ⟨⟨{ LedgerEngine.init newLog with requestQueue := q }, true, input, c, ∅, pc⟩, .none⟩ }, []⟩

/-- One more request. -/
def crowdIteration : List Action :=
  .remote (.otherClient [7] smallRequest) :: List.replicate 5 (.remote (.server (.io Uuid.zero)))

theorem crowd_grows {q q' : Fifo.Bounded TransactionRequest queueCapacity} {c : Identities}
    (hq : q.enqueue Process.smallParsed = some q')
    (hc : c.insert ((smallRequest.drop 1).take 16) [7] = crowdIdentities) (tr : List Event) :
    run (traced (step [8])) ⟨crowded q [] c .loadRunning, tr⟩ crowdIteration =
      some ⟨crowded q' [] crowdIdentities .loadRunning,
        tr ++ [.remote (.server (.received [7] smallRequest)),
          .remote (.server (.process (.io (.accepted [7] Process.smallParsed))))]⟩ := by
  have hparse : deserializeRequest smallRequest = some Process.smallParsed := by decide +kernel
  have harrive : step [8] (crowded q [] c .loadRunning) (.remote (.otherClient [7] smallRequest)) =
      some (crowded q [[7], [], smallRequest] c .loadRunning, []) := rfl
  have hload : step [8] (crowded q [[7], [], smallRequest] c .loadRunning)
      (.remote (.server (.io Uuid.zero))) =
        some (crowded q [[7], [], smallRequest] c .poll, []) := rfl
  have hpoll : step [8] (crowded q [[7], [], smallRequest] c .poll)
      (.remote (.server (.io Uuid.zero))) =
        some (crowded q [] c (.handle [7] smallRequest),
          [.remote (.server (.received [7] smallRequest))]) := rfl
  have hhandle : step [8] (crowded q [] c (.handle [7] smallRequest))
      (.remote (.server (.io Uuid.zero))) =
        some (crowded q' [] c (.recordIdentity [7] smallRequest),
          [.remote (.server (.process (.io (.accepted [7] Process.smallParsed))))]) := by
    have hcase : ∀ s : EngineServer, s.handle [] Uuid.zero [7] smallRequest =
        s.handleRequest Uuid.zero [7] smallRequest := fun _ => rfl
    have hprocess : Process.step
        ⟨{ LedgerEngine.init newLog with requestQueue := q }, true, [], c, ∅,
          .handle [7] smallRequest⟩ (.io [] Uuid.zero) =
          some (⟨{ LedgerEngine.init newLog with requestQueue := q' }, true, [], c, ∅,
            .recordIdentity [7] smallRequest⟩, [.io (.accepted [7] Process.smallParsed)]) := by
      simp only [Process.step, Process.server, EngineServer.ioStep, hcase,
        EngineServer.handleRequest, hparse, hq]
      rfl
    have hmove : Serving.move
        ⟨⟨{ LedgerEngine.init newLog with requestQueue := q }, true, [], c, ∅,
          .handle [7] smallRequest⟩, .none⟩ Uuid.zero = ⟨.io [] Uuid.zero, fun _ => .none⟩ := rfl
    simp only [step, crowded, Remote.step, Remote.serverStep, Serving.step, hmove, hprocess]
    rfl
  have hrecord : step [8] (crowded q' [] c (.recordIdentity [7] smallRequest))
      (.remote (.server (.io Uuid.zero))) =
        some (crowded q' [] (c.insert ((smallRequest.drop 1).take 16) [7]) .drain, []) := rfl
  have hdrain : step [8] (crowded q' [] crowdIdentities .drain)
      (.remote (.server (.io Uuid.zero))) =
        some (crowded q' [] crowdIdentities .loadRunning, []) := rfl
  rw [hc] at hrecord
  unfold crowdIteration
  simp only [List.replicate]
  rw [run_traced_cons harrive, run_traced_cons hload, run_traced_cons hpoll,
    run_traced_cons hhandle, run_traced_cons hrecord, run_traced_cons hdrain]
  simp [run]

theorem crowdIdentities_insert :
    crowdIdentities.insert ((smallRequest.drop 1).take 16) [7] = crowdIdentities :=
  AList.ext rfl

theorem crowdQueue_enqueue {n : Nat} (hn : n + 1 ≤ queueCapacity) :
    (crowdQueue n (by omega)).enqueue Process.smallParsed = some (crowdQueue (n + 1) hn) := by
  obtain ⟨⟨items, hle⟩, hq, hitems⟩ := Fifo.Bounded.enqueue_of_lt (a := Process.smallParsed)
    (show (crowdQueue n (by omega)).items.length < queueCapacity by
      rw [crowdQueue, List.length_replicate]
      omega)
  obtain rfl : items = List.replicate (n + 1) Process.smallParsed :=
    hitems.trans List.replicate_succ'.symm
  exact hq

/-- Another client fills the queue, while the engine does nothing. -/
theorem crowd_fills : ∀ (n : Nat) (hn : n + 1 ≤ queueCapacity),
    ∃ acts tr, run (traced (step [8])) ⟨.started newLog, []⟩ acts =
      some ⟨crowded (crowdQueue (n + 1) hn) [] crowdIdentities .loadRunning, tr⟩
  | 0, hn => ⟨crowdIteration, _, crowd_grows (c := ∅) (crowdQueue_enqueue hn) rfl []⟩
  | n + 1, hn => by
      obtain ⟨acts, tr, hrun⟩ := crowd_fills n (by omega)
      have hmore := crowd_grows (crowdQueue_enqueue hn) crowdIdentities_insert tr
      refine ⟨acts ++ crowdIteration, _, Eq.trans ?_ hmore⟩
      rw [run_append, hrun]
      rfl

/-- A benchmark of one transfer, which finds the queue full. -/
def turnedAwayTransfer : List Action :=
  [.post 1, .launch 0, .iterate 0 0 (repeatedId 1), .remote (.call (.sent 0)),
    .remote (.deliver 0)] ++ List.replicate 3 (.remote (.server (.io Uuid.zero))) ++
    [.remote (.receive 0), .remote (.call (.resume 0)), .resume 0 0,
      .iterate 0 0 (repeatedId 2), .finish 0]

/-- **A full queue is what is measured**: the one latency is that of the answer
that the queue is full. -/
theorem crowdedBenchmark_measuresNothing :
    ∃ acts t, runBenchmarked [8] newLog acts = some t ∧ MeasuresNothing [8] t ∧
      t.state.benchmarks = [⟨1, [⟨0, [0], .returned⟩], .completed ⟨0, some 0⟩⟩] := by
  obtain ⟨acts, tr, hfull⟩ := crowd_fills 1022 (by decide)
  have hlate : (run (traced (step [8]))
      ⟨crowded (crowdQueue 1023 (by decide)) [] crowdIdentities .loadRunning, []⟩
      turnedAwayTransfer).map (fun t => t.state.benchmarks.map
        (fun b => (b.txCount, b.workers, decide (b.status = .starting ∨ b.status = .running)))) =
        some [(1, [⟨0, [0], .returned⟩], false)] := by
    decide +kernel
  obtain ⟨t, ht, heq⟩ := Option.map_eq_some_iff.mp hlate
  have hrun : runBenchmarked [8] newLog (acts ++ turnedAwayTransfer) =
      some ⟨t.state, tr ++ t.trace⟩ := by
    rw [runBenchmarked, run_append, hfull, Option.bind_some, run_traced_from, ht]
    rfl
  have hnothing := benchmark_measures_nothing hrun
  refine ⟨_, _, hrun, hnothing, ?_⟩
  obtain ⟨benchmark, rest, hbenchmarks, hone, hrest⟩ := List.map_eq_cons_iff.mp heq
  obtain rfl := List.map_eq_nil_iff.mp hrest
  obtain ⟨txCount, workers, status⟩ := benchmark
  simp only [Prod.mk.injEq, decide_eq_false_iff_not, not_or] at hone
  obtain ⟨rfl, rfl, hstarting, hrunning⟩ := hone
  show t.state.benchmarks = _
  rw [hbenchmarks]
  -- the report is that of the general statement
  cases status with
  | starting => exact absurd rfl hstarting
  | running => exact absurd rfl hrunning
  | completed rep =>
      rw [hnothing.figures _ (hbenchmarks ▸ List.mem_singleton_self _) rep rfl]

end Benchmarked

end ZeroLGR.Gateway
