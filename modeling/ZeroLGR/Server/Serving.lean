/-
  ZeroLGR.Server.Serving — `io_loop()` with the calls it makes.

  The I/O thread creates accounts, samples the metrics and takes snapshots
  itself, between a message and its answer, one access to the engine's state at
  a time.  `main()` calls nothing else, so the machine has the two threads, the
  clients and the two calls of `stop()`.

    • `sampleData` — the sample as it is sent,
    • `CallPc`, `Serving`, `move`, `step` — the machine,
    • `run_process` — every run is a run of the process,
    • `Line`, `Exchange` — what is said about one message,
    • `run_speaking` — every record is a sequence of exchanges,
    • `answered_in_order`, `outcomes_unsent`, `created_entered` — what each client
      is told,
    • `serving_enabled` — between its steps the I/O thread waits for its clients
      only; what it does under the lock of the accounts is one step.
-/
import ZeroLGR.Lib.Dialogue
import ZeroLGR.Ledger.Uniqueness
import ZeroLGR.Server.Stop
import ZeroLGR.Server.Wire

namespace ZeroLGR.Ledger

open Transition

/-! ## §1. The account that was asked for. -/

/-- An account with the requested name and type is stored under the identifier
that was returned, until the counter wraps. -/
def Entered (s : LedgerEngine) (req : CreateAccountRequest) (resp : CreateAccountResponse) : Prop :=
  s.uuidCounter ≤ 2 ^ 64 → resp.status = .ok →
    ∃ info, s.accounts.lookup resp.accountId = some info ∧ info.id = resp.accountId ∧
      info.name = req.name ∧ info.type = req.type

section Steps

variable {s s' : LedgerEngine} {a : Action} {es : List Event}

/-- An entry stays, up to its balance. -/
theorem lookup_step (hids : Identifiers s) (he : Effect s a s' es) {id : Bytes}
    {info : AccountInfo} (hlookup : s.accounts.lookup id = some info) :
    ∃ balance, s'.accounts.lookup id = some { info with balance := balance } := by
  cases he with
  | aside hside =>
      rw [hside.sameData.accounts]
      exact ⟨info.balance, hlookup⟩
  | pop | hit | miss | replyCached | accept | reject | drawTxId | append | appendThrows | build
  | cache | noCache | reply => exact ⟨info.balance, hlookup⟩
  | apply hpc =>
      have hknown := hids.known _ (by rw [hpc]; exact List.mem_singleton_self _)
      have hmem := (mem_apply hknown.1 hknown.2 id).mpr
        (AList.lookup_isSome.mp (by rw [hlookup]; rfl))
      obtain ⟨info', hinfo'⟩ := Option.isSome_iff_exists.mp (AList.lookup_isSome.mpr hmem)
      obtain ⟨old, hold, heq⟩ := sameEntries_apply hknown id info' hinfo'
      rw [hlookup] at hold
      cases hold
      exact ⟨info'.balance, by rw [← heq]; exact hinfo'⟩
  | drawAccountId =>
      exact ⟨info.balance,
        lookup_of_creates (a := .drawAccountId _) hids rfl .drawAccountId hlookup⟩
  | commitAccount hi =>
      exact ⟨info.balance,
        lookup_of_creates (a := .commitAccount _) hids rfl (.commitAccount hi) hlookup⟩

/-- What was entered stays entered. -/
theorem Entered.step {req : CreateAccountRequest} {resp : CreateAccountResponse}
    (h : Entered s req resp) (hids : s.uuidCounter ≤ 2 ^ 64 → Identifiers s)
    (he : Effect s a s' es) : Entered s' req resp := by
  intro hk hok
  have hbefore := he.counter_le.trans hk
  obtain ⟨info, hlookup, hid, hname, htype⟩ := h hbefore hok
  obtain ⟨balance, hlookup'⟩ := lookup_step (hids hbefore) he hlookup
  exact ⟨_, hlookup', hid, hname, htype⟩

end Steps

/-- `create_account` enters what it reports. -/
theorem entered_commit (s : LedgerEngine) (req : CreateAccountRequest) (id : Bytes) (i : Nat) :
    Entered
      { s with
        accounts := (Ledger.commitAccount s.accounts req id).2
        creating := s.creating.eraseIdx i }
      req (Ledger.commitAccount s.accounts req id).1 := by
  intro _ hok
  dsimp only
  unfold Ledger.commitAccount at hok ⊢
  by_cases htaken : nameTaken s.accounts req.name = true
  · rw [if_pos htaken] at hok
    cases hok
  · rw [if_neg htaken]
    exact ⟨⟨id, req.name, req.type, 0⟩, AList.lookup_insert _, rfl, rfl, rfl⟩

end ZeroLGR.Ledger

namespace ZeroLGR.Server

open Transition Ledger Dialogue

/-! ## §2. The machine. -/

/-- The fields of `MetricsSample`, the two `double`s as their bits. -/
def sampleData (sample : MetricsSample) : MetricsSampleData where
  tps := sample.windowCount.toFloat.toBits
  avgLatencyUs :=
    if 0 < sample.windowCount then
      (sample.windowLatency.toFloat / sample.windowCount.toFloat).toBits
    else (0 : Float).toBits
  txCount := sample.txCount
  invariantOk := sample.invariantOk

/-- Where the I/O thread stands in a call that a message asks for.  `resets` says
that the metrics window is reset after the answer. -/
inductive CallPc where
  | none
  | commitAccount
  | sampling (corrId : Uuid)
  | answer (message : Bytes) (resets : Bool)
  | resetWindow
  | storeLatency
  deriving DecidableEq

/-- The process, and the call its I/O thread is in. -/
structure Serving where
  process : Process
  callPc : CallPc

namespace Serving

/-- The process after `start()`. -/
def started (wal : Wal.WriteAheadLog) : Serving := ⟨.started wal, .none⟩

/-- Who moves. -/
inductive Action where
  | io (uninitialised : Uuid)
  | engine (now : Int64) (os : Wal.OsReply)
  | arrive (frames : List Bytes)
  | stop
  | shutdown

/-- What a step shows: a message that is taken from the socket, or what the
process shows. -/
inductive Event where
  | received (identity payload : Bytes)
  | process (e : Process.Event)

/-- The response of `create_account` that was shown. -/
def createdIn (es : List Process.Event) : Option CreateAccountResponse :=
  es.findSome? (fun e => match e with
    | .engine (.accountCreated resp) => some resp
    | _ => none)

/-- The sample that was shown. -/
def sampledIn (es : List Process.Event) : Option MetricsSample :=
  es.findSome? (fun e => match e with
    | .engine (.sampled sample) => some sample
    | _ => none)

/-- The snapshot that was shown. -/
def snapshotIn (es : List Process.Event) : Option BalanceSnapshotData :=
  es.findSome? (fun e => match e with
    | .engine (.snapshot data) => some data
    | _ => none)

/-- What the I/O thread does next, and where that takes it. -/
structure Move where
  action : Process.Action
  next : List Process.Event → CallPc

/-- The case of the message type, up to the call. -/
def handle (uninitialised : Uuid) (payload : Bytes) : Move :=
  let direct : Move := ⟨.io [] uninitialised, fun _ => .none⟩
  match payload with
  | [] => direct
  | msgType :: _ =>
      if msgType = MSG_CREATE_ACCOUNT then
        match deserializeCreateAccount payload with
        | some req => ⟨.call (.drawAccountId req), fun _ => .commitAccount⟩
        | none => direct
      else if msgType = MSG_METRICS_REQUEST then
        match readCorrelationId payload with
        | some corrId => ⟨.call .getMetricsSample, fun _ => .sampling corrId⟩
        | none => direct
      else if msgType = MSG_BALANCE_REQUEST then
        match readCorrelationId payload with
        | some corrId =>
            ⟨.call .getBalanceSnapshot, fun es =>
              match snapshotIn es with
              | some data => .answer (serializeBalanceSnapshot corrId data) false
              | none => .none⟩
        | none => direct
      else direct

/-- The next step of the I/O thread. -/
def move (s : Serving) (uninitialised : Uuid) : Move :=
  match s.callPc with
  | .none =>
      match s.process.ioPc with
      | .handle _ payload => handle uninitialised payload
      | _ => ⟨.io [] uninitialised, fun _ => .none⟩
  | .commitAccount =>
      ⟨.call (.commitAccount 0), fun es =>
        match createdIn es with
        | some resp => .answer (serializeCreateAccountResponse resp) false
        | none => .none⟩
  | .sampling corrId =>
      ⟨.call .metrics, fun es =>
        match sampledIn es with
        | some sample => .answer (serializeMetrics corrId (sampleData sample)) true
        | none => .sampling corrId⟩
  | .answer message resets =>
      ⟨.io message uninitialised, fun _ => if resets = true then .resetWindow else .none⟩
  | .resetWindow => ⟨.call .resetMetricsWindow, fun _ => .storeLatency⟩
  | .storeLatency => ⟨.call .metrics, fun _ => .none⟩

/-- A message that is taken from the socket. -/
def announce (before after : IoPc) : List Event :=
  match before, after with
  | .poll, .handle identity payload => [.received identity payload]
  | _, _ => []

/-- A step in which the I/O thread does not move. -/
def others (s : Serving) (a : Process.Action) : Option (Serving × List Event) :=
  (Process.step s.process a).map (fun r => ({ s with process := r.1 }, r.2.map .process))

/-- One step. -/
def step (s : Serving) : Action → Option (Serving × List Event)
  | .io uninitialised =>
      let move := s.move uninitialised
      (Process.step s.process move.action).map (fun r =>
        (⟨r.1, move.next r.2⟩, announce s.process.ioPc r.1.ioPc ++ r.2.map .process))
  | .engine now os => s.others (.engine now os)
  | .arrive frames => s.others (.arrive frames)
  | .stop => s.others .stop
  | .shutdown => s.others (.call .shutdown)

/-- A run of the server, from its start on. -/
abbrev runServing (wal : Wal.WriteAheadLog) (acts : List Action) :
    Option (Traced Serving Event) :=
  run (traced step) ⟨.started wal, []⟩ acts

/-! ## §3. As a run of the process. -/

/-- What is seen of the process. -/
def Event.asProcess : Event → Option Process.Event
  | .received _ _ => none
  | .process e => some e

/-- The record of the process. -/
def processTrace (tr : List Event) : List Process.Event := tr.filterMap Event.asProcess

theorem processTrace_map (es : List Process.Event) : processTrace (es.map .process) = es := by
  unfold processTrace
  rw [List.filterMap_map]
  exact List.filterMap_some

theorem processTrace_announce (before after : IoPc) :
    processTrace (announce before after) = [] := by
  unfold announce
  split <;> rfl

section Steps

variable {s s' : Serving} {a : Action} {es : List Event}

theorem others_inv {b : Process.Action} (h : s.others b = some (s', es)) :
    ∃ p' pes, Process.step s.process b = some (p', pes) ∧ s' = { s with process := p' } ∧
      es = pes.map .process := by
  obtain ⟨⟨p', pes⟩, hp, heq⟩ := Option.map_eq_some_iff.mp h
  cases heq
  exact ⟨p', pes, hp, rfl, rfl⟩

theorem io_inv {uninitialised : Uuid} (h : step s (.io uninitialised) = some (s', es)) :
    ∃ p' pes, Process.step s.process (s.move uninitialised).action = some (p', pes) ∧
      s' = ⟨p', (s.move uninitialised).next pes⟩ ∧
      es = announce s.process.ioPc p'.ioPc ++ pes.map .process := by
  obtain ⟨⟨p', pes⟩, hp, heq⟩ := Option.map_eq_some_iff.mp h
  cases heq
  exact ⟨p', pes, hp, rfl, rfl⟩

/-- **Each step is a step of the process.** -/
theorem step_process (h : step s a = some (s', es)) :
    ∃ b, Process.step s.process b = some (s'.process, processTrace es) := by
  cases a with
  | io uninitialised =>
      obtain ⟨p', pes, hp, rfl, rfl⟩ := io_inv h
      refine ⟨(s.move uninitialised).action, ?_⟩
      unfold processTrace
      rw [List.filterMap_append]
      show _ = some (p', processTrace _ ++ processTrace _)
      rw [processTrace_announce, processTrace_map, List.nil_append]
      exact hp
  | engine | arrive | stop | shutdown =>
      obtain ⟨p', pes, hp, rfl, rfl⟩ := others_inv h
      rw [processTrace_map]
      exact ⟨_, hp⟩

end Steps

/-- **Every run is a run of the process.** -/
theorem run_process {wal : Wal.WriteAheadLog} {acts : List Action} {t : Traced Serving Event}
    (h : runServing wal acts = some t) :
    ∃ bs, Process.runProcess wal bs = some ⟨t.state.process, processTrace t.trace⟩ := by
  obtain ⟨-, hrun⟩ := run_maps Serving.process Event.asProcess (fun _ _ => True)
    (fun _ _ _ _ _ _ _ => trivial) (fun _ _ _ _ _ _ hstep => .inr (step_process hstep)) trivial h
  exact hrun

/-! ## §4. What is said about one message. -/

/-- A message comes in, the engine takes the request or returns from a call, and
a message goes out. -/
inductive Line where
  | received (identity payload : Bytes)
  | accepted (identity : Bytes) (req : TransactionRequest)
  | created (resp : CreateAccountResponse)
  | sampled (sample : MetricsSample)
  | snapshot (data : BalanceSnapshotData)
  | sent (identity message : Bytes)

/-- The lines of one event.  The engine thread has none. -/
def Event.lines : Event → List Line
  | .received identity payload => [.received identity payload]
  | .process (.io (.accepted identity req)) => [.accepted identity req]
  | .process (.io (.answered identity message)) => [.sent identity message]
  | .process (.io (.drained _ sends)) => sends.map (fun m => .sent m.1 m.2)
  | .process (.engine (.accountCreated resp)) => [.created resp]
  | .process (.engine (.sampled sample)) => [.sampled sample]
  | .process (.engine (.snapshot data)) => [.snapshot data]
  | .process (.engine _) => []

/-- The lines of a record. -/
def lines (tr : List Event) : List Line := tr.flatMap Event.lines

/-- **One exchange**: a message, what the engine does for it, and the answer to
the client it came from.  `e` is the engine at a later time. -/
inductive Exchange (e : LedgerEngine) : List Line → Prop
  | accepted {identity payload : Bytes} {req : TransactionRequest} :
      payload.head? = some MSG_TX_REQUEST → deserializeRequest payload = some req →
      Exchange e [.received identity payload, .accepted identity req]
  | refused {identity payload : Bytes} {req : TransactionRequest} {uninitialised : Uuid} :
      payload.head? = some MSG_TX_REQUEST → deserializeRequest payload = some req →
      Exchange e [.received identity payload,
        .sent identity (serializeResponse (queueFullResponse req.correlationId uninitialised))]
  | created {identity payload : Bytes} {req : CreateAccountRequest}
      {resp : CreateAccountResponse} : payload.head? = some MSG_CREATE_ACCOUNT →
      deserializeCreateAccount payload = some req → resp.correlationId = req.correlationId →
      Entered e req resp →
      Exchange e [.received identity payload, .created resp,
        .sent identity (serializeCreateAccountResponse resp)]
  | sampled {identity payload : Bytes} {corrId : Uuid} {sample : MetricsSample} :
      payload.head? = some MSG_METRICS_REQUEST → readCorrelationId payload = some corrId →
      Exchange e [.received identity payload, .sampled sample,
        .sent identity (serializeMetrics corrId (sampleData sample))]
  | snapshot {identity payload : Bytes} {corrId : Uuid} {data : BalanceSnapshotData} :
      payload.head? = some MSG_BALANCE_REQUEST → readCorrelationId payload = some corrId →
      Exchange e [.received identity payload, .snapshot data,
        .sent identity (serializeBalanceSnapshot corrId data)]
  | ignored {identity payload : Bytes} :
      (∀ type, payload.head? = some type → type ∉
        [MSG_TX_REQUEST, MSG_CREATE_ACCOUNT, MSG_METRICS_REQUEST, MSG_BALANCE_REQUEST]) →
      Exchange e [.received identity payload]

/-- An exchange is over. -/
theorem Exchange.mono {e e' : LedgerEngine} {b : List Line} (h : Exchange e b)
    (hkept : ∀ req resp, Entered e req resp → Entered e' req resp) : Exchange e' b := by
  cases h with
  | accepted hhead hparse => exact .accepted hhead hparse
  | refused hhead hparse => exact .refused hhead hparse
  | created hhead hparse hcorr hentered => exact .created hhead hparse hcorr (hkept _ _ hentered)
  | sampled hhead hread => exact .sampled hhead hread
  | snapshot hhead hread => exact .snapshot hhead hread
  | ignored hother => exact .ignored hother

/-- No call of the engine is under way. -/
structure Calm (e : LedgerEngine) : Prop where
  creating : e.creating = []
  metrics : e.metrics = .idle

/-- **The exchange that is open**, by the place of the I/O thread. -/
inductive Opening (e : LedgerEngine) (s : Serving) : List Line → Prop
  | between : s.callPc = .none → (∀ identity payload, s.process.ioPc ≠ .handle identity payload) →
      s.process.ioPc ≠ .undefinedRead → Calm s.process.engine → Opening e s []
  | begun {identity payload : Bytes} : s.callPc = .none →
      s.process.ioPc = .handle identity payload → Calm s.process.engine →
      Opening e s [.received identity payload]
  | undefined {identity payload : Bytes} : s.callPc = .none →
      s.process.ioPc = .undefinedRead → Opening e s [.received identity payload]
  | creating {identity payload id : Bytes} {req : CreateAccountRequest} :
      s.callPc = .commitAccount → s.process.ioPc = .handle identity payload →
      payload.head? = some MSG_CREATE_ACCOUNT → deserializeCreateAccount payload = some req →
      s.process.engine.creating = [(req, id)] → s.process.engine.metrics = .idle →
      Opening e s [.received identity payload]
  | sampling {identity payload : Bytes} {corrId : Uuid} :
      s.callPc = .sampling corrId → s.process.ioPc = .handle identity payload →
      payload.head? = some MSG_METRICS_REQUEST → readCorrelationId payload = some corrId →
      s.process.engine.creating = [] →
      s.process.engine.metrics ≠ .idle → s.process.engine.metrics ≠ .storeLatency →
      Opening e s [.received identity payload]
  | answering {identity payload message : Bytes} {resets : Bool} {line : Line} :
      s.callPc = .answer message resets → s.process.ioPc = .handle identity payload →
      Exchange e [.received identity payload, line, .sent identity message] →
      Calm s.process.engine → Opening e s [.received identity payload, line]
  | resetting : s.callPc = .resetWindow → s.process.ioPc = .drain → Calm s.process.engine →
      Opening e s []
  | storing : s.callPc = .storeLatency → s.process.ioPc = .drain →
      s.process.engine.creating = [] → s.process.engine.metrics = .storeLatency → Opening e s []

/-- Finished exchanges, and the one that is open. -/
def Speaking (e : LedgerEngine) (s : Serving) (tr : List Event) : Prop :=
  ∃ rest, Speaks (Exchange e) (lines tr) rest ∧ Opening e s rest

theorem lines_append (tr es : List Event) : lines (tr ++ es) = lines tr ++ lines es :=
  List.flatMap_append

theorem announce_self (pc : IoPc) : announce pc pc = [] := by
  cases pc <;> rfl

/-! ## §5. The other threads. -/

section Steps

variable {s s' : Serving} {e e' later : LedgerEngine} {p p' : Process} {tr es : List Event}

/-- What the I/O thread has in hand is left alone. -/
structure Untouched (p p' : Process) : Prop where
  ioPc : p'.ioPc = p.ioPc
  creating : p'.engine.creating = p.engine.creating
  metrics : p'.engine.metrics = p.engine.metrics

theorem Opening.untouched {rest : List Line} {callPc : CallPc} (h : Opening later ⟨p, callPc⟩ rest)
    (hsame : Untouched p p') : Opening later ⟨p', callPc⟩ rest := by
  obtain ⟨hpc, hcreating, hmetrics⟩ := hsame
  have hcalm : Calm p.engine → Calm p'.engine := fun hcalm =>
    ⟨hcreating.trans hcalm.creating, hmetrics.trans hcalm.metrics⟩
  cases h with
  | between hcall hhandle hread h₀ =>
      exact .between hcall (by rw [hpc]; exact hhandle) (by rw [hpc]; exact hread) (hcalm h₀)
  | begun hcall hat h₀ => exact .begun hcall (hpc.trans hat) (hcalm h₀)
  | undefined hcall hat => exact .undefined hcall (hpc.trans hat)
  | creating hcall hat htype hparse hone hidle =>
      exact .creating hcall (hpc.trans hat) htype hparse (hcreating.trans hone)
        (hmetrics.trans hidle)
  | sampling hcall hat htype hread hnone hbusy hstore =>
      exact .sampling hcall (hpc.trans hat) htype hread (hcreating.trans hnone)
        (by rw [hmetrics]; exact hbusy) (by rw [hmetrics]; exact hstore)
  | answering hcall hat hexchange h₀ =>
      exact .answering hcall (hpc.trans hat) hexchange (hcalm h₀)
  | resetting hcall hat h₀ => exact .resetting hcall (hpc.trans hat) (hcalm h₀)
  | storing hcall hat hnone hstore =>
      exact .storing hcall (hpc.trans hat) (hcreating.trans hnone) (hmetrics.trans hstore)

/-- The engine thread leaves the calls of the I/O thread alone, and says nothing. -/
theorem engineStep_untouched {now : Int64} {os : Wal.OsReply} {ees : List Ledger.Event}
    (h : e.engineStep now os = some (e', ees)) :
    e'.creating = e.creating ∧ e'.metrics = e.metrics ∧
      lines (ees.map (fun x => .process (.engine x))) = [] := by
  unfold LedgerEngine.engineStep at h
  split at h
  next => split at h <;> cases h <;> exact ⟨rfl, rfl, rfl⟩
  next => split at h <;> cases h <;> exact ⟨rfl, rfl, rfl⟩
  next => split at h <;> cases h <;> exact ⟨rfl, rfl, rfl⟩
  next req resp hpc =>
    obtain ⟨q, pushed, hpush⟩ := pushReply_eq e req resp .loadRunning
    rw [hpush] at h
    cases h
    exact ⟨rfl, rfl, rfl⟩
  next =>
    dsimp only at h
    split at h <;> cases h <;> exact ⟨rfl, rfl, rfl⟩
  next =>
    cases h
    exact ⟨rfl, rfl, rfl⟩
  next =>
    unfold LedgerEngine.appendWal at h
    split at h <;> cases h <;> exact ⟨rfl, rfl, rfl⟩
  next =>
    cases h
    exact ⟨rfl, rfl, rfl⟩
  next =>
    cases h
    exact ⟨rfl, rfl, rfl⟩
  next => split at h <;> cases h <;> exact ⟨rfl, rfl, rfl⟩
  next req resp hpc =>
    obtain ⟨q, pushed, hpush⟩ := pushReply_eq e req resp (.countTotal resp.latencyUs)
    rw [hpush] at h
    cases h
    exact ⟨rfl, rfl, rfl⟩
  next =>
    cases h
    exact ⟨rfl, rfl, rfl⟩
  next =>
    cases h
    exact ⟨rfl, rfl, rfl⟩
  next =>
    cases h
    exact ⟨rfl, rfl, rfl⟩
  next => cases h
  next => cases h

/-- Whoever moves, the I/O thread excepted, says nothing. -/
theorem others_untouched {a : Action} (hother : ∀ uninitialised, a ≠ .io uninitialised)
    (h : step s a = some (s', es)) :
    Untouched s.process s'.process ∧ s'.callPc = s.callPc ∧ lines es = [] := by
  cases a with
  | io uninitialised => exact absurd rfl (hother uninitialised)
  | engine now os =>
      obtain ⟨p', pes, hp, rfl, rfl⟩ := others_inv h
      obtain ⟨⟨e', ees⟩, he, heq⟩ := Option.map_eq_some_iff.mp hp
      cases heq
      obtain ⟨hcreating, hmetrics, hlines⟩ := engineStep_untouched he
      refine ⟨⟨rfl, hcreating, hmetrics⟩, rfl, ?_⟩
      rw [List.map_map]
      exact hlines
  | arrive | stop | shutdown =>
      obtain ⟨p', pes, hp, rfl, rfl⟩ := others_inv h
      cases hp
      exact ⟨⟨rfl, rfl, rfl⟩, rfl, rfl⟩

/-! ## §6. The I/O thread. -/

/-- Something is said, and the exchange stays open. -/
theorem Speaking.say {rest ls : List Line} (h : Speaks (Exchange later) (lines tr) rest)
    (hes : lines es = ls) (hopen : Opening later s' (rest ++ ls)) :
    Speaking later s' (tr ++ es) := by
  refine ⟨rest ++ ls, ?_, hopen⟩
  rw [lines_append, hes]
  exact h.say ls

/-- The last thing is said. -/
theorem Speaking.finish {rest ls : List Line} (h : Speaks (Exchange later) (lines tr) rest)
    (hes : lines es = ls) (hwhole : Exchange later (rest ++ ls)) (hopen : Opening later s' []) :
    Speaking later s' (tr ++ es) := by
  refine ⟨[], ?_, hopen⟩
  rw [lines_append, hes]
  exact (h.say ls).finish hwhole

/-- Nothing is said. -/
theorem Speaking.quiet {rest : List Line} (h : Speaks (Exchange later) (lines tr) rest)
    (hes : lines es = []) (hopen : Opening later s' rest) : Speaking later s' (tr ++ es) := by
  refine Speaking.say h hes ?_
  rw [List.append_nil]
  exact hopen

theorem process_io {answer : Bytes} {uninitialised : Uuid} {pes : List Process.Event}
    (h : Process.step p (.io answer uninitialised) = some (p', pes)) :
    ∃ srv ios, p.server.ioStep answer uninitialised = some (srv, ios) ∧ p' = p.update srv ∧
      pes = ios.map .io := by
  obtain ⟨⟨srv, ios⟩, hio, heq⟩ := Option.map_eq_some_iff.mp h
  cases heq
  exact ⟨srv, ios, hio, rfl, rfl⟩

/-- A call of the I/O thread leaves it where it stands. -/
theorem process_call {b : Ledger.Action} {pes : List Process.Event} (hb : b.isCall = true)
    (h : Process.step p (.call b) = some (p', pes)) :
    ∃ e' ees, Ledger.step p.engine b = some (e', ees) ∧ p' = { p with engine := e' } ∧
      pes = ees.map .engine := by
  change (if b.isCall = true then _ else none) = some (p', pes) at h
  rw [if_pos hb] at h
  obtain ⟨⟨e', ees⟩, he, heq⟩ := Option.map_eq_some_iff.mp h
  cases heq
  exact ⟨e', ees, he, rfl, rfl⟩

section Io

variable {uninitialised : Uuid} {identity payload : Bytes} {rest : List Line}

/-- Without a message the thread goes around its loop. -/
theorem move_between (hcall : s.callPc = .none)
    (hhandle : ∀ identity payload, s.process.ioPc ≠ .handle identity payload) :
    s.move uninitialised = ⟨.io [] uninitialised, fun _ => .none⟩ := by
  unfold move
  rw [hcall]
  dsimp only
  split
  next identity payload hpc => exact absurd hpc (hhandle identity payload)
  next => rfl

/-- Between two messages. -/
theorem between_speaking (hdrain : s.process.drainPendingIdentities = ∅)
    (h : step s (.io uninitialised) = some (s', es))
    (hspeaks : Speaks (Exchange later) (lines tr) []) (hcall : s.callPc = .none)
    (hhandle : ∀ identity payload, s.process.ioPc ≠ .handle identity payload)
    (hread : s.process.ioPc ≠ .undefinedRead) (hcalm : Calm s.process.engine) :
    Speaking later s' (tr ++ es) := by
  have hmove : s.move uninitialised = ⟨.io [] uninitialised, fun _ => .none⟩ :=
    move_between hcall hhandle
  obtain ⟨p', pes, hp, rfl, rfl⟩ := io_inv h
  rw [hmove] at hp ⊢
  obtain ⟨srv, ios, hio, rfl, rfl⟩ := process_io hp
  have hbetween : ∀ srv : EngineServer, (∀ identity payload, srv.pc ≠ .handle identity payload) →
      srv.pc ≠ .undefinedRead → Opening later ⟨s.process.update srv, .none⟩ [] :=
    fun srv h₁ h₂ => .between rfl h₁ h₂ ⟨hcalm.creating, hcalm.metrics⟩
  unfold EngineServer.ioStep at hio
  have hserver : s.process.server.pc = s.process.ioPc := rfl
  cases hpc : s.process.ioPc with
  | handle identity payload => exact absurd hpc (hhandle identity payload)
  | undefinedRead => exact absurd hpc hread
  | returned =>
      rw [hserver, hpc] at hio
      cases hio
  | loadRunning =>
      rw [hserver, hpc] at hio
      dsimp only at hio
      split at hio <;> cases hio <;>
        exact Speaking.quiet hspeaks rfl (hbetween _ (by simp) (by simp))
  | poll =>
      rw [hserver, hpc] at hio
      dsimp only at hio
      split at hio
      next =>
        cases hio
        exact Speaking.quiet hspeaks rfl (hbetween _ (by simp) (by simp))
      next identity delimiter payload rest hinput =>
        -- the message is taken, and its exchange begins
        cases hio
        exact Speaking.say hspeaks rfl (.begun rfl rfl ⟨hcalm.creating, hcalm.metrics⟩)
      next => cases hio
  | recordIdentity identity payload =>
      rw [hserver, hpc] at hio
      cases hio
      exact Speaking.quiet hspeaks rfl (hbetween _ (by simp) (by simp))
  | drain =>
      rw [hserver, hpc] at hio
      have hone := Option.some.inj hio
      unfold EngineServer.drainOne at hone
      split at hone
      next =>
        cases hone
        exact Speaking.quiet hspeaks rfl (hbetween _ (by simp) (by simp))
      next envelope q hq =>
        dsimp only at hone
        split at hone
        next found hlookup =>
          -- nothing is found in the empty map
          have hempty : s.process.server.drainPendingIdentities = ∅ := hdrain
          rw [hempty] at hlookup
          cases hlookup
        next hlookup =>
          cases hone
          refine Speaking.quiet hspeaks rfl (hbetween _ ?_ ?_)
          · intro identity payload hpc'
            exact hhandle identity payload hpc'
          · exact hread

/-- What `io_loop()` does with a message itself. -/
theorem direct_inv {answer : Bytes} {pes : List Process.Event}
    (h : Process.step p (.io answer uninitialised) = some (p', pes))
    (hpc : p.ioPc = .handle identity payload) :
    ∃ srv ios, p.server.handle answer uninitialised identity payload = (srv, ios) ∧
      p' = p.update srv ∧ pes = ios.map .io := by
  obtain ⟨srv, ios, hio, hp', hpes⟩ := process_io h
  have hserver : p.server.pc = .handle identity payload := hpc
  unfold EngineServer.ioStep at hio
  rw [hserver] at hio
  exact ⟨srv, ios, Option.some.inj hio, hp', hpes⟩

/-- The message is a request, unknown, or ends before it should. -/
structure Direct (payload : Bytes) : Prop where
  create : payload.head? = some MSG_CREATE_ACCOUNT → deserializeCreateAccount payload = none
  metrics : payload.head? = some MSG_METRICS_REQUEST → readCorrelationId payload = none
  balance : payload.head? = some MSG_BALANCE_REQUEST → readCorrelationId payload = none

/-- **The four kinds of messages.** -/
theorem handle_cases (uninitialised : Uuid) (payload : Bytes) :
    (∃ req, payload.head? = some MSG_CREATE_ACCOUNT ∧ deserializeCreateAccount payload = some req ∧
        handle uninitialised payload = ⟨.call (.drawAccountId req), fun _ => .commitAccount⟩) ∨
      (∃ corrId, payload.head? = some MSG_METRICS_REQUEST ∧
        readCorrelationId payload = some corrId ∧
        handle uninitialised payload = ⟨.call .getMetricsSample, fun _ => .sampling corrId⟩) ∨
      (∃ corrId, payload.head? = some MSG_BALANCE_REQUEST ∧
        readCorrelationId payload = some corrId ∧
        handle uninitialised payload = ⟨.call .getBalanceSnapshot, fun es =>
          match snapshotIn es with
          | some data => .answer (serializeBalanceSnapshot corrId data) false
          | none => .none⟩) ∨
      (Direct payload ∧ handle uninitialised payload = ⟨.io [] uninitialised, fun _ => .none⟩) := by
  generalize hmove : handle uninitialised payload = m
  unfold handle at hmove
  split at hmove
  next => exact .inr (.inr (.inr ⟨⟨by simp, by simp, by simp⟩, hmove.symm⟩))
  next msgType rest =>
    have hhead : ∀ {type : UInt8}, msgType = type → (msgType :: rest).head? = some type :=
      fun htype => congrArg some htype
    have htype : ∀ {type : UInt8}, (msgType :: rest).head? = some type → msgType = type :=
      fun hsome => Option.some.inj hsome
    split at hmove
    next hcreate =>
      split at hmove
      next req hparse => exact .inl ⟨req, hhead hcreate, hparse, hmove.symm⟩
      next hparse =>
        refine .inr (.inr (.inr ⟨⟨fun _ => hparse, ?_, ?_⟩, hmove.symm⟩))
        · intro hsome
          exact absurd ((htype hsome).symm.trans hcreate) (by decide)
        · intro hsome
          exact absurd ((htype hsome).symm.trans hcreate) (by decide)
    next hcreate =>
      split at hmove
      next hmetrics =>
        split at hmove
        next corrId hread => exact .inr (.inl ⟨corrId, hhead hmetrics, hread, hmove.symm⟩)
        next hread =>
          exact .inr (.inr (.inr ⟨⟨fun hsome => absurd (htype hsome) hcreate, fun _ => hread,
            fun _ => hread⟩, hmove.symm⟩))
      next hmetrics =>
        split at hmove
        next hbalance =>
          split at hmove
          next corrId hread => exact .inr (.inr (.inl ⟨corrId, hhead hbalance, hread, hmove.symm⟩))
          next hread =>
            exact .inr (.inr (.inr ⟨⟨fun hsome => absurd (htype hsome) hcreate, fun _ => hread,
              fun _ => hread⟩, hmove.symm⟩))
        next hbalance =>
          exact .inr (.inr (.inr ⟨⟨fun hsome => absurd (htype hsome) hcreate,
            fun hsome => absurd (htype hsome) hmetrics,
            fun hsome => absurd (htype hsome) hbalance⟩, hmove.symm⟩))

/-- A message that `io_loop()` sees to itself. -/
theorem direct_speaking (hmove : s.move uninitialised = ⟨.io [] uninitialised, fun _ => .none⟩)
    (hdirect : Direct payload)
    (h : step s (.io uninitialised) = some (s', es))
    (hspeaks : Speaks (Exchange later) (lines tr) [.received identity payload])
    (hpc : s.process.ioPc = .handle identity payload) (hcalm : Calm s.process.engine) :
    Speaking later s' (tr ++ es) := by
  obtain ⟨p', pes, hp, rfl, rfl⟩ := io_inv h
  rw [hmove] at hp ⊢
  obtain ⟨srv, ios, hhandle, rfl, rfl⟩ := direct_inv hp hpc
  have hbetween : ∀ srv : EngineServer, (∀ identity payload, srv.pc ≠ .handle identity payload) →
      srv.pc ≠ .undefinedRead → Opening later ⟨s.process.update srv, .none⟩ [] :=
    fun srv h₁ h₂ => .between rfl h₁ h₂ ⟨hcalm.creating, hcalm.metrics⟩
  have hlines : ∀ pc, lines (announce s.process.ioPc pc ++
      (ios.map Process.Event.io).map .process) =
        lines ((ios.map Process.Event.io).map .process) := by
    intro pc
    rw [hpc]
    rfl
  unfold EngineServer.handle at hhandle
  split at hhandle
  next =>
    cases hhandle
    exact Speaking.finish hspeaks (hlines _) (.ignored (by simp)) (hbetween _ (by simp) (by simp))
  next msgType payload =>
    split at hhandle
    next htype =>
      have hhead : (msgType :: payload).head? = some MSG_TX_REQUEST := congrArg some htype
      unfold EngineServer.handleRequest at hhandle
      split at hhandle
      next =>
        cases hhandle
        exact Speaking.quiet hspeaks (hlines _) (.undefined rfl rfl)
      next req hreq =>
        split at hhandle
        next =>
          cases hhandle
          exact Speaking.finish hspeaks (hlines _) (.refused hhead hreq)
            (hbetween _ (by simp) (by simp))
        next q hq =>
          cases hhandle
          exact Speaking.finish hspeaks (hlines _) (.accepted hhead hreq)
            (hbetween _ (by simp) (by simp))
    next hnotRequest =>
      split at hhandle
      next htype =>
        rw [hdirect.create (congrArg some htype), if_neg (by decide)] at hhandle
        cases hhandle
        exact Speaking.quiet hspeaks (hlines _) (.undefined rfl rfl)
      next hnotCreate =>
        split at hhandle
        next htype =>
          have hnone : readCorrelationId (msgType :: payload) = none := by
            rcases htype with hmetrics | hbalance
            · exact hdirect.metrics (congrArg some hmetrics)
            · exact hdirect.balance (congrArg some hbalance)
          rw [hnone, if_neg (by decide)] at hhandle
          cases hhandle
          exact Speaking.quiet hspeaks (hlines _) (.undefined rfl rfl)
        next hnotSnapshot =>
          cases hhandle
          refine Speaking.finish hspeaks (hlines _) (.ignored ?_) (hbetween _ (by simp) (by simp))
          intro type hsome hknown
          cases hsome
          simp only [List.mem_cons, List.not_mem_nil, or_false] at hknown
          tauto

/-- A call of the I/O thread, and what it says. -/
theorem call_inv {b : Ledger.Action} {next : List Process.Event → CallPc} (hb : b.isCall = true)
    (hmove : s.move uninitialised = ⟨.call b, next⟩)
    (h : step s (.io uninitialised) = some (s', es)) :
    ∃ e' ees, Ledger.step s.process.engine b = some (e', ees) ∧
      s' = ⟨{ s.process with engine := e' }, next (ees.map .engine)⟩ ∧
      es = (ees.map Process.Event.engine).map .process := by
  obtain ⟨p', pes, hp, rfl, rfl⟩ := io_inv h
  rw [hmove] at hp ⊢
  obtain ⟨e', ees, he, rfl, rfl⟩ := process_call hb hp
  refine ⟨e', ees, he, rfl, ?_⟩
  show announce s.process.ioPc s.process.ioPc ++ _ = _
  rw [announce_self, List.nil_append]

/-- A message was taken, and nothing is done about it yet. -/
theorem begun_speaking (h : step s (.io uninitialised) = some (s', es))
    (hspeaks : Speaks (Exchange later) (lines tr) [.received identity payload])
    (hcall : s.callPc = .none) (hpc : s.process.ioPc = .handle identity payload)
    (hcalm : Calm s.process.engine) : Speaking later s' (tr ++ es) := by
  have hmove : s.move uninitialised = handle uninitialised payload := by
    unfold move
    rw [hcall, hpc]
  rcases handle_cases uninitialised payload with ⟨req, hhead, hparse, hcreate⟩ |
    ⟨corrId, hhead, hread, hmetrics⟩ | ⟨corrId, hhead, hread, hbalance⟩ | ⟨hdirect, hio⟩
  · obtain ⟨e', ees, he, rfl, rfl⟩ := call_inv rfl (hmove.trans hcreate) h
    cases he
    have hone : s.process.engine.creating ++ [(req, accountId s.process.engine.uuidCounter)] =
        [(req, accountId s.process.engine.uuidCounter)] := by
      rw [hcalm.creating, List.nil_append]
    exact Speaking.quiet hspeaks rfl (.creating rfl hpc hhead hparse hone hcalm.metrics)
  · obtain ⟨e', ees, he, rfl, rfl⟩ := call_inv rfl (hmove.trans hmetrics) h
    change (if s.process.engine.metrics = .idle then _ else none) = some (e', ees) at he
    rw [if_pos hcalm.metrics] at he
    cases he
    exact Speaking.quiet hspeaks rfl
      (.sampling rfl hpc hhead hread hcalm.creating (by simp) (by simp))
  · obtain ⟨e', ees, he, rfl, rfl⟩ := call_inv rfl (hmove.trans hbalance) h
    cases he
    exact Speaking.say hspeaks rfl (.answering rfl hpc (.snapshot hhead hread) hcalm)
  · exact direct_speaking (hmove.trans hio) hdirect h hspeaks hpc hcalm

/-- `create_account` takes the lock. -/
theorem creating_speaking {id : Bytes} {req : CreateAccountRequest}
    (h : step s (.io uninitialised) = some (s', es))
    (hspeaks : Speaks (Exchange later) (lines tr) [.received identity payload])
    (hcall : s.callPc = .commitAccount) (hpc : s.process.ioPc = .handle identity payload)
    (hhead : payload.head? = some MSG_CREATE_ACCOUNT)
    (hparse : deserializeCreateAccount payload = some req)
    (hone : s.process.engine.creating = [(req, id)]) (hidle : s.process.engine.metrics = .idle)
    (hlater : s'.process.engine = later) : Speaking later s' (tr ++ es) := by
  obtain ⟨e', ees, he, rfl, rfl⟩ := call_inv rfl (by unfold move; rw [hcall]) h
  obtain ⟨c, hc, heq⟩ := Option.map_eq_some_iff.mp he
  rw [hone] at hc
  cases hc
  cases heq
  subst hlater
  have hentered := entered_commit s.process.engine req id 0
  have hcorr : (Ledger.commitAccount s.process.engine.accounts req id).1.correlationId =
      req.correlationId := by
    unfold Ledger.commitAccount
    split <;> rfl
  refine Speaking.say hspeaks rfl
    (.answering rfl hpc (.created hhead hparse hcorr hentered) ⟨?_, hidle⟩)
  show s.process.engine.creating.eraseIdx 0 = []
  rw [hone]
  rfl

/-- `get_metrics_sample` goes on. -/
theorem sampling_speaking {corrId : Uuid} (h : step s (.io uninitialised) = some (s', es))
    (hspeaks : Speaks (Exchange later) (lines tr) [.received identity payload])
    (hcall : s.callPc = .sampling corrId) (hpc : s.process.ioPc = .handle identity payload)
    (hhead : payload.head? = some MSG_METRICS_REQUEST)
    (hread : readCorrelationId payload = some corrId)
    (hnone : s.process.engine.creating = [])
    (hstore : s.process.engine.metrics ≠ .storeLatency) : Speaking later s' (tr ++ es) := by
  obtain ⟨e', ees, he, rfl, rfl⟩ := call_inv rfl (by unfold move; rw [hcall]) h
  change s.process.engine.metricsStep = some (e', ees) at he
  unfold LedgerEngine.metricsStep at he
  split at he
  next => cases he
  next =>
    cases he
    exact Speaking.quiet hspeaks rfl (.sampling rfl hpc hhead hread hnone (by simp) (by simp))
  next =>
    cases he
    exact Speaking.quiet hspeaks rfl (.sampling rfl hpc hhead hread hnone (by simp) (by simp))
  next =>
    cases he
    exact Speaking.say hspeaks rfl (.answering rfl hpc (.sampled hhead hread) ⟨hnone, rfl⟩)
  next hmetrics => exact absurd hmetrics hstore

/-- `io_loop()` sends the answer of the call. -/
theorem handle_answers {srv : EngineServer} {message : Bytes} {line : Line}
    (h : Exchange later [.received identity payload, line, .sent identity message]) :
    srv.handle message uninitialised identity payload =
      ({ srv with pc := .drain }, [.answered identity message]) := by
  have hcons : ∀ {type : UInt8}, payload.head? = some type → ∃ rest, payload = type :: rest := by
    intro type hhead
    exact ⟨_, (List.eq_cons_of_mem_head? hhead)⟩
  cases h with
  | created hhead hparse hcorr hentered =>
      obtain ⟨rest, rfl⟩ := hcons hhead
      unfold EngineServer.handle
      dsimp only
      rw [if_neg (by decide), if_pos rfl, if_pos (by rw [hparse]; rfl)]
  | sampled hhead hread | snapshot hhead hread =>
      obtain ⟨rest, rfl⟩ := hcons hhead
      unfold EngineServer.handle
      dsimp only
      rw [if_neg (by decide), if_neg (by decide), if_pos (by decide),
        if_pos (by rw [hread]; rfl)]

/-- The call has returned, and the answer is sent. -/
theorem answering_speaking {message : Bytes} {resets : Bool} {line : Line}
    (h : step s (.io uninitialised) = some (s', es))
    (hspeaks : Speaks (Exchange later) (lines tr) [.received identity payload, line])
    (hcall : s.callPc = .answer message resets) (hpc : s.process.ioPc = .handle identity payload)
    (hexchange : Exchange later [.received identity payload, line, .sent identity message])
    (hcalm : Calm s.process.engine) : Speaking later s' (tr ++ es) := by
  obtain ⟨p', pes, hp, rfl, rfl⟩ := io_inv h
  have hmove : s.move uninitialised =
      ⟨.io message uninitialised, fun _ => if resets = true then .resetWindow else .none⟩ := by
    unfold move
    rw [hcall]
  rw [hmove] at hp ⊢
  obtain ⟨srv, ios, hhandle, rfl, rfl⟩ := direct_inv hp hpc
  rw [handle_answers hexchange] at hhandle
  cases hhandle
  refine Speaking.finish hspeaks ?_ hexchange ?_
  · rw [hpc]
    rfl
  · cases resets with
    | true => exact .resetting rfl rfl ⟨hcalm.creating, hcalm.metrics⟩
    | false =>
        exact .between rfl (fun _ _ hat => by cases hat) (fun hat => by cases hat)
          ⟨hcalm.creating, hcalm.metrics⟩

/-- **Every step of the I/O thread goes on with the exchange.** -/
theorem io_speaking (hdrain : s.process.drainPendingIdentities = ∅)
    (h : step s (.io uninitialised) = some (s', es)) (hlater : s'.process.engine = later)
    (hs : Speaking later s tr) :
    Speaking later s' (tr ++ es) := by
  obtain ⟨rest, hspeaks, hopen⟩ := hs
  cases hopen with
  | between hcall hhandle hread hcalm =>
      exact between_speaking hdrain h hspeaks hcall hhandle hread hcalm
  | begun hcall hpc hcalm => exact begun_speaking h hspeaks hcall hpc hcalm
  | undefined hcall hpc =>
      have hmove : s.move uninitialised = ⟨.io [] uninitialised, fun _ => .none⟩ := by
        unfold move
        rw [hcall, hpc]
      obtain ⟨p', pes, hp, rfl, rfl⟩ := io_inv h
      rw [hmove] at hp
      obtain ⟨srv, ios, hio, -, -⟩ := process_io hp
      have hserver : s.process.server.pc = .undefinedRead := hpc
      unfold EngineServer.ioStep at hio
      rw [hserver] at hio
      cases hio
  | creating hcall hpc hhead hparse hone hidle =>
      exact creating_speaking h hspeaks hcall hpc hhead hparse hone hidle hlater
  | sampling hcall hpc hhead hread hnone hbusy hstore =>
      exact sampling_speaking h hspeaks hcall hpc hhead hread hnone hstore
  | answering hcall hpc hexchange hcalm =>
      exact answering_speaking h hspeaks hcall hpc hexchange hcalm
  | resetting hcall hpc hcalm =>
      obtain ⟨e', ees, he, rfl, rfl⟩ := call_inv rfl (by unfold move; rw [hcall]) h
      change (if s.process.engine.metrics = .idle then _ else none) = some (e', ees) at he
      rw [if_pos hcalm.metrics] at he
      cases he
      exact Speaking.quiet hspeaks rfl (.storing rfl hpc hcalm.creating rfl)
  | storing hcall hpc hnone hstore =>
      obtain ⟨e', ees, he, rfl, rfl⟩ := call_inv rfl (by unfold move; rw [hcall]) h
      change s.process.engine.metricsStep = some (e', ees) at he
      unfold LedgerEngine.metricsStep at he
      rw [hstore] at he
      cases he
      exact Speaking.quiet hspeaks rfl
        (.between rfl (by simp [hpc]) (by simp [hpc]) ⟨hnone, rfl⟩)

end Io

end Steps

/-! ## §7. Every run. -/

/-- The drain looks its keys up in an empty map. -/
theorem run_drains_nothing {wal : Wal.WriteAheadLog} {acts : List Process.Action}
    {t : Traced Process Process.Event} (h : Process.runProcess wal acts = some t) :
    t.state.drainPendingIdentities = ∅ := by
  obtain ⟨bs, hserver⟩ := Process.run_server h
  have hempty := run_drain_empty (visits_end hserver)
  exact hempty

/-- Nothing is said when the process starts. -/
theorem started_opening (wal : Wal.WriteAheadLog) (later : LedgerEngine) :
    Opening later (started wal) [] := by
  refine .between rfl ?_ ?_ ⟨rfl, rfl⟩
  · intro identity payload hpc
    cases hpc
  · intro hpc
    cases hpc

theorem Speaking.mono {e e' : LedgerEngine} {s : Serving} {tr : List Event} (h : Speaking e s tr)
    (hkept : ∀ req resp, Entered e req resp → Entered e' req resp) : Speaking e' s tr := by
  obtain ⟨rest, ⟨blocks, htr, hblocks⟩, hopen⟩ := h
  refine ⟨rest, ⟨blocks, htr, fun b hb => (hblocks b hb).mono hkept⟩, ?_⟩
  cases hopen with
  | between hcall hhandle hread hcalm => exact .between hcall hhandle hread hcalm
  | begun hcall hpc hcalm => exact .begun hcall hpc hcalm
  | undefined hcall hpc => exact .undefined hcall hpc
  | creating hcall hpc hhead hparse hone hidle =>
      exact .creating hcall hpc hhead hparse hone hidle
  | sampling hcall hpc hhead hread hone hbusy hstore =>
      exact .sampling hcall hpc hhead hread hone hbusy hstore
  | answering hcall hpc hexchange hcalm => exact .answering hcall hpc (hexchange.mono hkept) hcalm
  | resetting hcall hpc hcalm => exact .resetting hcall hpc hcalm
  | storing hcall hpc hone hstore => exact .storing hcall hpc hone hstore

/-- No step of the process removes an account that was reported. -/
theorem entered_step {wal : Wal.WriteAheadLog} {bs : List Process.Action} {p p' : Process}
    {tr es : List Process.Event} {b : Process.Action}
    (h : Process.runProcess wal bs = some ⟨p, tr⟩) (hstep : Process.step p b = some (p', es)) :
    ∀ req resp, Entered p.engine req resp → Entered p'.engine req resp := by
  obtain ⟨cs, hengine⟩ := Process.run_engine h
  intro req resp hentered
  rcases Process.step_engine hstep with ⟨hsame, -⟩ | ⟨c, hc⟩
  · rw [hsame]
    exact hentered
  · exact hentered.step (fun hk => run_identifiers hengine hk) (Ledger.step_effect hc)

/-- **One message at a time.**  Over every run of the two threads the messages
that come in, the calls they cause and the messages that go out are a sequence
of exchanges. -/
theorem run_speaking {wal : Wal.WriteAheadLog} {acts : List Action} {t : Traced Serving Event}
    (h : runServing wal acts = some t) : Speaking t.state.process.engine t.state t.trace := by
  have hinv : (∃ bs, Process.runProcess wal bs = some ⟨t.state.process, processTrace t.trace⟩) ∧
      Speaking t.state.process.engine t.state t.trace := by
    refine traced_invariant (fun s tr =>
      (∃ bs, Process.runProcess wal bs = some ⟨s.process, processTrace tr⟩) ∧
        Speaking s.process.engine s tr) ?_ ⟨⟨[], rfl⟩, [], speaks_nil, started_opening wal _⟩ h
    intro s tr a s' es hs hstep
    obtain ⟨⟨bs, hbs⟩, hspeaking⟩ := hs
    obtain ⟨b, hb⟩ := step_process hstep
    have hspeaks := hspeaking.mono (entered_step hbs hb)
    refine ⟨⟨bs ++ [b], ?_⟩, ?_⟩
    · rw [Process.runProcess, run_snoc, show run _ _ bs = some _ from hbs]
      exact traced_eq_some.mpr ⟨processTrace es, hb, List.filterMap_append⟩
    · by_cases hio : ∃ uninitialised, a = .io uninitialised
      · obtain ⟨uninitialised, rfl⟩ := hio
        exact io_speaking (run_drains_nothing hbs) hstep rfl hspeaks
      · obtain ⟨hsame, hcall, hquiet⟩ :=
          others_untouched (fun uninitialised heq => hio ⟨uninitialised, heq⟩) hstep
        obtain ⟨rest, hrest, hopen⟩ := hspeaks
        refine Speaking.quiet hrest hquiet ?_
        have hmoved := hopen.untouched hsame
        rw [← hcall] at hmoved
        exact hmoved
  exact hinv.2

def Line.asReceived : Line → Option (Bytes × Bytes)
  | .received identity payload => some (identity, payload)
  | _ => none

def Line.asSent : Line → Option (Bytes × Bytes)
  | .sent identity message => some (identity, message)
  | _ => none

/-- The messages taken from the socket, with the identities they came from. -/
def received (tr : List Event) : List (Bytes × Bytes) := (lines tr).filterMap Line.asReceived

/-- The messages sent, with the identities they went to. -/
def sent (tr : List Event) : List (Bytes × Bytes) := (lines tr).filterMap Line.asSent

/-- The lines of the record that are the exchange over a message, and what is sent
in it. -/
def Answers (e : LedgerEngine) (b : List Line)
    (q : (Bytes × Bytes) × Option (Bytes × Bytes)) : Prop :=
  Exchange e b ∧ About Line.asReceived Line.asSent b q

/-- Nothing is sent before the end of an exchange. -/
theorem Opening.quiet {e : LedgerEngine} {s : Serving} {rest : List Line} (h : Opening e s rest) :
    (rest.filterMap Line.asReceived).length ≤ 1 ∧ rest.filterMap Line.asSent = [] := by
  cases h with
  | between | resetting | storing | begun | undefined | creating | sampling =>
      exact ⟨by simp [Line.asReceived], rfl⟩
  | answering hcall hpc hexchange hcalm =>
      cases hexchange <;> exact ⟨by simp [Line.asReceived], rfl⟩

/-- A request in an exchange that is open has not been taken. -/
theorem Opening.unaccepted {e : LedgerEngine} {s : Serving} {rest : List Line}
    (h : Opening e s rest) (identity : Bytes) (req : TransactionRequest) :
    .accepted identity req ∉ rest := by
  cases h with
  | between | resetting | storing | begun | undefined | creating | sampling => simp
  | answering hcall hpc hexchange hcalm => cases hexchange <;> simp

/-- The finished exchanges have all that was sent, and all requests that were
taken. -/
theorem run_exchanges {wal : Wal.WriteAheadLog} {acts : List Action} {t : Traced Serving Event}
    (h : runServing wal acts = some t) :
    ∃ (blocks : List (List Line)) (rest : List Line), lines t.trace = blocks.flatten ++ rest ∧
      (∀ b ∈ blocks, Exchange t.state.process.engine b) ∧
      rest.filterMap Line.asSent = [] ∧ ∀ identity req, .accepted identity req ∉ rest := by
  obtain ⟨rest, ⟨blocks, htr, hblocks⟩, hopen⟩ := run_speaking h
  exact ⟨blocks, rest, htr, hblocks, hopen.quiet.2, hopen.unaccepted⟩

/-- A message that was sent ends an exchange. -/
theorem sent_exchange {wal : Wal.WriteAheadLog} {acts : List Action} {t : Traced Serving Event}
    (h : runServing wal acts = some t) {identity message : Bytes}
    (hsent : (identity, message) ∈ sent t.trace) :
    ∃ b, Exchange t.state.process.engine b ∧ .sent identity message ∈ b ∧
      ∀ line ∈ b, line ∈ lines t.trace := by
  obtain ⟨blocks, rest, htr, hblocks, hquiet, -⟩ := run_exchanges h
  unfold sent at hsent
  rw [htr, List.filterMap_append, hquiet, List.append_nil, List.mem_filterMap] at hsent
  obtain ⟨line, hline, hasSent⟩ := hsent
  obtain ⟨b, hb, hmem⟩ := List.mem_flatten.mp hline
  refine ⟨b, hblocks b hb, ?_, ?_⟩
  · cases line with
    | sent i m =>
        cases hasSent
        exact hmem
    | received | accepted | created | sampled | snapshot => cases hasSent
  · intro line' hline'
    rw [htr]
    exact List.mem_append_left rest (List.mem_flatten.mpr ⟨b, hb, hline'⟩)

/-- An answer to a request says that the queue is full. -/
theorem Exchange.refused_of_head {e : LedgerEngine} {b : List Line} (h : Exchange e b)
    {identity message : Bytes} (hsent : .sent identity message ∈ b)
    (htype : message.head? = some MSG_TX_RESPONSE) :
    ∃ payload req uninitialised, deserializeRequest payload = some req ∧
      message = serializeResponse (queueFullResponse req.correlationId uninitialised) ∧
      b = [.received identity payload, .sent identity message] := by
  cases h with
  | accepted hhead hparse => simp at hsent
  | ignored hother => simp at hsent
  | refused hhead hparse =>
      simp only [List.mem_cons, reduceCtorEq, List.not_mem_nil, or_false, false_or] at hsent
      cases hsent
      exact ⟨_, _, _, hparse, rfl, rfl⟩
  | created | sampled | snapshot =>
      -- these begin with another byte
      simp only [List.mem_cons, reduceCtorEq, List.not_mem_nil, or_false, false_or] at hsent
      cases hsent
      cases htype

/-- **No outcome of a transaction is ever sent.**  The only answer a request can
get is that the queue is full. -/
theorem outcomes_unsent {wal : Wal.WriteAheadLog} {acts : List Action}
    {t : Traced Serving Event} (h : runServing wal acts = some t) {identity message : Bytes}
    (hsent : (identity, message) ∈ sent t.trace) (htype : message.head? = some MSG_TX_RESPONSE) :
    ∃ correlationId uninitialised,
      message = serializeResponse (queueFullResponse correlationId uninitialised) := by
  obtain ⟨b, hexchange, hmem, -⟩ := sent_exchange h hsent
  obtain ⟨payload, req, uninitialised, -, hmessage, -⟩ := hexchange.refused_of_head hmem htype
  exact ⟨req.correlationId, uninitialised, hmessage⟩

/-- **What is reported as created was asked for, and is there.** -/
theorem created_entered {wal : Wal.WriteAheadLog} {acts : List Action} {t : Traced Serving Event}
    (h : runServing wal acts = some t) {identity message : Bytes}
    (hsent : (identity, message) ∈ sent t.trace)
    (htype : message.head? = some MSG_CREATE_RESPONSE) :
    ∃ payload req resp, (identity, payload) ∈ received t.trace ∧
      payload.head? = some MSG_CREATE_ACCOUNT ∧ deserializeCreateAccount payload = some req ∧
      resp.correlationId = req.correlationId ∧ message = serializeCreateAccountResponse resp ∧
      Entered t.state.process.engine req resp := by
  obtain ⟨b, hexchange, hmem, hlines⟩ := sent_exchange h hsent
  cases hexchange with
  | accepted hhead hparse => simp at hmem
  | ignored hother => simp at hmem
  | created hhead hparse hcorr hentered =>
      simp only [List.mem_cons, reduceCtorEq, List.not_mem_nil, or_false, false_or] at hmem
      cases hmem
      refine ⟨_, _, _, ?_, hhead, hparse, hcorr, rfl, hentered⟩
      exact List.mem_filterMap.mpr ⟨_, hlines _ List.mem_cons_self, rfl⟩
  | refused | sampled | snapshot =>
      simp only [List.mem_cons, reduceCtorEq, List.not_mem_nil, or_false, false_or] at hmem
      cases hmem
      cases htype

/-- The process itself receives nothing. -/
theorem received_process (pes : List Process.Event) :
    (lines (pes.map Event.process)).filterMap Line.asReceived = [] := by
  induction pes with
  | nil => rfl
  | cons e pes ih =>
      have hhead : (Event.process e).lines.filterMap Line.asReceived = [] := by
        cases e with
        | io e =>
            cases e with
            | accepted | answered => rfl
            | drained envelope sends =>
                show (sends.map _).filterMap _ = []
                rw [List.filterMap_map, List.filterMap_eq_nil_iff]
                intro m _
                rfl
        | engine e => cases e <;> rfl
      show ((Event.process e).lines ++ lines (pes.map Event.process)).filterMap _ = []
      rw [List.filterMap_append, hhead, ih]
      rfl

/-- The I/O thread makes a step of its loop, or a call. -/
theorem move_kinds (s : Serving) (uninitialised : Uuid) :
    (∃ message, (s.move uninitialised).action = .io message uninitialised) ∨
      ∃ b, (s.move uninitialised).action = .call b := by
  unfold move
  split
  next =>
    split
    next identity payload hpc =>
      rcases handle_cases uninitialised payload with ⟨req, -, -, hcase⟩ | ⟨corrId, -, -, hcase⟩ |
        ⟨corrId, -, -, hcase⟩ | ⟨-, hcase⟩
      · exact .inr ⟨_, by rw [hcase]⟩
      · exact .inr ⟨_, by rw [hcase]⟩
      · exact .inr ⟨_, by rw [hcase]⟩
      · exact .inl ⟨_, by rw [hcase]⟩
    next => exact .inl ⟨_, rfl⟩
  next => exact .inr ⟨_, rfl⟩
  next => exact .inr ⟨_, rfl⟩
  next => exact .inl ⟨_, rfl⟩
  next => exact .inr ⟨_, rfl⟩
  next => exact .inr ⟨_, rfl⟩

/-- Only the I/O thread and the clients touch the socket. -/
theorem input_of_others {p p' : Process} {b : Process.Action} {pes : List Process.Event}
    (hio : ∀ answer uninitialised, b ≠ .io answer uninitialised)
    (harrive : ∀ frames, b ≠ .arrive frames) (h : Process.step p b = some (p', pes)) :
    p'.input = p.input := by
  cases b with
  | io answer uninitialised => exact absurd rfl (hio answer uninitialised)
  | arrive frames => exact absurd rfl (harrive frames)
  | engine now os =>
      obtain ⟨r, -, heq⟩ := Option.map_eq_some_iff.mp h
      cases heq
      rfl
  | call c =>
      change (if c.isCall = true then _ else none) = some (p', pes) at h
      split at h
      next =>
        obtain ⟨r, -, heq⟩ := Option.map_eq_some_iff.mp h
        cases heq
        rfl
      next => cases h
  | stop =>
      cases h
      rfl

/-- What a step takes from the socket is shown as received. -/
theorem step_receives {s s' : Serving} {a : Action} {es : List Event}
    (h : step s a = some (s', es)) (harrive : ∀ frames, a ≠ .arrive frames) :
    (s'.process.input = s.process.input ∧ received es = []) ∨
      ∃ identity delimiter payload,
        s.process.input = identity :: delimiter :: payload :: s'.process.input ∧
        received es = [(identity, payload)] := by
  cases a with
  | arrive frames => exact absurd rfl (harrive frames)
  | engine | stop | shutdown =>
      obtain ⟨hsame, -, hquiet⟩ := others_untouched (fun _ heq => by cases heq) h
      refine .inl ⟨?_, ?_⟩
      · obtain ⟨p', pes, hp, rfl, -⟩ := others_inv h
        exact input_of_others (fun _ _ heq => by cases heq) (fun _ heq => by cases heq) hp
      · unfold received
        rw [hquiet]
        rfl
  | io uninitialised =>
      obtain ⟨p', pes, hp, rfl, rfl⟩ := io_inv h
      have hreceived : received (announce s.process.ioPc p'.ioPc ++ pes.map .process) =
          received (announce s.process.ioPc p'.ioPc) := by
        unfold received
        rw [lines_append, List.filterMap_append, received_process, List.append_nil]
      rw [hreceived]
      rcases move_kinds s uninitialised with ⟨message, hkind⟩ | ⟨b, hkind⟩
      · rw [hkind] at hp
        obtain ⟨ios, hio, -, -⟩ := Process.step_io hp
        cases (ioStep_atSocket hio).2 with
        | stays hinput hpoll =>
            refine .inl ⟨hinput, ?_⟩
            have hat : s.process.ioPc = .poll → p'.ioPc = .drain := hpoll
            unfold announce
            split
            next hbefore hafter => cases (hat hbefore).symm.trans hafter
            next => rfl
        | takes hinput hpoll hpc =>
            refine .inr ⟨_, _, _, hinput, ?_⟩
            have hbefore : s.process.ioPc = .poll := hpoll
            have hafter : p'.ioPc = _ := hpc
            rw [hbefore, hafter]
            rfl
      · rw [hkind] at hp
        have hinput := input_of_others (fun _ _ heq => by cases heq) (fun _ heq => by cases heq) hp
        obtain ⟨ees, -, -, hpc, -⟩ := Process.step_call hp
        refine .inl ⟨hinput, ?_⟩
        rw [hpc, announce_self]
        rfl

/-- **The server receives the messages in line**, if each has its three frames. -/
theorem step_receives_first {s s' : Serving} {a : Action} {es : List Event}
    (h : step s a = some (s', es)) (harrive : ∀ frames, a ≠ .arrive frames)
    {ms : List (Bytes × Bytes)}
    (hms : s.process.input = ms.flatMap (fun m => [m.1, [], m.2])) :
    ∃ first rest, ms = first ++ rest ∧
      s'.process.input = rest.flatMap (fun m => [m.1, [], m.2]) ∧ received es = first := by
  rcases step_receives h harrive with
    ⟨hinput, hnone⟩ | ⟨identity, delimiter, payload, hinput, hone⟩
  · exact ⟨[], ms, rfl, hinput.trans hms, hnone⟩
  · -- the frames taken are those of the first message
    rw [hms] at hinput
    cases ms with
    | nil => cases hinput
    | cons m ms =>
        obtain ⟨i, p⟩ := m
        simp only [List.flatMap_cons, List.cons_append, List.nil_append,
          List.cons.injEq] at hinput
        obtain ⟨rfl, -, rfl, hrest⟩ := hinput
        exact ⟨[(i, p)], ms, rfl, hrest.symm, hone⟩

/-- **BETWEEN ITS STEPS THE I/O THREAD WAITS FOR ITS CLIENTS ONLY.**  In every
state that is reached it can take its next step, unless it is at its end or waits
for the rest of a message: the calls it makes are always ready for their next
part, and no queue is waited for. -/
theorem serving_enabled {wal : Wal.WriteAheadLog} {acts : List Action}
    {t : Traced Serving Event} (h : runServing wal acts = some t) {uninitialised : Uuid}
    (hnone : step t.state (.io uninitialised) = none) :
    t.state.process.ioPc = .returned ∨ t.state.process.ioPc = .undefinedRead ∨
      t.state.process.server.Blocked := by
  obtain ⟨rest, -, hopen⟩ := run_speaking h
  have hstuck : Process.step t.state.process (t.state.move uninitialised).action = none :=
    Option.map_eq_none_iff.mp hnone
  have hmoves : ∀ {message : Bytes} {next : List Process.Event → CallPc},
      t.state.move uninitialised = ⟨.io message uninitialised, next⟩ →
      t.state.process.ioPc = .returned ∨ t.state.process.ioPc = .undefinedRead ∨
        t.state.process.server.Blocked := by
    intro message next hmove
    rw [hmove] at hstuck
    exact ioStep_enabled (Option.map_eq_none_iff.mp hstuck)
  have hcalls : ∀ {b : Ledger.Action} {next : List Process.Event → CallPc}, b.isCall = true →
      t.state.move uninitialised = ⟨.call b, next⟩ →
      Ledger.step t.state.process.engine b = none := by
    intro b next hb hmove
    rw [hmove] at hstuck
    change (if b.isCall = true then _ else none) = none at hstuck
    rw [if_pos hb] at hstuck
    exact Option.map_eq_none_iff.mp hstuck
  cases hopen with
  | between hcall hhandle hread hcalm =>
      exact hmoves (move_between hcall hhandle)
  | undefined hcall hpc => exact .inr (.inl hpc)
  | @begun identity payload hcall hpc hcalm =>
      have hmove : t.state.move uninitialised = handle uninitialised payload := by
        unfold move
        rw [hcall, hpc]
      rcases handle_cases uninitialised payload with ⟨req, -, -, hcase⟩ | ⟨corrId, -, -, hcase⟩ |
        ⟨corrId, -, -, hcase⟩ | ⟨-, hcase⟩
      · cases hcalls rfl (hmove.trans hcase)
      · have hidle := hcalls rfl (hmove.trans hcase)
        change (if t.state.process.engine.metrics = .idle then _ else none) = none at hidle
        rw [if_pos hcalm.metrics] at hidle
        cases hidle
      · cases hcalls rfl (hmove.trans hcase)
      · exact hmoves (hmove.trans hcase)
  | creating hcall hpc hhead hparse hone hidle =>
      have hcommit := hcalls rfl (by unfold move; rw [hcall])
      change (t.state.process.engine.creating[0]?).map _ = none at hcommit
      rw [hone] at hcommit
      cases hcommit
  | sampling hcall hpc hhead hread hone hbusy hstore =>
      have hmetrics := hcalls rfl (by unfold move; rw [hcall])
      change t.state.process.engine.metricsStep = none at hmetrics
      unfold LedgerEngine.metricsStep at hmetrics
      split at hmetrics
      next hidle => exact absurd hidle hbusy
      all_goals cases hmetrics
  | answering hcall hpc hexchange hcalm => exact hmoves (by unfold move; rw [hcall])
  | resetting hcall hpc hcalm =>
      have hreset := hcalls rfl (by unfold move; rw [hcall])
      change (if t.state.process.engine.metrics = .idle then _ else none) = none at hreset
      rw [if_pos hcalm.metrics] at hreset
      cases hreset
  | storing hcall hpc hone hstore =>
      have hmetrics := hcalls rfl (by unfold move; rw [hcall])
      change t.state.process.engine.metricsStep = none at hmetrics
      unfold LedgerEngine.metricsStep at hmetrics
      rw [hstore] at hmetrics
      cases hmetrics

/-- A message that is cut short by its client. -/
def cutShort : List Action := [.arrive [[7], []], .io Uuid.zero]

/-- The thread waits for the rest. -/
theorem cutShort_waits :
    ∃ t, runServing newLog cutShort = some t ∧
      (t.state.process.ioPc = .returned ∨ t.state.process.ioPc = .undefinedRead ∨
        t.state.process.server.Blocked) := by
  have hrun : (runServing newLog cutShort).map (fun t => (step t.state (.io Uuid.zero)).isNone) =
      some true := by
    decide +kernel
  obtain ⟨t, ht, heq⟩ := Option.map_eq_some_iff.mp hrun
  exact ⟨t, ht, serving_enabled ht (Option.isNone_iff_eq_none.mp heq)⟩

end Serving

end ZeroLGR.Server
