/-
  ZeroLGR.Ledger.Engine — `LedgerEngine`, its thread, and the calls from outside.

  `run()` of engine/src/ledger.cpp is taken one access to shared state at a
  time: `Pc` is where the engine thread stands in its loop, with its local
  variables.  Between any two of these steps the I/O thread may push a request,
  take a reply, create accounts, take a snapshot or a metrics sample, reset the
  metrics window or shut the engine down.
  `create_account` draws its identifier before it takes the lock, so it is two
  steps.  The two ring buffers are bounded queues of 1023 elements, which is
  what `SPSCRingBuffer<T, 1024>` refines.

    • `serializeForWal`, `generateUuid`, `errorMessage` — what `run()` calls,
    • `Pc`, `LedgerEngine`, `Event`, `Action`, `step` — the machine,
    • `Aside`, `Effect`, `step_effect` — everything a step can do, once and for
      all: steps with no request in hand, and one rule for each other step.
-/
import ZeroLGR.Ledger.Accounts
import ZeroLGR.RingBuffer.Refinement
import ZeroLGR.Wal.Session

namespace ZeroLGR.Ledger

open Transition

/-! ## §1. What the loop calls. -/

/-- The bytes of a 64-bit integer in memory. -/
def le64 (v : UInt64) : Bytes := Bytes.toLE 8 v.toNat

/-- `append_string`: a 32-bit length and the bytes. -/
def appendString (s : Bytes) : Bytes := Wal.le32 (UInt32.ofNat s.length) ++ s

@[simp] theorem length_le64 (v : UInt64) : (le64 v).length = 8 := Bytes.length_toLE 8 v.toNat

@[simp] theorem length_appendString (s : Bytes) : (appendString s).length = 4 + s.length := by
  rw [appendString, List.length_append, Wal.length_le32]

theorem ofLE_le64 (v : UInt64) : Bytes.ofLE (le64 v) = v.toNat :=
  Bytes.ofLE_toLE_of_lt v.toNat_lt

/-- Eight bytes are those of the number they are read as. -/
theorem le64_ofLE {bs : Bytes} (h : bs.length = 8) : le64 (UInt64.ofNat (Bytes.ofLE bs)) = bs := by
  have hlt := Bytes.ofLE_lt bs
  rw [h] at hlt
  unfold le64
  rw [UInt64.toNat_ofNat_of_lt' hlt, ← h, Bytes.toLE_ofLE]

/-- Eight bytes are the word they were written from. -/
theorem ofLE_le64_toInt64 (v : Int64) :
    (UInt64.ofNat (Bytes.ofLE (le64 v.toUInt64))).toInt64 = v := by
  rw [ofLE_le64, UInt64.ofNat_toNat]
  exact Int64.toInt64_toUInt64 v

/-- `serialize_for_wal`, at the reading `nowNs` of the system clock. -/
def serializeForWal (req : TransactionRequest) (transactionId : Uuid) (nowNs : Int64) : Bytes :=
  transactionId.bytes ++ req.correlationId.bytes ++ le64 req.amountMinor.toUInt64 ++
    appendString req.debitAccountId ++ appendString req.creditAccountId ++
    appendString req.idempotencyKey ++ appendString req.description ++
    appendString req.currency ++ appendString req.stripeChargeId ++ le64 nowNs.toUInt64

/-- `generate_uuid`, when `k` counter values were drawn before: the reading of
the steady clock, then the counter. -/
def generateUuid (now : Int64) (k : Nat) : Uuid where
  bytes := le64 now.toUInt64 ++ Bytes.toLE 8 (counterValue k)
  length_eq := by simp [le64]

/-- `elapsed_us` of two readings in nanoseconds. -/
def elapsedUs (start stop : Int64) : Int64 := (stop - start) / 1000

/-- The message of a response that is not OK. -/
def errorMessage : TxStatus → Bytes
  | .ok => []
  | .errInsufficientFunds => ascii "Insufficient funds in debit account"
  | .errAccountNotFound => ascii "Debit or credit account not found"
  | .errInvariantViolated => ascii "Double-entry invariant would be violated"
  | .errInternal => ascii "Internal engine error"

/-! ## §2. The state. -/

/-- Where the engine thread stands in `run()`.  It has `terminated` when an
exception leaves the loop, with the request it was working on. -/
inductive Pc where
  | loadRunning
  | popRequest
  | findCached (req : TransactionRequest)
  | replyCached (req : TransactionRequest) (resp : TransactionResponse)
  | validate (req : TransactionRequest)
  | generateUuid (req : TransactionRequest) (tStart : Int64)
  | appendWal (req : TransactionRequest) (tStart : Int64) (txId : Uuid)
  | applyTransaction (req : TransactionRequest) (tStart : Int64) (txId : Uuid)
  | buildResponse (req : TransactionRequest) (tStart : Int64) (txId : Uuid) (status : TxStatus)
  | cacheResponse (req : TransactionRequest) (resp : TransactionResponse)
  | pushReply (req : TransactionRequest) (resp : TransactionResponse)
  | countTotal (latency : Int64)
  | countWindow (latency : Int64)
  | addLatency (latency : Int64)
  | returned
  | terminated (req : TransactionRequest)
  deriving DecidableEq

/-- `MetricsSample`.  `tps` and `avg_latency_us` are `double`s: the count of the
window, and its latency divided by the count. -/
structure MetricsSample where
  txCount : UInt64
  windowCount : UInt64
  windowLatency : UInt64
  invariantOk : Bool
  deriving DecidableEq

/-- Where the I/O thread stands in `get_metrics_sample` or
`reset_metrics_window`, one access to an atomic at a time. -/
inductive MetricsPc where
  | idle
  | loadWindow (txCount : UInt64)
  | loadLatency (txCount windowCount : UInt64)
  | checkInvariant (txCount windowCount windowLatency : UInt64)
  | storeLatency
  deriving DecidableEq

/-- The capacity of both queues: `SPSCRingBuffer<T, 1024>::capacity()`. -/
def queueCapacity : Nat := 1023

/-- `LedgerEngine` and its thread.  `uuidCounter` counts the values drawn from
`uuid_counter_`; `creating` holds the calls of `create_account` that have drawn
their identifier and not yet taken the lock. -/
structure LedgerEngine where
  wal : Wal.WriteAheadLog
  running : Bool
  requestQueue : Fifo.Bounded TransactionRequest queueCapacity
  replyQueue : Fifo.Bounded TxResponseEnvelope queueCapacity
  accounts : Accounts
  idempotencyCache : AList (fun _ : Bytes => TransactionResponse)
  txCountTotal : UInt64
  txCountWindow : UInt64
  totalLatencyUsWindow : UInt64
  uuidCounter : Nat
  creating : List (CreateAccountRequest × Bytes)
  metrics : MetricsPc
  pc : Pc

/-- `LedgerEngine(wal)`, with its thread about to enter the loop. -/
def LedgerEngine.init (wal : Wal.WriteAheadLog) : LedgerEngine where
  wal := wal
  running := true
  requestQueue := Fifo.Bounded.empty
  replyQueue := Fifo.Bounded.empty
  accounts := ∅
  idempotencyCache := ∅
  txCountTotal := 0
  txCountWindow := 0
  totalLatencyUsWindow := 0
  uuidCounter := 0
  creating := []
  metrics := .idle
  pc := .loadRunning

/-- What a step shows. -/
inductive Event where
  | popped (req : TransactionRequest)
  | cacheHit (req : TransactionRequest) (resp : TransactionResponse)
  | validated (req : TransactionRequest) (status : TxStatus)
  | appended (req : TransactionRequest) (txId : Uuid) (payload : Bytes)
  | applied (req : TransactionRequest) (txId : Uuid)
  | responded (req : TransactionRequest) (resp : TransactionResponse)
  | cached (req : TransactionRequest) (resp : TransactionResponse)
  | replied (req : TransactionRequest) (resp : TransactionResponse) (pushed : Bool)
  | submitted (req : TransactionRequest)
  | taken (envelope : TxResponseEnvelope)
  | accountCreated (resp : CreateAccountResponse)
  | snapshot (data : BalanceSnapshotData)
  | sampled (sample : MetricsSample)

/-- Who moves.  The engine thread is given the reading of the clock it may take
and the answers of the operating system it may get. -/
inductive Action where
  | engine (now : Int64) (os : Wal.OsReply)
  | submit (req : TransactionRequest)
  | takeReply
  | drawAccountId (req : CreateAccountRequest)
  | commitAccount (i : Nat)
  | getBalanceSnapshot
  | getMetricsSample
  | resetMetricsWindow
  | metrics
  | shutdown

/-! ## §3. The steps. -/

/-- `reply_queue.push`: the result is not looked at, so a reply that does not
fit is gone. -/
def LedgerEngine.pushReply (s : LedgerEngine) (req : TransactionRequest)
    (resp : TransactionResponse) (next : Pc) : LedgerEngine × List Event :=
  match s.replyQueue.enqueue ⟨[], resp⟩ with
  | some q => ({ s with replyQueue := q, pc := next }, [.replied req resp true])
  | none => ({ s with pc := next }, [.replied req resp false])

/-- `wal_.append` inside the loop.  An exception ends the thread. -/
def LedgerEngine.appendWal (s : LedgerEngine) (os : Wal.OsReply) (req : TransactionRequest)
    (tStart : Int64) (txId : Uuid) (payload : Bytes) : LedgerEngine × List Event :=
  match s.wal.append os payload with
  | (.returned _, w) =>
      ({ s with wal := w, pc := .applyTransaction req tStart txId }, [.appended req txId payload])
  | (_, w) => ({ s with wal := w, pc := .terminated req }, [])

/-- One step of `run()`. -/
def LedgerEngine.engineStep (s : LedgerEngine) (now : Int64) (os : Wal.OsReply) :
    Option (LedgerEngine × List Event) :=
  match s.pc with
  | .loadRunning =>
      if s.running = true then some ({ s with pc := .popRequest }, [])
      else some ({ s with pc := .returned }, [])
  | .popRequest =>
      match s.requestQueue.dequeue with
      | none => some ({ s with pc := .loadRunning }, [])
      | some (req, q) => some ({ s with requestQueue := q, pc := .findCached req }, [.popped req])
  | .findCached req =>
      match s.idempotencyCache.lookup req.idempotencyKey with
      | some resp =>
          -- the cached response with the new correlation id
          let answer := { resp with correlationId := req.correlationId }
          some ({ s with pc := .replyCached req answer }, [.cacheHit req answer])
      | none => some ({ s with pc := .validate req }, [])
  | .replyCached req resp => some (s.pushReply req resp .loadRunning)
  | .validate req =>
      let status := validateTransaction s.accounts req
      if status = .ok then
        some ({ s with pc := .generateUuid req now }, [.validated req status])
      else some ({ s with pc := .buildResponse req now Uuid.zero status }, [.validated req status])
  | .generateUuid req tStart =>
      some ({ s with
        uuidCounter := s.uuidCounter + 1
        pc := .appendWal req tStart (Ledger.generateUuid now s.uuidCounter) }, [])
  | .appendWal req tStart txId =>
      some (s.appendWal os req tStart txId (serializeForWal req txId now))
  | .applyTransaction req tStart txId =>
      some ({ s with
        accounts := Ledger.applyTransaction s.accounts req
        pc := .buildResponse req tStart txId .ok }, [.applied req txId])
  | .buildResponse req tStart txId status =>
      let resp : TransactionResponse :=
        { correlationId := req.correlationId, transactionId := txId, status := status
          message := errorMessage status, latencyUs := elapsedUs tStart now }
      some ({ s with pc := .cacheResponse req resp }, [.responded req resp])
  | .cacheResponse req resp =>
      if req.idempotencyKey ≠ [] then
        some ({ s with
          idempotencyCache := s.idempotencyCache.insert req.idempotencyKey resp
          pc := .pushReply req resp }, [.cached req resp])
      else some ({ s with pc := .pushReply req resp }, [])
  | .pushReply req resp => some (s.pushReply req resp (.countTotal resp.latencyUs))
  | .countTotal latency =>
      some ({ s with txCountTotal := s.txCountTotal + 1, pc := .countWindow latency }, [])
  | .countWindow latency =>
      some ({ s with txCountWindow := s.txCountWindow + 1, pc := .addLatency latency }, [])
  | .addLatency latency =>
      some ({ s with
        totalLatencyUsWindow := s.totalLatencyUsWindow + latency.toUInt64
        pc := .loadRunning }, [])
  | .returned => none
  | .terminated _ => none

/-- The next access of a call of `get_metrics_sample` or `reset_metrics_window`
that has begun. -/
def LedgerEngine.metricsStep (s : LedgerEngine) : Option (LedgerEngine × List Event) :=
  match s.metrics with
  | .idle => none
  | .loadWindow txCount =>
      some ({ s with metrics := .loadLatency txCount s.txCountWindow }, [])
  | .loadLatency txCount windowCount =>
      some ({ s with metrics := .checkInvariant txCount windowCount s.totalLatencyUsWindow }, [])
  | .checkInvariant txCount windowCount windowLatency =>
      some ({ s with metrics := .idle },
        [.sampled ⟨txCount, windowCount, windowLatency, Ledger.checkInvariant s.accounts⟩])
  | .storeLatency => some ({ s with totalLatencyUsWindow := 0, metrics := .idle }, [])

/-- One step of the engine thread or one call from outside. -/
def step (s : LedgerEngine) : Action → Option (LedgerEngine × List Event)
  | .engine now os => s.engineStep now os
  | .submit req =>
      (s.requestQueue.enqueue req).map
        (fun q => ({ s with requestQueue := q }, [.submitted req]))
  | .takeReply =>
      s.replyQueue.dequeue.map (fun r => ({ s with replyQueue := r.2 }, [.taken r.1]))
  | .drawAccountId req =>
      some ({ s with
        uuidCounter := s.uuidCounter + 1
        creating := s.creating ++ [(req, accountId s.uuidCounter)] }, [])
  | .commitAccount i =>
      (s.creating[i]?).map (fun c =>
        let done := commitAccount s.accounts c.1 c.2
        ({ s with accounts := done.2, creating := s.creating.eraseIdx i },
          [.accountCreated done.1]))
  | .getBalanceSnapshot => some (s, [.snapshot (getBalanceSnapshot s.accounts)])
  | .getMetricsSample =>
      if s.metrics = .idle then some ({ s with metrics := .loadWindow s.txCountTotal }, [])
      else none
  | .resetMetricsWindow =>
      if s.metrics = .idle then some ({ s with txCountWindow := 0, metrics := .storeLatency }, [])
      else none
  | .metrics => s.metricsStep
  | .shutdown => some ({ s with running := false }, [])

/-- A run of the engine, with everything it shows. -/
abbrev runEngine (s : LedgerEngine) (acts : List Action) :
    Option (Traced LedgerEngine Event) :=
  run (traced step) ⟨s, []⟩ acts

/-! ## §4. What a step can do. -/

/-- Steps that have no request in work and leave accounts, cache, log and
counter alone. -/
inductive Aside (s : LedgerEngine) : LedgerEngine → List Event → Prop
  | enterLoop : s.pc = .loadRunning → s.running = true → Aside s { s with pc := .popRequest } []
  | leaveLoop : s.pc = .loadRunning → s.running ≠ true → Aside s { s with pc := .returned } []
  | queueEmpty : s.pc = .popRequest → s.requestQueue.dequeue = none →
      Aside s { s with pc := .loadRunning } []
  | countTotal {latency : Int64} : s.pc = .countTotal latency →
      Aside s { s with txCountTotal := s.txCountTotal + 1, pc := .countWindow latency } []
  | countWindow {latency : Int64} : s.pc = .countWindow latency →
      Aside s { s with txCountWindow := s.txCountWindow + 1, pc := .addLatency latency } []
  | addLatency {latency : Int64} : s.pc = .addLatency latency →
      Aside s
        { s with
          totalLatencyUsWindow := s.totalLatencyUsWindow + latency.toUInt64, pc := .loadRunning } []
  | submit {req : TransactionRequest} {q} : s.requestQueue.enqueue req = some q →
      Aside s { s with requestQueue := q } [.submitted req]
  | takeReply {envelope : TxResponseEnvelope} {q} : s.replyQueue.dequeue = some (envelope, q) →
      Aside s { s with replyQueue := q } [.taken envelope]
  | snapshot : Aside s s [.snapshot (getBalanceSnapshot s.accounts)]
  | getMetricsSample : s.metrics = .idle →
      Aside s { s with metrics := .loadWindow s.txCountTotal } []
  | loadWindow {txCount : UInt64} : s.metrics = .loadWindow txCount →
      Aside s { s with metrics := .loadLatency txCount s.txCountWindow } []
  | loadLatency {txCount windowCount : UInt64} : s.metrics = .loadLatency txCount windowCount →
      Aside s { s with metrics := .checkInvariant txCount windowCount s.totalLatencyUsWindow } []
  | sample {txCount windowCount windowLatency : UInt64} :
      s.metrics = .checkInvariant txCount windowCount windowLatency →
      Aside s { s with metrics := .idle }
        [.sampled ⟨txCount, windowCount, windowLatency, checkInvariant s.accounts⟩]
  | resetMetricsWindow : s.metrics = .idle →
      Aside s { s with txCountWindow := 0, metrics := .storeLatency } []
  | storeLatency : s.metrics = .storeLatency →
      Aside s { s with totalLatencyUsWindow := 0, metrics := .idle } []
  | shutdown : Aside s { s with running := false } []

/-- **Everything a step can do**, with the conditions under which it does it. -/
inductive Effect (s : LedgerEngine) : Action → LedgerEngine → List Event → Prop
  | aside {a : Action} {s' : LedgerEngine} {es : List Event} : Aside s s' es → Effect s a s' es
  | pop {now os} {req : TransactionRequest} {q} : s.pc = .popRequest →
      s.requestQueue.dequeue = some (req, q) →
      Effect s (.engine now os) { s with requestQueue := q, pc := .findCached req } [.popped req]
  | hit {now os} {req : TransactionRequest} {resp : TransactionResponse} :
      s.pc = .findCached req → s.idempotencyCache.lookup req.idempotencyKey = some resp →
      Effect s (.engine now os)
        { s with pc := .replyCached req { resp with correlationId := req.correlationId } }
        [.cacheHit req { resp with correlationId := req.correlationId }]
  | miss {now os} {req : TransactionRequest} : s.pc = .findCached req →
      s.idempotencyCache.lookup req.idempotencyKey = none →
      Effect s (.engine now os) { s with pc := .validate req } []
  | replyCached {now os} {req : TransactionRequest} {resp : TransactionResponse} {q}
      {pushed : Bool} : s.pc = .replyCached req resp →
      Effect s (.engine now os) { s with replyQueue := q, pc := .loadRunning }
        [.replied req resp pushed]
  | accept {now os} {req : TransactionRequest} : s.pc = .validate req →
      validateTransaction s.accounts req = .ok →
      Effect s (.engine now os) { s with pc := .generateUuid req now } [.validated req .ok]
  | reject {now os} {req : TransactionRequest} {status : TxStatus} : s.pc = .validate req →
      validateTransaction s.accounts req = status → status ≠ .ok →
      Effect s (.engine now os) { s with pc := .buildResponse req now Uuid.zero status }
        [.validated req status]
  | drawTxId {now os} {req : TransactionRequest} {tStart : Int64} :
      s.pc = .generateUuid req tStart →
      Effect s (.engine now os)
        { s with
          uuidCounter := s.uuidCounter + 1
          pc := .appendWal req tStart (generateUuid now s.uuidCounter) } []
  | append {now os} {req : TransactionRequest} {tStart : Int64} {txId : Uuid}
      {seq : Nat} {w : Wal.WriteAheadLog} : s.pc = .appendWal req tStart txId →
      s.wal.append os (serializeForWal req txId now) = (.returned seq, w) →
      Effect s (.engine now os) { s with wal := w, pc := .applyTransaction req tStart txId }
        [.appended req txId (serializeForWal req txId now)]
  | appendThrows {now os} {req : TransactionRequest} {tStart : Int64} {txId : Uuid}
      {w : Wal.WriteAheadLog} : s.pc = .appendWal req tStart txId →
      Effect s (.engine now os) { s with wal := w, pc := .terminated req } []
  | apply {now os} {req : TransactionRequest} {tStart : Int64} {txId : Uuid} :
      s.pc = .applyTransaction req tStart txId →
      Effect s (.engine now os)
        { s with
          accounts := applyTransaction s.accounts req, pc := .buildResponse req tStart txId .ok }
        [.applied req txId]
  | build {now os} {req : TransactionRequest} {tStart : Int64} {txId : Uuid} {status : TxStatus}
      {resp : TransactionResponse} : s.pc = .buildResponse req tStart txId status →
      resp.correlationId = req.correlationId → resp.transactionId = txId →
      resp.status = status → resp.message = errorMessage status →
      Effect s (.engine now os) { s with pc := .cacheResponse req resp } [.responded req resp]
  | cache {now os} {req : TransactionRequest} {resp : TransactionResponse} :
      s.pc = .cacheResponse req resp → req.idempotencyKey ≠ [] →
      Effect s (.engine now os)
        { s with
          idempotencyCache := s.idempotencyCache.insert req.idempotencyKey resp
          pc := .pushReply req resp } [.cached req resp]
  | noCache {now os} {req : TransactionRequest} {resp : TransactionResponse} :
      s.pc = .cacheResponse req resp → req.idempotencyKey = [] →
      Effect s (.engine now os) { s with pc := .pushReply req resp } []
  | reply {now os} {req : TransactionRequest} {resp : TransactionResponse} {q} {pushed : Bool} :
      s.pc = .pushReply req resp →
      Effect s (.engine now os) { s with replyQueue := q, pc := .countTotal resp.latencyUs }
        [.replied req resp pushed]
  | drawAccountId {req : CreateAccountRequest} :
      Effect s (.drawAccountId req)
        { s with
          uuidCounter := s.uuidCounter + 1
          creating := s.creating ++ [(req, accountId s.uuidCounter)] } []
  | commitAccount {i : Nat} {req : CreateAccountRequest} {id : Bytes} :
      s.creating[i]? = some (req, id) →
      Effect s (.commitAccount i)
        { s with
          accounts := (Ledger.commitAccount s.accounts req id).2
          creating := s.creating.eraseIdx i }
        [.accountCreated (Ledger.commitAccount s.accounts req id).1]

/-- The thread has no request in hand. -/
def Pc.idle : Pc → Bool
  | .loadRunning => true
  | .popRequest => true
  | .countTotal _ => true
  | .countWindow _ => true
  | .addLatency _ => true
  | .returned => true
  | _ => false

/-- The event is about no request the thread works on. -/
def Event.silent : Event → Bool
  | .submitted _ => true
  | .taken _ => true
  | .accountCreated _ => true
  | .snapshot _ => true
  | .sampled _ => true
  | _ => false

/-- All of the events are. -/
def Silent (es : List Event) : Prop := ∀ e ∈ es, e.silent = true

/-- A list that no silent event adds to stays as it is. -/
theorem Silent.filterMap {es : List Event} (h : Silent es) {β : Type*} {f : Event → Option β}
    (hf : ∀ e, e.silent = true → f e = none) : es.filterMap f = [] := by
  rw [List.filterMap_eq_nil_iff]
  intro e he
  exact hf e (h e he)

/-- The data of two states agree, whatever their queues, flags and counts are. -/
structure SameData (s s' : LedgerEngine) : Prop where
  accounts : s'.accounts = s.accounts
  cache : s'.idempotencyCache = s.idempotencyCache
  wal : s'.wal = s.wal
  counter : s'.uuidCounter = s.uuidCounter
  creating : s'.creating = s.creating

section Aside

variable {s s' : LedgerEngine} {es : List Event}

theorem Aside.sameData (h : Aside s s' es) : SameData s s' := by
  cases h <;> exact ⟨rfl, rfl, rfl, rfl, rfl⟩

theorem Aside.silent (h : Aside s s' es) : Silent es := by
  unfold Silent
  cases h <;> simp [Event.silent]

theorem Aside.idle (h : Aside s s' es) :
    s'.pc = s.pc ∨ (s.pc.idle = true ∧ s'.pc.idle = true) := by
  cases h with
  | enterLoop hpc | leaveLoop hpc | queueEmpty hpc | countTotal hpc | countWindow hpc
  | addLatency hpc =>
      apply Or.inr
      rw [hpc]
      exact ⟨rfl, rfl⟩
  | submit | takeReply | snapshot | getMetricsSample | loadWindow | loadLatency | sample
  | resetMetricsWindow | storeLatency | shutdown => exact .inl rfl

/-- What is the same at all places without a request in hand does not change. -/
theorem Aside.view (h : Aside s s' es) {β : Type*} {f : Pc → β} {d : β}
    (hf : ∀ pc, pc.idle = true → f pc = d) : f s'.pc = f s.pc := by
  rcases h.idle with heq | ⟨hidle, hidle'⟩
  · rw [heq]
  · rw [hf _ hidle, hf _ hidle']

end Aside

/-- A push into the reply queue changes nothing else. -/
theorem pushReply_eq (s : LedgerEngine) (req : TransactionRequest) (resp : TransactionResponse)
    (next : Pc) :
    ∃ q pushed, s.pushReply req resp next =
      ({ s with replyQueue := q, pc := next }, [.replied req resp pushed]) := by
  unfold LedgerEngine.pushReply
  split
  · exact ⟨_, true, rfl⟩
  · exact ⟨s.replyQueue, false, rfl⟩

theorem engineStep_effect {s s' : LedgerEngine} {now : Int64} {os : Wal.OsReply} {es : List Event}
    (h : s.engineStep now os = some (s', es)) : Effect s (.engine now os) s' es := by
  unfold LedgerEngine.engineStep at h
  -- one case for each place in the loop
  split at h
  next hpc =>
    split at h
    next hrun => cases h; exact .aside (.enterLoop hpc hrun)
    next hrun => cases h; exact .aside (.leaveLoop hpc hrun)
  next hpc =>
    split at h
    next hq => cases h; exact .aside (.queueEmpty hpc hq)
    next req q hq => cases h; exact .pop hpc hq
  next req hpc =>
    split at h
    next resp hlookup => cases h; exact .hit hpc hlookup
    next hlookup => cases h; exact .miss hpc hlookup
  next req resp hpc =>
    obtain ⟨q, pushed, hpush⟩ := pushReply_eq s req resp .loadRunning
    rw [hpush] at h
    cases h
    exact .replyCached hpc
  next req hpc =>
    dsimp only at h
    split at h
    next hok => cases h; rw [hok]; exact .accept hpc hok
    next hbad => cases h; exact .reject hpc rfl hbad
  next req tStart hpc => cases h; exact .drawTxId hpc
  next req tStart txId hpc =>
    unfold LedgerEngine.appendWal at h
    split at h
    next seq w happ => cases h; exact .append hpc happ
    next => cases h; exact .appendThrows hpc
  next req tStart txId hpc => cases h; exact .apply hpc
  next req tStart txId status hpc => cases h; exact .build hpc rfl rfl rfl rfl
  next req resp hpc =>
    split at h
    next hkey => cases h; exact .cache hpc hkey
    next hkey => cases h; exact .noCache hpc (not_not.mp hkey)
  next req resp hpc =>
    obtain ⟨q, pushed, hpush⟩ := pushReply_eq s req resp (.countTotal resp.latencyUs)
    rw [hpush] at h
    cases h
    exact .reply hpc
  next latency hpc => cases h; exact .aside (.countTotal hpc)
  next latency hpc => cases h; exact .aside (.countWindow hpc)
  next latency hpc => cases h; exact .aside (.addLatency hpc)
  next => cases h
  next => cases h

theorem metricsStep_aside {s s' : LedgerEngine} {es : List Event}
    (h : s.metricsStep = some (s', es)) : Aside s s' es := by
  unfold LedgerEngine.metricsStep at h
  split at h
  next => cases h
  next txCount hmetrics => cases h; exact .loadWindow hmetrics
  next txCount windowCount hmetrics => cases h; exact .loadLatency hmetrics
  next txCount windowCount windowLatency hmetrics => cases h; exact .sample hmetrics
  next hmetrics => cases h; exact .storeLatency hmetrics

/-- **Every step is one of these.** -/
theorem step_effect {s s' : LedgerEngine} {a : Action} {es : List Event}
    (h : step s a = some (s', es)) : Effect s a s' es := by
  cases a with
  | engine now os => exact engineStep_effect h
  | submit req =>
      -- the call returns only if the queue had room
      obtain ⟨q, hq, heq⟩ := Option.map_eq_some_iff.mp h
      cases heq
      exact .aside (.submit hq)
  | takeReply =>
      obtain ⟨⟨envelope, q⟩, hq, heq⟩ := Option.map_eq_some_iff.mp h
      cases heq
      exact .aside (.takeReply hq)
  | drawAccountId req =>
      cases h
      exact .drawAccountId
  | commitAccount i =>
      obtain ⟨⟨req, id⟩, hi, heq⟩ := Option.map_eq_some_iff.mp h
      cases heq
      exact .commitAccount hi
  | getBalanceSnapshot =>
      cases h
      exact .aside .snapshot
  | getMetricsSample =>
      -- the sampling thread starts a call only when it is in none
      change (if s.metrics = .idle then _ else none) = some (s', es) at h
      split at h
      next hidle => cases h; exact .aside (.getMetricsSample hidle)
      next => cases h
  | resetMetricsWindow =>
      change (if s.metrics = .idle then _ else none) = some (s', es) at h
      split at h
      next hidle => cases h; exact .aside (.resetMetricsWindow hidle)
      next => cases h
  | metrics => exact .aside (metricsStep_aside h)
  | shutdown =>
      cases h
      exact .aside .shutdown

/-! ## §5. Scripts. -/

/-- A new log of one page, as the constructor makes it. -/
def newLog : Wal.WriteAheadLog :=
  Wal.freshLog Wal.page4096 "ledger.wal" Wal.FileImage.empty 4096

/-- One call of `create_account`. -/
def createAccountCall (name : String) (type : AccountType) : List Action :=
  [.drawAccountId ⟨Uuid.zero, ascii name, type⟩, .commitAccount 0]

/-- A request to move `amount` from the account drawn as number `debit` to the
one drawn as number `credit`. -/
def transferRequest (key : String) (debit credit : Nat) (amount : Int64) : TransactionRequest where
  correlationId := Uuid.zero
  idempotencyKey := ascii key
  description := []
  debitAccountId := accountId debit
  creditAccountId := accountId credit
  amountMinor := amount
  currency := ascii "USD"
  stripeChargeId := []

/-- `n` steps of the engine thread; every call of the operating system succeeds. -/
def engineSteps (n : Nat) : List Action := List.replicate n (.engine 1000 Wal.OsReply.ok)

end ZeroLGR.Ledger
