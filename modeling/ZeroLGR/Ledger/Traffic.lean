/-
  ZeroLGR.Ledger.Traffic — the requests in flight.

  A request is in flight from the push into the request queue until its reply
  is popped from the reply queue: it is queued, in hand, or answered.  A reply
  that does not fit is gone.  Every step of the machine is seen here as what it
  does to the two queues and the hand.

    • `underway`, `Traffic` — the count, and what goes in and comes out,
    • `QueueEffect`, `step_queueEffect` — every step, as seen by the queues,
    • `QueueEffect.balance` — in flight, taken and lost against submitted,
    • `run_traffic` — the replies are those of the requests, in their order,
    • `stalled_iff` — with nobody at the queues, replies are lost exactly if
      more requests are in flight than the reply queue holds.
-/
import ZeroLGR.Ledger.Record

namespace ZeroLGR.Ledger

open Transition

/-! ## §1. What goes through the queues. -/

/-- The request that was popped and not answered. -/
def Pc.inHand : Pc → List TransactionRequest
  | .findCached req => [req]
  | .replyCached req _ => [req]
  | .validate req => [req]
  | .generateUuid req _ => [req]
  | .appendWal req _ _ => [req]
  | .applyTransaction req _ _ => [req]
  | .buildResponse req _ _ _ => [req]
  | .cacheResponse req _ => [req]
  | .pushReply req _ => [req]
  | .terminated req => [req]
  | _ => []

/-- The response that is on its way to the reply queue. -/
def Pc.ready : Pc → Option TransactionResponse
  | .replyCached _ resp => some resp
  | .cacheResponse _ resp => some resp
  | .pushReply _ resp => some resp
  | _ => none

/-- The requests in flight. -/
def underway (s : LedgerEngine) : Nat :=
  s.requestQueue.items.length + s.pc.inHand.length + s.replyQueue.items.length

def Event.asSubmitted : Event → Option TransactionRequest
  | .submitted req => some req
  | _ => none

def Event.asTaken : Event → Option TransactionResponse
  | .taken envelope => some envelope.response
  | _ => none

def Event.asReplied : Event → Option TransactionResponse
  | .replied _ resp true => some resp
  | _ => none

def Event.asLost : Event → Option TransactionResponse
  | .replied _ resp false => some resp
  | _ => none

/-- The requests that were pushed. -/
def submitted (tr : List Event) : List TransactionRequest := tr.filterMap Event.asSubmitted

/-- The replies that were popped. -/
def taken (tr : List Event) : List TransactionResponse := tr.filterMap Event.asTaken

/-- The replies that were pushed. -/
def replied (tr : List Event) : List TransactionResponse := tr.filterMap Event.asReplied

/-- The replies that did not fit. -/
def lost (tr : List Event) : List TransactionResponse := tr.filterMap Event.asLost

section Lists

variable (tr es : List Event)

@[simp] theorem submitted_append : submitted (tr ++ es) = submitted tr ++ submitted es :=
  List.filterMap_append
@[simp] theorem taken_append : taken (tr ++ es) = taken tr ++ taken es := List.filterMap_append
@[simp] theorem replied_append : replied (tr ++ es) = replied tr ++ replied es :=
  List.filterMap_append
@[simp] theorem lost_append : lost (tr ++ es) = lost tr ++ lost es := List.filterMap_append

end Lists

/-- What one event adds to a list of the record. -/
theorem filterMap_one {β : Type*} (f : Event → Option β) (e : Event) :
    [e].filterMap f = (f e).toList := by
  cases hf : f e <;> simp [hf]

section One

variable (e : Event)

@[simp] theorem submitted_one : submitted [e] = e.asSubmitted.toList := filterMap_one _ e
@[simp] theorem popped_one : popped [e] = e.asPopped.toList := filterMap_one _ e
@[simp] theorem replied_one : replied [e] = e.asReplied.toList := filterMap_one _ e
@[simp] theorem lost_one : lost [e] = e.asLost.toList := filterMap_one _ e
@[simp] theorem taken_one : taken [e] = e.asTaken.toList := filterMap_one _ e

end One

/-! ## §2. Every step, as seen by the queues. -/

/-- The action is one of the I/O thread at the queues. -/
def Action.atQueues : Action → Bool
  | .submit _ => true
  | .takeReply => true
  | _ => false

/-- The action is a call of another member function: it is neither of the engine
thread nor at the queues. -/
def Action.isCall : Action → Bool
  | .engine _ _ => false
  | a => !a.atQueues

/-- The event is of neither queue. -/
def Event.offQueues : Event → Bool
  | .popped _ => false
  | .replied _ _ _ => false
  | .submitted _ => false
  | .taken _ => false
  | _ => true

/-- The two queues and the hand stay.  A response that becomes ready is for the
request in hand. -/
structure SameTraffic (s s' : LedgerEngine) (es : List Event) : Prop where
  requests : s'.requestQueue = s.requestQueue
  replies : s'.replyQueue = s.replyQueue
  hand : s'.pc.inHand = s.pc.inHand
  ready : ∀ resp, s'.pc.ready = some resp → s.pc.ready = some resp ∨
    s.pc.inHand.map (·.correlationId) = [resp.correlationId]
  events : ∀ e ∈ es, e.offQueues = true

/-- **Everything a step can do to the queues.** -/
inductive QueueEffect (s : LedgerEngine) : LedgerEngine → List Event → Prop
  | within {s' : LedgerEngine} {es : List Event} : SameTraffic s s' es → QueueEffect s s' es
  | submit {req : TransactionRequest} {q} : s.requestQueue.enqueue req = some q →
      QueueEffect s { s with requestQueue := q } [.submitted req]
  | take {envelope : TxResponseEnvelope} {q} : s.replyQueue.dequeue = some (envelope, q) →
      QueueEffect s { s with replyQueue := q } [.taken envelope]
  | pop {req : TransactionRequest} {q} : s.pc.inHand = [] →
      s.requestQueue.dequeue = some (req, q) →
      QueueEffect s { s with requestQueue := q, pc := .findCached req } [.popped req]
  | push {req : TransactionRequest} {resp : TransactionResponse} {q} {next : Pc} :
      s.pc.inHand = [req] → s.pc.ready = some resp → s.replyQueue.enqueue ⟨[], resp⟩ = some q →
      next.inHand = [] → next.ready = none →
      QueueEffect s { s with replyQueue := q, pc := next } [.replied req resp true]
  | lose {req : TransactionRequest} {resp : TransactionResponse} {next : Pc} :
      s.pc.inHand = [req] → s.pc.ready = some resp → s.replyQueue.enqueue ⟨[], resp⟩ = none →
      next.inHand = [] → next.ready = none →
      QueueEffect s { s with pc := next } [.replied req resp false]

section Steps

variable {s s' : LedgerEngine} {a : Action} {tr es : List Event}

theorem aside_queueEffect (h : Aside s s' es) : QueueEffect s s' es := by
  cases h with
  | submit hq => exact .submit hq
  | takeReply hq => exact .take hq
  | enterLoop hpc | leaveLoop hpc | queueEmpty hpc | countTotal hpc | countWindow hpc
  | addLatency hpc =>
      refine .within ⟨rfl, rfl, ?_, ?_, by simp⟩
      · rw [hpc]
        rfl
      · intro resp hready
        cases hready
  | snapshot | getMetricsSample | loadWindow | loadLatency | sample | resetMetricsWindow
  | storeLatency | shutdown =>
      exact .within ⟨rfl, rfl, rfl, fun _ hready => .inl hready, by simp [Event.offQueues]⟩

theorem pushReply_queueEffect {req : TransactionRequest} {resp : TransactionResponse} {next : Pc}
    (hhand : s.pc.inHand = [req]) (hready : s.pc.ready = some resp) (hnext : next.inHand = [])
    (hnone : next.ready = none) (h : s.pushReply req resp next = (s', es)) :
    QueueEffect s s' es := by
  unfold LedgerEngine.pushReply at h
  split at h
  next q hq =>
    cases h
    exact .push hhand hready hq hnext hnone
  next hq =>
    cases h
    exact .lose hhand hready hq hnext hnone

/-- **Every step is one of these.** -/
theorem step_queueEffect (h : step s a = some (s', es)) : QueueEffect s s' es := by
  cases step_effect h with
  | aside hside => exact aside_queueEffect hside
  | pop hpc hq => exact .pop (by rw [hpc]; rfl) hq
  | replyCached hpc | reply hpc =>
      -- whether the reply fits is seen in the code only
      simp only [step, LedgerEngine.engineStep, hpc, Option.some.injEq] at h
      exact pushReply_queueEffect (by rw [hpc]; rfl) (by rw [hpc]; rfl) rfl rfl h
  | miss hpc _ | accept hpc _ | reject hpc _ _ | drawTxId hpc | append hpc _ | appendThrows hpc
  | apply hpc =>
      refine .within ⟨rfl, rfl, by rw [hpc]; rfl, ?_, by simp [Event.offQueues]⟩
      intro resp hready
      cases hready
  | hit hpc _ =>
      refine .within ⟨rfl, rfl, by rw [hpc]; rfl, ?_, by simp [Event.offQueues]⟩
      intro resp hready
      cases hready
      rw [hpc]
      exact .inr rfl
  | build hpc hid _ _ _ =>
      refine .within ⟨rfl, rfl, by rw [hpc]; rfl, ?_, by simp [Event.offQueues]⟩
      intro resp hready
      cases hready
      rw [hpc, hid]
      exact .inr rfl
  | cache hpc _ | noCache hpc _ =>
      refine .within ⟨rfl, rfl, by rw [hpc]; rfl, ?_, by simp [Event.offQueues]⟩
      intro resp hready
      rw [hpc]
      exact .inl hready
  | drawAccountId | commitAccount _ =>
      exact .within ⟨rfl, rfl, rfl, fun _ hready => .inl hready, by simp [Event.offQueues]⟩

/-- A call from outside leaves `run()` where it stands and loses no reply, and only
the calls at the queues show a request or a reply. -/
theorem call_quiet (h : step s a = some (s', es)) (hcall : ∀ now os, a ≠ .engine now os) :
    s'.pc = s.pc ∧ lost es = [] ∧ (a.atQueues = false → submitted es = [] ∧ taken es = []) := by
  cases a with
  | engine now os => exact absurd rfl (hcall now os)
  | submit req | takeReply =>
      obtain ⟨r, -, heq⟩ := Option.map_eq_some_iff.mp h
      cases heq
      exact ⟨rfl, rfl, fun hqueue => by cases hqueue⟩
  | commitAccount i =>
      obtain ⟨r, -, heq⟩ := Option.map_eq_some_iff.mp h
      cases heq
      exact ⟨rfl, rfl, fun _ => ⟨rfl, rfl⟩⟩
  | drawAccountId req | getBalanceSnapshot | shutdown =>
      cases h
      exact ⟨rfl, rfl, fun _ => ⟨rfl, rfl⟩⟩
  | getMetricsSample | resetMetricsWindow =>
      change (if s.metrics = .idle then _ else none) = some (s', es) at h
      split at h <;> cases h
      exact ⟨rfl, rfl, fun _ => ⟨rfl, rfl⟩⟩
  | metrics =>
      change s.metricsStep = some (s', es) at h
      unfold LedgerEngine.metricsStep at h
      split at h <;> cases h <;> exact ⟨rfl, rfl, fun _ => ⟨rfl, rfl⟩⟩

/-- Only the I/O thread pushes requests and pops replies. -/
theorem step_own (h : step s a = some (s', es)) (ha : a.atQueues = false) :
    submitted es = [] ∧ taken es = [] := by
  cases a with
  | engine now os =>
      change s.engineStep now os = some (s', es) at h
      unfold LedgerEngine.engineStep at h
      split at h
      -- what the thread shows is about the request it works on
      case h_4 req resp _ | h_11 req resp _ =>
        obtain ⟨q, pushed, hpush⟩ := pushReply_eq s req resp _
        rw [hpush] at h
        cases h
        exact ⟨rfl, rfl⟩
      case h_5 =>
        dsimp only at h
        split at h <;> cases h <;> exact ⟨rfl, rfl⟩
      case h_7 =>
        unfold LedgerEngine.appendWal at h
        split at h <;> cases h <;> exact ⟨rfl, rfl⟩
      case h_15 => cases h
      case h_16 => cases h
      all_goals first
        | (cases h; exact ⟨rfl, rfl⟩)
        | (split at h <;> cases h <;> exact ⟨rfl, rfl⟩)
  | submit req | takeReply | commitAccount i | drawAccountId req | getBalanceSnapshot | shutdown
  | getMetricsSample | resetMetricsWindow | metrics =>
      exact (call_quiet h (by simp)).2.2 ha

/-! ## §3. The count. -/

/-- A list of the record that only the queues add to stays. -/
theorem SameTraffic.filterMap (h : SameTraffic s s' es) {β : Type*} {f : Event → Option β}
    (hf : ∀ e, e.offQueues = true → f e = none) : es.filterMap f = [] := by
  rw [List.filterMap_eq_nil_iff]
  intro e he
  exact hf e (h.events e he)

theorem SameTraffic.lists (h : SameTraffic s s' es) :
    submitted es = [] ∧ popped es = [] ∧ replied es = [] ∧ lost es = [] ∧ taken es = [] := by
  refine ⟨h.filterMap ?_, h.filterMap ?_, h.filterMap ?_, h.filterMap ?_, h.filterMap ?_⟩ <;>
    intro e he <;> cases e <;> first | rfl | cases he

/-- **Nothing leaves the flight but by a pop or a loss.** -/
theorem QueueEffect.balance (h : QueueEffect s s' es) :
    underway s' + (taken es).length + (lost es).length = underway s + (submitted es).length := by
  cases h with
  | within hsame =>
      obtain ⟨hsubmitted, -, -, hlost, htaken⟩ := hsame.lists
      unfold underway
      rw [hsubmitted, hlost, htaken, hsame.requests, hsame.replies, hsame.hand]
      rfl
  | @submit req q hq =>
      have hlength : q.items.length = s.requestQueue.items.length + 1 := by
        rw [Fifo.Bounded.enqueue_eq_some hq, List.length_append, List.length_singleton]
      show q.items.length + s.pc.inHand.length + s.replyQueue.items.length = underway s + 1
      unfold underway
      omega
  | @take envelope q hq =>
      have hlength : s.replyQueue.items.length = q.items.length + 1 := by
        rw [Fifo.Bounded.dequeue_eq_some hq, List.length_cons]
      show s.requestQueue.items.length + s.pc.inHand.length + q.items.length + 1 = underway s
      unfold underway
      omega
  | @pop req q hhand hq =>
      have hlength : s.requestQueue.items.length = q.items.length + 1 := by
        rw [Fifo.Bounded.dequeue_eq_some hq, List.length_cons]
      show q.items.length + 1 + s.replyQueue.items.length = underway s
      unfold underway
      rw [hhand, List.length_nil]
      omega
  | @push req resp q next hhand _ hq hnext _ =>
      have hlength : q.items.length = s.replyQueue.items.length + 1 := by
        rw [Fifo.Bounded.enqueue_eq_some hq, List.length_append, List.length_singleton]
      show s.requestQueue.items.length + next.inHand.length + q.items.length = underway s
      unfold underway
      rw [hhand, hnext, List.length_nil, List.length_singleton]
      omega
  | @lose req resp next hhand _ _ hnext _ =>
      show s.requestQueue.items.length + next.inHand.length + s.replyQueue.items.length + 1 =
        underway s
      unfold underway
      rw [hhand, hnext, List.length_nil, List.length_singleton]
      omega

theorem QueueEffect.submitted_le (h : QueueEffect s s' es) : (submitted es).length ≤ 1 := by
  cases h with
  | within hsame =>
      obtain ⟨hsubmitted, -⟩ := hsame.lists
      rw [hsubmitted]
      exact Nat.zero_le 1
  | submit => exact Nat.le_refl 1
  | take | pop | push | lose => exact Nat.zero_le 1

/-- **A reply fits while no more requests are in flight than the queue holds**:
the one in hand has a place. -/
theorem QueueEffect.lost_eq_nil (h : QueueEffect s s' es) (hfew : underway s ≤ queueCapacity) :
    lost es = [] := by
  cases h with
  | within hsame =>
      obtain ⟨-, -, -, hlost, -⟩ := hsame.lists
      exact hlost
  | submit | take | pop | push => rfl
  | lose hhand _ hfull _ _ =>
      have hlength := Fifo.Bounded.enqueue_eq_none hfull
      unfold underway at hfew
      rw [hhand, hlength, List.length_singleton] at hfew
      omega

/-! ## §4. The order. -/

/-- **What goes in and what comes out.**  Requests are popped as they were
pushed; each is answered, pushed or lost, under its correlation id and in its
turn; the replies that were pushed are popped in order. -/
structure Traffic (s : LedgerEngine) (tr : List Event) : Prop where
  requests : submitted tr = popped tr ++ s.requestQueue.items
  replies : replied tr = taken tr ++ s.replyQueue.items.map (·.response)
  answers : lost tr = [] → (popped tr).map (·.correlationId) =
    (replied tr).map (·.correlationId) ++ s.pc.inHand.map (·.correlationId)
  ready : ∀ resp, s.pc.ready = some resp → s.pc.inHand.map (·.correlationId) = [resp.correlationId]

theorem traffic_init (w : Wal.WriteAheadLog) : Traffic (.init w) [] := by
  refine ⟨rfl, rfl, fun _ => rfl, ?_⟩
  intro resp hready
  cases hready

theorem Traffic.step (h : Traffic s tr) (he : QueueEffect s s' es) : Traffic s' (tr ++ es) := by
  obtain ⟨hrequests, hreplies, hanswers, hready⟩ := h
  cases he with
  | within hsame =>
      obtain ⟨hsub, hpop, hrep, hlost, htaken⟩ := hsame.lists
      constructor
      · rw [submitted_append, popped_append, hsub, hpop, hsame.requests, List.append_nil,
          List.append_nil]
        exact hrequests
      · rw [replied_append, taken_append, hrep, htaken, hsame.replies, List.append_nil,
          List.append_nil]
        exact hreplies
      · rw [lost_append, popped_append, replied_append, hlost, hpop, hrep, hsame.hand,
          List.append_nil, List.append_nil, List.append_nil]
        exact hanswers
      · intro resp hresp
        rw [hsame.hand]
        rcases hsame.ready resp hresp with hold | hnew
        · exact hready resp hold
        · exact hnew
  | submit hq =>
      refine ⟨?_, ?_, ?_, hready⟩
      · simp [hrequests, Fifo.Bounded.enqueue_eq_some hq, Event.asSubmitted, Event.asPopped]
      · simp [hreplies, Event.asReplied, Event.asTaken]
      · simpa [Event.asLost, Event.asPopped, Event.asReplied] using hanswers
  | take hq =>
      refine ⟨?_, ?_, ?_, hready⟩
      · simp [hrequests, Event.asSubmitted, Event.asPopped]
      · simp [hreplies, Fifo.Bounded.dequeue_eq_some hq, Event.asReplied, Event.asTaken]
      · simpa [Event.asLost, Event.asPopped, Event.asReplied] using hanswers
  | @pop req q hhand hq =>
      refine ⟨?_, ?_, ?_, ?_⟩
      · simp [hrequests, Fifo.Bounded.dequeue_eq_some hq, Event.asSubmitted, Event.asPopped]
      · simp [hreplies, Event.asReplied, Event.asTaken]
      · intro hnone
        have hbefore := hanswers (by simpa [Event.asLost] using hnone)
        rw [hhand] at hbefore
        simp [hbefore, Event.asPopped, Event.asReplied, Pc.inHand]
      · intro resp hresp
        cases hresp
  | @push req resp q next hhand hreadyNow hq hnext hnone =>
      refine ⟨?_, ?_, ?_, ?_⟩
      · simp [hrequests, Event.asSubmitted, Event.asPopped]
      · simp [hreplies, Fifo.Bounded.enqueue_eq_some hq, Event.asReplied, Event.asTaken]
      · intro hlost
        have hbefore := hanswers (by simpa [Event.asLost] using hlost)
        simp [hbefore, hready resp hreadyNow, hnext, Event.asPopped, Event.asReplied]
      · intro resp' hresp'
        rw [hnone] at hresp'
        cases hresp'
  | @lose req resp next _ _ _ _ hnone =>
      refine ⟨?_, ?_, ?_, ?_⟩
      · simp [hrequests, Event.asSubmitted, Event.asPopped]
      · simp [hreplies, Event.asReplied, Event.asTaken]
      · intro hlost
        -- the reply is one more that did not fit
        simp [Event.asLost] at hlost
      · intro resp' hresp'
        rw [hnone] at hresp'
        cases hresp'

end Steps

section Runs

variable {w : Wal.WriteAheadLog} {acts : List Action} {s : LedgerEngine}
  {t : Traced LedgerEngine Event}

/-- **The traffic of every run.** -/
theorem run_traffic (h : runEngine (.init w) acts = some t) : Traffic t.state t.trace := by
  refine traced_invariant Traffic ?_ (traffic_init w) h
  intro s tr a s' es hs hstep
  exact hs.step (step_queueEffect hstep)

/-! ## §5. Nobody at the queues. -/

theorem run_balance (h : runEngine s acts = some t) :
    underway t.state + (taken t.trace).length + (lost t.trace).length =
      underway s + (submitted t.trace).length := by
  refine traced_invariant (fun s' tr => underway s' + (taken tr).length + (lost tr).length =
    underway s + (submitted tr).length) ?_ rfl h
  intro s₁ tr a s₂ es hs hstep
  have hbalance := (step_queueEffect hstep).balance
  simp only [taken_append, lost_append, submitted_append, List.length_append]
  omega

/-- Without new requests, all replies fit if those in flight do. -/
theorem run_lost_eq_nil (h : runEngine s acts = some t) (hfew : underway s ≤ queueCapacity)
    (hpush : submitted t.trace = []) : lost t.trace = [] := by
  have hinv : submitted t.trace = [] → underway t.state ≤ queueCapacity ∧ lost t.trace = [] := by
    refine traced_invariant
      (fun s' tr => submitted tr = [] → underway s' ≤ queueCapacity ∧ lost tr = []) ?_
      (fun _ => ⟨hfew, rfl⟩) h
    intro s₁ tr a s₂ es hs hstep hnone
    have heffect := step_queueEffect hstep
    have hbalance := heffect.balance
    rw [submitted_append] at hnone
    obtain ⟨hbefore, hes⟩ := List.append_eq_nil_iff.mp hnone
    obtain ⟨hbound, hlost⟩ := hs hbefore
    have hkept := heffect.lost_eq_nil hbound
    simp only [hes, hkept, List.length_nil] at hbalance
    refine ⟨by omega, ?_⟩
    rw [lost_append, hlost, hkept]
    rfl
  exact (hinv hpush).2

theorem run_own (hown : ∀ a ∈ acts, a.atQueues = false) (h : runEngine s acts = some t) :
    submitted t.trace = [] ∧ taken t.trace = [] := by
  refine run_invariant_of
    (fun u : Traced LedgerEngine Event => submitted u.trace = [] ∧ taken u.trace = [])
    ?_ ⟨rfl, rfl⟩ h
  intro a ha u u' hu hstep
  obtain ⟨es, hes, htrace⟩ := traced_eq_some.mp hstep
  obtain ⟨hsubmitted, htaken⟩ := step_own hes (hown a ha)
  rw [htrace, submitted_append, taken_append, hu.1, hu.2, hsubmitted, htaken]
  exact ⟨rfl, rfl⟩

/-- **A stalled I/O thread.**  When the engine has answered every request with
nobody at the queues, no reply was lost exactly if the reply queue holds all
that were in flight. -/
theorem stalled_iff (hown : ∀ a ∈ acts, a.atQueues = false) (h : runEngine s acts = some t)
    (hqueue : t.state.requestQueue.items = []) (hhand : t.state.pc.inHand = []) :
    lost t.trace = [] ↔ underway s ≤ queueCapacity := by
  obtain ⟨hpush, htake⟩ := run_own hown h
  constructor
  · intro hlost
    have hbalance := run_balance h
    rw [hpush, htake, hlost] at hbalance
    have hleft : underway t.state = t.state.replyQueue.items.length := by
      unfold underway
      rw [hqueue, hhand]
      simp
    have hbound := t.state.replyQueue.bound
    simp only [List.length_nil] at hbalance
    omega
  · intro hfew
    exact run_lost_eq_nil h hfew hpush

end Runs

/-! ## §6. The engine works off what it has. -/

/-- Steps to the end of the iteration, at most. -/
def Pc.work : Pc → Nat
  | .popRequest => 1
  | .loadRunning => 2
  | .addLatency _ => 3
  | .countWindow _ => 4
  | .countTotal _ => 5
  | .pushReply _ _ => 6
  | .cacheResponse _ _ => 7
  | .buildResponse _ _ _ _ => 8
  | .applyTransaction _ _ _ => 9
  | .appendWal _ _ _ => 10
  | .generateUuid _ _ => 11
  | .validate _ => 12
  | .replyCached _ _ => 12
  | .findCached _ => 13
  | .returned => 0
  | .terminated _ => 0

/-- The steps to the end of all iterations, at most. -/
def work (s : LedgerEngine) : Nat := s.pc.work + 13 * s.requestQueue.items.length

/-- Every request was answered. -/
def AtRest (s : LedgerEngine) : Prop := s.requestQueue.items = [] ∧ s.pc.inHand = []

/-- Not shut down. -/
structure Working (s : LedgerEngine) : Prop where
  running : s.running = true
  inside : s.pc ≠ .returned

theorem Working.advances {s : LedgerEngine} (h : Working s) (hthrew : s.pc.threw = false)
    (hrest : ¬ AtRest s) (now : Int64) (os : Wal.OsReply) :
    ∃ s' es, s.engineStep now os = some (s', es) ∧ Working s' ∧
      (s'.pc.threw = true ∨ work s' < work s) := by
  obtain ⟨hrun, hin⟩ := h
  unfold LedgerEngine.engineStep work
  cases hpc : s.pc with
  | loadRunning =>
      dsimp only
      rw [if_pos hrun]
      exact ⟨_, _, rfl, ⟨hrun, by simp⟩, .inr (by simp [Pc.work])⟩
  | popRequest =>
      -- the queue is not empty: this is no rest
      cases hitems : s.requestQueue.items with
      | nil => exact absurd ⟨hitems, by rw [hpc]; rfl⟩ hrest
      | cons req rest =>
          obtain ⟨q, hq, hq'⟩ := Fifo.Bounded.dequeue_of_cons hitems
          simp only [hq]
          refine ⟨_, _, rfl, ⟨hrun, by simp⟩, .inr ?_⟩
          simp [Pc.work, hq']
          omega
  | findCached req =>
      dsimp only
      split
      · exact ⟨_, _, rfl, ⟨hrun, by simp⟩, .inr (by simp [Pc.work])⟩
      · exact ⟨_, _, rfl, ⟨hrun, by simp⟩, .inr (by simp [Pc.work])⟩
  | validate req =>
      dsimp only
      split
      · exact ⟨_, _, rfl, ⟨hrun, by simp⟩, .inr (by simp [Pc.work])⟩
      · exact ⟨_, _, rfl, ⟨hrun, by simp⟩, .inr (by simp [Pc.work])⟩
  | cacheResponse req resp =>
      dsimp only
      split
      · exact ⟨_, _, rfl, ⟨hrun, by simp⟩, .inr (by simp [Pc.work])⟩
      · exact ⟨_, _, rfl, ⟨hrun, by simp⟩, .inr (by simp [Pc.work])⟩
  | appendWal req tStart txId =>
      unfold LedgerEngine.appendWal
      dsimp only
      split
      · exact ⟨_, _, rfl, ⟨hrun, by simp⟩, .inr (by simp [Pc.work])⟩
      · exact ⟨_, _, rfl, ⟨hrun, by simp⟩, .inl rfl⟩
  | replyCached req resp | pushReply req resp =>
      dsimp only
      obtain ⟨q, pushed, hpush⟩ := pushReply_eq s req resp _
      rw [hpush]
      exact ⟨_, _, rfl, ⟨hrun, by simp⟩, .inr (by simp [Pc.work])⟩
  | generateUuid req tStart | applyTransaction req tStart txId
  | buildResponse req tStart txId status | countTotal latency | countWindow latency
  | addLatency latency =>
      exact ⟨_, _, rfl, ⟨hrun, by simp⟩, .inr (by simp [Pc.work])⟩
  | returned => exact absurd hpc hin
  | terminated req =>
      rw [hpc] at hthrew
      cases hthrew

/-- **The engine alone comes to rest, or dies.** -/
theorem works_off {s : LedgerEngine} (h : Working s) (hthrew : s.pc.threw = false) :
    ∃ n t, runEngine s (engineSteps n) = some t ∧ (t.state.pc.threw = true ∨ AtRest t.state) := by
  by_cases hrest : AtRest s
  · exact ⟨0, ⟨s, []⟩, rfl, .inr hrest⟩
  · obtain ⟨s', es, hstep, hworking, hless⟩ := h.advances hthrew hrest 1000 Wal.OsReply.ok
    have hcons : ∀ n, runEngine s (engineSteps (n + 1)) =
        run (traced step) ⟨s', [] ++ es⟩ (engineSteps n) := fun n =>
      run_traced_cons (show step s (.engine 1000 Wal.OsReply.ok) = some (s', es) from hstep) [] _
    by_cases hthrew' : s'.pc.threw = true
    · exact ⟨1, ⟨s', es⟩, hcons 0, .inl hthrew'⟩
    · have hsmaller : work s' < work s := hless.resolve_left hthrew'
      obtain ⟨n, t, hrun, hend⟩ := works_off hworking (Bool.not_eq_true _ ▸ hthrew')
      refine ⟨n + 1, ⟨t.state, es ++ t.trace⟩, ?_, hend⟩
      rw [hcons, List.nil_append, run_traced_from, show run _ _ _ = some t from hrun]
      rfl
termination_by work s

theorem engineSteps_own (n : Nat) : ∀ a ∈ engineSteps n, a.atQueues = false := by
  intro a ha
  rw [List.eq_of_mem_replicate ha]
  rfl

/-- **More than the reply queue holds are too many**: left alone with them, the
engine loses a reply, if it does not die over it. -/
theorem crowd_loses {s : LedgerEngine} (h : Working s) (hthrew : s.pc.threw = false)
    (hcrowd : queueCapacity < underway s) :
    ∃ n t, runEngine s (engineSteps n) = some t ∧ (t.state.pc.threw = true ∨ lost t.trace ≠ []) := by
  obtain ⟨n, t, hrun, hend⟩ := works_off h hthrew
  refine ⟨n, t, hrun, ?_⟩
  rcases hend with hdies | ⟨hqueue, hhand⟩
  · exact .inl hdies
  · right
    intro hnone
    have hfits := (stalled_iff (engineSteps_own n) hrun hqueue hhand).mp hnone
    omega

end ZeroLGR.Ledger
