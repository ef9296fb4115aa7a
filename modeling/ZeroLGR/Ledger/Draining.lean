/-
  ZeroLGR.Ledger.Draining — what `shutdown` leaves undone.

  `shutdown` is to stop `run()` "cleanly after draining pending items".  The
  loop looks at the flag before it looks at the queue: when it reads `false` it
  ends, with whatever the queue holds.  So what is drained is decided when
  `shutdown` is called: the request in hand, and one from the queue if the flag
  was read just before.  A reply that does not fit into the reply queue is
  dropped.

    • `handled` — the requests a reply was made for, and whether it was pushed,
    • `Drained` — every request of a list was popped, decided and answered,
    • `Drainable`, `HasRoom` — the state in which `shutdown` is called,
    • `Stopping`, `Stopping.step` — what `run()` does from then on,
    • `shutdown_drains` — which requests it has drained when it returns,
    • `queuedAtShutdown_forgotten` — a request that is left in the queue.
-/
import ZeroLGR.Ledger.Traffic

namespace ZeroLGR.Ledger

open Transition

/-! ## §1. Replies, pushed or not. -/

def Event.asHandled : Event → Option (TransactionRequest × Bool)
  | .replied req _ pushed => some (req, pushed)
  | _ => none

/-- The requests a reply was made for, and whether it was pushed. -/
def handled (tr : List Event) : List (TransactionRequest × Bool) := tr.filterMap Event.asHandled

@[simp] theorem handled_append (tr es : List Event) :
    handled (tr ++ es) = handled tr ++ handled es := List.filterMap_append

@[simp] theorem handled_one (e : Event) : handled [e] = e.asHandled.toList := filterMap_one _ e

/-- A reply is dropped exactly if it was not pushed. -/
theorem lost_eq_nil_iff {tr : List Event} : lost tr = [] ↔ ∀ r ∈ handled tr, r.2 = true := by
  unfold lost
  rw [List.filterMap_eq_nil_iff]
  constructor
  · intro h r hr
    obtain ⟨e, he, hhandled⟩ := List.mem_filterMap.mp hr
    cases e with
    | replied req resp pushed =>
        cases hhandled
        cases pushed with
        | true => rfl
        | false => cases h _ he
    | _ => cases hhandled
  · intro h e he
    cases e with
    | replied req resp pushed =>
        have hpushed : pushed = true := h (req, pushed) (List.mem_filterMap.mpr ⟨_, he, rfl⟩)
        rw [hpushed]
        rfl
    | _ => rfl

/-- **The requests are drained**: each was popped in its turn, decided (answered
from the cache, committed or rejected), and its reply was pushed. -/
def Drained (reqs : List TransactionRequest) (tr : List Event) : Prop :=
  ∀ (k : Nat) (req : TransactionRequest), reqs[k]? = some req →
    (popped tr)[k]? = some req ∧
      (∃ d, (decided tr)[k]? = some (req, d) ∧ (d = some .ok → req ∈ applied tr)) ∧
      (handled tr)[k]? = some (req, true)

/-! ## §2. The call of `shutdown`. -/

/-- How many requests `run()` takes from the queue after it was told to stop: one,
if it has read the flag before and is about to pop. -/
def Pc.lastPops : Pc → Nat
  | .popRequest => 1
  | _ => 0

/-- **A state in which `shutdown` may be called**: `run()` takes what is in the
queue before it looks at the flag again, and no reply was dropped so far. -/
structure Drainable (u : Traced LedgerEngine Event) : Prop where
  queue : u.state.requestQueue.items.length ≤ u.state.pc.lastPops
  kept : lost u.trace = []

/-- If a request has no reply yet, the reply queue takes one. -/
def HasRoom (s : LedgerEngine) : Prop :=
  s.pc.inHand ++ s.requestQueue.items ≠ [] → s.replyQueue.items.length < queueCapacity

/-! ## §3. Steps. -/

section Steps

variable {s s' : LedgerEngine} {a : Action} {tr es : List Event}

/-- `run()` returns where it reads that it is to stop. -/
theorem step_returned (h : step s a = some (s', es)) (hret : s'.pc = .returned) :
    s.pc = .returned ∨
      (∃ now os, a = .engine now os) ∧ s.pc = .loadRunning ∧ s.running = false := by
  cases a with
  | engine now os =>
      change s.engineStep now os = some (s', es) at h
      cases engineStep_effect h with
      | aside hside =>
          cases hside with
          | leaveLoop hpc hrun => exact .inr ⟨⟨now, os, rfl⟩, hpc, Bool.not_eq_true _ ▸ hrun⟩
          | enterLoop | queueEmpty | countTotal | countWindow | addLatency => cases hret
          | submit | takeReply | snapshot | getMetricsSample | loadWindow | loadLatency | sample
          | resetMetricsWindow | storeLatency | shutdown => exact .inl hret
      | pop | hit | miss | replyCached | accept | reject | drawTxId | append | appendThrows
      | apply | build | cache | noCache | reply => cases hret
  | submit req | takeReply | commitAccount i | drawAccountId req | getBalanceSnapshot | shutdown
  | getMetricsSample | resetMetricsWindow | metrics =>
      exact .inl ((call_quiet h (by simp)).1.symm.trans hret)

/-- Every request that was popped has a reply, pushed or lost, or is in hand. -/
def Handles (s : LedgerEngine) (tr : List Event) : Prop :=
  popped tr = (handled tr).map Prod.fst ++ s.pc.inHand

theorem Handles.step (h : Handles s tr) (he : QueueEffect s s' es) : Handles s' (tr ++ es) := by
  unfold Handles at h ⊢
  cases he with
  | within hsame =>
      obtain ⟨-, hpop, -, -, -⟩ := hsame.lists
      have hhandled : handled es = [] := hsame.filterMap (by
        intro e he
        cases e <;> first | rfl | cases he)
      rw [popped_append, handled_append, hpop, hhandled, hsame.hand, List.append_nil,
        List.append_nil]
      exact h
  | submit hq | take hq => simpa [Event.asPopped, Event.asHandled] using h
  | pop hhand hq =>
      rw [hhand, List.append_nil] at h
      simp [h, Event.asPopped, Event.asHandled, Pc.inHand]
  | push hhand hready hq hnext hnone | lose hhand hready hq hnext hnone =>
      rw [hhand] at h
      simp [h, hnext, Event.asPopped, Event.asHandled]

/-- With a request in hand the thread is not about to pop. -/
theorem Pc.lastPops_le (pc : Pc) : pc.lastPops + pc.inHand.length ≤ 1 := by
  cases pc <;> simp [Pc.lastPops, Pc.inHand]

/-- **Told to stop, `run()` pops what it was about to pop** and no more. -/
theorem step_stopped (h : step s a = some (s', es)) (hstop : s.running = false) :
    s'.running = false ∧
      ((popped es = [] ∧ s'.pc.lastPops ≤ s.pc.lastPops ∧
          (s'.pc.lastPops < s.pc.lastPops → s.requestQueue.items = [])) ∨
        ((popped es).length = 1 ∧ s.pc.lastPops = 1 ∧ s'.pc.lastPops = 0)) := by
  cases step_effect h with
  | aside hside =>
      obtain ⟨hpopped, -⟩ := hside.silent.lists
      cases hside with
      | enterLoop hpc hrun =>
          rw [hstop] at hrun
          cases hrun
      | queueEmpty hpc hq =>
          -- it leaves the place of the pop without one, as nothing is queued
          refine ⟨hstop, .inl ⟨rfl, Nat.zero_le _, fun _ => ?_⟩⟩
          exact Fifo.Bounded.dequeue_eq_none hq
      | shutdown => exact ⟨rfl, .inl ⟨rfl, Nat.le_refl _, fun hlt => absurd hlt (Nat.lt_irrefl _)⟩⟩
      | leaveLoop hpc | countTotal hpc | countWindow hpc | addLatency hpc =>
          refine ⟨hstop, .inl ⟨rfl, Nat.zero_le _, ?_⟩⟩
          rw [hpc]
          exact fun hlt => absurd hlt (Nat.lt_irrefl _)
      | submit | takeReply | snapshot | getMetricsSample | loadWindow | loadLatency | sample
      | resetMetricsWindow | storeLatency =>
          exact ⟨hstop, .inl ⟨hpopped, Nat.le_refl _, fun hlt => absurd hlt (Nat.lt_irrefl _)⟩⟩
  | pop hpc hq =>
      rw [hpc]
      exact ⟨hstop, .inr ⟨rfl, rfl, rfl⟩⟩
  | hit hpc | miss hpc | replyCached hpc | accept hpc | reject hpc | drawTxId hpc | append hpc
  | appendThrows hpc | apply hpc | build hpc | cache hpc | noCache hpc | reply hpc =>
      refine ⟨hstop, .inl ⟨rfl, Nat.zero_le _, ?_⟩⟩
      rw [hpc]
      exact fun hlt => absurd hlt (Nat.lt_irrefl _)
  | drawAccountId | commitAccount =>
      exact ⟨hstop, .inl ⟨rfl, Nat.le_refl _, fun hlt => absurd hlt (Nat.lt_irrefl _)⟩⟩

/-- A step makes one reply at most, and drops it only if the queue is full. -/
theorem step_handled (h : QueueEffect s s' es) :
    (handled es = [] ∧ s'.replyQueue.items.length ≤ s.replyQueue.items.length) ∨
      ∃ r, handled es = [r] ∧ (r.2 = false → s.replyQueue.items.length = queueCapacity) := by
  cases h with
  | within hsame =>
      left
      refine ⟨hsame.filterMap ?_, by rw [hsame.replies]⟩
      intro e he
      cases e <;> first | rfl | cases he
  | submit | pop => exact .inl ⟨rfl, Nat.le_refl _⟩
  | take hq =>
      refine .inl ⟨rfl, ?_⟩
      rw [Fifo.Bounded.dequeue_eq_some hq]
      exact Nat.le_succ _
  | @push req resp => exact .inr ⟨(req, true), rfl, fun hno => by cases hno⟩
  | @lose req resp _ _ _ hfull =>
      exact .inr ⟨(req, false), rfl, fun _ => Fifo.Bounded.enqueue_eq_none hfull⟩

end Steps

/-! ## §4. From the call to the end. -/

/-- `run()` was told to stop, and pops at most `m` requests in all. -/
structure Stopping (m : Nat) (s : LedgerEngine) (tr : List Event) : Prop where
  traffic : Traffic s tr
  handles : Handles s tr
  running : s.running = false
  atMost : (popped tr).length + s.pc.lastPops ≤ m

/-- The first `n` requests are popped before `run()` ends, at most one of them has
no reply, and that reply fits. -/
structure Finishing (n : Nat) (s : LedgerEngine) (tr : List Event) : Prop where
  asked : n ≤ (submitted tr).length
  atLeast : n ≤ (popped tr).length + s.pc.lastPops
  oneLeft : n ≤ (handled tr).length + 1
  room : (handled tr).length < n → s.replyQueue.items.length < queueCapacity
  pushed : ∀ r ∈ (handled tr).take n, r.2 = true

section Ending

variable {n m : Nat} {s s' : LedgerEngine} {a : Action} {tr es : List Event}

/-- **One step.** -/
theorem Stopping.step (h : Stopping m s tr) (hstep : Ledger.step s a = some (s', es)) :
    Stopping m s' (tr ++ es) := by
  have heffect := step_queueEffect hstep
  obtain ⟨hrunning, hpops⟩ := step_stopped hstep h.running
  have hmost := h.atMost
  refine ⟨h.traffic.step heffect, h.handles.step heffect, hrunning, ?_⟩
  rw [popped_append, List.length_append]
  rcases hpops with ⟨hnone, hle, -⟩ | ⟨hone, hbefore, hafter⟩
  · rw [hnone, List.length_nil]
    omega
  · omega

/-- **One step.** -/
theorem Finishing.step (h : Finishing n s tr) (hstopping : Stopping m s tr)
    (hstep : Ledger.step s a = some (s', es)) : Finishing n s' (tr ++ es) := by
  obtain ⟨hasked, hleast, hleft, hroom, hpushed⟩ := h
  obtain ⟨-, hpops⟩ := step_stopped hstep hstopping.running
  have hrequests := congrArg List.length hstopping.traffic.requests
  rw [List.length_append] at hrequests
  constructor
  · rw [submitted_append, List.length_append]
    omega
  · rw [popped_append, List.length_append]
    rcases hpops with ⟨hnone, hle, hempty⟩ | ⟨hone, hbefore, hafter⟩
    · by_cases hsame : s'.pc.lastPops < s.pc.lastPops
      · -- nothing was left to pop
        rw [hempty hsame, List.length_nil] at hrequests
        omega
      · omega
    · omega
  · rw [handled_append, List.length_append]
    omega
  · rw [handled_append, List.length_append]
    intro hlt
    rcases step_handled (step_queueEffect hstep) with ⟨-, hle⟩ | ⟨r, hone, -⟩
    · exact lt_of_le_of_lt hle (hroom (by omega))
    · rw [hone, List.length_singleton] at hlt
      omega
  · rw [handled_append]
    rcases step_handled (step_queueEffect hstep) with ⟨hnone, -⟩ | ⟨r, hone, hlost⟩
    · rw [hnone, List.append_nil]
      exact hpushed
    · rw [hone]
      intro r' hr'
      rw [List.take_append] at hr'
      rcases List.mem_append.mp hr' with hold | hlast
      · exact hpushed r' hold
      · -- the reply of this step is to one of the first `n`
        have hlt : (handled tr).length < n := by
          by_contra hge
          rw [show n - (handled tr).length = 0 by omega] at hlast
          cases hlast
        rw [List.mem_singleton.mp (List.mem_of_mem_take hlast)]
        by_contra hfalse
        have hfull := hlost (Bool.eq_false_of_not_eq_true hfalse)
        have hspace := hroom hlt
        omega

/-- The first `n` requests are drained when `run()` has returned. -/
theorem Finishing.drained (h : Finishing n s tr) (hstopping : Stopping m s tr)
    (hbooks : Bookkeeping s.pc tr) (hret : s.pc = .returned) :
    Drained ((submitted tr).take n) tr := by
  have hle := h.atLeast
  have hhandles := hstopping.handles
  unfold Handles at hhandles
  have hdecided := hbooks.popped_eq
  have haccepted := hbooks.accepted_eq
  have hlogged := hbooks.logged_eq
  rw [hret] at hle hhandles hdecided haccepted hlogged
  simp only [Pc.lastPops, Nat.add_zero] at hle
  simp only [Pc.inHand, List.append_nil] at hhandles
  simp only [Pc.undecided, Pc.unlogged, Pc.unapplied, List.append_nil] at hdecided haccepted hlogged
  intro k req hreq
  rw [List.getElem?_take] at hreq
  split at hreq
  next hk =>
    have hpopped : (popped tr)[k]? = some req := by
      rwa [hstopping.traffic.requests, List.getElem?_append_left (by omega)] at hreq
    refine ⟨hpopped, ?_, ?_⟩
    · rw [hdecided, List.getElem?_map, Option.map_eq_some_iff] at hpopped
      obtain ⟨⟨req', d⟩, hd, rfl⟩ := hpopped
      refine ⟨d, hd, ?_⟩
      intro hok
      subst hok
      -- what was validated OK was logged and applied
      rw [← hlogged, ← haccepted]
      have hmem : (req', some TxStatus.ok) ∈ decided tr := List.mem_of_getElem? hd
      obtain ⟨e, he, hasDecided⟩ := List.mem_filterMap.mp hmem
      refine List.mem_filterMap.mpr ⟨e, he, ?_⟩
      cases e with
      | validated r status =>
          cases hasDecided
          rfl
      | _ => cases hasDecided
    · rw [hhandles, List.getElem?_map, Option.map_eq_some_iff] at hpopped
      obtain ⟨⟨req', pushed⟩, hr, rfl⟩ := hpopped
      have hpushed : pushed = true := by
        refine h.pushed (req', pushed) (List.mem_of_getElem? (i := k) ?_)
        rw [List.getElem?_take, if_pos hk]
        exact hr
      rw [hr, hpushed]
  next => cases hreq

/-- Requests that are drained were popped, and none of their replies was dropped. -/
theorem Drained.popped_le {reqs : List TransactionRequest} (h : Drained reqs tr) :
    reqs.length ≤ (popped tr).length ∧ ∀ k r, k < reqs.length → (handled tr)[k]? = some r →
      r.2 = true := by
  constructor
  · by_contra hlt
    rw [Nat.not_le] at hlt
    have hthere := (h (popped tr).length _ (List.getElem?_eq_getElem hlt)).1
    have hbound := (List.getElem?_eq_some_iff.mp hthere).1
    omega
  · intro k r hk hr
    have hpushed := (h k _ (List.getElem?_eq_getElem hk)).2.2
    rw [hpushed] at hr
    cases hr
    rfl

end Ending

section Runs

variable {w : Wal.WriteAheadLog} {before after : List Action} {u t : Traced LedgerEngine Event}

/-- In every run. -/
theorem run_handles (h : runEngine (.init w) before = some u) : Handles u.state u.trace := by
  have hinit : Handles (.init w) [] := rfl
  refine traced_invariant Handles ?_ hinit h
  intro s tr a s' es hs hstep
  exact hs.step (step_queueEffect hstep)

/-- What is recorded from the call of `shutdown` on. -/
theorem shutdown_split (hcall : runEngine (.init w) before = some u)
    (hrun : runEngine (.init w) (before ++ .shutdown :: after) = some t) :
    run (traced step) ⟨{ u.state with running := false }, u.trace⟩ after = some t ∧
      u.trace <+: t.trace := by
  have hsplit : run (traced step) u (.shutdown :: after) = some t := by
    unfold runEngine at hrun hcall
    rwa [run_append, hcall, Option.bind_some] at hrun
  have hshutdown : traced step u .shutdown =
      some ⟨{ u.state with running := false }, u.trace ++ []⟩ := rfl
  rw [run_cons, hshutdown, Option.bind_some, List.append_nil] at hsplit
  refine ⟨hsplit, ?_⟩
  rw [run_traced_from] at hsplit
  obtain ⟨v, -, hv⟩ := Option.map_eq_some_iff.mp hsplit
  rw [← hv]
  exact List.prefix_append _ _

/-- The requests pushed before the call: answered, in hand, and queued. -/
theorem submitted_length (h : runEngine (.init w) before = some u) :
    (submitted u.trace).length = (popped u.trace).length + u.state.requestQueue.items.length ∧
      (popped u.trace).length = (handled u.trace).length + u.state.pc.inHand.length := by
  have hrequests := congrArg List.length (run_traffic h).requests
  have hhandles := congrArg List.length (run_handles h)
  rw [List.length_append] at hrequests hhandles
  rw [List.length_map] at hhandles
  exact ⟨hrequests, hhandles⟩

/-- The state right after the call. -/
theorem stopping_of_call (hcall : runEngine (.init w) before = some u) :
    Stopping ((popped u.trace).length + u.state.pc.lastPops) { u.state with running := false }
      u.trace := by
  have htraffic := run_traffic hcall
  have hhandles : Handles { u.state with running := false } u.trace := run_handles hcall
  exact ⟨⟨htraffic.requests, htraffic.replies, htraffic.answers, htraffic.ready⟩, hhandles, rfl,
    Nat.le_refl _⟩

theorem finishing_of_call (hcall : runEngine (.init w) before = some u) (hdrain : Drainable u)
    (hroom : HasRoom u.state) :
    Finishing (submitted u.trace).length { u.state with running := false } u.trace := by
  obtain ⟨hsubmitted, hpopped⟩ := submitted_length hcall
  have hqueue := hdrain.queue
  have hone := u.state.pc.lastPops_le
  refine ⟨Nat.le_refl _, ?_, by omega, ?_, ?_⟩
  · show _ ≤ (popped u.trace).length + u.state.pc.lastPops
    omega
  · intro hlt
    refine hroom ?_
    rw [← List.length_pos_iff, List.length_append]
    omega
  · intro r hr
    exact lost_eq_nil_iff.mp hdrain.kept r (List.mem_of_mem_take hr)

theorem run_stopping (hcall : runEngine (.init w) before = some u)
    (hrun : runEngine (.init w) (before ++ .shutdown :: after) = some t) :
    Stopping ((popped u.trace).length + u.state.pc.lastPops) t.state t.trace := by
  refine run_invariant (fun v : Traced LedgerEngine Event =>
    Stopping ((popped u.trace).length + u.state.pc.lastPops) v.state v.trace) ?_
    (stopping_of_call hcall) (shutdown_split hcall hrun).1
  intro a v v' hv hstep
  obtain ⟨es, hes, htrace⟩ := traced_eq_some.mp hstep
  rw [htrace]
  exact hv.step hes

theorem run_finishing (hcall : runEngine (.init w) before = some u)
    (hrun : runEngine (.init w) (before ++ .shutdown :: after) = some t) (hdrain : Drainable u)
    (hroom : HasRoom u.state) : Finishing (submitted u.trace).length t.state t.trace := by
  have hboth : Stopping ((popped u.trace).length + u.state.pc.lastPops) t.state t.trace ∧
      Finishing (submitted u.trace).length t.state t.trace := by
    refine run_invariant (fun v : Traced LedgerEngine Event =>
      Stopping ((popped u.trace).length + u.state.pc.lastPops) v.state v.trace ∧
        Finishing (submitted u.trace).length v.state v.trace) ?_
      ⟨stopping_of_call hcall, finishing_of_call hcall hdrain hroom⟩ (shutdown_split hcall hrun).1
    intro a v v' hv hstep
    obtain ⟨es, hes, htrace⟩ := traced_eq_some.mp hstep
    obtain ⟨hstopping, hfinishing⟩ := hv
    rw [htrace]
    exact ⟨hstopping.step hes, hfinishing.step hstopping hes⟩
  exact hboth.2

end Runs

/-! ## §5. What is drained. -/

/-- **WHAT `shutdown` DRAINS.**  In every run in which `run()` returns after
`shutdown` was called in the state `u`: if all requests pushed before the call
were drained, the request queue was empty at the call, or held one request that
`run()` was about to pop, and no reply had been dropped.  If this holds, and the
reply queue has room for a reply that is still to be made, they are drained. -/
theorem shutdown_drains {w : Wal.WriteAheadLog} {before after : List Action}
    {u t : Traced LedgerEngine Event} (hcall : runEngine (.init w) before = some u)
    (hrun : runEngine (.init w) (before ++ .shutdown :: after) = some t)
    (hret : t.state.pc = .returned) :
    (Drained (submitted u.trace) t.trace → Drainable u) ∧
      (Drainable u → HasRoom u.state → Drained (submitted u.trace) t.trace) := by
  obtain ⟨-, rest, htrace⟩ := shutdown_split hcall hrun
  have hstopping := run_stopping hcall hrun
  obtain ⟨hsubmitted, hpopped⟩ := submitted_length hcall
  constructor
  · intro hdrained
    obtain ⟨hall, hkept⟩ := hdrained.popped_le
    refine ⟨?_, lost_eq_nil_iff.mpr ?_⟩
    · -- no more is popped than was about to be
      have hmost := hstopping.atMost
      omega
    · intro r hr
      obtain ⟨k, hk⟩ := List.mem_iff_getElem?.mp hr
      have hlt := (List.getElem?_eq_some_iff.mp hk).1
      refine hkept k r (by omega) ?_
      rw [← htrace, handled_append, List.getElem?_append_left hlt]
      exact hk
  · intro hdrain hroom
    have hdrained := (run_finishing hcall hrun hdrain hroom).drained hstopping
      (run_bookkeeping hrun) hret
    have hfront : submitted t.trace = submitted u.trace ++ submitted rest := by
      rw [← htrace, submitted_append]
    rwa [hfront, List.take_left] at hdrained

/-- One request is answered; the next is pushed when `run()` has read that it is to
go on, and is about to pop. -/
def aboutToPop : List Action :=
  createAccountCall "Sales" .revenue ++ createAccountCall "Cash" .asset ++
    [.submit (transferRequest "sale" 0 1 500)] ++ engineSteps 14 ++
    [.submit (transferRequest "refund" 1 0 200)]

theorem aboutToPop_drained :
    ∃ u t, runEngine (.init newLog) aboutToPop = some u ∧
      runEngine (.init newLog) (aboutToPop ++ .shutdown :: engineSteps 13) = some t ∧
      u.state.requestQueue.items = [transferRequest "refund" 1 0 200] ∧
      t.state.pc = .returned ∧
      submitted u.trace = [transferRequest "sale" 0 1 500, transferRequest "refund" 1 0 200] ∧
      Drained (submitted u.trace) t.trace := by
  have hcall : (runEngine (.init newLog) aboutToPop).map (fun u =>
      (u.state.requestQueue.items, u.state.pc, (lost u.trace).length,
        u.state.replyQueue.items.length, submitted u.trace)) =
      some ([transferRequest "refund" 1 0 200], .popRequest, 0, 1,
        [transferRequest "sale" 0 1 500, transferRequest "refund" 1 0 200]) := by
    decide +kernel
  have hrun : (runEngine (.init newLog) (aboutToPop ++ .shutdown :: engineSteps 13)).map
      (fun t => t.state.pc) = some .returned := by
    decide +kernel
  obtain ⟨u, hu, heq⟩ := Option.map_eq_some_iff.mp hcall
  obtain ⟨t, ht, hret⟩ := Option.map_eq_some_iff.mp hrun
  simp only [Prod.mk.injEq] at heq
  obtain ⟨hqueue, hpc, hlost, hreplies, hsubmitted⟩ := heq
  have hdrain : Drainable u := by
    refine ⟨?_, List.length_eq_zero_iff.mp hlost⟩
    rw [hqueue, hpc]
    exact Nat.le_refl _
  have hroom : HasRoom u.state := by
    intro _
    rw [hreplies]
    decide
  exact ⟨u, t, hu, ht, hqueue, hret, hsubmitted,
    (shutdown_drains hu ht hret).2 hdrain hroom⟩

/-- A request is in the queue when `shutdown` is called, before an iteration. -/
def queuedAtShutdown : List Action := [.submit (transferRequest "sale" 0 1 500)]

/-- **It stays there**: `run()` returns without popping it. -/
theorem queuedAtShutdown_forgotten :
    ∃ u t, runEngine (.init newLog) queuedAtShutdown = some u ∧
      runEngine (.init newLog) (queuedAtShutdown ++ .shutdown :: engineSteps 1) = some t ∧
      u.state.pc = .loadRunning ∧ t.state.pc = .returned ∧
      submitted u.trace = [transferRequest "sale" 0 1 500] ∧ popped t.trace = [] ∧
      t.state.requestQueue.items = [transferRequest "sale" 0 1 500] ∧
      ¬ Drained (submitted u.trace) t.trace := by
  have hcall : (runEngine (.init newLog) queuedAtShutdown).map
      (fun u => (u.state.pc, submitted u.trace)) =
        some (.loadRunning, [transferRequest "sale" 0 1 500]) := by
    decide +kernel
  have hrun : (runEngine (.init newLog) (queuedAtShutdown ++ .shutdown :: engineSteps 1)).map
      (fun t => (t.state.pc, popped t.trace, t.state.requestQueue.items)) =
        some (.returned, [], [transferRequest "sale" 0 1 500]) := by
    decide +kernel
  obtain ⟨u, hu, hpair⟩ := Option.map_eq_some_iff.mp hcall
  obtain ⟨t, ht, htriple⟩ := Option.map_eq_some_iff.mp hrun
  simp only [Prod.mk.injEq] at hpair htriple
  obtain ⟨hpc, hsubmitted⟩ := hpair
  obtain ⟨hret, hpopped, hqueue⟩ := htriple
  refine ⟨u, t, hu, ht, hpc, hret, hsubmitted, hpopped, hqueue, ?_⟩
  intro hdrained
  have hfirst := (hdrained 0 (transferRequest "sale" 0 1 500) (by rw [hsubmitted]; rfl)).1
  rw [hpopped] at hfirst
  cases hfirst

end ZeroLGR.Ledger
