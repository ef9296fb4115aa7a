/-
  ZeroLGR.Ledger.Windows — what the metrics windows report.

  `io_loop` answers a metrics request with a sample and then resets the window.
  The sample loads the count of the window; the reset stores zero, whatever the
  count is by then.  A transaction counted in between is in no window.

    • `RequestPc`, `Monitored`, `monitoredStep` — the engine, and the I/O thread
      in the case `MSG_METRICS_REQUEST` of `io_loop`,
    • `engineStep_distance` — the engine thread counts in both or in neither,
    • `WindowUnchanged` — the condition: nothing was counted between the load of
      the sample and the store of the reset,
    • `windows_lose_nothing` — then the windows add up to the total,
    • `countedBetween_lost` — one transaction that is in no window.
-/
import ZeroLGR.Ledger.Engine
import Mathlib.Data.UInt

namespace ZeroLGR.Ledger

open Transition

/-! ## §1. The two threads. -/

/-- Where `io_loop` stands in the case `MSG_METRICS_REQUEST`: before the message,
inside `get_metrics_sample`, sending the answer, inside `reset_metrics_window`. -/
inductive RequestPc where
  | waiting
  | sampling
  | answered (sample : MetricsSample)
  | resetting
  deriving DecidableEq

/-- The engine, and the I/O thread. -/
structure Monitored where
  engine : LedgerEngine
  request : RequestPc

/-- Where the I/O thread stands after an access inside one of the two calls. -/
def RequestPc.next : RequestPc → List Event → RequestPc
  | .sampling, [.sampled sample] => .answered sample
  | .sampling, _ => .sampling
  | .resetting, _ => .waiting
  | pc, _ => pc

/-- One access of one of the two threads.  The calls of the I/O thread come in
the order in which `io_loop` makes them. -/
def monitoredStep (s : Monitored) (a : Action) : Option (Monitored × List Event) :=
  match a with
  | .getMetricsSample =>
      match s.request with
      | .waiting => (step s.engine a).map (fun r => (⟨r.1, .sampling⟩, r.2))
      | _ => none
  | .metrics =>
      match s.request with
      | .sampling | .resetting =>
          (step s.engine a).map (fun r => (⟨r.1, s.request.next r.2⟩, r.2))
      | _ => none
  | .resetMetricsWindow =>
      match s.request with
      | .answered _ => (step s.engine a).map (fun r => (⟨r.1, .resetting⟩, r.2))
      | _ => none
  | _ => (step s.engine a).map (fun r => (⟨r.1, s.request⟩, r.2))

/-- Both threads at their start. -/
def Monitored.init (wal : Wal.WriteAheadLog) : Monitored := ⟨.init wal, .waiting⟩

/-! ## §2. Windows. -/

def Event.asReported : Event → Option UInt64
  | .sampled sample => some sample.windowCount
  | _ => none

/-- The counts of the windows that were reported. -/
def reported (tr : List Event) : List UInt64 := tr.filterMap Event.asReported

@[simp] theorem reported_append (tr es : List Event) :
    reported (tr ++ es) = reported tr ++ reported es := List.filterMap_append

/-- A transaction that is in the total and not yet in the window. -/
def Pc.ahead : Pc → UInt64
  | .countWindow _ => 1
  | _ => 0

/-- The count that was reported and is still in the window. -/
def RequestPc.pending : RequestPc → UInt64
  | .answered sample => sample.windowCount
  | _ => 0

/-- The engine thread is not between its updates of the counters, the I/O thread
not in the case `MSG_METRICS_REQUEST`. -/
structure Monitored.Between (s : Monitored) : Prop where
  engine : ∀ latency, s.engine.pc ≠ .countWindow latency ∧ s.engine.pc ≠ .addLatency latency
  request : s.request = .waiting

/-- **The windows add up**: what was reported and what is in the window now are
all that was counted, in the arithmetic of `uint64_t`. -/
def Monitored.AddsUp (s : Monitored) (tr : List Event) : Prop :=
  (reported tr).sum + s.engine.txCountWindow = s.engine.txCountTotal

/-- The condition, at one step: when the reset stores zero, the window is what
was reported. -/
def WindowUnchanged (s : Monitored) (a : Action) : Prop :=
  a = .resetMetricsWindow → ∀ sample, s.request = .answered sample →
    s.engine.txCountWindow = sample.windowCount

/-! ## §3. Steps. -/

/-- The counters keep their distance: a step that counts in the total is made up
for by the one that counts in the window. -/
structure KeepsDistance (s s' : LedgerEngine) (es : List Event) : Prop where
  counters : s'.txCountTotal + s.txCountWindow + s.pc.ahead =
    s.txCountTotal + s'.txCountWindow + s'.pc.ahead
  metrics : s'.metrics = s.metrics
  reported : reported es = []

section Steps

variable {s s' : LedgerEngine} {a : Action} {tr es : List Event}

/-- Steps that leave both counters alone. -/
theorem keepsDistance_of_same (htotal : s'.txCountTotal = s.txCountTotal)
    (hwindow : s'.txCountWindow = s.txCountWindow) (hahead : s'.pc.ahead = s.pc.ahead)
    (hmetrics : s'.metrics = s.metrics) (hreported : reported es = []) :
    KeepsDistance s s' es :=
  ⟨by rw [htotal, hwindow, hahead], hmetrics, hreported⟩

/-- **The engine thread keeps the distance.** -/
theorem engineStep_distance {now : Int64} {os : Wal.OsReply}
    (h : s.engineStep now os = some (s', es)) : KeepsDistance s s' es := by
  unfold LedgerEngine.engineStep at h
  split at h
  -- the two updates
  case h_12 latency hpc =>
    cases h
    refine ⟨?_, rfl, rfl⟩
    rw [hpc]
    show s.txCountTotal + 1 + s.txCountWindow + 0 = s.txCountTotal + s.txCountWindow + 1
    grind
  case h_13 latency hpc =>
    cases h
    refine ⟨?_, rfl, rfl⟩
    rw [hpc]
    show s.txCountTotal + s.txCountWindow + 1 = s.txCountTotal + (s.txCountWindow + 1) + 0
    grind
  -- a reply that fits, and one that does not
  case h_4 req resp hpc | h_11 req resp hpc =>
    obtain ⟨q, pushed, hpush⟩ := pushReply_eq s req resp _
    rw [hpush] at h
    cases h
    exact keepsDistance_of_same rfl rfl (by rw [hpc]; rfl) rfl rfl
  case h_7 hpc =>
    unfold LedgerEngine.appendWal at h
    split at h <;> cases h <;> exact keepsDistance_of_same rfl rfl (by rw [hpc]; rfl) rfl rfl
  case h_5 hpc =>
    dsimp only at h
    split at h <;> cases h <;> exact keepsDistance_of_same rfl rfl (by rw [hpc]; rfl) rfl rfl
  case h_15 => cases h
  case h_16 => cases h
  case h_1 hpc | h_2 hpc | h_3 hpc | h_10 hpc =>
    split at h <;> cases h <;> exact keepsDistance_of_same rfl rfl (by rw [hpc]; rfl) rfl rfl
  case h_6 hpc | h_8 hpc | h_9 hpc | h_14 hpc =>
    cases h
    exact keepsDistance_of_same rfl rfl (by rw [hpc]; rfl) rfl rfl

/-- So do all calls but those of the metrics. -/
theorem step_distance (h : step s a = some (s', es)) (hget : a ≠ .getMetricsSample)
    (hreset : a ≠ .resetMetricsWindow) (hmetrics : a ≠ .metrics) : KeepsDistance s s' es := by
  cases a with
  | engine now os => exact engineStep_distance h
  | submit req =>
      obtain ⟨q, -, heq⟩ := Option.map_eq_some_iff.mp h
      cases heq
      exact keepsDistance_of_same rfl rfl rfl rfl rfl
  | takeReply =>
      obtain ⟨r, -, heq⟩ := Option.map_eq_some_iff.mp h
      cases heq
      exact keepsDistance_of_same rfl rfl rfl rfl rfl
  | commitAccount i =>
      obtain ⟨c, -, heq⟩ := Option.map_eq_some_iff.mp h
      cases heq
      exact keepsDistance_of_same rfl rfl rfl rfl rfl
  | drawAccountId req | getBalanceSnapshot | shutdown =>
      cases h
      exact keepsDistance_of_same rfl rfl rfl rfl rfl
  | getMetricsSample => exact absurd rfl hget
  | resetMetricsWindow => exact absurd rfl hreset
  | metrics => exact absurd rfl hmetrics

end Steps

/-! ## §4. Runs. -/

/-- Where the I/O thread stands in the two calls, by where it stands in the loop. -/
def RequestPc.Aligned : RequestPc → MetricsPc → Prop
  | .waiting, metrics => metrics = .idle
  | .sampling, _ => True
  | .answered _, metrics => metrics = .idle
  | .resetting, metrics => metrics = .storeLatency

/-- What holds at any point of a run: the windows add up, once a transaction
that is being counted and a window that was reported and not yet reset are taken
into account. -/
structure Windowed (s : Monitored) (tr : List Event) : Prop where
  sum : (reported tr).sum + s.engine.txCountWindow + s.engine.pc.ahead =
    s.engine.txCountTotal + s.request.pending
  aligned : s.request.Aligned s.engine.metrics

section Runs

variable {s s' : Monitored} {a : Action} {tr es : List Event}

theorem monitoredStep_other (hget : a ≠ .getMetricsSample) (hreset : a ≠ .resetMetricsWindow)
    (hmetrics : a ≠ .metrics) :
    monitoredStep s a = (Ledger.step s.engine a).map (fun r => (⟨r.1, s.request⟩, r.2)) := by
  cases a with
  | getMetricsSample => exact absurd rfl hget
  | resetMetricsWindow => exact absurd rfl hreset
  | metrics => exact absurd rfl hmetrics
  | _ => rfl

/-- A step of the engine thread, or a call of the I/O thread for another message. -/
theorem Windowed.other (h : Windowed s tr) {engine : LedgerEngine}
    (hkeeps : KeepsDistance s.engine engine es) : Windowed ⟨engine, s.request⟩ (tr ++ es) := by
  obtain ⟨hcounters, hmetrics, hreported⟩ := hkeeps
  refine ⟨?_, ?_⟩
  · show (reported (tr ++ es)).sum + engine.txCountWindow + engine.pc.ahead =
      engine.txCountTotal + s.request.pending
    rw [reported_append, hreported, List.append_nil]
    have hsum := h.sum
    grind
  · show s.request.Aligned engine.metrics
    rw [hmetrics]
    exact h.aligned

/-- A load of the sample; with the last one the window is reported. -/
theorem Windowed.sampling {engine engine' : LedgerEngine} (h : Windowed ⟨engine, .sampling⟩ tr)
    (hstep : engine.metricsStep = some (engine', es)) :
    Windowed ⟨engine', RequestPc.sampling.next es⟩ (tr ++ es) := by
  have hsum : (reported tr).sum + engine.txCountWindow + engine.pc.ahead =
      engine.txCountTotal + 0 := h.sum
  -- nothing is reported before the last load
  have hloads : ∀ metrics, Windowed ⟨{ engine with metrics := metrics }, .sampling⟩ (tr ++ []) := by
    intro metrics
    rw [List.append_nil]
    exact ⟨hsum, trivial⟩
  unfold LedgerEngine.metricsStep at hstep
  split at hstep
  next => cases hstep
  next =>
    cases hstep
    exact hloads _
  next =>
    cases hstep
    exact hloads _
  next txCount windowCount windowLatency hpc =>
    cases hstep
    refine ⟨?_, rfl⟩
    show (reported (tr ++ [_])).sum + engine.txCountWindow + engine.pc.ahead =
      engine.txCountTotal + windowCount
    rw [reported_append, List.sum_append]
    show (reported tr).sum + (windowCount + 0) + engine.txCountWindow + engine.pc.ahead = _
    grind
  next =>
    cases hstep
    rw [List.append_nil]
    exact ⟨hsum, trivial⟩

/-- **A step keeps the account of the windows**, if nothing was counted between
the load of a sample and the store of the reset. -/
theorem Windowed.step (h : Windowed s tr) (hstep : monitoredStep s a = some (s', es))
    (hunchanged : WindowUnchanged s a) : Windowed s' (tr ++ es) := by
  obtain ⟨engine, request⟩ := s
  have hsum := h.sum
  cases a with
  | getMetricsSample =>
      cases request with
      | waiting =>
          obtain ⟨r, hr, heq⟩ := Option.map_eq_some_iff.mp hstep
          have hidle : engine.metrics = .idle := h.aligned
          simp only [Ledger.step, hidle, if_true, Option.some.injEq] at hr
          subst hr
          cases heq
          rw [List.append_nil]
          exact ⟨hsum, trivial⟩
      | sampling | answered sample | resetting => cases hstep
  | resetMetricsWindow =>
      cases request with
      | answered sample =>
          obtain ⟨r, hr, heq⟩ := Option.map_eq_some_iff.mp hstep
          have hidle : engine.metrics = .idle := h.aligned
          have hwindow : engine.txCountWindow = sample.windowCount := hunchanged rfl sample rfl
          simp only [Ledger.step, hidle, if_true, Option.some.injEq] at hr
          subst hr
          cases heq
          rw [List.append_nil]
          refine ⟨?_, rfl⟩
          -- the window that is overwritten is the one that was reported
          show (reported tr).sum + 0 + engine.pc.ahead = engine.txCountTotal + 0
          have hopen : (reported tr).sum + engine.txCountWindow + engine.pc.ahead =
            engine.txCountTotal + sample.windowCount := hsum
          grind
      | waiting | sampling | resetting => cases hstep
  | metrics =>
      cases request with
      | sampling =>
          obtain ⟨r, hr, heq⟩ := Option.map_eq_some_iff.mp hstep
          change engine.metricsStep = some r at hr
          cases heq
          exact h.sampling hr
      | resetting =>
          obtain ⟨r, hr, heq⟩ := Option.map_eq_some_iff.mp hstep
          have hstore : engine.metrics = .storeLatency := h.aligned
          simp only [Ledger.step, LedgerEngine.metricsStep, hstore, Option.some.injEq] at hr
          subst hr
          cases heq
          rw [List.append_nil]
          exact ⟨hsum, rfl⟩
      | waiting | answered sample => cases hstep
  | engine now os | submit req | takeReply | drawAccountId req | commitAccount i
  | getBalanceSnapshot | shutdown =>
      rw [monitoredStep_other (by simp) (by simp) (by simp)] at hstep
      obtain ⟨r, hr, heq⟩ := Option.map_eq_some_iff.mp hstep
      cases heq
      exact h.other (step_distance hr (by simp) (by simp) (by simp))

end Runs

/-- **THE WINDOWS LOSE NOTHING**, in every run in which at every reset the window
is still what was reported. -/
theorem windows_lose_nothing {w : Wal.WriteAheadLog} {acts : List Action}
    (hunchanged : ∀ t a t', Takes (traced monitoredStep) ⟨.init w, []⟩ acts t a t' →
      WindowUnchanged t.state a)
    {t : Traced Monitored Event} (h : Visits (traced monitoredStep) ⟨.init w, []⟩ acts t)
    (hbetween : t.state.Between) : t.state.AddsUp t.trace := by
  have hinit : Windowed (.init w) [] := ⟨rfl, rfl⟩
  have hwindowed : Windowed t.state t.trace := by
    refine traced_of_takes Windowed hinit ?_ h
    intro u a u' es htakes hes hu
    exact hu.step hes (hunchanged u a u' htakes)
  have hsum := hwindowed.sum
  have hahead : t.state.engine.pc.ahead = 0 := by
    unfold Pc.ahead
    split
    next latency hpc => exact absurd hpc (hbetween.engine latency).1
    next => rfl
  rw [hahead, hbetween.request] at hsum
  show (reported t.trace).sum + t.state.engine.txCountWindow = t.state.engine.txCountTotal
  have hzero : RequestPc.pending .waiting = 0 := rfl
  rw [hzero] at hsum
  grind

/-! ## §5. Two runs. -/

/-- The condition, as a check. -/
def windowUnchanged (t : Traced Monitored Event) : Action → Bool
  | .resetMetricsWindow =>
      match t.state.request with
      | .answered sample => decide (t.state.engine.txCountWindow = sample.windowCount)
      | _ => true
  | _ => true

theorem windowUnchanged_of_checked {w : Wal.WriteAheadLog} {acts : List Action}
    (h : checked (traced monitoredStep) windowUnchanged ⟨.init w, []⟩ acts = true) :
    ∀ t a t', Takes (traced monitoredStep) ⟨.init w, []⟩ acts t a t' →
      WindowUnchanged t.state a := by
  intro t a t' htakes ha sample hanswered
  have hok : windowUnchanged t a = true := htakes.checked h
  rw [ha, windowUnchanged, hanswered] at hok
  exact of_decide_eq_true hok

/-- A request between accounts that do not exist is rejected, and counted. -/
def countedRequest (key : String) : List Action :=
  .submit (transferRequest key 0 1 500) :: engineSteps 10

/-- The accesses of one metrics request. -/
def metricsRequest : List Action :=
  [.getMetricsSample, .metrics, .metrics, .metrics, .resetMetricsWindow, .metrics]

/-- Two requests in the first window, one in the second, one not yet reported. -/
def countedApart : List Action :=
  countedRequest "a" ++ countedRequest "b" ++ metricsRequest ++ countedRequest "c" ++
    metricsRequest ++ countedRequest "d"

theorem countedApart_adds_up :
    ∃ t, Visits (traced monitoredStep) ⟨.init newLog, []⟩ countedApart t ∧
      reported t.trace = [2, 1] ∧ t.state.engine.txCountTotal = 4 ∧ t.state.AddsUp t.trace := by
  have hrun : (run (traced monitoredStep) ⟨.init newLog, []⟩ countedApart).map
      (fun t => (reported t.trace, t.state.engine.txCountTotal, t.state.engine.pc,
        t.state.request)) = some ([2, 1], 4, .loadRunning, .waiting) := by
    decide +kernel
  obtain ⟨t, ht, heq⟩ := Option.map_eq_some_iff.mp hrun
  simp only [Prod.mk.injEq] at heq
  obtain ⟨hreported, htotal, hpc, hrequest⟩ := heq
  have hbetween : t.state.Between := by
    refine ⟨?_, hrequest⟩
    intro latency
    rw [hpc]
    exact ⟨by simp, by simp⟩
  exact ⟨t, visits_end ht, hreported, htotal, windows_lose_nothing
    (windowUnchanged_of_checked (by decide +kernel)) (visits_end ht) hbetween⟩

/-- One request is counted after the sample has loaded the count of the window. -/
def countedBetween : List Action :=
  [.submit (transferRequest "a" 0 1 500)] ++ engineSteps 7 ++ [.getMetricsSample, .metrics] ++
    engineSteps 3 ++ [.metrics, .metrics, .resetMetricsWindow, .metrics]

/-- **It is in no window**: the sample reports none, and the reset forgets it. -/
theorem countedBetween_lost :
    ∃ t, Visits (traced monitoredStep) ⟨.init newLog, []⟩ countedBetween t ∧
      t.state.Between ∧ reported t.trace = [0] ∧ t.state.engine.txCountWindow = 0 ∧
      t.state.engine.txCountTotal = 1 ∧ ¬ t.state.AddsUp t.trace := by
  have hrun : (run (traced monitoredStep) ⟨.init newLog, []⟩ countedBetween).map
      (fun t => (reported t.trace, t.state.engine.txCountWindow, t.state.engine.txCountTotal,
        t.state.engine.pc, t.state.request)) = some ([0], 0, 1, .loadRunning, .waiting) := by
    decide +kernel
  obtain ⟨t, ht, heq⟩ := Option.map_eq_some_iff.mp hrun
  simp only [Prod.mk.injEq] at heq
  obtain ⟨hreported, hwindow, htotal, hpc, hrequest⟩ := heq
  have hbetween : t.state.Between := by
    refine ⟨?_, hrequest⟩
    intro latency
    rw [hpc]
    exact ⟨by simp, by simp⟩
  refine ⟨t, visits_end ht, hbetween, hreported, hwindow, htotal, ?_⟩
  intro hadds
  unfold Monitored.AddsUp at hadds
  rw [hreported, hwindow, htotal] at hadds
  exact absurd hadds (by decide)

end ZeroLGR.Ledger
