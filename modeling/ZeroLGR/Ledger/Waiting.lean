/-
  ZeroLGR.Ledger.Waiting — how long a request waits.

  The engine thread serves one request after the other, and no caller holds it
  up: accounts are created, snapshots and samples are taken and requests are
  pushed while it works.  So the requests in front of a request bound its wait,
  counted in steps of the engine thread.

    • `Pc.toReply`, `engine_toReply` — the steps to the next reply,
    • `Later`, `later_of_run` — what is left as it is by any further steps,
    • `wait`, `wait_counts_down` — the steps to the reply at one position,
    • `answered_within` — the bound, whatever else happens meanwhile.
-/
import ZeroLGR.Ledger.Draining
import ZeroLGR.Ledger.RefinesLog
import ZeroLGR.Lib.Rank

namespace ZeroLGR.Ledger

open Transition

/-! ## §1. The steps to the next reply. -/

/-- The steps from a place of the loop to the next reply, at most, while there
are requests. -/
def Pc.toReply : Pc → Nat
  | .countTotal _ => 13
  | .countWindow _ => 12
  | .addLatency _ => 11
  | .loadRunning => 10
  | .popRequest => 9
  | .findCached _ => 8
  | .validate _ => 7
  | .generateUuid _ _ => 6
  | .appendWal _ _ _ => 5
  | .applyTransaction _ _ _ => 4
  | .buildResponse _ _ _ _ => 3
  | .cacheResponse _ _ => 2
  | .pushReply _ _ => 1
  | .replyCached _ _ => 1
  | .returned => 0
  | .terminated _ => 0

theorem Pc.toReply_le (pc : Pc) : pc.toReply ≤ 13 := by
  cases pc <;> simp [Pc.toReply]

/-- A step of the engine thread. -/
def Action.ofEngine : Action → Bool
  | .engine _ _ => true
  | _ => false

section Steps

variable {s s' : LedgerEngine} {a : Action} {now : Int64} {os : Wal.OsReply} {es : List Event}

/-- **Each step of the engine thread leads to the next reply**, or is one. -/
theorem engine_toReply (h : s.engineStep now os = some (s', es)) (hrunning : s.running = true)
    (hqueue : s.pc = .popRequest → s.requestQueue.items ≠ []) :
    s'.pc.toReply < s.pc.toReply + 13 * (handled es).length := by
  have hreply : ∀ req resp next, s.pushReply req resp next = (s', es) →
      s'.pc.toReply < 13 * (handled es).length + 1 := by
    intro req resp next hpush
    obtain ⟨q, pushed, heq⟩ := pushReply_eq s req resp next
    rw [heq] at hpush
    cases hpush
    have hle := next.toReply_le
    show next.toReply < 13 + 1
    omega
  have hless : ∀ {n m}, n < m → n < m + 13 * (handled es).length :=
    fun hlt => Nat.lt_add_right _ hlt
  unfold LedgerEngine.engineStep at h
  split at h
  case h_1 hpc =>
    rw [if_pos hrunning] at h
    cases h
    rw [hpc]
    exact hless (show 9 < 10 by omega)
  case h_2 hpc =>
    -- the queue is not empty, so a request is popped
    rw [hpc]
    split at h
    next hnone =>
      cases hitems : s.requestQueue.items with
      | nil => exact absurd hitems (hqueue hpc)
      | cons req rest =>
          obtain ⟨q, hq, -⟩ := Fifo.Bounded.dequeue_of_cons hitems
          rw [hnone] at hq
          cases hq
    next req q hsome =>
      cases h
      exact hless (show 8 < 9 by omega)
  case h_4 req resp hpc | h_11 req resp hpc =>
    have hsoon := hreply req resp _ (Option.some.inj h)
    rw [hpc]
    show s'.pc.toReply < 1 + _
    omega
  case h_7 req tStart txId hpc =>
    rw [hpc]
    unfold LedgerEngine.appendWal at h
    split at h
    next => cases h; exact hless (show 4 < 5 by omega)
    next => cases h; exact hless (show 0 < 5 by omega)
  case h_5 req hpc =>
    rw [hpc]
    dsimp only at h
    split at h
    next => cases h; exact hless (show 6 < 7 by omega)
    next => cases h; exact hless (show 3 < 7 by omega)
  case h_3 req hpc =>
    rw [hpc]
    split at h
    next => cases h; exact hless (show 1 < 8 by omega)
    next => cases h; exact hless (show 7 < 8 by omega)
  case h_10 req resp hpc =>
    rw [hpc]
    split at h <;> cases h <;> exact hless (show 1 < 2 by omega)
  case h_15 => cases h
  case h_16 => cases h
  case h_6 hpc | h_8 hpc | h_9 hpc | h_12 hpc | h_13 hpc | h_14 hpc =>
    cases h
    rw [hpc]
    exact hless (Nat.lt_succ_self _)

/-- **The engine thread goes on**, unless it is at its end. -/
theorem engineStep_enabled (h : s.engineStep now os = none) :
    s.pc = .returned ∨ ∃ req, s.pc = .terminated req := by
  unfold LedgerEngine.engineStep at h
  split at h
  next => split at h <;> cases h
  next => split at h <;> cases h
  next => split at h <;> cases h
  next => cases h
  next =>
    dsimp only at h
    split at h <;> cases h
  next => cases h
  next => cases h
  next => cases h
  next => cases h
  next => split at h <;> cases h
  next => cases h
  next => cases h
  next => cases h
  next => cases h
  next hpc => exact .inl hpc
  next req hpc => exact .inr ⟨req, hpc⟩

/-- The other calls leave the engine thread where it is. -/
theorem call_toReply (h : step s a = some (s', es)) (ha : a.ofEngine = false) :
    s'.pc = s.pc ∧ handled es = [] := by
  have hcall : ∀ now os, a ≠ .engine now os := by
    rintro now os rfl
    cases ha
  refine ⟨(call_quiet h hcall).1, ?_⟩
  have he := step_effect h
  cases he with
  | aside hside => cases hside <;> rfl
  | drawAccountId | commitAccount => rfl
  | pop | hit | miss | replyCached | accept | reject | drawTxId | append | appendThrows | apply
  | build | cache | noCache | reply => cases ha

/-- Nobody sets the flag again. -/
theorem step_running (he : Effect s a s' es) : s'.running = true → s.running = true := by
  cases he with
  | aside hside =>
      cases hside with
      | shutdown =>
          intro hset
          cases hset
      | _ => exact id
  | drawAccountId | commitAccount | pop | hit | miss | replyCached | accept | reject | drawTxId
  | append | appendThrows | apply | build | cache | noCache | reply => exact id

end Steps

/-! ## §2. Further steps. -/

/-- What further steps leave as it is: the record so far, and a flag that is
cleared. -/
structure Later (t u : Traced LedgerEngine Event) : Prop where
  trace : ∃ es, u.trace = t.trace ++ es
  running : u.state.running = true → t.state.running = true

theorem later_of_run {t u : Traced LedgerEngine Event} {acts : List Action}
    (h : run (traced step) t acts = some u) : Later t u := by
  refine run_invariant (Later t) ?_ ⟨⟨[], (List.append_nil _).symm⟩, id⟩ h
  intro a v v' hv hstep
  obtain ⟨es, hes, htrace⟩ := traced_eq_some.mp hstep
  obtain ⟨before, hbefore⟩ := hv.trace
  refine ⟨⟨before ++ es, ?_⟩, fun hset => hv.running (step_running (step_effect hes) hset)⟩
  rw [htrace, hbefore, List.append_assoc]

/-! ## §3. The reply at one position. -/

/-- The books about the queues are right, and `run()` has returned only after it
was told to. -/
structure Ready (s : LedgerEngine) (tr : List Event) : Prop where
  traffic : Traffic s tr
  handles : Handles s tr
  returned : s.pc = .returned → s.running = false

theorem Ready.step {s s' : LedgerEngine} {a : Action} {tr es : List Event} (h : Ready s tr)
    (hstep : Ledger.step s a = some (s', es)) : Ready s' (tr ++ es) := by
  have heffect := step_queueEffect hstep
  refine ⟨h.traffic.step heffect, h.handles.step heffect, ?_⟩
  intro hret
  have hcleared : s.running = false := by
    rcases step_returned hstep hret with hbefore | ⟨-, -, hrun⟩
    · exact h.returned hbefore
    · exact hrun
  by_contra hset
  rw [step_running (step_effect hstep) (Bool.eq_true_of_not_eq_false hset)] at hcleared
  cases hcleared

theorem run_ready {w : Wal.WriteAheadLog} {acts : List Action} {t : Traced LedgerEngine Event}
    (h : runEngine (.init w) acts = some t) : Ready t.state t.trace := by
  refine traced_invariant Ready ?_ ⟨traffic_init w, rfl, ?_⟩ h
  · intro s tr a s' es hs hstep
    exact hs.step hstep
  · intro hret
    cases hret

theorem ready_later {t u : Traced LedgerEngine Event} {acts : List Action}
    (h : Ready t.state t.trace) (hrun : run (traced step) t acts = some u) :
    Ready u.state u.trace := by
  refine run_invariant (fun v => Ready v.state v.trace) ?_ h hrun
  intro a v v' hv hstep
  obtain ⟨es, hes, htrace⟩ := traced_eq_some.mp hstep
  rw [htrace]
  exact hv.step hes

/-- As many requests were popped as were replied to, and the one in hand. -/
theorem Ready.counts {s : LedgerEngine} {tr : List Event} (h : Ready s tr) :
    (submitted tr).length =
      (handled tr).length + s.pc.inHand.length + s.requestQueue.items.length := by
  have hpopped := congrArg List.length h.handles
  rw [List.length_append, List.length_map] at hpopped
  rw [h.traffic.requests, List.length_append, hpopped]

/-- The steps of the engine thread to reply number `p`, at most. -/
def wait (p : Nat) (t : Traced LedgerEngine Event) : Nat :=
  t.state.pc.toReply + 13 * (p - (handled t.trace).length)

section Runs

variable {t u : Traced LedgerEngine Event} {acts : List Action} {p : Nat}

/-- **The wait counts down**: every step of the engine thread shortens it, and
no other step makes it longer. -/
theorem wait_counts_down (hready : Ready t.state t.trace)
    (hrun : run (traced step) t acts = some u) (hrunning : u.state.running = true)
    (hsubmitted : p < (submitted t.trace).length) (hopen : (handled u.trace).length ≤ p) :
    Rank.CountsDown (traced step) Action.ofEngine (wait p) t acts := by
  have hbetween : ∀ x a x', Takes (traced step) t acts x a x' →
      Ready x.state x.trace ∧ x.state.running = true ∧ (handled x'.trace).length ≤ p ∧
        p < (submitted x.trace).length := by
    intro x a x' htakes
    obtain ⟨before, after, rfl, hbefore, hstep⟩ := htakes
    rw [run_append, hbefore, Option.bind_some, run_cons, hstep, Option.bind_some] at hrun
    have hlater := later_of_run hrun
    have hone : run (traced step) x [a] = some x' := by
      rw [run_cons, hstep]
      rfl
    have hstepLater := later_of_run hone
    obtain ⟨es, hes⟩ := hlater.trace
    obtain ⟨es', hes'⟩ := (later_of_run hbefore).trace
    rw [hes, handled_append, List.length_append] at hopen
    refine ⟨ready_later hready hbefore, hstepLater.running (hlater.running hrunning), by omega, ?_⟩
    rw [hes', submitted_append, List.length_append]
    omega
  constructor
  · intro x a x' htakes hown
    obtain ⟨hbooks, hset, hle, hlt⟩ := hbetween x a x' htakes
    obtain ⟨es, hes, htrace⟩ := htakes.shows
    rw [htrace, handled_append, List.length_append] at hle
    cases a with
    | engine now os =>
        have hqueue : x.state.pc = .popRequest → x.state.requestQueue.items ≠ [] := by
          intro hpc hnone
          have hcounts := hbooks.counts
          rw [hpc, hnone] at hcounts
          simp only [Pc.inHand, List.length_nil] at hcounts
          omega
        have hless := engine_toReply hes hset hqueue
        unfold wait
        rw [htrace, handled_append, List.length_append]
        omega
    | _ => cases hown
  · intro x a x' htakes hother
    obtain ⟨es, hes, htrace⟩ := htakes.shows
    obtain ⟨hpc, hnone⟩ := call_toReply hes hother
    unfold wait
    rw [htrace, handled_append, hnone, List.append_nil, hpc]

/-- The wait of the request at position `k` of the queue. -/
theorem Ready.wait_le (h : Ready t.state t.trace) (k : Nat) :
    wait ((popped t.trace).length + k) t ≤ 13 * (k + 2) := by
  have hpopped := congrArg List.length h.handles
  rw [List.length_append, List.length_map] at hpopped
  have hhand : t.state.pc.inHand.length ≤ 1 := by
    cases t.state.pc <;> simp [Pc.inHand]
  have hle := t.state.pc.toReply_le
  unfold wait
  omega

end Runs

/-- **A REQUEST IS ANSWERED WITHIN A BOUND.**  From any state of any run, a request
with `k` others in front of it in the queue has been answered when the engine
thread has taken `13 * (k + 2)` more steps, whatever the other threads do
meanwhile, if `shutdown` was not called and no append has thrown: its reply was
handed to the reply queue, which drops it when it is full.  Until then the engine
thread can take its next step; the wait for a lock lies inside one. -/
theorem answered_within {w : Wal.WriteAheadLog} {before after : List Action}
    {t u : Traced LedgerEngine Event} (hbefore : runEngine (.init w) before = some t)
    (hafter : run (traced step) t after = some u) (hrunning : u.state.running = true)
    (halive : u.state.pc.threw = false) {k : Nat} {req : TransactionRequest}
    (hreq : t.state.requestQueue.items[k]? = some req) :
    (13 * (k + 2) ≤ after.countP Action.ofEngine →
        ∃ pushed, (handled u.trace)[(popped t.trace).length + k]? = some (req, pushed)) ∧
      ∀ now os, (step u.state (.engine now os)).isSome = true := by
  have hready := run_ready hbefore
  have hend := ready_later hready hafter
  have hgoes : u.state.pc ≠ .returned ∧ ∀ r, u.state.pc ≠ .terminated r := by
    refine ⟨?_, ?_⟩
    · intro hret
      rw [hend.returned hret] at hrunning
      cases hrunning
    · intro r hthrew
      rw [hthrew] at halive
      cases halive
  have hsubmitted : (submitted t.trace)[(popped t.trace).length + k]? = some req := by
    rw [hready.traffic.requests, List.getElem?_append_right (Nat.le_add_right _ _),
      Nat.add_sub_cancel_left]
    exact hreq
  refine ⟨?_, ?_⟩
  · intro hsteps
    have hreached : (popped t.trace).length + k < (handled u.trace).length := by
      by_contra hopen
      have hcounts := Rank.own_steps_le (wait_counts_down hready hafter hrunning
        (List.getElem?_eq_some_iff.mp hsubmitted).1 (Nat.le_of_not_lt hopen)) hafter
      have hstart := hready.wait_le k
      -- the wait is used up, so the thread has ended
      have hnone : u.state.pc.toReply = 0 := by
        unfold wait at hcounts hstart
        omega
      cases hpc : u.state.pc with
      | returned => exact hgoes.1 hpc
      | terminated r => exact hgoes.2 r hpc
      | _ =>
          rw [hpc] at hnone
          cases hnone
    obtain ⟨⟨req', pushed⟩, hreply⟩ : ∃ r, (handled u.trace)[(popped t.trace).length + k]? =
        some r := ⟨_, List.getElem?_eq_getElem hreached⟩
    refine ⟨pushed, ?_⟩
    -- replies are made in the order in which the requests were pushed
    obtain ⟨es, hes⟩ := (later_of_run hafter).trace
    have hlt := (List.getElem?_eq_some_iff.mp hsubmitted).1
    have hsame : (submitted u.trace)[(popped t.trace).length + k]? = some req := by
      rw [hes, submitted_append, List.getElem?_append_left hlt]
      exact hsubmitted
    have hpopped : (popped u.trace)[(popped t.trace).length + k]? = some req' := by
      rw [show popped u.trace = _ from hend.handles, List.getElem?_append_left
        (by rw [List.length_map]; exact hreached), List.getElem?_map, hreply]
      rfl
    rw [hend.traffic.requests, List.getElem?_append_left
      (List.getElem?_eq_some_iff.mp hpopped).1, hpopped] at hsame
    rw [hreply, Option.some.inj hsame]
  · intro now os
    by_contra hstuck
    have hnone : u.state.engineStep now os = none := by
      rwa [Bool.not_eq_true, Option.isSome_eq_false_iff, Option.isNone_iff_eq_none] at hstuck
    rcases engineStep_enabled hnone with hret | ⟨r, hthrew⟩
    · exact hgoes.1 hret
    · exact hgoes.2 r hthrew

/-- Two sales are pushed, and the engine thread has not begun. -/
def twoSales : List Action :=
  createAccountCall "Sales" .revenue ++ createAccountCall "Cash" .asset ++
    [.submit (transferRequest "first" 0 1 500), .submit (transferRequest "second" 0 1 200)]

/-- It works, and a snapshot is taken and an account created meanwhile. -/
def atWork : List Action :=
  engineSteps 20 ++ .getBalanceSnapshot :: createAccountCall "Refunds" .equity ++ engineSteps 19

/-- The second sale is answered by then. -/
theorem twoSales_answered :
    ∃ t u pushed, runEngine (.init newLog) twoSales = some t ∧
      run (traced step) t atWork = some u ∧ t.state.requestQueue.items.length = 2 ∧
      (handled u.trace)[1]? = some (transferRequest "second" 0 1 200, pushed) := by
  have hruns : ((runEngine (.init newLog) twoSales).bind fun t =>
      (run (traced step) t atWork).map fun u =>
        (u.state.running, u.state.pc.threw, t.state.requestQueue.items.length,
          t.state.requestQueue.items[1]?, (popped t.trace).length)) =
      some (true, false, 2, some (transferRequest "second" 0 1 200), 0) := by
    decide +kernel
  obtain ⟨t, ht, hruns⟩ := Option.bind_eq_some_iff.mp hruns
  obtain ⟨u, hu, heq⟩ := Option.map_eq_some_iff.mp hruns
  simp only [Prod.mk.injEq] at heq
  obtain ⟨hrunning, halive, htwo, hsecond, hpopped⟩ := heq
  obtain ⟨hreply, -⟩ := answered_within ht hu hrunning halive hsecond
  obtain ⟨pushed, hpushed⟩ := hreply (by decide)
  rw [hpopped] at hpushed
  exact ⟨t, u, pushed, ht, hu, htwo, hpushed⟩

end ZeroLGR.Ledger
