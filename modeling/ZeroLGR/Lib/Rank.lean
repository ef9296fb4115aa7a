/-
  ZeroLGR.Lib.Rank — threads that count down.

  Of the actions of a system some are a thread's own.  A rank that every own
  step lowers, and no other step raises, bounds the own steps of a run, however
  the others are scheduled in between.

  Main results:
    * `own_steps_le` — the own steps of a run, and the rank left, are at most
      the rank at its start.
-/
import ZeroLGR.Lib.Transition

namespace Rank

open Transition

variable {σ α : Type*} {step : σ → α → Option σ}

/-- Along the run, own steps lower the rank and the others do not raise it. -/
structure CountsDown (step : σ → α → Option σ) (own : α → Bool) (rank : σ → Nat) (s₀ : σ)
    (acts : List α) : Prop where
  own_lt : ∀ s a s', Takes step s₀ acts s a s' → own a = true → rank s' < rank s
  other_le : ∀ s a s', Takes step s₀ acts s a s' → own a = false → rank s' ≤ rank s

/-- The steps of the rest of a run are steps of the run. -/
theorem takes_tail {s₀ m s s' : σ} {a b : α} {acts : List α} (hfirst : step s₀ a = some m)
    (h : Takes step m acts s b s') : Takes step s₀ (a :: acts) s b s' := by
  obtain ⟨before, after, hacts, hrun, hstep⟩ := h
  refine ⟨a :: before, after, ?_, ?_, hstep⟩
  · rw [hacts]
    rfl
  · rw [run_cons, hfirst]
    exact hrun

/-- **Own steps are bounded by the rank.** -/
theorem own_steps_le {own : α → Bool} {rank : σ → Nat} {s₀ t : σ} {acts : List α}
    (h : CountsDown step own rank s₀ acts) (hrun : run step s₀ acts = some t) :
    acts.countP own + rank t ≤ rank s₀ := by
  induction acts generalizing s₀ with
  | nil =>
      cases hrun
      simp
  | cons a acts ih =>
      obtain ⟨m, hm, hrest⟩ := Option.bind_eq_some_iff.mp hrun
      have hfirst : Takes step s₀ (a :: acts) s₀ a m := ⟨[], acts, rfl, rfl, hm⟩
      have htail : CountsDown step own rank m acts :=
        ⟨fun s b s' hb => h.own_lt s b s' (takes_tail hm hb),
          fun s b s' hb => h.other_le s b s' (takes_tail hm hb)⟩
      have hcount := ih htail hrest
      rw [List.countP_cons]
      by_cases hown : own a = true
      · have hlt := h.own_lt _ _ _ hfirst hown
        rw [if_pos hown]
        omega
      · have hle := h.other_le _ _ _ hfirst (Bool.eq_false_iff.mpr hown)
        rw [if_neg hown]
        omega

end Rank
