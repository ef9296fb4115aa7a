/-
  ZeroLGR.Lib.Transition — runs of a partial step function.

  A system is a step function `step : σ → α → Option σ`: `none` means the
  action is not enabled.  This file has the runs of such a function, the
  induction rule for invariants, runs of a step function that also shows
  events, and forward simulation into an abstract system.  It knows nothing of
  any particular system.

  Main results:
    * `run_append`, `run_snoc` — how runs compose.
    * `run_invariant` — what every step keeps, every run keeps.
    * `run_invariant_of` — the same when the actions of the run are restricted.
    * `visits_later` — two states of one run have a later one in common.
    * `visits_of_takes` — the run rule for the steps one run takes.
    * `Takes.checked` — what was checked along a run holds of its steps.
    * `traced_invariant`, `traced_of_takes` — the run rules for a state and the
      record of its run.
    * `justified_snoc` — records in which every event has its reasons before it.
    * `run_simulates` — if an abstract system can follow every step, it can
      follow every run, with the record of the run as its path.
    * `run_maps` — the same for a machine that is reached through a function.
-/
import Mathlib.Data.List.Basic
import Mathlib.Data.List.Induction

namespace Transition

variable {σ τ α β ω : Type*}

/-! ## §1. Runs. -/

/-- Take the actions one after the other; `none` as soon as one is not enabled. -/
def run (step : σ → α → Option σ) : σ → List α → Option σ
  | s, [] => some s
  | s, a :: as => (step s a).bind (fun s' => run step s' as)

theorem run_cons (step : σ → α → Option σ) (s : σ) (a : α) (as : List α) :
    run step s (a :: as) = (step s a).bind (fun s' => run step s' as) := rfl

theorem run_append (step : σ → α → Option σ) :
    ∀ (as bs : List α) (s : σ),
      run step s (as ++ bs) = (run step s as).bind (fun s' => run step s' bs)
  | [], bs, s => rfl
  | a :: as, bs, s => by
      rw [List.cons_append, run_cons, run_cons]
      cases step s a with
      | none => rfl
      | some s' => exact run_append step as bs s'

theorem run_snoc (step : σ → α → Option σ) (as : List α) (a : α) (s : σ) :
    run step s (as ++ [a]) = (run step s as).bind (fun s' => step s' a) := by
  rw [run_append]
  congr 1
  funext s'
  rw [run_cons]
  cases step s' a <;> rfl

/-! ## §2. Invariants. -/

/-- **Run rule.**  What every enabled action keeps, every run keeps; only the
actions of the run itself have to be considered. -/
theorem run_invariant_of {step : σ → α → Option σ} (Inv : σ → Prop) :
    ∀ {as : List α} {s s' : σ},
      (∀ a ∈ as, ∀ t t', Inv t → step t a = some t' → Inv t') →
      Inv s → run step s as = some s' → Inv s'
  | [], s, s', _, hs, h => by
      cases h
      exact hs
  | a :: as, s, s', hstep, hs, h => by
      obtain ⟨m, hm, hrest⟩ := Option.bind_eq_some_iff.mp h
      have hInv : Inv m := hstep a List.mem_cons_self s m hs hm
      exact run_invariant_of Inv (fun b hb => hstep b (List.mem_cons_of_mem a hb)) hInv hrest

/-- **Run rule**, for invariants every action keeps. -/
theorem run_invariant {step : σ → α → Option σ} (Inv : σ → Prop)
    (hstep : ∀ a t t', Inv t → step t a = some t' → Inv t')
    {as : List α} {s s' : σ} (hs : Inv s) (h : run step s as = some s') : Inv s' :=
  run_invariant_of Inv (fun a _ => hstep a) hs h

/-! ## §3. The states and the steps of one run. -/

/-- The run `acts` from `s₀` passes through `s`. -/
def Visits (step : σ → α → Option σ) (s₀ : σ) (acts : List α) (s : σ) : Prop :=
  ∃ before after, acts = before ++ after ∧ run step s₀ before = some s

/-- The run `acts` from `s₀` takes the step `a` from `s` to `s'`. -/
def Takes (step : σ → α → Option σ) (s₀ : σ) (acts : List α) (s : σ) (a : α) (s' : σ) : Prop :=
  ∃ before after, acts = before ++ a :: after ∧ run step s₀ before = some s ∧ step s a = some s'

theorem visits_end {step : σ → α → Option σ} {s₀ s : σ} {acts : List α}
    (h : run step s₀ acts = some s) : Visits step s₀ acts s :=
  ⟨acts, [], (List.append_nil acts).symm, h⟩

theorem Takes.source {step : σ → α → Option σ} {s₀ s s' : σ} {acts : List α} {a : α}
    (h : Takes step s₀ acts s a s') : Visits step s₀ acts s := by
  obtain ⟨before, after, hacts, hrun, -⟩ := h
  exact ⟨before, a :: after, hacts, hrun⟩

theorem Takes.target {step : σ → α → Option σ} {s₀ s s' : σ} {acts : List α} {a : α}
    (h : Takes step s₀ acts s a s') : Visits step s₀ acts s' := by
  obtain ⟨before, after, hacts, hrun, hstep⟩ := h
  refine ⟨before ++ [a], after, ?_, ?_⟩
  · rw [hacts, List.append_assoc]
    rfl
  · rw [run_snoc, hrun]
    exact hstep

/-- Two states that one run passes through: one of them comes later, and is
reached from both. -/
theorem visits_later {step : σ → α → Option σ} {s₀ s t : σ} {acts : List α}
    (hs : Visits step s₀ acts s) (ht : Visits step s₀ acts t) :
    ∃ u, Visits step s₀ acts u ∧ (∃ as, run step s as = some u) ∧ ∃ as, run step t as = some u := by
  obtain ⟨before, after, hacts, hrun⟩ := id hs
  obtain ⟨before', after', hacts', hrun'⟩ := id ht
  rcases List.append_eq_append_iff.mp (hacts.symm.trans hacts') with
    ⟨mid, rfl, -⟩ | ⟨mid, rfl, -⟩
  · rw [run_append, hrun, Option.bind_some] at hrun'
    exact ⟨t, ht, ⟨mid, hrun'⟩, ⟨[], rfl⟩⟩
  · rw [run_append, hrun', Option.bind_some] at hrun
    exact ⟨s, hs, ⟨[], rfl⟩, ⟨mid, hrun⟩⟩

/-- **Run rule** for the steps of one run: what holds at its start and is kept
by the steps it takes holds in every state it passes through. -/
theorem visits_of_takes {step : σ → α → Option σ} (Inv : σ → Prop) {s₀ : σ} {acts : List α}
    (h₀ : Inv s₀) (hstep : ∀ s a s', Takes step s₀ acts s a s' → Inv s → Inv s')
    {s : σ} (h : Visits step s₀ acts s) : Inv s := by
  obtain ⟨before, after, hacts, hrun⟩ := h
  -- induction on the part of the run before `s`, from its end
  induction before using List.reverseRecOn generalizing s after with
  | nil =>
      cases hrun
      exact h₀
  | append_singleton before a ih =>
      rw [run_snoc] at hrun
      obtain ⟨m, hm, hlast⟩ := Option.bind_eq_some_iff.mp hrun
      have hsplit : acts = before ++ a :: after := by
        rw [hacts, List.append_assoc]
        rfl
      exact hstep m a s ⟨before, after, hsplit, hm, hlast⟩ (ih (a :: after) hsplit hm)

/-- Every step of the run passes the check. -/
def checked (step : σ → α → Option σ) (ok : σ → α → Bool) : σ → List α → Bool
  | _, [] => true
  | s, a :: as =>
      ok s a && match step s a with
        | some s' => checked step ok s' as
        | none => true

/-- What was checked along a run holds of the steps it takes. -/
theorem Takes.checked {step : σ → α → Option σ} {ok : σ → α → Bool} {s₀ s s' : σ} {acts : List α}
    {a : α} (hok : checked step ok s₀ acts = true) (h : Takes step s₀ acts s a s') :
    ok s a = true := by
  obtain ⟨before, after, rfl, hrun, -⟩ := h
  induction before generalizing s₀ with
  | nil =>
      cases hrun
      exact (Bool.and_eq_true_iff.mp hok).1
  | cons b before ih =>
      obtain ⟨m, hm, hrest⟩ := Option.bind_eq_some_iff.mp hrun
      have htail := (Bool.and_eq_true_iff.mp hok).2
      rw [hm] at htail
      exact ih htail hrest

/-! ## §4. Recorded runs.

    A step that shows something returns its events next to the new state. -/

/-- A state together with everything shown on the way to it, oldest first. -/
structure Traced (σ ω : Type*) where
  state : σ
  trace : List ω

/-- Run a showing step and append what it shows to the record. -/
def traced (step : σ → α → Option (σ × List ω)) : Traced σ ω → α → Option (Traced σ ω)
  | t, a => (step t.state a).map (fun r => ⟨r.1, t.trace ++ r.2⟩)

theorem traced_eq_some {step : σ → α → Option (σ × List ω)} {t t' : Traced σ ω} {a : α} :
    traced step t a = some t' ↔
      ∃ es, step t.state a = some (t'.state, es) ∧ t'.trace = t.trace ++ es := by
  unfold traced
  rw [Option.map_eq_some_iff]
  constructor
  · rintro ⟨⟨s', es⟩, hs', rfl⟩
    exact ⟨es, hs', rfl⟩
  · intro hparts
    obtain ⟨es, hstate, htrace⟩ := hparts
    refine ⟨(t'.state, es), hstate, ?_⟩
    rw [← htrace]

/-- A step in front of a recorded run. -/
theorem run_traced_cons {step : σ → α → Option (σ × List ω)} {s s' : σ} {a : α} {es : List ω}
    (h : step s a = some (s', es)) (tr : List ω) (as : List α) :
    run (traced step) ⟨s, tr⟩ (a :: as) = run (traced step) ⟨s', tr ++ es⟩ as := by
  have hstep : traced step ⟨s, tr⟩ a = some ⟨s', tr ++ es⟩ := traced_eq_some.mpr ⟨es, h, rfl⟩
  rw [run_cons, hstep]
  rfl

/-- What is on record already stays in front. -/
theorem run_traced_from (step : σ → α → Option (σ × List ω)) :
    ∀ (as : List α) (s : σ) (tr : List ω), run (traced step) ⟨s, tr⟩ as =
      (run (traced step) ⟨s, []⟩ as).map (fun t => ⟨t.state, tr ++ t.trace⟩)
  | [], s, tr => by simp [run]
  | a :: as, s, tr => by
      cases hstep : step s a with
      | none => simp [run_cons, traced, hstep]
      | some r =>
          obtain ⟨s', es⟩ := r
          rw [run_traced_cons hstep, run_traced_cons hstep, run_traced_from step as s' (tr ++ es),
            run_traced_from step as s' ([] ++ es), Option.map_map]
          congr 1
          funext t
          simp

/-- **Run rule for recorded runs**: an invariant of state and record. -/
theorem traced_invariant {step : σ → α → Option (σ × List ω)} (Inv : σ → List ω → Prop)
    (hstep : ∀ s tr a s' es, Inv s tr → step s a = some (s', es) → Inv s' (tr ++ es))
    {as : List α} {s₀ : σ} {t : Traced σ ω} (h₀ : Inv s₀ [])
    (h : run (traced step) ⟨s₀, []⟩ as = some t) : Inv t.state t.trace := by
  refine run_invariant (fun u : Traced σ ω => Inv u.state u.trace) ?_ h₀ h
  intro a u u' hu hu'
  obtain ⟨es, hstate, htrace⟩ := traced_eq_some.mp hu'
  rw [htrace]
  exact hstep u.state u.trace a u'.state es hu hstate

/-- A step that a recorded run takes, with what it shows. -/
theorem Takes.shows {step : σ → α → Option (σ × List ω)} {t₀ t t' : Traced σ ω} {acts : List α}
    {a : α} (h : Takes (traced step) t₀ acts t a t') :
    ∃ es, step t.state a = some (t'.state, es) ∧ t'.trace = t.trace ++ es := by
  obtain ⟨-, -, -, -, hstep⟩ := h
  exact traced_eq_some.mp hstep

/-- **Run rule** for the steps of one recorded run. -/
theorem traced_of_takes {step : σ → α → Option (σ × List ω)} (Inv : σ → List ω → Prop) {s₀ : σ}
    {acts : List α} (h₀ : Inv s₀ [])
    (hstep : ∀ t a t' es, Takes (traced step) ⟨s₀, []⟩ acts t a t' →
      step t.state a = some (t'.state, es) → Inv t.state t.trace → Inv t'.state (t.trace ++ es))
    {t : Traced σ ω} (h : Visits (traced step) ⟨s₀, []⟩ acts t) : Inv t.state t.trace := by
  refine visits_of_takes (fun u : Traced σ ω => Inv u.state u.trace) h₀ ?_ h
  intro u a u' htakes hu
  obtain ⟨es, hes, htrace⟩ := htakes.shows
  rw [htrace]
  exact hstep u a u' es htakes hes hu

/-- Every event of the record satisfies `P` together with what was recorded
before it. -/
def Justified (P : List ω → ω → Prop) (tr : List ω) : Prop :=
  ∀ before e after, tr = before ++ e :: after → P before e

theorem justified_nil (P : List ω → ω → Prop) : Justified P [] := by
  intro before e after h
  simp at h

theorem justified_snoc {P : List ω → ω → Prop} {tr : List ω} {e : ω} :
    Justified P (tr ++ [e]) ↔ Justified P tr ∧ P tr e := by
  constructor
  · intro h
    refine ⟨?_, h tr e [] rfl⟩
    intro before e' after htr
    exact h before e' (after ++ [e]) (by rw [htr, List.append_assoc]; rfl)
  · intro hparts before e' after hsplit
    obtain ⟨htr, he⟩ := hparts
    -- the event is the last one, or it is one of the record before
    rcases List.eq_nil_or_concat after with rfl | ⟨rest, x, rfl⟩
    · obtain ⟨rfl, hlast⟩ := List.append_inj' hsplit rfl
      cases hlast
      exact he
    · rw [List.concat_eq_append, ← List.cons_append, ← List.append_assoc] at hsplit
      obtain ⟨hleft, -⟩ := List.append_inj' hsplit rfl
      exact htr before e' rest hleft

/-- Events that are justified by anything can be added at any time. -/
theorem Justified.append {P : List ω → ω → Prop} {tr es : List ω} (h : Justified P tr)
    (hes : ∀ e ∈ es, ∀ before, P before e) : Justified P (tr ++ es) := by
  induction es generalizing tr with
  | nil => rwa [List.append_nil]
  | cons e es ih =>
      have hone := justified_snoc.mpr ⟨h, hes e List.mem_cons_self tr⟩
      have hall := ih hone (fun e' he' => hes e' (List.mem_cons_of_mem e he'))
      rwa [List.append_assoc] at hall

/-! ## §5. Paths of an abstract system, and forward simulation.

    The abstract side is a relation: it says which steps are allowed, not how
    to compute them. -/

/-- Paths of a labelled step relation. -/
inductive Path (stepA : τ → β → τ → Prop) : τ → List β → τ → Prop
  | nil (t : τ) : Path stepA t [] t
  | snoc {t m t' : τ} {bs : List β} {b : β} :
      Path stepA t bs m → stepA m b t' → Path stepA t (bs ++ [b]) t'

theorem Path.single {stepA : τ → β → τ → Prop} {t t' : τ} {b : β} (h : stepA t b t') :
    Path stepA t [b] t' :=
  .snoc (.nil t) h

theorem Path.trans {stepA : τ → β → τ → Prop} {t m t' : τ} {bs cs : List β}
    (h₁ : Path stepA t bs m) (h₂ : Path stepA m cs t') : Path stepA t (bs ++ cs) t' := by
  induction h₂ with
  | nil => rwa [List.append_nil]
  | snoc _ hstep ih =>
      rw [← List.append_assoc]
      exact .snoc ih hstep

/-- **Forward simulation.**  Each event stands for the abstract labels `vis`.
If from related states every concrete step is matched by an abstract path
labelled with what its events stand for, every recorded run is. -/
theorem run_simulates {step : σ → α → Option (σ × List ω)} (vis : ω → List β)
    {stepA : τ → β → τ → Prop} (R : σ → τ → Prop)
    (hsim : ∀ s t a s' es, R s t → step s a = some (s', es) →
      ∃ t', Path stepA t (es.flatMap vis) t' ∧ R s' t')
    {s₀ : σ} {t₀ : τ} {as : List α} {u : Traced σ ω}
    (hR : R s₀ t₀) (h : run (traced step) ⟨s₀, []⟩ as = some u) :
    ∃ t', Path stepA t₀ (u.trace.flatMap vis) t' ∧ R u.state t' := by
  refine traced_invariant (fun s tr => ∃ t', Path stepA t₀ (tr.flatMap vis) t' ∧ R s t')
    ?_ ⟨t₀, .nil t₀, hR⟩ h
  intro s tr a s' es hrel hstep
  obtain ⟨t, hpath, hRt⟩ := hrel
  obtain ⟨t', hnext, hR'⟩ := hsim s t a s' es hRt hstep
  refine ⟨t', ?_, hR'⟩
  rw [List.flatMap_append]
  exact hpath.trans hnext

/-! ## §6. Refinement mappings. -/

/-- **Refinement mapping.**  If every step, seen through `abs` and `vis`, is a
step of the other machine or none at all, every run is a run of it. -/
theorem run_maps {γ ω' : Type*} {step : σ → α → Option (σ × List ω)}
    {stepA : τ → γ → Option (τ × List ω')} (abs : σ → τ) (vis : ω → Option ω')
    (Inv : σ → List ω → Prop)
    (hinv : ∀ s tr a s' es, Inv s tr → step s a = some (s', es) → Inv s' (tr ++ es))
    (hsim : ∀ s tr a s' es, Inv s tr → step s a = some (s', es) →
      (abs s' = abs s ∧ es.filterMap vis = []) ∨
        ∃ b, stepA (abs s) b = some (abs s', es.filterMap vis))
    {s₀ : σ} {as : List α} {t : Traced σ ω} (h₀ : Inv s₀ [])
    (h : run (traced step) ⟨s₀, []⟩ as = some t) :
    Inv t.state t.trace ∧
      ∃ bs, run (traced stepA) ⟨abs s₀, []⟩ bs = some ⟨abs t.state, t.trace.filterMap vis⟩ := by
  refine traced_invariant (fun s tr => Inv s tr ∧
    ∃ bs, run (traced stepA) ⟨abs s₀, []⟩ bs = some ⟨abs s, tr.filterMap vis⟩) ?_
    ⟨h₀, [], rfl⟩ h
  intro s tr a s' es hs hstep
  obtain ⟨hInv, bs, hbs⟩ := hs
  refine ⟨hinv s tr a s' es hInv hstep, ?_⟩
  rw [List.filterMap_append]
  rcases hsim s tr a s' es hInv hstep with ⟨hsame, hnone⟩ | ⟨b, hb⟩
  · rw [hsame, hnone, List.append_nil]
    exact ⟨bs, hbs⟩
  · refine ⟨bs ++ [b], ?_⟩
    rw [run_snoc, hbs]
    exact traced_eq_some.mpr ⟨_, hb, rfl⟩

end Transition
