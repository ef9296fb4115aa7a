/-
  ZeroLGR.Lib.CriticalSection — sections under one lock are atomic.

  A machine takes whole actions.  Some of them are sections under a lock in the
  program: they read and write one part of the state, the memory, one access at
  a time, while other threads go on.  This file has the machine in which they
  do, and shows that it takes no other runs: every run of single accesses is a
  run of whole actions with the same record, in the order in which the lock was
  given back.

    • `Sections` — a machine, its sections, and the laws they have to obey,
    • `Locked`, `Move`, `move` — the machine of single accesses,
    • `view` — the state as it is with the open section not begun,
    • `Moved`, `moved_of_move` — what a move can do,
    • `Moved.view` — one move is no action or one whole action,
    • `run_atomic` — so is every run.
-/
import ZeroLGR.Lib.Transition

namespace CriticalSection

open Transition

/-! ## §1. Machines with sections. -/

/-- A machine and its sections.  A section starts with local variables `enter`,
makes one `access` after the other until there is none left, and then leaves;
`outcome` is where its accesses lead when nobody interferes.

The laws: the memory is a part of the state; actions without the lock neither
use it nor disturb the variables a section starts with; and a whole action is
its section without interference. -/
structure Sections (σ α ω μ τ : Type*) where
  step : σ → α → Option (σ × List ω)
  locks : σ → α → Bool
  memory : σ → μ
  withMemory : σ → μ → σ
  enter : σ → α → τ
  access : μ → τ → Option (μ × τ)
  leave : σ → α → τ → Option (σ × List ω)
  outcome : μ → τ → μ × τ
  memory_with : ∀ s m, memory (withMemory s m) = m
  with_memory : ∀ s, withMemory s (memory s) = s
  with_with : ∀ s m m', withMemory (withMemory s m) m' = withMemory s m'
  locks_with : ∀ s m a, locks (withMemory s m) a = locks s a
  enter_with : ∀ s m a, enter (withMemory s m) a = enter s a
  free_frame : ∀ s m a, locks s a = false →
    step (withMemory s m) a = (step s a).map (fun r => (withMemory r.1 m, r.2))
  free_stable : ∀ s a b s' es, locks s a = true → locks s b = false →
    step s b = some (s', es) → locks s' a = true ∧ enter s' a = enter s a
  outcome_access : ∀ m x m' x', access m x = some (m', x') → outcome m x = outcome m' x'
  outcome_end : ∀ m x, access m x = none → outcome m x = (m, x)
  atomic : ∀ s a, locks s a = true →
    leave (withMemory s (outcome (memory s) (enter s a)).1) a
      (outcome (memory s) (enter s a)).2 = step s a

/-! ## §2. Single accesses. -/

/-- The holder of the lock: what it does, the memory it found, and its local
variables. -/
structure Holder (α μ τ : Type*) where
  action : α
  found : μ
  locals : τ

/-- A state in which a section may be open. -/
structure Locked (σ α μ τ : Type*) where
  state : σ
  holder : Option (Holder α μ τ)

/-- The lock is taken, the holder makes one access, it gives the lock back, or
an action is taken that does not need the lock. -/
inductive Move (α : Type*) where
  | acquire (a : α)
  | access
  | release
  | free (a : α)

variable {σ α ω μ τ : Type*} (S : Sections σ α ω μ τ)

/-- One move. -/
def move (l : Locked σ α μ τ) : Move α → Option (Locked σ α μ τ × List ω)
  | .acquire a =>
      match l.holder with
      | some _ => none
      | none =>
          if S.locks l.state a = true then
            some (⟨l.state, some ⟨a, S.memory l.state, S.enter l.state a⟩⟩, [])
          else none
  | .access =>
      match l.holder with
      | none => none
      | some h =>
          (S.access (S.memory l.state) h.locals).map
            (fun r => (⟨S.withMemory l.state r.1, some { h with locals := r.2 }⟩, []))
  | .release =>
      match l.holder with
      | none => none
      | some h =>
          if (S.access (S.memory l.state) h.locals).isSome = true then none
          else (S.leave l.state h.action h.locals).map (fun r => (⟨r.1, none⟩, r.2))
  | .free a =>
      if S.locks l.state a = true then none
      else (S.step l.state a).map (fun r => (⟨r.1, l.holder⟩, r.2))

/-- The state as it would be if the open section had not begun. -/
def view (l : Locked σ α μ τ) : σ :=
  match l.holder with
  | none => l.state
  | some h => S.withMemory l.state h.found

/-- An open section is on its way to where it would get alone. -/
def Held (l : Locked σ α μ τ) : Prop :=
  ∀ h, l.holder = some h → S.locks l.state h.action = true ∧
    S.outcome (S.memory l.state) h.locals = S.outcome h.found (S.enter l.state h.action)

variable {S}

theorem view_some (s : σ) (h : Holder α μ τ) :
    view S (⟨s, some h⟩ : Locked σ α μ τ) = S.withMemory s h.found := rfl

theorem held_none (s : σ) : Held S (⟨s, none⟩ : Locked σ α μ τ) := by
  intro hd hnone
  cases hnone

/-- An action without the lock leaves the memory alone. -/
theorem Sections.free_memory {s s' : σ} {a : α} {es : List ω} (hfree : S.locks s a = false)
    (h : S.step s a = some (s', es)) : S.memory s' = S.memory s := by
  have hframe := S.free_frame s (S.memory s) a hfree
  rw [S.with_memory, h] at hframe
  have hsame : s' = S.withMemory s' (S.memory s) :=
    congrArg Prod.fst (Option.some.inj hframe)
  rw [hsame, S.memory_with]

/-- Where a section gets alone is where it ends. -/
theorem Held.at_end {l : Locked σ α μ τ} {h : Holder α μ τ} (hheld : Held S l)
    (hh : l.holder = some h) (hend : S.access (S.memory l.state) h.locals = none) :
    S.outcome h.found (S.enter l.state h.action) = (S.memory l.state, h.locals) := by
  rw [← (hheld h hh).2, S.outcome_end _ _ hend]

/-! ## §3. Atomicity. -/

/-- Everything a move can do. -/
inductive Moved (S : Sections σ α ω μ τ) (s : σ) :
    Option (Holder α μ τ) → Move α → Locked σ α μ τ → List ω → Prop
  | acquire {a : α} : S.locks s a = true →
      Moved S s none (.acquire a) ⟨s, some ⟨a, S.memory s, S.enter s a⟩⟩ []
  | access {hd : Holder α μ τ} {m : μ} {x : τ} : S.access (S.memory s) hd.locals = some (m, x) →
      Moved S s (some hd) .access ⟨S.withMemory s m, some { hd with locals := x }⟩ []
  | release {hd : Holder α μ τ} {s' : σ} {es : List ω} :
      S.access (S.memory s) hd.locals = none → S.leave s hd.action hd.locals = some (s', es) →
      Moved S s (some hd) .release ⟨s', none⟩ es
  | free {holder : Option (Holder α μ τ)} {a : α} {s' : σ} {es : List ω} :
      S.locks s a = false → S.step s a = some (s', es) →
      Moved S s holder (.free a) ⟨s', holder⟩ es

section Moves

variable {s : σ} {holder : Option (Holder α μ τ)} {m : Move α} {l' : Locked σ α μ τ} {es : List ω}

theorem moved_of_move (h : move S ⟨s, holder⟩ m = some (l', es)) : Moved S s holder m l' es := by
  cases m with
  | acquire a =>
      cases holder with
      | some hd => cases h
      | none =>
          simp only [move] at h
          split at h
          · next hlocks =>
              cases h
              exact .acquire hlocks
          · cases h
  | access =>
      cases holder with
      | none => cases h
      | some hd =>
          obtain ⟨r, hr, heq⟩ := Option.map_eq_some_iff.mp h
          cases heq
          exact .access hr
  | release =>
      cases holder with
      | none => cases h
      | some hd =>
          simp only [move] at h
          split at h
          · cases h
          · next hopen =>
              obtain ⟨r, hr, heq⟩ := Option.map_eq_some_iff.mp h
              cases heq
              exact .release (Option.not_isSome_iff_eq_none.mp hopen) hr
  | free a =>
      simp only [move] at h
      split at h
      · cases h
      · next hlocks =>
          obtain ⟨r, hr, heq⟩ := Option.map_eq_some_iff.mp h
          cases heq
          exact .free (eq_false_of_ne_true hlocks) hr

/-- An open section stays on its way, whoever moves. -/
theorem Moved.held (hm : Moved S s holder m l' es) (hheld : Held S ⟨s, holder⟩) : Held S l' := by
  cases hm with
  | acquire hlocks =>
      intro hd hhd
      cases hhd
      exact ⟨hlocks, rfl⟩
  | @access hd mem x haccess =>
      intro hd' hhd'
      cases hhd'
      obtain ⟨hlocks, houtcome⟩ := hheld hd rfl
      refine ⟨(S.locks_with _ _ _).trans hlocks, ?_⟩
      show S.outcome (S.memory (S.withMemory s mem)) x =
        S.outcome hd.found (S.enter (S.withMemory s mem) hd.action)
      rw [S.memory_with, S.enter_with, ← houtcome]
      exact (S.outcome_access _ _ _ _ haccess).symm
  | release => exact held_none _
  | @free _ a s' es hfree hstep =>
      intro hd hhd
      obtain ⟨hheldlocks, houtcome⟩ := hheld hd hhd
      obtain ⟨hlocks', henter⟩ := S.free_stable s hd.action a s' es hheldlocks hfree hstep
      refine ⟨hlocks', ?_⟩
      show S.outcome (S.memory s') hd.locals = S.outcome hd.found (S.enter s' hd.action)
      rw [S.free_memory hfree hstep, henter]
      exact houtcome

/-- **One move**, seen from outside: nothing happens to the state, or a whole
action does.  The action is the one the lock was taken for, or one without the
lock. -/
theorem Moved.view (hm : Moved S s holder m l' es) (hheld : Held S ⟨s, holder⟩) :
    view S l' = view S ⟨s, holder⟩ ∧ es = [] ∨
      ∃ a, (m = .free a ∨ ∃ hd, holder = some hd ∧ hd.action = a) ∧
        S.step (view S ⟨s, holder⟩) a = some (view S l', es) := by
  cases hm with
  | acquire => exact .inl ⟨S.with_memory s, rfl⟩
  | @access hd mem x => exact .inl ⟨S.with_with s mem hd.found, rfl⟩
  | @release hd s' es hend hleave =>
      refine .inr ⟨hd.action, .inr ⟨hd, rfl, rfl⟩, ?_⟩
      -- the section got where it gets alone
      have hwhole := S.atomic (S.withMemory s hd.found) hd.action
        ((S.locks_with _ _ _).trans (hheld hd rfl).1)
      rw [S.memory_with, S.enter_with, hheld.at_end rfl hend, S.with_with, S.with_memory] at hwhole
      rw [view_some, ← hwhole]
      exact hleave
  | @free _ a s' es hfree hstep =>
      refine .inr ⟨a, .inl rfl, ?_⟩
      cases holder with
      | none => exact hstep
      | some hd =>
          show S.step (S.withMemory s hd.found) a = some (S.withMemory s' hd.found, es)
          rw [S.free_frame s hd.found a hfree, hstep]
          rfl

/-- The lock changes hands only when it is taken. -/
theorem Moved.holds (hm : Moved S s holder m l' es) {hd : Holder α μ τ}
    (hhd : l'.holder = some hd) :
    m = .acquire hd.action ∨ ∃ hd₀, holder = some hd₀ ∧ hd₀.action = hd.action := by
  cases hm with
  | acquire =>
      cases hhd
      exact .inl rfl
  | @access hd₀ =>
      cases hhd
      exact .inr ⟨hd₀, rfl, rfl⟩
  | release => cases hhd
  | free => exact .inr ⟨hd, hhd, rfl⟩

end Moves

/-- **Every run of single accesses is a run of whole actions**, with the same
record.  What holds of all actions the lock is taken for and of all actions
taken without it holds of the whole actions. -/
theorem run_atomic (P : α → Prop) {moves : List (Move α)} {s₀ : σ}
    {u : Traced (Locked σ α μ τ) ω}
    (hP : ∀ m ∈ moves, ∀ a, m = .acquire a ∨ m = .free a → P a)
    (h : run (traced (move S)) ⟨⟨s₀, none⟩, []⟩ moves = some u) :
    Held S u.state ∧ ∃ acts, (∀ a ∈ acts, P a) ∧
      run (traced S.step) ⟨s₀, []⟩ acts = some ⟨view S u.state, u.trace⟩ := by
  have hinv : Held S u.state ∧ (∀ hd, u.state.holder = some hd → P hd.action) ∧
      ∃ acts, (∀ a ∈ acts, P a) ∧
        run (traced S.step) ⟨s₀, []⟩ acts = some ⟨view S u.state, u.trace⟩ := by
    refine run_invariant_of (fun v : Traced (Locked σ α μ τ) ω =>
      Held S v.state ∧ (∀ hd, v.state.holder = some hd → P hd.action) ∧
        ∃ acts, (∀ a ∈ acts, P a) ∧
          run (traced S.step) ⟨s₀, []⟩ acts = some ⟨view S v.state, v.trace⟩) ?_ ?_ h
    · intro m hm v v' hv hstep
      obtain ⟨hheld, hholder, acts, hacts, hrun⟩ := hv
      obtain ⟨es, hmove, htrace⟩ := traced_eq_some.mp hstep
      have hmoved := moved_of_move hmove
      refine ⟨hmoved.held hheld, ?_, ?_⟩
      · intro hd hhd
        rcases hmoved.holds hhd with hacquire | ⟨hd₀, hhd₀, hsame⟩
        · exact hP m hm hd.action (.inl hacquire)
        · rw [← hsame]
          exact hholder hd₀ hhd₀
      · rcases hmoved.view hheld with ⟨hview, hnone⟩ | ⟨a, hfrom, hwhole⟩
        · refine ⟨acts, hacts, ?_⟩
          rw [hrun, hview, htrace, hnone, List.append_nil]
        · refine ⟨acts ++ [a], ?_, ?_⟩
          · intro b hb
            rcases List.mem_append.mp hb with hb | hb
            · exact hacts b hb
            · rw [List.mem_singleton.mp hb]
              rcases hfrom with hfree | ⟨hd, hhd, haction⟩
              · exact hP m hm a (.inr hfree)
              · rw [← haction]
                exact hholder hd hhd
          · rw [run_snoc, hrun, Option.bind_some]
            exact traced_eq_some.mpr ⟨es, hwhole, htrace⟩
    · refine ⟨held_none s₀, ?_, [], ?_, rfl⟩
      · intro hd hnone
        cases hnone
      · intro a ha
        cases ha
  exact ⟨hinv.1, hinv.2.2⟩

end CriticalSection
