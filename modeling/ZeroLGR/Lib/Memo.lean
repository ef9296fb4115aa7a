/-
  ZeroLGR.Lib.Memo — a service that answers each key once.

  A request may carry a key.  The first request with a key is served, and its
  answer is kept; every later one gets the kept answer and changes nothing.
  Requests without a key are always served.  Other calls may come in between;
  they read or change the state, and no answer.

  The service is a relation: it says which answers are allowed in a state, and
  what the state is after them.  It knows nothing of any particular service.

  Main results:
    * `Step.known` — an answer that is kept stays.
    * `path_known` — every answer given under a key is the one kept at the end.
    * `answers_agree` — so all answers given under one key are equal.
-/
import ZeroLGR.Lib.Transition
import Mathlib.Logic.Function.Basic

namespace Memo

open Transition

variable {σ ρ κ ν ω : Type*}

/-! ## §1. The service. -/

/-- What a service does: the key of a request, if it carries one; the answers it
may give to a request it serves, with the state afterwards; the other calls. -/
structure Service (σ ρ κ ν ω : Type*) where
  key : ρ → Option κ
  Serves : σ → ρ → ν → σ → Prop
  Other : σ → ω → σ → Prop

/-- The state of the service, and the answers it keeps. -/
structure State (σ κ ν : Type*) where
  inner : σ
  answers : κ → Option ν

/-- A call, with what it returns. -/
inductive Call (ρ ν ω : Type*) where
  | answer (r : ρ) (v : ν)
  | other (o : ω)

/-- The answer kept for the request. -/
def Service.known (S : Service σ ρ κ ν ω) (answers : κ → Option ν) (r : ρ) : Option ν :=
  (S.key r).bind answers

variable [DecidableEq κ]

/-- Keep the answer under the key of the request. -/
def Service.keep (S : Service σ ρ κ ν ω) (answers : κ → Option ν) (r : ρ) (v : ν) :
    κ → Option ν :=
  match S.key r with
  | some k => Function.update answers k (some v)
  | none => answers

theorem Service.keep_of_none {S : Service σ ρ κ ν ω} {r : ρ} (hkey : S.key r = none)
    (answers : κ → Option ν) (v : ν) : S.keep answers r v = answers := by
  unfold Service.keep
  rw [hkey]

theorem Service.keep_of_some {S : Service σ ρ κ ν ω} {r : ρ} {k : κ} (hkey : S.key r = some k)
    (answers : κ → Option ν) (v : ν) :
    S.keep answers r v = Function.update answers k (some v) := by
  unfold Service.keep
  rw [hkey]

/-- One call, from beginning to end. -/
inductive Step (S : Service σ ρ κ ν ω) : State σ κ ν → Call ρ ν ω → State σ κ ν → Prop
  | again {s : State σ κ ν} {r : ρ} {v : ν} : S.known s.answers r = some v →
      Step S s (.answer r v) s
  | first {s : State σ κ ν} {r : ρ} {v : ν} {inner : σ} : S.known s.answers r = none →
      S.Serves s.inner r v inner → Step S s (.answer r v) ⟨inner, S.keep s.answers r v⟩
  | other {s : State σ κ ν} {o : ω} {inner : σ} : S.Other s.inner o inner →
      Step S s (.other o) ⟨inner, s.answers⟩

/-! ## §2. Answers stay. -/

section Steps

variable {S : Service σ ρ κ ν ω} {s s' : State σ κ ν}

/-- What is kept under another key is not touched. -/
theorem Service.keep_of_known {answers : κ → Option ν} {r : ρ} (hnone : S.known answers r = none)
    {k : κ} {w : ν} (hk : answers k = some w) (v : ν) : S.keep answers r v k = some w := by
  cases hkey : S.key r with
  | none =>
      rw [S.keep_of_none hkey]
      exact hk
  | some k' =>
      have hne : k ≠ k' := by
        rintro rfl
        rw [Service.known, hkey, Option.bind_some, hk] at hnone
        cases hnone
      rw [S.keep_of_some hkey, Function.update_of_ne hne]
      exact hk

/-- **An answer that is kept stays.** -/
theorem Step.known {c : Call ρ ν ω} (h : Step S s c s') {k : κ} {w : ν}
    (hk : s.answers k = some w) : s'.answers k = some w := by
  cases h with
  | again _ => exact hk
  | first hnone _ => exact S.keep_of_known hnone hk _
  | other _ => exact hk

/-- An answer given under a key is kept from then on. -/
theorem Step.answered {r : ρ} {v : ν} (h : Step S s (.answer r v) s') {k : κ}
    (hkey : S.key r = some k) : s'.answers k = some v := by
  cases h with
  | again hknown =>
      rw [Service.known, hkey] at hknown
      exact hknown
  | first _ _ =>
      show S.keep s.answers r v k = some v
      rw [S.keep_of_some hkey, Function.update_self]

/-- **Every answer given under a key is the one kept at the end.** -/
theorem path_known {cs : List (Call ρ ν ω)} (h : Path (Step S) s cs s') {r : ρ} {v : ν}
    (hcall : .answer r v ∈ cs) {k : κ} (hkey : S.key r = some k) : s'.answers k = some v := by
  induction h with
  | nil => cases hcall
  | snoc _ hstep ih =>
      rcases List.mem_append.mp hcall with hold | hnew
      · exact hstep.known (ih hold)
      · rw [List.mem_singleton] at hnew
        subst hnew
        exact hstep.answered hkey

/-- **All answers given under one key are equal.** -/
theorem answers_agree {cs : List (Call ρ ν ω)} (h : Path (Step S) s cs s') {r r' : ρ} {v v' : ν}
    (hcall : .answer r v ∈ cs) (hcall' : .answer r' v' ∈ cs) {k : κ} (hkey : S.key r = some k)
    (hkey' : S.key r' = some k) : v = v' := by
  have hv := path_known h hcall hkey
  rw [path_known h hcall' hkey'] at hv
  exact (Option.some.inj hv).symm

end Steps

end Memo
