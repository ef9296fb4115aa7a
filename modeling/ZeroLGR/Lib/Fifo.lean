/-
  ZeroLGR.Lib.Fifo — the bounded first-in first-out queue, as an abstract system.

  A queue of capacity `cap` is a list that carries the proof that it holds at
  most `cap` elements, so an overfull queue cannot be built.  Its two actions
  name the element that goes in or comes out; a run of them is a schedule the
  queue allows.

  Main results:
    * `run_conserves` — what was in the queue and what was put in is what came
      out followed by what is left, in this order.
-/
import ZeroLGR.Lib.Transition

namespace Fifo

open Transition

variable {α : Type*} {cap : Nat}

/-- A first-in first-out queue of at most `cap` elements, oldest first. -/
structure Bounded (α : Type*) (cap : Nat) where
  items : List α
  bound : items.length ≤ cap

/-- The queue with nothing in it. -/
def Bounded.empty : Bounded α cap := ⟨[], Nat.zero_le _⟩

/-- Put `a` at the back; refused when the queue is full. -/
def Bounded.enqueue (q : Bounded α cap) (a : α) : Option (Bounded α cap) :=
  if h : q.items.length < cap then
    some ⟨q.items ++ [a], by rw [List.length_append]; exact h⟩
  else none

/-- Take the oldest element; refused when the queue is empty. -/
def Bounded.dequeue (q : Bounded α cap) : Option (α × Bounded α cap) :=
  match h : q.items with
  | [] => none
  | a :: rest => some (a, ⟨rest, by have := q.bound; rw [h, List.length_cons] at this; omega⟩)

theorem Bounded.enqueue_eq_some {q q' : Bounded α cap} {a : α} (h : q.enqueue a = some q') :
    q'.items = q.items ++ [a] := by
  unfold Bounded.enqueue at h
  split at h
  · cases h
    rfl
  · cases h

theorem Bounded.enqueue_eq_none {q : Bounded α cap} {a : α} (h : q.enqueue a = none) :
    q.items.length = cap := by
  unfold Bounded.enqueue at h
  split at h
  · cases h
  · next hfull => exact Nat.le_antisymm q.bound (Nat.not_lt.mp hfull)

theorem Bounded.enqueue_of_lt {q : Bounded α cap} (h : q.items.length < cap) (a : α) :
    ∃ q', q.enqueue a = some q' ∧ q'.items = q.items ++ [a] := by
  unfold Bounded.enqueue
  rw [dif_pos h]
  exact ⟨_, rfl, rfl⟩

theorem Bounded.enqueue_of_full {q : Bounded α cap} (h : q.items.length = cap) (a : α) :
    q.enqueue a = none := by
  unfold Bounded.enqueue
  exact dif_neg (by omega)

theorem Bounded.dequeue_eq_some {q q' : Bounded α cap} {a : α}
    (h : q.dequeue = some (a, q')) : q.items = a :: q'.items := by
  unfold Bounded.dequeue at h
  split at h
  · cases h
  · next heq =>
      cases h
      exact heq

theorem Bounded.dequeue_eq_none {q : Bounded α cap} (h : q.dequeue = none) : q.items = [] := by
  unfold Bounded.dequeue at h
  split at h
  · next heq => exact heq
  · cases h

theorem Bounded.dequeue_of_cons {q : Bounded α cap} {a : α} {rest : List α}
    (h : q.items = a :: rest) : ∃ q', q.dequeue = some (a, q') ∧ q'.items = rest := by
  unfold Bounded.dequeue
  split
  · next heq =>
      rw [h] at heq
      cases heq
  · next heq =>
      rw [h] at heq
      cases heq
      exact ⟨_, rfl, rfl⟩

/-- The actions of a queue, with the element they move. -/
inductive Op (α : Type*) where
  | enqueue (a : α)
  | dequeue (a : α)

/-- One action: a `dequeue a` is enabled when `a` is the oldest element. -/
inductive Step : Bounded α cap → Op α → Bounded α cap → Prop
  | enqueue {q q' : Bounded α cap} {a : α} :
      q'.items = q.items ++ [a] → Step q (.enqueue a) q'
  | dequeue {q q' : Bounded α cap} {a : α} :
      q.items = a :: q'.items → Step q (.dequeue a) q'

/-- Schedules the queue allows. -/
abbrev Run : Bounded α cap → List (Op α) → Bounded α cap → Prop := Path Step

/-! ## What goes in and what comes out -/

/-- The elements put in, in order. -/
def enqueued : List (Op α) → List α
  | [] => []
  | .enqueue a :: ops => a :: enqueued ops
  | .dequeue _ :: ops => enqueued ops

/-- The elements taken out, in order. -/
def dequeued : List (Op α) → List α
  | [] => []
  | .enqueue _ :: ops => dequeued ops
  | .dequeue a :: ops => a :: dequeued ops

theorem enqueued_append (xs ys : List (Op α)) :
    enqueued (xs ++ ys) = enqueued xs ++ enqueued ys := by
  induction xs with
  | nil => rfl
  | cons x xs ih => cases x <;> simp [enqueued, ih]

theorem dequeued_append (xs ys : List (Op α)) :
    dequeued (xs ++ ys) = dequeued xs ++ dequeued ys := by
  induction xs with
  | nil => rfl
  | cons x xs ih => cases x <;> simp [dequeued, ih]

/-- **Nothing is lost, invented or reordered.** -/
theorem run_conserves {q q' : Bounded α cap} {ops : List (Op α)} (h : Run q ops q') :
    q.items ++ enqueued ops = dequeued ops ++ q'.items := by
  induction h with
  | nil => simp [enqueued, dequeued]
  | snoc _ hstep ih =>
      rw [enqueued_append, dequeued_append, ← List.append_assoc, ih]
      cases hstep with
      | enqueue hq => simp [enqueued, dequeued, hq]
      | dequeue hq => simp [enqueued, dequeued, hq]

end Fifo
