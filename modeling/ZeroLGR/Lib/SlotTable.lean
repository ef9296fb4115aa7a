/-
  ZeroLGR.Lib.SlotTable — a set that is kept in slots, and loops over it.

  A hash table has its members in slots, with empty slots between them.  A loop
  over it goes from slot to slot and keeps the position behind the last one it
  has looked at.  Taking a member out empties its slot; putting one in fills an
  empty slot, or rebuilds the table, and then the members may stand anywhere.

  Main results:
    * `mem_iff`, `Before.not_behind` — a member is before or behind a position,
    * `next_some` — the loop takes one member from behind its position,
    * `next_none` — at its end there is none,
    * `before_discard` — what is taken out moves no other.
-/
import Mathlib.Data.List.ReduceOption
import Mathlib.Data.List.Perm.Basic

namespace SlotTable

variable {α : Type*}

/-! ## §1. The table. -/

/-- Slots, no two of which hold the same member. -/
structure Table (α : Type*) where
  slots : List (Option α)
  nodup : slots.reduceOption.Nodup

/-- The members, in the order of their slots. -/
def Table.members (t : Table α) : List α := t.slots.reduceOption

/-- How many slots are used. -/
def Table.used (t : Table α) : Nat := t.members.length

instance : Membership α (Table α) := ⟨fun t x => some x ∈ t.slots⟩

theorem mem_def {t : Table α} {x : α} : x ∈ t ↔ some x ∈ t.slots := Iff.rfl

theorem mem_members {t : Table α} {x : α} : x ∈ t.members ↔ x ∈ t := List.reduceOption_mem_iff

/-- No slot, or empty slots only. -/
def Table.empty (size : Nat) : Table α :=
  ⟨List.replicate size none, by rw [List.reduceOption_replicate_none]; exact List.nodup_nil⟩

section Change

variable [DecidableEq α]

instance (x : α) (t : Table α) : Decidable (x ∈ t) :=
  inferInstanceAs (Decidable (some x ∈ t.slots))

/-- The slot of the member, if it is that, becomes empty. -/
def clear (x : α) (slot : Option α) : Option α := if slot = some x then none else slot

theorem clear_eq_some {x y : α} {slot : Option α} :
    clear x slot = some y ↔ slot = some y ∧ y ≠ x := by
  unfold clear
  split
  next h => simp [h, eq_comm]
  next h =>
    constructor
    · intro hslot
      exact ⟨hslot, fun hyx => h (hyx ▸ hslot)⟩
    · exact fun hslot => hslot.1

theorem reduceOption_map_clear (x : α) (slots : List (Option α)) :
    (slots.map (clear x)).reduceOption = slots.reduceOption.filter (fun y => decide (y ≠ x)) := by
  induction slots with
  | nil => rfl
  | cons slot slots ih =>
      cases slot with
      | none => simpa [clear] using ih
      | some y =>
          by_cases hy : y = x
          · simpa [clear, hy] using ih
          · simpa [clear, hy] using ih

/-- Take a member out. -/
def Table.discard (t : Table α) (x : α) : Table α :=
  ⟨t.slots.map (clear x), by rw [reduceOption_map_clear]; exact t.nodup.filter _⟩

theorem some_mem_map_clear {x y : α} {slots : List (Option α)} :
    some y ∈ slots.map (clear x) ↔ some y ∈ slots ∧ y ≠ x := by
  rw [List.mem_map]
  constructor
  · intro h
    obtain ⟨slot, hslot, heq⟩ := h
    obtain ⟨rfl, hne⟩ := clear_eq_some.mp heq
    exact ⟨hslot, hne⟩
  · exact fun h => ⟨some y, h.1, clear_eq_some.mpr ⟨rfl, h.2⟩⟩

theorem mem_discard {t : Table α} {x y : α} : y ∈ t.discard x ↔ y ∈ t ∧ y ≠ x :=
  some_mem_map_clear

/-- Take some members out. -/
def Table.discardAll (t : Table α) (xs : List α) : Table α := xs.foldl Table.discard t

theorem mem_discardAll {xs : List α} {y : α} :
    ∀ {t : Table α}, y ∈ t.discardAll xs ↔ y ∈ t ∧ y ∉ xs := by
  induction xs with
  | nil => simp [Table.discardAll]
  | cons x xs ih =>
      intro t
      show y ∈ (t.discard x).discardAll xs ↔ _
      rw [ih, mem_discard, List.mem_cons, not_or, and_assoc]

/-- `t'` is `t` with the member put in: the same table if it is there, else any
table with one member more. -/
def Adds (t : Table α) (x : α) (t' : Table α) : Prop :=
  if x ∈ t then t'.slots = t.slots else t'.members.Perm (x :: t.members)

instance (t t' : Table α) (x : α) : Decidable (Adds t x t') := by
  unfold Adds
  infer_instance

end Change

/-! ## §2. Positions. -/

/-- The member stands in one of the first `pos` slots. -/
def Table.Before (t : Table α) (pos : Nat) (x : α) : Prop := some x ∈ t.slots.take pos

/-- The member stands behind them. -/
def Table.Behind (t : Table α) (pos : Nat) (x : α) : Prop := some x ∈ t.slots.drop pos

section Positions

variable {t : Table α} {pos : Nat} {x y : α}

instance [DecidableEq α] : Decidable (t.Before pos x) :=
  inferInstanceAs (Decidable (some x ∈ t.slots.take pos))

theorem mem_iff : x ∈ t ↔ t.Before pos x ∨ t.Behind pos x := by
  unfold Table.Before Table.Behind
  rw [mem_def, ← List.mem_append, List.take_append_drop]

theorem Table.Before.not_behind (h : t.Before pos x) : ¬ t.Behind pos x := by
  intro hbehind
  have hnodup := t.nodup
  rw [← List.take_append_drop pos t.slots, List.reduceOption_append] at hnodup
  exact (List.nodup_append.mp hnodup).2.2 x (List.reduceOption_mem_iff.mpr h) x
    (List.reduceOption_mem_iff.mpr hbehind) rfl

theorem before_iff (hx : x ∈ t) : t.Before pos x ↔ ¬ t.Behind pos x := by
  constructor
  · exact fun h => h.not_behind
  · exact fun h => (mem_iff.mp hx).resolve_right h

theorem not_before_zero : ¬ t.Before 0 x := by
  unfold Table.Before
  simp

theorem before_discard [DecidableEq α] :
    (t.discard x).Before pos y ↔ t.Before pos y ∧ y ≠ x := by
  unfold Table.Before Table.discard
  rw [← List.map_take]
  exact some_mem_map_clear

theorem before_discardAll [DecidableEq α] {xs : List α} :
    ∀ {t : Table α}, (t.discardAll xs).Before pos y ↔ t.Before pos y ∧ y ∉ xs := by
  induction xs with
  | nil => simp [Table.discardAll]
  | cons x xs ih =>
      intro t
      show ((t.discard x).discardAll xs).Before pos y ↔ _
      rw [ih, before_discard, List.mem_cons, not_or, and_assoc]

end Positions

/-! ## §3. Loops. -/

/-- The first member in the slots from number `pos` on, and the number of the
slot behind it. -/
def firstFrom : List (Option α) → Nat → Option (α × Nat)
  | [], _ => none
  | some x :: _, pos => some (x, pos + 1)
  | none :: slots, pos => firstFrom slots (pos + 1)

/-- One step of a loop at the position. -/
def Table.next (t : Table α) (pos : Nat) : Option (α × Nat) := firstFrom (t.slots.drop pos) pos

theorem firstFrom_some {x : α} {pos' : Nat} : ∀ {slots : List (Option α)} {pos : Nat},
    firstFrom slots pos = some (x, pos') →
      ∃ k rest, slots = List.replicate k none ++ some x :: rest ∧ pos' = pos + k + 1
  | some _ :: slots, pos, h => by
      cases h
      exact ⟨0, slots, rfl, rfl⟩
  | none :: slots, pos, h => by
      have hrest : firstFrom slots (pos + 1) = some (x, pos') := h
      obtain ⟨k, rest, hslots, hpos⟩ := firstFrom_some hrest
      refine ⟨k + 1, rest, ?_, by omega⟩
      rw [hslots, List.replicate_succ, List.cons_append]

theorem firstFrom_none {x : α} : ∀ {slots : List (Option α)} {pos : Nat},
    firstFrom slots pos = none → some x ∉ slots
  | [], _, _ => List.not_mem_nil
  | none :: slots, pos, h => by
      have hrest : firstFrom slots (pos + 1) = none := h
      simpa using firstFrom_none hrest

section Loops

variable {t : Table α} {pos pos' : Nat} {x y : α}

/-- **A loop takes the next member**: it stood behind the position, stands before
the new one, and nothing else has changed sides. -/
theorem next_some (h : t.next pos = some (x, pos')) :
    t.Behind pos x ∧ pos < pos' ∧ pos' ≤ t.slots.length ∧
      ∀ y, t.Before pos' y ↔ t.Before pos y ∨ y = x := by
  obtain ⟨k, rest, hslots, hpos⟩ := firstFrom_some h
  have hlength := congrArg List.length hslots
  rw [List.length_drop, List.length_append, List.length_replicate, List.length_cons] at hlength
  refine ⟨?_, by omega, by omega, ?_⟩
  · unfold Table.Behind
    rw [hslots]
    simp
  · intro y
    have htake : t.slots.take pos' = t.slots.take pos ++ (List.replicate k none ++ [some x]) := by
      rw [hpos, Nat.add_assoc, List.take_add, hslots]
      congr 1
      rw [List.take_append, List.length_replicate, Nat.add_sub_cancel_left]
      simp
    unfold Table.Before
    rw [htake]
    simp

/-- **A loop is at its end**: nothing stands behind it. -/
theorem next_none (h : t.next pos = none) (x : α) : ¬ t.Behind pos x := firstFrom_none h

end Loops

end SlotTable
