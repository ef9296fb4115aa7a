/-
  ZeroLGR.Lib.KeyedSum — sums over the entries of a finite map.

  `total f m` adds up `f key value` over all entries of an association list.
  The order of the entries does not matter to it, so it also describes a loop
  over a hash table.

  Main results:
    * `total_insert` — storing a value under a key changes the total by the
      difference of the two values there,
    * `lookup_insert_iff` — what is found after storing,
    * `part`, `sum_of_sublist` — sums over some of the keys, and that every sum
      over a part of the entries, as a loop has it halfway, is one of them.
-/
import Mathlib.Data.List.AList
import Mathlib.Algebra.BigOperators.Group.List.Basic
import Mathlib.Tactic.Abel

namespace KeyedSum

variable {α β M : Type*} [DecidableEq α]

/-! ## §1. Looking up and storing. -/

theorem lookup_insert_iff {m : AList (fun _ : α => β)} {a k : α} {b v : β} :
    (m.insert a b).lookup k = some v ↔ (k = a ∧ v = b) ∨ (k ≠ a ∧ m.lookup k = some v) := by
  by_cases h : k = a
  · subst h
    rw [AList.lookup_insert]
    simp [eq_comm]
  · rw [AList.lookup_insert_ne h]
    simp [h]

/-! ## §2. Totals. -/

variable [AddCommGroup M]

/-- The sum of `f key value` over all entries. -/
def total (f : α → β → M) (m : AList (fun _ : α => β)) : M :=
  (m.entries.map (fun e => f e.1 e.2)).sum

/-- What the entry under `a` counts; nothing if there is none. -/
def share (f : α → β → M) (a : α) : Option β → M
  | none => 0
  | some b => f a b

/-- Erasing an entry takes its share out of the sum. -/
theorem sum_kerase (f : α → β → M) (a : α) : ∀ l : List (Sigma (fun _ : α => β)),
    ((l.kerase a).map (fun e => f e.1 e.2)).sum + share f a (l.dlookup a) =
      (l.map (fun e => f e.1 e.2)).sum
  | [] => by simp [share]
  | ⟨k, b⟩ :: l => by
      by_cases h : a = k
      · -- the entry is the first one, and only it is erased
        subst h
        have hkerase : List.kerase a (⟨a, b⟩ :: l) = l := List.kerase_cons_eq rfl
        rw [hkerase, List.dlookup_cons_eq, List.map_cons, List.sum_cons]
        exact add_comm _ _
      · have ih := sum_kerase f a l
        rw [List.kerase_cons_ne h, List.dlookup_cons_ne l ⟨k, b⟩ h, List.map_cons, List.sum_cons,
            List.map_cons, List.sum_cons, add_assoc, ih]

/-- **Storing a value changes the total by the difference.** -/
theorem total_insert (f : α → β → M) (m : AList (fun _ : α => β)) (a : α) (b : β) :
    total f (m.insert a b) = total f m + f a b - share f a (m.lookup a) := by
  have herase := sum_kerase f a m.entries
  unfold total
  rw [AList.entries_insert, List.map_cons, List.sum_cons, ← herase]
  show f a b + _ = _ + share f a (m.lookup a) + f a b - share f a (m.lookup a)
  abel

/-! ## §3. Parts. -/

/-- The sum over the entries whose keys satisfy `p`. -/
def part (f : α → β → M) (p : α → Bool) (m : AList (fun _ : α => β)) : M :=
  total (fun k b => if p k = true then f k b else 0) m

/-- Two functions that agree on the entries have the same total. -/
theorem total_congr {f g : α → β → M} {m : AList (fun _ : α => β)}
    (h : ∀ k b, m.lookup k = some b → f k b = g k b) : total f m = total g m := by
  unfold total
  congr 1
  apply List.map_congr_left
  intro e he
  exact h e.1 e.2 (AList.mem_lookup_iff.mpr he)

omit [DecidableEq α] in
theorem share_part (f : α → β → M) (p : α → Bool) (a : α) (o : Option β) :
    share (fun k b => if p k = true then f k b else 0) a o =
      if p a = true then share f a o else 0 := by
  cases o with
  | none => exact (ite_self 0).symm
  | some b => rfl

/-- Storing a value changes the parts its key is in. -/
theorem part_insert (f : α → β → M) (p : α → Bool) (m : AList (fun _ : α => β)) (a : α) (b : β) :
    part f p (m.insert a b) =
      part f p m + if p a = true then f a b - share f a (m.lookup a) else 0 := by
  unfold part
  rw [total_insert, share_part]
  split <;> abel

/-- A value that counts nothing takes its key out of every part. -/
theorem part_insert_zero {f : α → β → M} (p : α → Bool) (m : AList (fun _ : α => β)) {a : α} {b : β}
    (h : f a b = 0) :
    part f p (m.insert a b) = part f (fun k => p k && !decide (k = a)) m := by
  have hsame : part f p (m.insert a b) =
      part f (fun k => p k && !decide (k = a)) (m.insert a b) := by
    apply total_congr
    intro k b' hlookup
    rcases lookup_insert_iff.mp hlookup with ⟨rfl, rfl⟩ | ⟨hne, -⟩
    · simp [h]
    · simp [hne]
  rw [hsame, part_insert]
  simp

/-- Over entries with different keys, a sublist is the part its keys select. -/
theorem sum_of_sublist_entries (f : α → β → M) {es' es : List (Sigma (fun _ : α => β))}
    (h : es'.Sublist es) (hnodup : es.NodupKeys) :
    (es'.map (fun e => f e.1 e.2)).sum =
      (es.map (fun e => if decide (e.1 ∈ es'.keys) = true then f e.1 e.2 else 0)).sum := by
  induction h with
  | slnil => rfl
  | @cons l₁ l₂ e hsub ih =>
      obtain ⟨hnew, hrest⟩ := List.nodupKeys_cons.mp hnodup
      have hout : e.1 ∉ l₁.keys := fun hin => hnew ((hsub.map Sigma.fst).subset hin)
      rw [ih hrest, List.map_cons, List.sum_cons]
      simp [hout]
  | @cons_cons l₁ l₂ e hsub ih =>
      obtain ⟨hnew, hrest⟩ := List.nodupKeys_cons.mp hnodup
      rw [List.map_cons, List.sum_cons, ih hrest, List.map_cons, List.sum_cons]
      have hhead : decide (e.1 ∈ (e :: l₁).keys) = true := by simp
      rw [if_pos hhead]
      congr 2
      apply List.map_congr_left
      intro e' he'
      -- the keys of the rest differ from the first one
      have hne : e'.1 ≠ e.1 := by
        intro heq
        exact hnew (heq ▸ List.mem_map_of_mem he')
      simp [hne]

/-- **Every sum over a part of the entries is the sum over some keys.** -/
theorem sum_of_sublist (f : α → β → M) (m : AList (fun _ : α => β))
    {es : List (Sigma (fun _ : α => β))} (h : es.Sublist m.entries) :
    (es.map (fun e => f e.1 e.2)).sum = part f (fun k => decide (k ∈ es.keys)) m :=
  sum_of_sublist_entries f h m.nodupKeys

end KeyedSum
