/-
  ZeroLGR.Lib.Span — what stands at an offset of a message.

  A decoder that keeps an offset into its input is right if it reads, at each
  offset, what the encoder has put there.  `At data off bs` says that `bs`
  stands at `off`; a message that is put together from parts has each part
  behind the one before it.

  Main results:
    * `at_append` — two parts stand one behind the other,
    * `At.take`, `at_take` — what stands there is what is read there,
    * `at_iff_begins` — with the end of the message in view.
-/
import Mathlib.Data.List.Basic

namespace Span

variable {α : Type*} {data as bs : List α} {off : Nat}

/-- `bs` stands at `off`. -/
structure At (data : List α) (off : Nat) (bs : List α) : Prop where
  le : off + bs.length ≤ data.length
  take : (data.drop off).take bs.length = bs

/-- The whole stands at the start. -/
theorem at_self (data : List α) : At data 0 data :=
  ⟨by omega, by rw [List.drop_zero, List.take_length]⟩

theorem at_of_eq (h : data = as) : At data 0 as := by
  rw [← h]
  exact at_self data

/-- **Parts stand one behind the other.** -/
theorem at_append : At data off (as ++ bs) ↔ At data off as ∧ At data (off + as.length) bs := by
  have hlength : (as ++ bs).length = as.length + bs.length := List.length_append
  have hsplit : (data.drop off).take (as ++ bs).length =
      (data.drop off).take as.length ++ (data.drop (off + as.length)).take bs.length := by
    rw [hlength, List.take_add, List.drop_drop]
  constructor
  · intro h
    have hle := h.le
    have htake := h.take
    rw [hlength] at hle
    rw [hsplit] at htake
    have hfirst : ((data.drop off).take as.length).length = as.length := by
      rw [List.length_take, List.length_drop]
      omega
    obtain ⟨has, hbs⟩ := List.append_inj htake hfirst
    exact ⟨⟨by omega, has⟩, ⟨by omega, hbs⟩⟩
  · intro hparts
    obtain ⟨has, hbs⟩ := hparts
    have hle := hbs.le
    refine ⟨by omega, ?_⟩
    rw [hsplit, has.take, hbs.take]

/-- What is read of the right length stands there. -/
theorem at_take {n : Nat} (h : off + n ≤ data.length) : At data off ((data.drop off).take n) := by
  have hlength : ((data.drop off).take n).length = n := by
    rw [List.length_take, List.length_drop]
    omega
  exact ⟨by rw [hlength]; exact h, by rw [hlength]⟩

/-- One element stands where it is found. -/
theorem at_singleton {a : α} : At data off [a] ↔ data[off]? = some a := by
  constructor
  · intro h
    have htake := h.take
    have hget : ((data.drop off).take 1)[0]? = some a := by
      rw [show (1 : Nat) = [a].length from rfl, htake]
      rfl
    rw [List.getElem?_take_of_lt Nat.one_pos, List.getElem?_drop] at hget
    exact hget
  · intro h
    obtain ⟨hlt, rfl⟩ := List.getElem?_eq_some_iff.mp h
    refine ⟨hlt, ?_⟩
    rw [List.drop_eq_getElem_cons hlt]
    rfl

/-- What stands at an offset begins all that follows. -/
theorem at_iff_begins (has : At data off as) (hend : off + as.length = data.length) :
    At data off bs ↔ bs <+: as := by
  have hdrop : data.drop off = as := by
    have htake := has.take
    rw [List.take_of_length_le (by rw [List.length_drop]; omega)] at htake
    exact htake
  constructor
  · intro h
    rw [← hdrop, ← h.take]
    exact List.take_prefix _ _
  · intro h
    obtain ⟨rest, hrest⟩ := h
    rw [← hrest] at has
    exact (at_append.mp has).1

end Span
