/-
  ZeroLGR.Lib.Remainder — shift registers as remainders of polynomials over GF(2).

  A reflected register of width `w` is a polynomial of degree below `w`: its top
  bit is the constant coefficient, and the bit that is about to leave is the
  coefficient of `X ^ (w - 1)`.  A step then multiplies by `X` and reduces by
  the generator, whose lower coefficients are the bits of `poly`.  A string of
  bits is a polynomial too, the first bit at the highest power.

  Main results:
    * `coeff_toPoly`, `toPoly_injective` — the coefficients are the bits,
    * `toPoly_step` — one step is one step of long division,
    * `toPoly_feeds` — the register after a string of bits is the remainder of
      the string, moved up by `w` places behind the register there was.
-/
import ZeroLGR.Lib.Lfsr
import Mathlib.Algebra.Polynomial.Div
import Mathlib.Algebra.CharP.Two
import Mathlib.Algebra.Field.ZMod

namespace Lfsr

open Polynomial

variable {w : Nat}

/-! ## §1. Registers. -/

/-- A bit as an element of GF(2). -/
def bit (b : Bool) : ZMod 2 := if b then 1 else 0

@[simp] theorem bit_false : bit false = 0 := rfl

@[simp] theorem bit_true : bit true = 1 := rfl

theorem bit_xor (a b : Bool) : bit (a ^^ b) = bit a + bit b := by
  cases a <;> cases b <;> decide

theorem bit_injective : Function.Injective bit := by
  intro a b h
  cases a <;> cases b <;> first | rfl | cases h

/-- The polynomial of a reflected register. -/
noncomputable def toPoly (s : BitVec w) : (ZMod 2)[X] :=
  ∑ i ∈ Finset.range w, C (bit (s.getMsbD i)) * X ^ i

/-- **The coefficients are the bits**, the top bit first. -/
theorem coeff_toPoly (s : BitVec w) (i : Nat) : (toPoly s).coeff i = bit (s.getMsbD i) := by
  rw [toPoly, finsetSum_coeff]
  simp only [coeff_C_mul, coeff_X_pow, mul_ite, mul_one, mul_zero]
  rw [Finset.sum_ite_eq]
  by_cases hi : i < w
  · rw [if_pos (Finset.mem_range.mpr hi)]
  · rw [if_neg (fun h => hi (Finset.mem_range.mp h)), BitVec.getMsbD_of_ge s i (by omega),
      bit_false]

/-- The powers whose bit is set. -/
theorem toPoly_eq_sum (s : BitVec w) :
    toPoly s = ∑ i ∈ Finset.range w with s.getMsbD i = true, X ^ i := by
  rw [toPoly, Finset.sum_filter]
  refine Finset.sum_congr rfl ?_
  intro i _
  cases s.getMsbD i <;> simp

theorem toPoly_injective : Function.Injective (@toPoly w) := by
  intro s t h
  refine BitVec.eq_of_getMsbD_eq ?_
  intro i _
  have hcoeff := congrArg (fun p => p.coeff i) h
  simp only [coeff_toPoly] at hcoeff
  exact bit_injective hcoeff

theorem degree_toPoly_lt (s : BitVec w) : (toPoly s).degree < w := by
  refine (degree_lt_iff_coeff_zero _ _).mpr ?_
  intro i hi
  rw [coeff_toPoly, BitVec.getMsbD_of_ge s i hi, bit_false]

theorem toPoly_xor (s t : BitVec w) : toPoly (s ^^^ t) = toPoly s + toPoly t := by
  ext i
  rw [coeff_add, coeff_toPoly, coeff_toPoly, coeff_toPoly, BitVec.getMsbD_xor, bit_xor]

/-- The bit fed in stands where the next bit leaves. -/
theorem toPoly_low (hw : 0 < w) (b : Bool) : toPoly (low w b) = C (bit b) * X ^ (w - 1) := by
  ext i
  rw [coeff_toPoly, coeff_C_mul_X_pow, BitVec.getMsbD_eq_getLsbD]
  by_cases hi : i = w - 1
  · subst hi
    rw [if_pos rfl, getLsbD_low b (by omega)]
    simp [show w - 1 < w by omega]
  · rw [if_neg hi]
    by_cases hlt : i < w
    · rw [getLsbD_low b (by omega)]
      simp [show w - 1 - i ≠ 0 by omega]
    · simp [hlt]

/-- Multiplying by `X` shifts the register; the bit that leaves is left over. -/
theorem X_mul_toPoly (s : BitVec w) :
    X * toPoly s = toPoly (s >>> 1) + C (bit (s.getLsbD 0)) * X ^ w := by
  ext i
  rw [coeff_add, coeff_toPoly, coeff_C_mul_X_pow, BitVec.getMsbD_ushiftRight]
  -- every coefficient moves up by one; the last of them moves out of the register
  cases i with
  | zero =>
      rw [coeff_X_mul_zero]
      by_cases hw : 0 = w
      · subst hw
        simp
      · simp [hw]
  | succ i =>
      rw [coeff_X_mul, coeff_toPoly, BitVec.getMsbD_eq_getLsbD]
      by_cases hi : i + 1 = w
      · simp [hi, show i < w by omega, show w - 1 - i = 0 by omega]
      · by_cases hlt : i < w
        · simp [hi, hlt, show i + 1 < w by omega, BitVec.getMsbD_eq_getLsbD]
        · simp [hi, hlt, show ¬ i + 1 < w by omega]

/-! ## §2. The generator. -/

/-- The polynomial that `poly` stands for: its bits, and the leading power. -/
noncomputable def generator (poly : BitVec w) : (ZMod 2)[X] := X ^ w + toPoly poly

theorem monic_generator (poly : BitVec w) : (generator poly).Monic :=
  monic_X_pow_add (degree_toPoly_lt poly)

theorem degree_generator (poly : BitVec w) : (generator poly).degree = w := by
  rw [generator, degree_add_eq_left_of_degree_lt, degree_X_pow]
  rw [degree_X_pow]
  exact degree_toPoly_lt poly

/-- A register is its own remainder. -/
theorem toPoly_modByMonic (poly s : BitVec w) : toPoly s %ₘ generator poly = toPoly s := by
  refine (modByMonic_eq_self_iff (monic_generator poly)).mpr ?_
  rw [degree_generator]
  exact degree_toPoly_lt s

/-- **One step is one step of long division**: multiply by `X`, and take the
generator away if its leading power came up. -/
theorem toPoly_step (poly s : BitVec w) :
    toPoly (step poly s) = X * toPoly s - C (bit (s.getLsbD 0)) * generator poly := by
  rw [X_mul_toPoly, CharTwo.sub_eq_add, step]
  cases s.getLsbD 0 with
  | false => simp
  | true =>
      -- the leading power of the generator cancels the bit that came up
      rw [if_pos rfl, toPoly_xor, generator, bit_true, C_1, one_mul, one_mul, add_add_add_comm,
        add_assoc, ← add_assoc (X ^ w), CharTwo.add_self_eq_zero, zero_add]

theorem generator_dvd_step (poly s : BitVec w) :
    generator poly ∣ X * toPoly s - toPoly (step poly s) := by
  rw [toPoly_step, sub_sub_cancel]
  exact Dvd.intro_left _ rfl

/-! ## §3. Strings of bits. -/

/-- The polynomial of a string of bits, the first bit at the highest power. -/
noncomputable def bitsPoly : List Bool → (ZMod 2)[X]
  | [] => 0
  | b :: bs => C (bit b) * X ^ bs.length + bitsPoly bs

/-- **THE REGISTER IS A REMAINDER.**  After a string of bits the register holds
the remainder of the string moved up by `w` places, with the register there was
in front of it. -/
theorem toPoly_feeds (hw : 0 < w) (poly : BitVec w) : ∀ (bs : List Bool) (s : BitVec w),
    toPoly (feeds poly s bs) =
      (toPoly s * X ^ bs.length + bitsPoly bs * X ^ w) %ₘ generator poly
  | [], s => by
      rw [feeds_nil, List.length_nil, pow_zero, mul_one, bitsPoly, zero_mul, add_zero,
        toPoly_modByMonic]
  | b :: bs, s => by
      -- a bit that is fed in at the place where bits leave comes up at `X ^ w`
      have hfed : X * toPoly (s ^^^ low w b) = toPoly s * X + C (bit b) * X ^ w := by
        obtain ⟨v, rfl⟩ : ∃ v, w = v + 1 := ⟨w - 1, by omega⟩
        rw [toPoly_xor, toPoly_low hw, Nat.add_sub_cancel]
        ring
      have hstep := generator_dvd_step poly (s ^^^ low w b)
      rw [hfed] at hstep
      rw [feeds_cons, toPoly_feeds hw poly bs]
      refine (modByMonic_eq_of_dvd_sub (monic_generator poly) ?_).symm
      -- the two sides differ by what the step took away, moved up by the bits to come
      have hdiff : toPoly s * X ^ (b :: bs).length + bitsPoly (b :: bs) * X ^ w -
            (toPoly (step poly (s ^^^ low w b)) * X ^ bs.length + bitsPoly bs * X ^ w) =
          (toPoly s * X + C (bit b) * X ^ w - toPoly (step poly (s ^^^ low w b))) *
            X ^ bs.length := by
        rw [List.length_cons, bitsPoly]
        ring
      rw [hdiff]
      exact Dvd.dvd.mul_right hstep _

end Lfsr
