/-
  ZeroLGR.Lib.Lfsr — linear feedback shift registers over bit vectors.

  The register is held reflected: the bit that leaves is bit 0, and `poly` is
  xored in when that bit was set.  Nothing here fixes a width or a polynomial.

  Main results:
    * `step_xor`, `steps_xor` — the register is linear,
    * `steps_of_low_zero` — while only zero bits leave, it is a plain shift,
    * `steps_injective` — no two registers are merged if the polynomial has its
      top bit set,
    * `times_steps` — from the image of the top bit under `n` steps one gets
      the image of every register, which makes `n` steps computable by squaring
      (`topAfter_eq`),
    * `dvd_of_isPeriodicPt` — a period that no prime factor can be taken out of
      divides every period,
    * `feeds_eq_steps` — up to `w` bits fed one by one are a word fed at once,
    * `feeds_burst` — two bit strings that differ in a window of at most `w` bits
      only lead to different registers.
-/
import Mathlib.Dynamics.PeriodicPts.Defs
import Mathlib.Data.Nat.Prime.Basic
import Mathlib.Data.List.GetD

namespace Lfsr

variable {w : Nat}

/-! ## §1. One step, many steps. -/

/-- One step of the register. -/
def step (poly s : BitVec w) : BitVec w :=
  if s.getLsbD 0 then (s >>> 1) ^^^ poly else s >>> 1

/-- `n` steps of the register. -/
def steps (poly : BitVec w) (n : Nat) (s : BitVec w) : BitVec w :=
  (step poly)^[n] s

@[simp] theorem steps_zero (poly s : BitVec w) : steps poly 0 s = s := rfl

theorem steps_succ (poly : BitVec w) (n : Nat) (s : BitVec w) :
    steps poly (n + 1) s = step poly (steps poly n s) :=
  Function.iterate_succ_apply' _ n s

theorem steps_add (poly : BitVec w) (m n : Nat) (s : BitVec w) :
    steps poly (m + n) s = steps poly m (steps poly n s) :=
  Function.iterate_add_apply _ m n s

/-- **Linearity.**  What two registers differ by evolves on its own. -/
theorem step_xor (poly a b : BitVec w) : step poly (a ^^^ b) = step poly a ^^^ step poly b := by
  unfold step
  rw [BitVec.getLsbD_xor, BitVec.ushiftRight_xor_distrib]
  cases a.getLsbD 0 <;> cases b.getLsbD 0
  · rfl
  · exact BitVec.xor_assoc _ _ _
  · show a >>> 1 ^^^ b >>> 1 ^^^ poly = a >>> 1 ^^^ poly ^^^ b >>> 1
    rw [BitVec.xor_assoc, BitVec.xor_comm (b >>> 1), BitVec.xor_assoc]
  · show a >>> 1 ^^^ b >>> 1 = a >>> 1 ^^^ poly ^^^ (b >>> 1 ^^^ poly)
    rw [BitVec.xor_assoc, BitVec.xor_comm (b >>> 1) poly, ← BitVec.xor_assoc poly,
        BitVec.xor_self, BitVec.zero_xor]

theorem steps_xor (poly : BitVec w) (n : Nat) (a b : BitVec w) :
    steps poly n (a ^^^ b) = steps poly n a ^^^ steps poly n b := by
  induction n with
  | zero => rfl
  | succ n ih => rw [steps_succ, steps_succ, steps_succ, ih, step_xor]

@[simp] theorem step_zero_register (poly : BitVec w) : step poly 0 = 0 := by
  simp [step]

@[simp] theorem steps_zero_register (poly : BitVec w) (n : Nat) : steps poly n 0 = 0 := by
  induction n with
  | zero => rfl
  | succ n ih => rw [steps_succ, ih, step_zero_register]

/-- While the bits that leave are zero, the register is a plain shift. -/
theorem steps_of_low_zero (poly : BitVec w) {n : Nat} {s : BitVec w}
    (h : ∀ i, i < n → s.getLsbD i = false) : steps poly n s = s >>> n := by
  induction n with
  | zero => simp
  | succ n ih =>
      have hprev : steps poly n s = s >>> n := ih (fun i hi => h i (by omega))
      have hout : (s >>> n).getLsbD 0 = false := by
        rw [BitVec.getLsbD_ushiftRight, Nat.add_zero]
        exact h n (by omega)
      rw [steps_succ, hprev, step, hout, BitVec.shiftRight_add]
      rfl

/-- A register that a step makes zero was zero: the bit that leaves comes back at
the top. -/
theorem eq_zero_of_step {poly s : BitVec w} (hpoly : poly.getLsbD (w - 1) = true)
    (h : step poly s = 0) : s = 0 := by
  have hbits : ∀ i, (step poly s).getLsbD i = false := by
    intro i
    rw [h]
    exact BitVec.getLsbD_zero
  have hlow : s.getLsbD 0 = false := by
    by_contra hset
    rw [Bool.not_eq_false] at hset
    have htop := hbits (w - 1)
    have hout : s.getLsbD (1 + (w - 1)) = false := BitVec.getLsbD_of_ge s _ (by omega)
    rw [step, if_pos hset, BitVec.getLsbD_xor, BitVec.getLsbD_ushiftRight, hout, hpoly] at htop
    cases htop
  refine BitVec.eq_of_getLsbD_eq ?_
  intro i hi
  refine Eq.trans ?_ BitVec.getLsbD_zero.symm
  cases i with
  | zero => exact hlow
  | succ i =>
      have hshift := hbits i
      rw [step, hlow, if_neg Bool.false_ne_true, BitVec.getLsbD_ushiftRight, Nat.add_comm] at hshift
      exact hshift

/-- **No two registers are merged.** -/
theorem step_injective {poly : BitVec w} (hpoly : poly.getLsbD (w - 1) = true) :
    Function.Injective (step poly) := by
  intro a b h
  have hdiff : step poly (a ^^^ b) = 0 := by
    rw [step_xor, h]
    exact BitVec.xor_self
  exact BitVec.xor_eq_zero_iff.mp (eq_zero_of_step hpoly hdiff)

theorem steps_injective {poly : BitVec w} (hpoly : poly.getLsbD (w - 1) = true) (n : Nat) :
    Function.Injective (steps poly n) := (step_injective hpoly).iterate n

/-! ## §2. Many steps at once.

    Every register is a sum of images of the register with only the top bit
    set, so the image of that one under `n` steps determines all others. -/

/-- The register with only the top bit set. -/
def top (w : Nat) : BitVec w := BitVec.twoPow w (w - 1)

/-- Add up the images of the lowest `j` bits of `b`, the top bit's image being `v`. -/
def timesLow (poly v b : BitVec w) : Nat → BitVec w
  | 0 => 0
  | j + 1 => step poly (timesLow poly v b j) ^^^ (if b.getLsbD j then v else 0)

/-- The image of `b` when the image of the top bit is `v`. -/
def times (poly v b : BitVec w) : BitVec w := timesLow poly v b w

/-- With the top bit as its own image, the low bits of `b` are moved to the top. -/
theorem timesLow_top (poly b : BitVec w) : ∀ j, j ≤ w → timesLow poly (top w) b j = b <<< (w - j)
  | 0, _ => by
      refine BitVec.eq_of_getLsbD_eq ?_
      intro i hi
      simp [timesLow, hi]
  | j + 1, hj => by
      rw [timesLow, timesLow_top poly b j (by omega)]
      have hout : (b <<< (w - j)).getLsbD 0 = false := by
        rw [BitVec.getLsbD_shiftLeft]
        simp [show 0 < w - j by omega]
      rw [step, hout]
      refine BitVec.eq_of_getLsbD_eq ?_
      intro i hi
      -- bit `w - 1` is bit `j` of `b`; below it both sides read `b` at `i - (w - (j + 1))`
      by_cases hi' : i = w - 1
      · subst hi'
        have hjw : j < w := hj
        cases hb : b[j] <;>
          simp [hb, hjw, top, show w - 1 - (w - (j + 1)) = j by omega, show w - 1 < w by omega,
            show w - (j + 1) ≤ w - 1 by omega, show w ≤ 1 + (w - 1) by omega]
      · have hidx : 1 + i - (w - j) = i - (w - (j + 1)) := by omega
        have hlt : (1 + i < w - j) = (i < w - (j + 1)) := by
          apply propext
          omega
        cases b.getLsbD j <;>
          simp [top, hi, hi', show 1 + i < w by omega, hidx, hlt]

theorem timesLow_steps (poly b : BitVec w) (n : Nat) :
    ∀ j, timesLow poly (steps poly n (top w)) b j = steps poly n (timesLow poly (top w) b j)
  | 0 => (steps_zero_register poly n).symm
  | j + 1 => by
      rw [timesLow, timesLow, timesLow_steps poly b n j, steps_xor]
      have hcomm : ∀ s, step poly (steps poly n s) = steps poly n (step poly s) := by
        intro s
        rw [← steps_succ]
        exact Function.iterate_succ_apply _ n s
      rw [hcomm]
      split
      · rfl
      · rw [steps_zero_register]

/-- **The image of the top bit determines the image of every register.** -/
theorem times_steps (poly : BitVec w) (n : Nat) (b : BitVec w) :
    times poly (steps poly n (top w)) b = steps poly n b := by
  rw [times, timesLow_steps, timesLow_top poly b w (Nat.le_refl w), Nat.sub_self]
  simp

/-- `f b`, where the match has `b` evaluated before `f` is entered: a lazy
evaluator would otherwise carry the unevaluated square through every level. -/
def strict {α : Type*} (b : BitVec w) (f : BitVec w → α) : α :=
  match b.toNat with
  | 0 => f (BitVec.ofNat w 0)
  | n + 1 => f (BitVec.ofNat w (n + 1))

theorem strict_eq {α : Type*} (b : BitVec w) (f : BitVec w → α) : strict b f = f b := by
  have hb : BitVec.ofNat w b.toNat = b := by simp
  unfold strict
  split
  next h => exact congrArg f (by rw [← hb, h])
  next n h => exact congrArg f (by rw [← hb, h])

/-- The image of the top bit under `n` steps, by squaring, for `n < 2 ^ k`. -/
def topAfter (poly : BitVec w) : (k : Nat) → (n : Nat) → BitVec w
  | 0, _ => top w
  | k + 1, n =>
      strict (topAfter poly k (n / 2)) fun half =>
        if n % 2 = 1 then step poly (times poly half half) else times poly half half

theorem topAfter_eq (poly : BitVec w) :
    ∀ (k n : Nat), n < 2 ^ k → topAfter poly k n = steps poly n (top w)
  | 0, n, hn => by
      have hn0 : n = 0 := by simpa using hn
      subst hn0
      rfl
  | k + 1, n, hn => by
      have hhalf : n / 2 < 2 ^ k := by
        rw [Nat.pow_succ] at hn
        omega
      rw [topAfter, strict_eq, topAfter_eq poly k (n / 2) hhalf, times_steps, ← steps_add]
      by_cases hodd : n % 2 = 1
      · rw [if_pos hodd, ← steps_succ]
        congr 1
        omega
      · rw [if_neg hodd]
        congr 1
        omega

/-- `n` steps of any register, by squaring. -/
theorem steps_eq_times_topAfter (poly : BitVec w) {k n : Nat} (hn : n < 2 ^ k) (b : BitVec w) :
    steps poly n b = times poly (topAfter poly k n) b := by
  rw [topAfter_eq poly k n hn, times_steps]

/-! ## §3. Periods. -/

/-- A period that no prime factor can be taken out of divides every period. -/
theorem dvd_of_isPeriodicPt {α : Type*} {f : α → α} {x : α} {N m : Nat}
    (hper : Function.IsPeriodicPt f N x)
    (hprime : ∀ p, p.Prime → p ∣ N → ¬ Function.IsPeriodicPt f (N / p) x)
    (hm : Function.IsPeriodicPt f m x) : N ∣ m := by
  obtain ⟨k, hk⟩ := hper.minimalPeriod_dvd
  -- a prime factor of the quotient could be taken out of `N`
  have hk1 : k = 1 := by
    by_contra hne
    obtain ⟨p, hp, hpk⟩ := Nat.exists_prime_and_dvd hne
    obtain ⟨j, rfl⟩ := hpk
    have hquot : N / p = Function.minimalPeriod f x * j := by
      rw [hk, ← Nat.mul_assoc, Nat.mul_comm _ p, Nat.mul_assoc, Nat.mul_div_cancel_left _ hp.pos]
    refine hprime p hp (Dvd.intro (Function.minimalPeriod f x * j) ?_) ?_
    · rw [hk, Nat.mul_left_comm]
    · rw [hquot]
      exact (Function.isPeriodicPt_minimalPeriod f x).mul_const j
  rw [hk, hk1, Nat.mul_one]
  exact hm.minimalPeriod_dvd

/-! ## §4. Feeding bits.

    A bit is fed by adding it to the one that is about to leave. -/

/-- The register with `b` as its lowest bit. -/
def low (w : Nat) (b : Bool) : BitVec w := (BitVec.ofBool b).setWidth w

/-- One step that takes in the bit `b`. -/
def feed (poly s : BitVec w) (b : Bool) : BitVec w := step poly (s ^^^ low w b)

/-- Take in a string of bits, first bit first. -/
def feeds (poly s : BitVec w) (bs : List Bool) : BitVec w := bs.foldl (feed poly) s

/-- The bits as a word, first bit lowest. -/
def word (w : Nat) : List Bool → BitVec w
  | [] => 0
  | b :: bs => word w bs <<< 1 ^^^ low w b

@[simp] theorem feeds_nil (poly s : BitVec w) : feeds poly s [] = s := rfl

@[simp] theorem feeds_cons (poly s : BitVec w) (b : Bool) (bs : List Bool) :
    feeds poly s (b :: bs) = feeds poly (step poly (s ^^^ low w b)) bs := rfl

theorem feeds_append (poly s : BitVec w) (bs cs : List Bool) :
    feeds poly s (bs ++ cs) = feeds poly (feeds poly s bs) cs := List.foldl_append

theorem getLsbD_low (b : Bool) {i : Nat} (hi : i < w) :
    (low w b).getLsbD i = (decide (i = 0) && b) := by
  rw [low, BitVec.getLsbD_setWidth, BitVec.getLsbD_ofBool]
  simp [hi]

/-- A step with a bit fed in is a shift, with `poly` added if the bit differs from
the one that leaves. -/
theorem feed_eq (hw : 0 < w) (poly s : BitVec w) (b : Bool) :
    feed poly s b = if (s.getLsbD 0 ^^ b) = true then (s >>> 1) ^^^ poly else s >>> 1 := by
  have hout : (s ^^^ low w b).getLsbD 0 = (s.getLsbD 0 ^^ b) := by
    rw [BitVec.getLsbD_xor, getLsbD_low b hw]
    simp
  have hrest : (s ^^^ low w b) >>> 1 = s >>> 1 := by
    refine BitVec.eq_of_getLsbD_eq ?_
    intro i hi
    rw [BitVec.getLsbD_ushiftRight, BitVec.getLsbD_ushiftRight, BitVec.getLsbD_xor]
    by_cases h1 : 1 + i < w
    · rw [getLsbD_low b h1]
      simp
    · rw [BitVec.getLsbD_of_ge (low w b) (1 + i) (by omega), Bool.xor_false]
  rw [feed, step, hout, hrest]

theorem getLsbD_word : ∀ (bs : List Bool) {i : Nat}, i < w → (word w bs).getLsbD i = bs.getD i false
  | [], i, _ => by simp [word]
  | b :: bs, i, hi => by
      rw [word, BitVec.getLsbD_xor, BitVec.getLsbD_shiftLeft, getLsbD_low b hi]
      cases i with
      | zero => simp
      | succ i =>
          rw [Nat.add_sub_cancel, getLsbD_word bs (by omega)]
          simp [hi]

/-- Words of at most `w` bits are determined by their bits. -/
theorem word_injective {bs cs : List Bool} (hlen : bs.length = cs.length) (hw : bs.length ≤ w)
    (h : word w bs = word w cs) : bs = cs := by
  refine List.ext_getElem hlen ?_
  intro i hb hc
  have hbit := congrArg (fun v => v.getLsbD i) h
  simp only [getLsbD_word bs (show i < w by omega), getLsbD_word cs (show i < w by omega)] at hbit
  rwa [List.getD_eq_getElem _ _ hb, List.getD_eq_getElem _ _ hc] at hbit

/-- A step takes back a shift that lost no bit. -/
theorem step_shiftLeft (poly : BitVec w) {s : BitVec w} (h : s.getLsbD (w - 1) = false) :
    step poly (s <<< 1) = s := by
  have hlow : (s <<< 1).getLsbD 0 = false := by simp
  rw [step, hlow, if_neg Bool.false_ne_true]
  refine BitVec.eq_of_getLsbD_eq ?_
  intro i hi
  rw [BitVec.getLsbD_ushiftRight, BitVec.getLsbD_shiftLeft]
  by_cases htop : i = w - 1
  · subst htop
    rw [h]
    simp [show ¬ 1 + (w - 1) < w by omega]
  · simp [show 1 + i < w by omega]

/-- **Up to `w` bits fed one by one are a word fed at once.** -/
theorem feeds_eq_steps (poly : BitVec w) : ∀ (bs : List Bool) (s : BitVec w), bs.length ≤ w →
    feeds poly s bs = steps poly bs.length (s ^^^ word w bs)
  | [], s, _ => by simp [word]
  | b :: bs, s, hlen => by
      rw [List.length_cons] at hlen
      -- the other bits are still below the top
      have htop : (word w bs).getLsbD (w - 1) = false := by
        rw [getLsbD_word bs (by omega)]
        exact List.getD_eq_default _ _ (by omega)
      have hhead : step poly (s ^^^ low w b) ^^^ word w bs =
          step poly (s ^^^ (word w bs <<< 1 ^^^ low w b)) := by
        rw [BitVec.xor_comm (word w bs <<< 1), ← BitVec.xor_assoc, step_xor poly (s ^^^ low w b),
            step_shiftLeft poly htop]
      rw [feeds_cons, feeds_eq_steps poly bs _ (by omega), hhead, List.length_cons, word]
      exact (Function.iterate_succ_apply _ _ _).symm

/-- The bits taken in do not merge registers. -/
theorem feeds_injective {poly : BitVec w} (hpoly : poly.getLsbD (w - 1) = true) :
    ∀ (bs : List Bool) {s t : BitVec w}, feeds poly s bs = feeds poly t bs → s = t
  | [], _, _, h => h
  | _ :: bs, _, _, h =>
      (BitVec.xor_left_inj _).mp (step_injective hpoly (feeds_injective hpoly bs h))

/-- **A burst is seen.**  Two strings that differ in a window of at most `w` bits
only lead to different registers. -/
theorem feeds_burst {poly : BitVec w} (hpoly : poly.getLsbD (w - 1) = true) (s : BitVec w)
    (before after : List Bool) {bs cs : List Bool} (hlen : bs.length = cs.length)
    (hw : bs.length ≤ w) (hne : bs ≠ cs) :
    feeds poly s (before ++ (bs ++ after)) ≠ feeds poly s (before ++ (cs ++ after)) := by
  intro h
  rw [feeds_append, feeds_append, feeds_append poly s before, feeds_append] at h
  have hwindow := feeds_injective hpoly after h
  rw [feeds_eq_steps poly bs _ hw, feeds_eq_steps poly cs _ (by omega), hlen] at hwindow
  have hwords := (BitVec.xor_right_inj _).mp (steps_injective hpoly _ hwindow)
  exact hne (word_injective hlen hw hwords)

end Lfsr
