/-
  ZeroLGR.Wal.Crc32 — the checksum of a WAL frame.

  `compute_crc32` of engine/src/wal.cpp with the table `init_crc32_table`
  fills.  The table is the function of its index.

    • `crc32Update_eq_steps` — one table look-up is eight steps of the shift
      register with the reflected polynomial,
    • `computeCrc32_zeros` — the checksum of `n` zero bytes is zero only if `n`
      is a multiple of `2 ^ 32 - 1`: a run of zeros does not check against a
      zero checksum,
    • `computeCrc32_ne` — data that differ in one byte have different checksums.
-/
import ZeroLGR.Lib.Bytes
import ZeroLGR.Lib.Lfsr
import Mathlib.Tactic.NormNum.Prime

namespace ZeroLGR.Wal

/-! ## §1. The code. -/

/-- The body of the inner loop of `init_crc32_table`. -/
def crc32TableStep (crc : UInt32) : UInt32 :=
  if crc &&& 1 ≠ 0 then (crc >>> 1) ^^^ 0xEDB88320 else crc >>> 1

/-- `crc32_table[i]`, as `init_crc32_table` fills it. -/
def crc32Table (i : UInt32) : UInt32 := crc32TableStep^[8] i

/-- The body of the loop of `compute_crc32`. -/
def crc32Update (crc : UInt32) (byte : UInt8) : UInt32 :=
  crc32Table ((crc ^^^ byte.toUInt32) &&& 0xFF) ^^^ (crc >>> 8)

/-- `WriteAheadLog::compute_crc32`. -/
def computeCrc32 (data : Bytes) : UInt32 :=
  data.foldl crc32Update 0xFFFFFFFF ^^^ 0xFFFFFFFF

/-- The check value of CRC-32: the checksum of the digits 1 to 9. -/
example : computeCrc32 [0x31, 0x32, 0x33, 0x34, 0x35, 0x36, 0x37, 0x38, 0x39] = 0xCBF43926 := by
  decide +kernel

/-! ## §2. The shift register behind the table. -/

/-- The reflected polynomial. -/
def crc32Poly : BitVec 32 := 0xEDB88320

theorem low_bit_iff (crc : UInt32) : crc &&& 1 ≠ 0 ↔ crc.toBitVec.getLsbD 0 = true := by
  have hand : (crc &&& 1).toBitVec = (BitVec.ofBool (crc.toBitVec.getLsbD 0)).setWidth 32 := by
    rw [UInt32.toBitVec_and]
    exact BitVec.and_one_eq_setWidth_ofBool_getLsbD
  rw [Ne, ← UInt32.toBitVec_inj, hand]
  cases crc.toBitVec.getLsbD 0 <;> decide

theorem toBitVec_crc32TableStep (crc : UInt32) :
    (crc32TableStep crc).toBitVec = Lfsr.step crc32Poly crc.toBitVec := by
  unfold crc32TableStep Lfsr.step
  by_cases h : crc &&& 1 ≠ 0
  · rw [if_pos h, if_pos ((low_bit_iff crc).mp h)]
    rfl
  · rw [if_neg h, if_neg (fun hb => h ((low_bit_iff crc).mpr hb))]
    rfl

theorem toBitVec_crc32Table (i : UInt32) :
    (crc32Table i).toBitVec = Lfsr.steps crc32Poly 8 i.toBitVec := by
  have hiter : ∀ n c, (crc32TableStep^[n] c).toBitVec = Lfsr.steps crc32Poly n c.toBitVec := by
    intro n
    induction n with
    | zero => exact fun _ => rfl
    | succ n ih =>
        intro c
        rw [Function.iterate_succ_apply', toBitVec_crc32TableStep, ih, Lfsr.steps_succ]
  exact hiter 8 i

/-- The low byte of a register and the rest of it. -/
theorem split_low_byte (s : BitVec 32) : s = (s &&& 0xFF#32) ^^^ ((s >>> 8) <<< 8) := by
  have hmask : ∀ j : Fin 32, (0xFF#32).getLsbD j = decide (j.val < 8) := by decide
  refine BitVec.eq_of_getLsbD_eq ?_
  intro i hi
  rw [BitVec.getLsbD_xor, BitVec.getLsbD_and, hmask ⟨i, hi⟩, BitVec.getLsbD_shiftLeft,
      BitVec.getLsbD_ushiftRight]
  by_cases h8 : i < 8
  · simp [h8]
  · simp [h8, hi, show 8 + (i - 8) = i by omega]

/-- **The table look-up is eight steps of the register.**  The low byte goes
through the table, the rest is shifted. -/
theorem crc32Update_eq_steps (crc : UInt32) (byte : UInt8) :
    (crc32Update crc byte).toBitVec =
      Lfsr.steps crc32Poly 8 (crc.toBitVec ^^^ byte.toBitVec.setWidth 32) := by
  have hbyte : (crc.toBitVec ^^^ byte.toBitVec.setWidth 32) >>> 8 = crc.toBitVec >>> 8 := by
    refine BitVec.eq_of_getLsbD_eq ?_
    intro i hi
    simp
  -- eight steps shift out eight zeros and meet no feedback
  have hhigh : Lfsr.steps crc32Poly 8 ((crc.toBitVec >>> 8) <<< 8) = crc.toBitVec >>> 8 := by
    rw [Lfsr.steps_of_low_zero]
    · refine BitVec.eq_of_getLsbD_eq ?_
      intro i hi
      by_cases h24 : 8 + i < 32
      · simp [hi, h24]
      · simp [hi, h24, BitVec.getLsbD_of_ge crc.toBitVec (8 + i) (by omega)]
    · intro i hi
      simp [hi]
  rw [split_low_byte (crc.toBitVec ^^^ byte.toBitVec.setWidth 32), Lfsr.steps_xor, hbyte, hhigh]
  show (crc32Table _ ^^^ crc >>> 8).toBitVec = _
  rw [UInt32.toBitVec_xor, toBitVec_crc32Table]
  rfl

/-! ## §3. Zero bytes. -/

theorem toBitVec_foldl_zeros (crc : UInt32) (n : Nat) :
    ((List.replicate n 0).foldl crc32Update crc).toBitVec =
      Lfsr.steps crc32Poly (8 * n) crc.toBitVec := by
  induction n generalizing crc with
  | zero => rfl
  | succ n ih =>
      have hzero : crc.toBitVec ^^^ (0 : UInt8).toBitVec.setWidth 32 = crc.toBitVec := by simp
      rw [List.replicate_succ, List.foldl_cons, ih, crc32Update_eq_steps, hzero,
          ← Lfsr.steps_add, Nat.mul_succ]

/-- The prime factors of `2 ^ 32 - 1`. -/
theorem prime_dvd_period {p : Nat} (hp : p.Prime) (hdvd : p ∣ 4294967295) :
    p = 3 ∨ p = 5 ∨ p = 17 ∨ p = 257 ∨ p = 65537 := by
  have hfact : 4294967295 = 3 * (5 * (17 * (257 * 65537))) := by norm_num
  rw [hfact, hp.dvd_mul, hp.dvd_mul, hp.dvd_mul, hp.dvd_mul,
      Nat.prime_dvd_prime_iff_eq hp (by norm_num), Nat.prime_dvd_prime_iff_eq hp (by norm_num),
      Nat.prime_dvd_prime_iff_eq hp (by norm_num), Nat.prime_dvd_prime_iff_eq hp (by norm_num),
      Nat.prime_dvd_prime_iff_eq hp (by norm_num)] at hdvd
  exact hdvd

/-- The register started with ones runs through `2 ^ 32 - 1` states. -/
theorem period_dvd {m : Nat}
    (h : Lfsr.steps crc32Poly m 0xFFFFFFFF#32 = 0xFFFFFFFF#32) : 4294967295 ∣ m := by
  refine Lfsr.dvd_of_isPeriodicPt ?_ ?_ h
  · show Lfsr.steps crc32Poly 4294967295 0xFFFFFFFF#32 = 0xFFFFFFFF#32
    have hlt : 4294967295 < 2 ^ 32 := by norm_num
    rw [Lfsr.steps_eq_times_topAfter crc32Poly hlt]
    decide +kernel
  · intro p hp hdvd
    show ¬ Lfsr.steps crc32Poly (4294967295 / p) 0xFFFFFFFF#32 = 0xFFFFFFFF#32
    have hlt : 4294967295 / p < 2 ^ 32 := lt_of_le_of_lt (Nat.div_le_self _ _) (by norm_num)
    rw [Lfsr.steps_eq_times_topAfter crc32Poly hlt]
    rcases prime_dvd_period hp hdvd with rfl | rfl | rfl | rfl | rfl <;> decide +kernel

/-- **A run of zeros does not check against a zero checksum**, unless it is
empty or at least `2 ^ 32 - 1` bytes long. -/
theorem computeCrc32_zeros {n : Nat} (hn : n < 4294967295) :
    computeCrc32 (List.replicate n 0) = 0 ↔ n = 0 := by
  constructor
  · intro h
    have hones : (List.replicate n 0).foldl crc32Update 0xFFFFFFFF = 0xFFFFFFFF :=
      UInt32.xor_eq_zero_iff.mp h
    have hper := toBitVec_foldl_zeros 0xFFFFFFFF n
    rw [hones] at hper
    have hdvd : 4294967295 ∣ 8 * n := period_dvd hper.symm
    have hcop : Nat.Coprime 4294967295 8 := by decide +kernel
    have hdvd' : 4294967295 ∣ n := hcop.dvd_of_dvd_mul_left hdvd
    exact Nat.eq_zero_of_dvd_of_lt hdvd' hn
  · rintro rfl
    rfl

/-! ## §4. One altered byte. -/

/-- The reflected polynomial has its top bit set. -/
theorem crc32Poly_top : crc32Poly.getLsbD (32 - 1) = true := by decide

/-- The register remembers what it was, and the byte it took in. -/
theorem crc32Update_inj {crc crc' : UInt32} {x y : UInt8}
    (h : crc32Update crc x = crc32Update crc' y) :
    crc.toBitVec ^^^ x.toBitVec.setWidth 32 = crc'.toBitVec ^^^ y.toBitVec.setWidth 32 := by
  have hbits := congrArg UInt32.toBitVec h
  rw [crc32Update_eq_steps, crc32Update_eq_steps] at hbits
  exact Lfsr.steps_injective crc32Poly_top 8 hbits

theorem crc32Update_left_inj {crc crc' : UInt32} {x : UInt8}
    (h : crc32Update crc x = crc32Update crc' x) : crc = crc' :=
  UInt32.toBitVec_inj.mp ((BitVec.xor_left_inj _).mp (crc32Update_inj h))

theorem crc32Update_right_inj {crc : UInt32} {x y : UInt8}
    (h : crc32Update crc x = crc32Update crc y) : x = y := by
  have hwide := (BitVec.xor_right_inj _).mp (crc32Update_inj h)
  refine UInt8.toBitVec_inj.mp (BitVec.eq_of_getLsbD_eq ?_)
  intro i hi
  have hbit := congrArg (fun v => v.getLsbD i) hwide
  simpa [show i < 32 by omega] using hbit

theorem foldl_crc32Update_inj : ∀ (data : Bytes) {crc crc' : UInt32},
    data.foldl crc32Update crc = data.foldl crc32Update crc' → crc = crc'
  | [], _, _, h => h
  | _ :: data, _, _, h => crc32Update_left_inj (foldl_crc32Update_inj data h)

/-- **The checksum detects every change of one byte.** -/
theorem computeCrc32_ne (before after : Bytes) {x y : UInt8} (hne : x ≠ y) :
    computeCrc32 (before ++ x :: after) ≠ computeCrc32 (before ++ y :: after) := by
  intro h
  have hregisters := (UInt32.xor_left_inj _).mp h
  rw [List.foldl_append, List.foldl_append, List.foldl_cons, List.foldl_cons] at hregisters
  exact hne (crc32Update_right_inj (foldl_crc32Update_inj after hregisters))

end ZeroLGR.Wal
