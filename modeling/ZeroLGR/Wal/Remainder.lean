/-
  ZeroLGR.Wal.Remainder — the checksum is CRC-32.

  `compute_crc32` reads a table by bytes.  What it computes is said here twice
  without the table: bit by bit, and as a remainder of polynomials over GF(2).
  A payload is the polynomial of its bits, byte after byte and each byte least
  significant bit first, the first bit at the highest power; the register is
  reflected in the same way.

    • `initCrc32Table`, `tableCrc32_eq` — the array that is filled at the start;
      no look-up leaves it,
    • `bitwiseCrc32` — one bit at a time,
    • `crc32Generator`, `remainderCrc32` — the remainder,
    • `computeCrc32_is_crc32` — all of these are one, and a checksum can be taken
      up where it was left.
-/
import ZeroLGR.Lib.Remainder
import ZeroLGR.Wal.Burst

namespace ZeroLGR.Wal

open Polynomial

/-! ## §1. The table in memory. -/

/-- The array after `n` iterations of the outer loop of `init_crc32_table`. -/
def fillCrc32Table : Nat → List UInt32
  | 0 => List.replicate 256 0
  | n + 1 => (fillCrc32Table n).set n (crc32Table (UInt32.ofNat n))

/-- `crc32_table`, as `init_crc32_table` leaves it. -/
def initCrc32Table : List UInt32 := fillCrc32Table 256

/-- `crc32_table[(crc ^ data[i]) & 0xFF] ^ (crc >> 8)`.  Reading past the end of
the array is undefined: the result is `none`. -/
def lookUpCrc32 (table : List UInt32) (crc : UInt32) (byte : UInt8) : Option UInt32 :=
  (table[((crc ^^^ byte.toUInt32) &&& 0xFF).toNat]?).map fun entry => entry ^^^ (crc >>> 8)

/-- `compute_crc32` with the array. -/
def tableCrc32 (table : List UInt32) (data : Bytes) : Option UInt32 :=
  (data.foldlM (lookUpCrc32 table) 0xFFFFFFFF).map fun crc => crc ^^^ 0xFFFFFFFF

theorem fillCrc32Table_getElem? (n : Nat) {i : Nat} (hi : i < 256) :
    (fillCrc32Table n)[i]? = some (if i < n then crc32Table (UInt32.ofNat i) else 0) := by
  -- induction on the iterations: each sets its own entry
  induction n with
  | zero =>
      rw [fillCrc32Table, List.getElem?_replicate, if_pos hi]
      rfl
  | succ n ih =>
      rw [fillCrc32Table, List.getElem?_set]
      by_cases hn : n = i
      · subst hn
        have hlt : n < (fillCrc32Table n).length := (List.getElem?_eq_some_iff.mp ih).1
        rw [if_pos rfl, if_pos hlt, if_pos (Nat.lt_succ_self n)]
      · rw [if_neg hn, ih]
        simp only [show (i < n) = (i < n + 1) from propext ⟨by omega, by omega⟩]

/-- **The entry at every masked index is there**, and it is the one of its index. -/
theorem lookUpCrc32_eq (crc : UInt32) (byte : UInt8) :
    lookUpCrc32 initCrc32Table crc byte = some (crc32Update crc byte) := by
  -- the mask keeps the index inside the array
  have hmask : ((crc ^^^ byte.toUInt32) &&& 0xFF).toNat < 256 := by
    rw [UInt32.toNat_and]
    exact Nat.lt_succ_of_le Nat.and_le_right
  rw [lookUpCrc32, initCrc32Table, fillCrc32Table_getElem? 256 hmask, if_pos hmask,
    UInt32.ofNat_toNat]
  rfl

theorem foldlM_lookUpCrc32 (data : Bytes) (crc : UInt32) :
    data.foldlM (lookUpCrc32 initCrc32Table) crc = some (data.foldl crc32Update crc) := by
  induction data generalizing crc with
  | nil => rfl
  | cons b data ih =>
      rw [List.foldlM_cons, lookUpCrc32_eq, List.foldl_cons, ← ih]
      rfl

/-- No look-up leaves the table. -/
theorem tableCrc32_eq (data : Bytes) :
    tableCrc32 initCrc32Table data = some (computeCrc32 data) := by
  rw [tableCrc32, foldlM_lookUpCrc32]
  rfl

/-! ## §2. Bit by bit. -/

/-- One bit of the message: a shift to the right, and the polynomial is added if
the bit differs from the one that leaves. -/
def crc32Bit (crc : UInt32) (b : Bool) : UInt32 :=
  if (crc.toBitVec.getLsbD 0 ^^ b) = true then (crc >>> 1) ^^^ 0xEDB88320 else crc >>> 1

/-- CRC-32 without a table. -/
def bitwiseCrc32 (data : Bytes) : UInt32 :=
  (payloadBits data).foldl crc32Bit 0xFFFFFFFF ^^^ 0xFFFFFFFF

theorem toBitVec_crc32Bit (crc : UInt32) (b : Bool) :
    (crc32Bit crc b).toBitVec = Lfsr.feed crc32Poly crc.toBitVec b := by
  rw [Lfsr.feed_eq (by decide), crc32Bit]
  split <;> rfl

theorem toBitVec_foldl_crc32Bit (bs : List Bool) (crc : UInt32) :
    (bs.foldl crc32Bit crc).toBitVec = Lfsr.feeds crc32Poly crc.toBitVec bs := by
  induction bs generalizing crc with
  | nil => rfl
  | cons b bs ih =>
      rw [List.foldl_cons, ih, toBitVec_crc32Bit]
      rfl

/-- **One look-up for each byte is one step for each bit.** -/
theorem foldl_crc32Update_eq_bits (data : Bytes) (crc : UInt32) :
    data.foldl crc32Update crc = (payloadBits data).foldl crc32Bit crc := by
  refine UInt32.toBitVec_inj.mp ?_
  rw [foldl_crc32Update_eq_feeds, toBitVec_foldl_crc32Bit]

/-! ## §3. The remainder. -/

/-- The generator of CRC-32. -/
noncomputable def crc32Generator : (ZMod 2)[X] :=
  X ^ 32 + X ^ 26 + X ^ 23 + X ^ 22 + X ^ 16 + X ^ 12 + X ^ 11 + X ^ 10 + X ^ 8 + X ^ 7 + X ^ 5 +
    X ^ 4 + X ^ 2 + X + 1

/-- A register of 32 ones. -/
noncomputable def crc32Ones : (ZMod 2)[X] := ∑ i ∈ Finset.range 32, X ^ i

/-- CRC-32 by its definition over GF(2): 32 zero bits are appended to the
message, the first 32 bits of this are complemented, and the remainder is taken
and complemented again. -/
noncomputable def remainderCrc32 (data : Bytes) : (ZMod 2)[X] :=
  (Lfsr.bitsPoly (payloadBits data) * X ^ 32 + crc32Ones * X ^ (8 * data.length)) %ₘ
    crc32Generator + crc32Ones

/-- `0xEDB88320` is the generator, without its leading power and reflected. -/
theorem generator_crc32Poly : Lfsr.generator crc32Poly = crc32Generator := by
  have hpowers : (Finset.range 32).filter (fun i => crc32Poly.getMsbD i = true) =
      {26, 23, 22, 16, 12, 11, 10, 8, 7, 5, 4, 2, 1, 0} := by decide
  rw [Lfsr.generator, Lfsr.toPoly_eq_sum, hpowers, crc32Generator]
  simp
  ring

theorem toPoly_ones : Lfsr.toPoly (0xFFFFFFFF : BitVec 32) = crc32Ones := by
  have hpowers : (Finset.range 32).filter
      (fun i => (0xFFFFFFFF : BitVec 32).getMsbD i = true) = Finset.range 32 := by decide
  rw [Lfsr.toPoly_eq_sum, hpowers, crc32Ones]

/-- The checksum, with its top bit as constant coefficient. -/
theorem toPoly_computeCrc32 (data : Bytes) :
    Lfsr.toPoly (computeCrc32 data).toBitVec = remainderCrc32 data := by
  have hregister : (computeCrc32 data).toBitVec =
      Lfsr.feeds crc32Poly 0xFFFFFFFF (payloadBits data) ^^^ 0xFFFFFFFF := by
    rw [computeCrc32, UInt32.toBitVec_xor, foldl_crc32Update_eq_feeds]
    rfl
  rw [hregister, Lfsr.toPoly_xor, Lfsr.toPoly_feeds (by decide), toPoly_ones, generator_crc32Poly,
    length_payloadBits, remainderCrc32, add_comm (crc32Ones * _)]

/-! ## §4. The checksum. -/

/-- **THE TABLE-DRIVEN CHECKSUM IS CRC-32.**  For every byte sequence, what the
loop reads off the filled table is `computeCrc32`; that is what the register
gives that takes the bits in one by one, and it is the one word whose bits are
the remainder over GF(2).  The register after two sequences in a row is the
register after the first, updated by the second, so a checksum can be taken up
where it was left. -/
theorem computeCrc32_is_crc32 :
    (∀ data, tableCrc32 initCrc32Table data = some (computeCrc32 data)) ∧
      (∀ data, computeCrc32 data = bitwiseCrc32 data) ∧
      (∀ data crc, computeCrc32 data = crc ↔ Lfsr.toPoly crc.toBitVec = remainderCrc32 data) ∧
      (∀ (crc : UInt32) (a b : Bytes),
        (a ++ b).foldl crc32Update crc = b.foldl crc32Update (a.foldl crc32Update crc)) ∧
      ∀ a b : Bytes, computeCrc32 (a ++ b) =
        b.foldl crc32Update (computeCrc32 a ^^^ 0xFFFFFFFF) ^^^ 0xFFFFFFFF := by
  refine ⟨tableCrc32_eq, ?_, ?_, fun crc a b => List.foldl_append, ?_⟩
  · intro data
    rw [computeCrc32, bitwiseCrc32, foldl_crc32Update_eq_bits]
  · intro data crc
    rw [← toPoly_computeCrc32]
    constructor
    · intro h
      rw [h]
    · intro h
      exact (UInt32.toBitVec_inj.mp (Lfsr.toPoly_injective h)).symm
  · intro a b
    -- the final complement is taken back
    have hregister : computeCrc32 a ^^^ 0xFFFFFFFF = a.foldl crc32Update 0xFFFFFFFF := by
      rw [computeCrc32, UInt32.xor_assoc, UInt32.xor_self, UInt32.xor_zero]
    rw [hregister, computeCrc32, List.foldl_append]

end ZeroLGR.Wal
