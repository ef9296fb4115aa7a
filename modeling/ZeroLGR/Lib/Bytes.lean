/-
  ZeroLGR.Lib.Bytes — little-endian words and byte memories.

  Words are naturals written to a fixed number of bytes, least significant
  first.  A memory is a total map from addresses to bytes, read and written in
  spans; bounds are the business of whoever owns the memory.

  Main results:
    * `ofLE_toLE`, `toLE_ofLE` — the two directions of the codec,
    * `readAt_append`, `writeAt_append` — spans split and join,
    * `readAt_writeAt`, `readAt_writeAt_before` — what a write does to a read.
-/
import Mathlib.Data.List.Basic
import Mathlib.Data.Nat.Bitwise
import Mathlib.Tactic.Ring
import Mathlib.Tactic.Positivity

/-- A sequence of bytes. -/
abbrev Bytes := List UInt8

namespace Bytes

/-! ## §1. Little-endian words. -/

/-- The `w` low-order bytes of `n`, least significant first. -/
def toLE : Nat → Nat → Bytes
  | 0, _ => []
  | w + 1, n => UInt8.ofNat n :: toLE w (n / 256)

/-- The number the bytes stand for. -/
def ofLE : Bytes → Nat
  | [] => 0
  | b :: bs => b.toNat + 256 * ofLE bs

@[simp] theorem length_toLE : ∀ (w n : Nat), (toLE w n).length = w
  | 0, _ => rfl
  | w + 1, n => by rw [toLE, List.length_cons, length_toLE w]

theorem ofLE_lt : ∀ bs : Bytes, ofLE bs < 256 ^ bs.length
  | [] => Nat.one_pos
  | b :: bs => by
      have hb := b.toNat_lt
      have ih := ofLE_lt bs
      rw [ofLE, List.length_cons, Nat.pow_succ]
      omega

theorem ofLE_toLE : ∀ (w n : Nat), ofLE (toLE w n) = n % 256 ^ w
  | 0, n => by rw [Nat.pow_zero, Nat.mod_one]; rfl
  | w + 1, n => by
      have hb : (UInt8.ofNat n).toNat = n % 256 := UInt8.toNat_ofNat'
      have hpow : 256 ^ (w + 1) = 256 * 256 ^ w := Nat.pow_succ'
      rw [toLE, ofLE, ofLE_toLE w, hb, hpow, Nat.mod_mul]

theorem ofLE_toLE_of_lt {w n : Nat} (h : n < 256 ^ w) : ofLE (toLE w n) = n := by
  rw [ofLE_toLE, Nat.mod_eq_of_lt h]

theorem toLE_ofLE : ∀ bs : Bytes, toLE bs.length (ofLE bs) = bs
  | [] => rfl
  | b :: bs => by
      have hb := b.toNat_lt
      rw [List.length_cons, toLE, ofLE, Nat.add_mul_div_left _ _ (by omega),
          Nat.div_eq_of_lt hb, Nat.zero_add, toLE_ofLE bs]
      congr 1
      rw [← UInt8.toNat_inj, UInt8.toNat_ofNat']
      omega

theorem toLE_inj {w n m : Nat} (hn : n < 256 ^ w) (hm : m < 256 ^ w)
    (h : toLE w n = toLE w m) : n = m := by
  rw [← ofLE_toLE_of_lt hn, h, ofLE_toLE_of_lt hm]

/-- Zero is written as zero bytes. -/
theorem toLE_zero (w : Nat) : toLE w 0 = List.replicate w 0 := by
  induction w with
  | zero => rfl
  | succ w ih => rw [toLE, Nat.zero_div, ih, List.replicate_succ]; rfl

theorem toLE_add (v w n : Nat) : toLE (v + w) n = toLE v n ++ toLE w (n / 256 ^ v) := by
  induction v generalizing n with
  | zero => rw [Nat.zero_add, Nat.pow_zero, Nat.div_one]; rfl
  | succ v ih =>
      rw [Nat.succ_add, toLE, toLE, ih, Nat.div_div_eq_div_mul, Nat.pow_succ,
          Nat.mul_comm 256, List.cons_append]

/-- The bytes do not tell a number from one that is reduced to them. -/
theorem toLE_mod (w n : Nat) : toLE w (n % 256 ^ w) = toLE w n := by
  have h := toLE_ofLE (toLE w n)
  rw [length_toLE, ofLE_toLE] at h
  exact h

/-- Losing the high bytes of a word is reducing the number. -/
theorem take_toLE {j w : Nat} (hj : j ≤ w) (n : Nat) :
    (toLE w n).take j ++ List.replicate (w - j) 0 = toLE w (n % 256 ^ j) := by
  obtain ⟨v, rfl⟩ := Nat.exists_eq_add_of_le hj
  have hhigh : n % 256 ^ j / 256 ^ j = 0 := Nat.div_eq_of_lt (Nat.mod_lt _ (by positivity))
  rw [toLE_add, toLE_add, hhigh, toLE_zero, toLE_mod, Nat.add_sub_cancel_left,
      List.take_left' (length_toLE j n)]

/-! ## §2. Reading a span. -/

/-- The `n` bytes from address `off`. -/
def readAt (m : Nat → UInt8) (off n : Nat) : Bytes :=
  (List.range n).map (fun i => m (off + i))

@[simp] theorem length_readAt (m : Nat → UInt8) (off n : Nat) : (readAt m off n).length = n := by
  simp [readAt]

theorem readAt_getElem? (m : Nat → UInt8) (off n i : Nat) :
    (readAt m off n)[i]? = if i < n then some (m (off + i)) else none := by
  by_cases hi : i < n
  · rw [readAt, List.getElem?_map, List.getElem?_range hi, if_pos hi]
    rfl
  · rw [readAt, List.getElem?_eq_none (by simp; omega), if_neg hi]

theorem readAt_append (m : Nat → UInt8) (off a b : Nat) :
    readAt m off (a + b) = readAt m off a ++ readAt m (off + a) b := by
  unfold readAt
  rw [List.range_add, List.map_append, List.map_map]
  congr 2
  funext i
  exact congrArg m (Nat.add_assoc off a i).symm

/-- A read depends on the bytes of its span only. -/
theorem readAt_congr {m m' : Nat → UInt8} {off n : Nat}
    (h : ∀ i, off ≤ i → i < off + n → m i = m' i) : readAt m off n = readAt m' off n := by
  unfold readAt
  refine List.map_congr_left ?_
  intro i hi
  have hlt := List.mem_range.mp hi
  exact h (off + i) (by omega) (by omega)

theorem readAt_zero {m : Nat → UInt8} {off n : Nat}
    (h : ∀ i, off ≤ i → i < off + n → m i = 0) : readAt m off n = List.replicate n 0 := by
  refine List.eq_replicate_iff.mpr ⟨length_readAt m off n, ?_⟩
  intro b hb
  obtain ⟨i, hi, rfl⟩ := List.mem_map.mp hb
  have hlt := List.mem_range.mp hi
  exact h (off + i) (by omega) (by omega)

/-- A read of a memory that is zero from address `c` on. -/
theorem readAt_cut (m : Nat → UInt8) (c off n : Nat) :
    readAt (fun i => if i < c then m i else 0) off n =
      (readAt m off n).take (c - off) ++ List.replicate (n - (c - off)) 0 := by
  refine List.ext_getElem? ?_
  intro i
  rw [readAt_getElem?, List.getElem?_append, List.length_take, length_readAt,
      List.getElem?_replicate, List.getElem?_take, readAt_getElem?]
  by_cases hi : i < n
  · by_cases hc : off + i < c
    · simp [hi, hc, show i < c - off by omega]
    · simp [hi, hc, show ¬ i < c - off by omega]
      omega
  · simp [hi]
    omega

/-! ## §3. Writing a span. -/

/-- The memory after the bytes `bs` are written from address `off`. -/
def writeAt (m : Nat → UInt8) (off : Nat) (bs : Bytes) : Nat → UInt8 :=
  fun i => if off ≤ i then bs.getD (i - off) (m i) else m i

theorem writeAt_of_lt (m : Nat → UInt8) {off i : Nat} (bs : Bytes) (h : i < off) :
    writeAt m off bs i = m i := if_neg (by omega)

theorem writeAt_of_ge (m : Nat → UInt8) {off i : Nat} {bs : Bytes} (h : off + bs.length ≤ i) :
    writeAt m off bs i = m i := by
  rw [writeAt, if_pos (by omega), List.getD_eq_getElem?_getD,
      List.getElem?_eq_none (by omega)]
  rfl

theorem writeAt_at (m : Nat → UInt8) (off : Nat) (bs : Bytes) {j : Nat} (h : j < bs.length) :
    writeAt m off bs (off + j) = bs[j] := by
  rw [writeAt, if_pos (by omega), Nat.add_sub_cancel_left, List.getD_eq_getElem?_getD,
      List.getElem?_eq_getElem h]
  rfl

/-- What was written is what is read. -/
theorem readAt_writeAt (m : Nat → UInt8) (off : Nat) (bs : Bytes) :
    readAt (writeAt m off bs) off bs.length = bs := by
  refine List.ext_getElem? ?_
  intro i
  rw [readAt_getElem?]
  by_cases hi : i < bs.length
  · rw [if_pos hi, writeAt_at m off bs hi, List.getElem?_eq_getElem hi]
  · rw [if_neg hi, List.getElem?_eq_none (by omega)]

theorem readAt_writeAt_before (m : Nat → UInt8) {off a n : Nat} (bs : Bytes) (h : a + n ≤ off) :
    readAt (writeAt m off bs) a n = readAt m a n :=
  readAt_congr (fun _ _ hlt => writeAt_of_lt m bs (by omega))

/-- Adjacent writes join. -/
theorem writeAt_append (m : Nat → UInt8) (off : Nat) (as bs : Bytes) :
    writeAt (writeAt m off as) (off + as.length) bs = writeAt m off (as ++ bs) := by
  funext i
  by_cases hlt : i < off
  · rw [writeAt_of_lt _ _ (by omega), writeAt_of_lt _ _ hlt, writeAt_of_lt _ _ hlt]
  · obtain ⟨j, rfl⟩ := Nat.exists_eq_add_of_le (Nat.le_of_not_lt hlt)
    -- in the first write, in the second, or behind both
    by_cases hja : j < as.length
    · have hjab : j < (as ++ bs).length := by rw [List.length_append]; omega
      rw [writeAt_of_lt _ _ (by omega), writeAt_at _ _ _ hja, writeAt_at _ _ _ hjab,
          List.getElem_append_left hja]
    · obtain ⟨k, rfl⟩ := Nat.exists_eq_add_of_le (Nat.le_of_not_lt hja)
      by_cases hkb : k < bs.length
      · have hjab : as.length + k < (as ++ bs).length := by rw [List.length_append]; omega
        rw [← Nat.add_assoc, writeAt_at _ _ _ hkb, Nat.add_assoc, writeAt_at _ _ _ hjab,
            List.getElem_append_right (Nat.le_add_right _ _)]
        congr 1
        omega
      · rw [writeAt_of_ge _ (by omega), writeAt_of_ge _ (by omega),
            writeAt_of_ge _ (by rw [List.length_append]; omega)]

end Bytes
