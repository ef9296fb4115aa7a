/-
  ZeroLGR.RingBuffer.Refinement — the ring buffer refines a bounded queue.

  One lemma per thread step, then all steps, then every interleaving:

    • `push…_inv`, `pop…_inv` — each step keeps the invariant and moves the
      abstract queue as its event says,
    • `step_simulates` — hence each step is matched by the bounded queue,
    • `pushFailed_full`, `popFailed_empty` — why a call can fail,
    • `ringBuffer_refines_fifo` — everything together, over whole runs.
-/
import ZeroLGR.RingBuffer.Invariant

namespace ZeroLGR.RingBuffer

open Transition

variable {α : Type*} {c : Capacity} {movedFrom : α → α} {s s' : System α} {q : List α}
  {C : Nat} {es : List (Event α)}

/-! ## §1. How the queue moves with an event. -/

/-- The queue before and after a step that shows `es`. -/
inductive QueueMove : List α → List (Event α) → List α → Prop
  | silent (q : List α) : QueueMove q [] q
  | pushFailed (q : List α) : QueueMove q [.pushFailed] q
  | popFailed (q : List α) : QueueMove q [.popFailed] q
  | pushed (q : List α) (val : α) : QueueMove q [.pushed val] (q ++ [val])
  | popped (q : List α) (out : α) : QueueMove (out :: q) [.popped out] q

/-! ## §2. The producer's steps. -/

theorem pushLoadTail_inv {val : α} (h : InvAt c s q C)
    (hs : step c movedFrom s (.pushLoadTail val) = some (s', es)) :
    InvAt c s' q C ∧ QueueMove q es q := by
  simp only [step] at hs
  split at hs
  · next hpc =>
      cases hs
      have htail : s.ring.tail.load = slot c (C + q.length) := AtomicIndex.load_of_history h.tail
      refine ⟨{ h with producer := ?_ }, .silent q⟩
      rw [htail, slot_succ]
      exact ⟨rfl, rfl⟩
  · cases hs

theorem pushLoadHead_inv {i : Nat} (h : InvAt c s q C)
    (hs : step c movedFrom s (.pushLoadHead i) = some (s', es)) :
    InvAt c s' q C ∧ QueueMove q es q := by
  simp only [step] at hs
  split at hs
  · next val t next v hpc hv =>
      obtain ⟨hseen, hle, rfl⟩ := AtomicIndex.loadFrom_of_history h.head hv
      have hroom := h.room
      have hprod := h.producer
      rw [hpc] at hprod
      obtain ⟨ht, hnext⟩ := hprod
      split at hs
      · -- the buffer looks full: only the observation moves
        cases hs
        have hroom' : C + q.length + 1 ≤ i + c.N.toNat := by omega
        exact ⟨{ h with headSeen_le := hle, room := hroom', producer := trivial }, .pushFailed q⟩
      · next hne =>
          cases hs
          -- `next` differs from a counter at most `N` behind, so there is room
          have hroom' : C + q.length + 2 ≤ i + c.N.toNat := by
            by_contra hlt
            have hfull : C + q.length + 1 = i + c.N.toNat := by omega
            exact hne (by rw [hnext, hfull, slot_add_N])
          have hle' : C + q.length + 1 ≤ i + c.N.toNat := by omega
          exact ⟨{ h with headSeen_le := hle, room := hle', producer := ⟨ht, hnext, hroom'⟩ },
            .silent q⟩
  · cases hs

theorem writeSlot_self (buf : UInt64 → α) (i : UInt64) (val : α) :
    writeSlot buf i val i = val := if_pos rfl

theorem writeSlot_of_ne (buf : UInt64 → α) {i j : UInt64} (val : α) (h : j ≠ i) :
    writeSlot buf i val j = buf j := if_neg h

theorem pushWriteSlot_inv (h : InvAt c s q C)
    (hs : step c movedFrom s .pushWriteSlot = some (s', es)) :
    InvAt c s' q C ∧ QueueMove q es q := by
  simp only [step] at hs
  split at hs
  · next val t next hpc =>
      cases hs
      have hprod := h.producer
      rw [hpc] at hprod
      obtain ⟨rfl, hnext, hroom⟩ := hprod
      refine ⟨{ h with producer := ?_, slots := ?_ }, .silent q⟩
      · exact ⟨hnext, hroom, writeSlot_self _ _ _⟩
      · -- the slot written lies past the last element
        intro j hj hholding
        exact (writeSlot_of_ne _ _ (h.tail_slot_free hj)).trans (h.slots j hj hholding)
  · cases hs

theorem pushStoreTail_inv (h : InvAt c s q C)
    (hs : step c movedFrom s .pushStoreTail = some (s', es)) :
    ∃ val, InvAt c s' (q ++ [val]) C ∧ QueueMove q es (q ++ [val]) := by
  simp only [step] at hs
  split at hs
  · next val next hpc =>
      cases hs
      have hprod := h.producer
      rw [hpc] at hprod
      obtain ⟨rfl, hroom, hval⟩ := hprod
      refine ⟨val, ⟨h.head, ?_, h.headSeen_le, ?_, h.le_tailSeen, ?_, trivial, ?_, ?_⟩, .pushed q val⟩
      · rw [List.length_append]
        exact AtomicIndex.stores_store h.tail
      · simp only [List.length_append, List.length_singleton]
        omega
      · have := h.tailSeen_le
        simp only [List.length_append, List.length_singleton]
        omega
      -- the consumer: the element it has moved out is still the front
      · have hcons := h.consumer
        cases hcpc : s.consumer with
        | idle => trivial
        | loadedHead v => rwa [hcpc] at hcons
        | loadedTail v => rwa [hcpc] at hcons
        | read v out =>
            rw [hcpc] at hcons
            obtain ⟨hv, hlt, hfront⟩ := hcons
            refine ⟨hv, hlt, ?_⟩
            rw [List.head?_append, hfront]
            rfl
      · intro j hj hholding
        -- an old element, or the one just published, which the slot written holds
        by_cases hold : j < q.length
        · rw [List.getElem_append_left hold]
          exact h.slots j hold hholding
        · have hjq : j = q.length := by
            rw [List.length_append, List.length_singleton] at hj
            omega
          subst hjq
          rw [List.getElem_concat_length rfl]
          exact hval
  · cases hs

/-! ## §3. The consumer's steps. -/

theorem popLoadHead_inv (h : InvAt c s q C)
    (hs : step c movedFrom s .popLoadHead = some (s', es)) :
    InvAt c s' q C ∧ QueueMove q es q := by
  simp only [step] at hs
  split at hs
  · next hpc =>
      cases hs
      have hhead : s.ring.head.load = slot c C := AtomicIndex.load_of_history h.head
      refine ⟨{ h with consumer := hhead, slots := ?_ }, .silent q⟩
      intro j hj _
      exact h.slots j hj (fun _ => by rw [hpc]; rfl)
  · cases hs

theorem popLoadTail_inv {i : Nat} (h : InvAt c s q C)
    (hs : step c movedFrom s (.popLoadTail i) = some (s', es)) :
    InvAt c s' q C ∧ QueueMove q es q := by
  simp only [step] at hs
  split at hs
  · next v t hpc ht =>
      obtain ⟨hseen, hle, rfl⟩ := AtomicIndex.loadFrom_of_history h.tail ht
      have hCi : C ≤ i := Nat.le_trans h.le_tailSeen hseen
      have hcons := h.consumer
      rw [hpc] at hcons
      have hslots : ∀ j (hj : j < q.length), s.ring.buf (slot c (C + j)) = q[j] :=
        fun j hj => h.slots j hj (fun _ => by rw [hpc]; rfl)
      split at hs
      · -- the buffer looks empty: only the observation moves
        cases hs
        exact ⟨{ h with le_tailSeen := hCi, tailSeen_le := hle, consumer := trivial,
                        slots := fun j hj _ => hslots j hj }, .popFailed q⟩
      · next hne =>
          cases hs
          have hlt : C < i := by
            refine Nat.lt_of_le_of_ne hCi ?_
            rintro rfl
            exact hne hcons
          exact ⟨{ h with le_tailSeen := hCi, tailSeen_le := hle, consumer := ⟨hcons, hlt⟩,
                          slots := fun j hj _ => hslots j hj }, .silent q⟩
  · cases hs

theorem popReadSlot_inv (h : InvAt c s q C)
    (hs : step c movedFrom s .popReadSlot = some (s', es)) :
    InvAt c s' q C ∧ QueueMove q es q := by
  simp only [step] at hs
  split at hs
  · next v hpc =>
      cases hs
      have hcons := h.consumer
      rw [hpc] at hcons
      obtain ⟨rfl, hlt⟩ := hcons
      have hpos : 0 < q.length := by
        have := h.tailSeen_le
        omega
      have hfront : s.ring.buf (slot c C) = q[0] :=
        h.slots 0 hpos (fun _ => by rw [hpc]; rfl)
      refine ⟨{ h with producer := ?_, consumer := ?_, slots := ?_ }, .silent q⟩
      · -- a slot the producer has filled already is not the one moved from
        have hprod := h.producer
        cases hppc : s.producer with
        | idle => trivial
        | loadedTail val t next => rwa [hppc] at hprod
        | loadedHead val t next => rwa [hppc] at hprod
        | wrote val next =>
            rw [hppc] at hprod
            obtain ⟨hnext, hroom, hval⟩ := hprod
            refine ⟨hnext, hroom, ?_⟩
            exact (writeSlot_of_ne _ _ (h.tail_slot_free hpos).symm).trans hval
      · refine ⟨rfl, hlt, ?_⟩
        rw [hfront, List.head?_eq_getElem?, List.getElem?_eq_getElem hpos]
      · intro j hj hholding
        have hj0 : j ≠ 0 := fun h0 => by cases hholding h0
        have hne : slot c (C + j) ≠ slot c C := by
          intro heq
          have hlen := h.length_le
          have hcap : c.capacity = c.N.toNat - 1 := c.toNat_mask
          have := slot_inj (i := C) (j := C + j) (by omega) (by omega) heq.symm
          omega
        exact (writeSlot_of_ne _ _ hne).trans (h.slots j hj (fun h0 => absurd h0 hj0))
  · cases hs

theorem popStoreHead_inv (h : InvAt c s q C)
    (hs : step c movedFrom s .popStoreHead = some (s', es)) :
    ∃ rest, InvAt c s' rest (C + 1) ∧ QueueMove q es rest := by
  simp only [step] at hs
  split at hs
  · next v out hpc =>
      cases hs
      have hcons := h.consumer
      rw [hpc] at hcons
      obtain ⟨rfl, hlt, hfront⟩ := hcons
      -- what was read is the front
      obtain ⟨rest, rfl⟩ : ∃ rest, q = out :: rest := by
        cases q with
        | nil => cases hfront
        | cons a rest =>
            cases hfront
            exact ⟨rest, rfl⟩
      -- the producer's count does not change: one popped more, one held less
      have hP : C + 1 + rest.length = C + (out :: rest).length := by
        rw [List.length_cons]
        omega
      refine ⟨rest, ⟨?_, ?_, ?_, ?_, hlt, ?_, ?_, trivial, ?_⟩, .popped rest out⟩
      · rw [slot_succ]
        exact AtomicIndex.stores_store h.head
      · rw [hP]
        exact h.tail
      · exact Nat.le_succ_of_le h.headSeen_le
      · rw [hP]
        exact h.room
      · rw [hP]
        exact h.tailSeen_le
      · rw [hP]
        exact h.producer
      · intro j hj _
        have hslot := h.slots (j + 1) (by simpa using hj) (fun h0 => absurd h0 (Nat.succ_ne_zero j))
        rw [show C + 1 + j = C + (j + 1) by omega]
        exact hslot
  · cases hs

/-! ## §4. Every step, and the bounded queue that follows it. -/

theorem step_inv {a : Action α} (h : Inv c s q) (hs : step c movedFrom s a = some (s', es)) :
    ∃ q', Inv c s' q' ∧ QueueMove q es q' := by
  obtain ⟨C, hC⟩ := h
  cases a with
  | pushLoadTail val =>
      have ⟨hinv, hmove⟩ := pushLoadTail_inv hC hs
      exact ⟨q, ⟨C, hinv⟩, hmove⟩
  | pushLoadHead i =>
      have ⟨hinv, hmove⟩ := pushLoadHead_inv hC hs
      exact ⟨q, ⟨C, hinv⟩, hmove⟩
  | pushWriteSlot =>
      have ⟨hinv, hmove⟩ := pushWriteSlot_inv hC hs
      exact ⟨q, ⟨C, hinv⟩, hmove⟩
  | pushStoreTail =>
      have ⟨val, hinv, hmove⟩ := pushStoreTail_inv hC hs
      exact ⟨q ++ [val], ⟨C, hinv⟩, hmove⟩
  | popLoadHead =>
      have ⟨hinv, hmove⟩ := popLoadHead_inv hC hs
      exact ⟨q, ⟨C, hinv⟩, hmove⟩
  | popLoadTail i =>
      have ⟨hinv, hmove⟩ := popLoadTail_inv hC hs
      exact ⟨q, ⟨C, hinv⟩, hmove⟩
  | popReadSlot =>
      have ⟨hinv, hmove⟩ := popReadSlot_inv hC hs
      exact ⟨q, ⟨C, hinv⟩, hmove⟩
  | popStoreHead =>
      have ⟨rest, hinv, hmove⟩ := popStoreHead_inv hC hs
      exact ⟨rest, ⟨C + 1, hinv⟩, hmove⟩

/-- A state of the bounded queue that abstracts `s`. -/
def Abstracts (c : Capacity) (s : System α) (fifo : Fifo.Bounded α c.capacity) : Prop :=
  Inv c s fifo.items

/-- Every move of the invariant's queue is a path of the bounded queue. -/
theorem QueueMove.path {fifo : Fifo.Bounded α c.capacity} {q' : List α}
    (hmove : QueueMove fifo.items es q') (hbound : q'.length ≤ c.capacity) :
    Fifo.Run fifo (es.flatMap Event.op) ⟨q', hbound⟩ := by
  obtain ⟨items, hitems⟩ := fifo
  cases hmove with
  | silent => exact .nil _
  | pushFailed => exact .nil _
  | popFailed => exact .nil _
  | pushed val => exact .single (.enqueue rfl)
  | popped out => exact .single (.dequeue rfl)

theorem step_simulates {fifo : Fifo.Bounded α c.capacity} {a : Action α}
    (h : Abstracts c s fifo) (hs : step c movedFrom s a = some (s', es)) :
    ∃ fifo', Fifo.Run fifo (es.flatMap Event.op) fifo' ∧ Abstracts c s' fifo' := by
  obtain ⟨q', ⟨C', hinv⟩, hmove⟩ := step_inv h hs
  exact ⟨⟨q', hinv.length_le⟩, hmove.path hinv.length_le, ⟨C', hinv⟩⟩

theorem enqueued_ops (tr : List (Event α)) :
    Fifo.enqueued (tr.flatMap Event.op) = pushedValues tr := by
  induction tr with
  | nil => rfl
  | cons e tr ih =>
      rw [List.flatMap_cons, Fifo.enqueued_append, ih]
      cases e <;> rfl

theorem dequeued_ops (tr : List (Event α)) :
    Fifo.dequeued (tr.flatMap Event.op) = poppedValues tr := by
  induction tr with
  | nil => rfl
  | cons e tr ih =>
      rw [List.flatMap_cons, Fifo.dequeued_append, ih]
      cases e <;> rfl

/-! ## §5. Failing calls, slots in use, queries. -/

/-- The slots from `head_` on that hold the `n` elements not yet popped. -/
def occupiedSlots (c : Capacity) (s : System α) (n : Nat) : List UInt64 :=
  (List.range n).map (fun j => (s.ring.head.load + UInt64.ofNat j) &&& c.mask)

theorem slot_add (c : Capacity) (i j : Nat) :
    (slot c i + UInt64.ofNat j) &&& c.mask = slot c (i + j) := by
  rw [← UInt64.toNat_inj, c.toNat_and_mask, toNat_slot, UInt64.toNat_add, toNat_slot,
      UInt64.toNat_ofNat', Nat.mod_mod_of_dvd _ c.toNat_dvd, Nat.mod_add_mod, Nat.add_mod,
      Nat.mod_mod_of_dvd _ c.toNat_dvd, ← Nat.add_mod]

theorem InvAt.occupiedSlots_eq (h : InvAt c s q C) (n : Nat) :
    occupiedSlots c s n = (List.range n).map (fun j => slot c (C + j)) := by
  unfold occupiedSlots
  rw [AtomicIndex.load_of_history h.head]
  simp only [slot_add]

/-- A push that sees the current `head_` fails only when `N - 1` elements are held. -/
theorem pushFailed_full {i : Nat} (h : Inv c s q)
    (hcur : s.ring.head.stores[i]? = some s.ring.head.load)
    (hs : step c movedFrom s (.pushLoadHead i) = some (s', [.pushFailed])) :
    q.length = c.capacity := by
  obtain ⟨C, hC⟩ := h
  have hcap : c.capacity = c.N.toNat - 1 := c.toNat_mask
  simp only [step] at hs
  split at hs
  · next val t next v hpc hv =>
      have hprod := hC.producer
      rw [hpc] at hprod
      split at hs
      · next heq =>
          have hload : v = s.ring.head.load := by
            unfold AtomicIndex.loadFrom at hv
            split at hv
            · rw [hcur] at hv
              exact (Option.some.inj hv).symm
            · cases hv
          -- the next tail is the head, so the counts agree modulo `N`
          have hslots : slot c C = slot c (C + q.length + 1) := by
            rw [← AtomicIndex.load_of_history hC.head, ← hload, ← heq, hprod.2]
          by_contra hne
          have hlen := hC.length_le
          have := slot_inj (by omega) (by omega) hslots
          omega
      · cases hs
  · cases hs

/-- A pop that sees the current `tail_` fails only when nothing is held. -/
theorem popFailed_empty {i : Nat} (h : Inv c s q)
    (hcur : s.ring.tail.stores[i]? = some s.ring.tail.load)
    (hs : step c movedFrom s (.popLoadTail i) = some (s', [.popFailed])) :
    q = [] := by
  obtain ⟨C, hC⟩ := h
  have hcap : c.capacity = c.N.toNat - 1 := c.toNat_mask
  simp only [step] at hs
  split at hs
  · next v t hpc ht =>
      have hcons := hC.consumer
      rw [hpc] at hcons
      split at hs
      · next heq =>
          have hload : t = s.ring.tail.load := by
            unfold AtomicIndex.loadFrom at ht
            split at ht
            · rw [hcur] at ht
              exact (Option.some.inj ht).symm
            · cases ht
          -- head and tail agree, and fewer than `N` elements are held
          have hslots : slot c C = slot c (C + q.length) := by
            rw [← AtomicIndex.load_of_history hC.tail, ← hload, ← heq]
            exact hcons.symm
          have hlen := hC.length_le
          have := c.two_le_toNat
          have hC0 := slot_inj (by omega) (by omega) hslots
          exact List.eq_nil_of_length_eq_zero (by omega)
      · cases hs
  · cases hs

theorem InvAt.empty_iff (h : InvAt c s q C) : s.ring.empty = true ↔ q = [] := by
  have hlen := h.length_le
  have hcap : c.capacity = c.N.toNat - 1 := c.toNat_mask
  have := c.two_le_toNat
  rw [SPSCRingBuffer.empty, beq_iff_eq, AtomicIndex.load_of_history h.head,
      AtomicIndex.load_of_history h.tail]
  constructor
  · intro heq
    have := slot_inj (by omega) (by omega) heq
    exact List.eq_nil_of_length_eq_zero (by omega)
  · rintro rfl
    rfl

/-- `(t - h + N) & MASK`, computed with wrap-around, is the number of elements. -/
theorem InvAt.sizeApprox_eq (h : InvAt c s q C) : (s.ring.sizeApprox c).toNat = q.length := by
  have hlen := h.length_le
  have hcap : c.capacity = c.N.toNat - 1 := c.toNat_mask
  have h2 := c.two_le_toNat
  have hN := c.N.toNat_lt
  have hpos : 0 < c.N.toNat := by omega
  rw [SPSCRingBuffer.sizeApprox, c.toNat_and_mask, AtomicIndex.load_of_history h.head,
      AtomicIndex.load_of_history h.tail, UInt64.toNat_add, UInt64.toNat_sub, toNat_slot, toNat_slot,
      Nat.mod_mod_of_dvd _ c.toNat_dvd, Nat.add_mod_right, Nat.mod_mod_of_dvd _ c.toNat_dvd]
  have hCN := Nat.mod_lt C hpos
  obtain ⟨m, hm⟩ := c.toNat_dvd
  -- `C % N + N·d = C`, and `N` divides `2⁶⁴`
  have hdiv := Nat.div_add_mod C c.N.toNat
  have hshift : (2 ^ 64 - C % c.N.toNat + (C + q.length) % c.N.toNat) % c.N.toNat
      = (2 ^ 64 - C % c.N.toNat + (C + q.length)) % c.N.toNat := Nat.add_mod_mod _ _ _
  rw [hshift, show 2 ^ 64 - C % c.N.toNat + (C + q.length)
        = q.length + c.N.toNat * (m + C / c.N.toNat) by rw [Nat.mul_add, ← hm]; omega,
      Nat.add_mul_mod_self_left]
  exact Nat.mod_eq_of_lt (by omega)

/-! ## §6. Whole runs. -/

/-- **THE RING BUFFER REFINES A BOUNDED QUEUE.**  For every element type, every
`N` the class admits and every interleaving of the single steps of one producer
and one consumer, with stale loads of the other side's index, there is a state
of the bounded queue of capacity `N - 1` that the events of the run lead to, and

  * the popped values are a prefix of the pushed ones, the rest being held: the
    occupied slots hold it, but for a front already moved into `out`,
  * the slot the producer is about to write is none of those that hold an
    element, the one the consumer is reading among them,
  * a push (pop) that sees the current index fails only when full (empty),
  * between calls `empty()` and `size_approx()` are exact. -/
theorem ringBuffer_refines_fifo (c : Capacity) (movedFrom : α → α) (buf : UInt64 → α)
    (as : List (Action α)) (u : Traced (System α) (Event α))
    (h : run (traced (step c movedFrom)) ⟨System.init buf, []⟩ as = some u) :
    ∃ fifo : Fifo.Bounded α c.capacity,
      Fifo.Run .empty (u.trace.flatMap Event.op) fifo
      ∧ pushedValues u.trace = poppedValues u.trace ++ fifo.items
      ∧ poppedValues u.trace <+: pushedValues u.trace
      ∧ fifo.items.length ≤ c.N.toNat - 1
      ∧ (∀ j (hj : j < fifo.items.length), (j = 0 → u.state.consumer.holding = false) →
          (occupiedSlots c u.state fifo.items.length)[j]?.map u.state.ring.buf
            = some fifo.items[j])
      ∧ (∀ val t next, u.state.producer = .loadedHead val t next →
          t < c.N ∧ t ∉ occupiedSlots c u.state fifo.items.length)
      ∧ (∀ slt, u.state.consumer = .loadedTail slt ∨ (∃ out, u.state.consumer = .read slt out) →
          slt < c.N ∧ slt ∈ occupiedSlots c u.state fifo.items.length)
      ∧ (∀ i s', u.state.ring.head.stores[i]? = some u.state.ring.head.load →
          step c movedFrom u.state (.pushLoadHead i) = some (s', [.pushFailed]) →
          fifo.items.length = c.N.toNat - 1)
      ∧ (∀ i s', u.state.ring.tail.stores[i]? = some u.state.ring.tail.load →
          step c movedFrom u.state (.popLoadTail i) = some (s', [.popFailed]) →
          fifo.items = [])
      ∧ (u.state.producer = .idle → u.state.consumer = .idle →
          (u.state.ring.empty = true ↔ fifo.items = [])
          ∧ (u.state.ring.sizeApprox c).toNat = fifo.items.length) := by
  have hcap : c.capacity = c.N.toNat - 1 := c.toNat_mask
  have hinit : Abstracts c (System.init buf) .empty := inv_init c buf
  obtain ⟨fifo, hrun, habs⟩ := run_simulates Event.op (Abstracts c)
    (fun s t a s' es hR hs => step_simulates hR hs) hinit h
  have hcons : pushedValues u.trace = poppedValues u.trace ++ fifo.items := by
    have := Fifo.run_conserves hrun
    rwa [enqueued_ops, dequeued_ops] at this
  obtain ⟨C, hC⟩ := habs
  refine ⟨fifo, hrun, hcons, ?_, hcap ▸ fifo.bound, ?_, ?_, ?_, ?_, ?_, ?_⟩
  -- the events of the queue conserve elements
  · rw [hcons]
    exact List.prefix_append _ _
  · intro j hj hholding
    rw [hC.occupiedSlots_eq, List.getElem?_map, List.getElem?_range hj]
    exact congrArg some (hC.slots j hj hholding)
  -- the slot to be written is one past the last element
  · intro val t next hpc
    have hprod := hC.producer
    rw [hpc] at hprod
    obtain ⟨rfl, -, -⟩ := hprod
    refine ⟨slot_lt c _, ?_⟩
    rw [hC.occupiedSlots_eq, List.mem_map]
    intro hexists
    obtain ⟨j, hj, heq⟩ := hexists
    exact hC.tail_slot_free (List.mem_range.mp hj) heq
  -- the slot being read is that of the front
  · intro slt hpc
    have hcons := hC.consumer
    have hslt : slt = slot c C ∧ C < u.state.tailSeen := by
      rcases hpc with hpc | ⟨out, hpc⟩
      · rwa [hpc] at hcons
      · rw [hpc] at hcons
        exact ⟨hcons.1, hcons.2.1⟩
    refine ⟨by rw [hslt.1]; exact slot_lt c _, ?_⟩
    have := hC.tailSeen_le
    rw [hC.occupiedSlots_eq, List.mem_map]
    exact ⟨0, List.mem_range.mpr (by omega), hslt.1.symm⟩
  · intro i s' hcur hs
    rw [← hcap]
    exact pushFailed_full ⟨C, hC⟩ hcur hs
  · intro i s' hcur hs
    exact popFailed_empty ⟨C, hC⟩ hcur hs
  · intro _ _
    exact ⟨hC.empty_iff, hC.sizeApprox_eq⟩

/-- An interleaving of a `SPSCRingBuffer<T, 4>`: two pushes, then a pop whose
consumer saw only the first of them, while a third push has loaded `tail_`. -/
def stalePopRun : Option (Traced (System Nat) (Event Nat)) :=
  run (traced (step ⟨4, by decide, by decide⟩ id)) ⟨System.init (fun _ => 0), []⟩
    [.pushLoadTail 10, .pushLoadHead 0, .popLoadHead, .pushWriteSlot, .pushStoreTail,
     .pushLoadTail 20, .popLoadTail 1, .pushLoadHead 0, .pushWriteSlot, .popReadSlot,
     .pushStoreTail, .pushLoadTail 30, .popStoreHead]

theorem stalePopRun_popped_prefix :
    ∃ u, stalePopRun = some u ∧ (poppedValues u.trace, pushedValues u.trace) = ([10], [10, 20])
      ∧ poppedValues u.trace <+: pushedValues u.trace := by
  have hvalues : stalePopRun.map (fun u => (poppedValues u.trace, pushedValues u.trace))
      = some ([10], [10, 20]) := by decide +kernel
  obtain ⟨u, hu, hpair⟩ := Option.map_eq_some_iff.mp hvalues
  obtain ⟨fifo, -, -, hprefix, -⟩ := ringBuffer_refines_fifo _ _ _ _ _ hu
  exact ⟨u, hu, hpair, hprefix⟩

end ZeroLGR.RingBuffer
