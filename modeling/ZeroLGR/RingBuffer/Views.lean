/-
  ZeroLGR.RingBuffer.Views — what each thread sees of the ring buffer.

  With stale loads a `push` can be refused while nothing is held.  But the ring
  buffer is a channel, and so either thread on its own cannot tell it from an
  atomic queue that the other one uses a little later.

    • `Tracks` — the channel of a state,
    • `step_moves` — each step is a move of the channel,
    • `run_channel` — every run, as a run of the channel,
    • `each_thread_sees_fifo` — and so as calls of an atomic queue, twice.
-/
import ZeroLGR.Lib.Channel
import ZeroLGR.RingBuffer.Refinement

namespace ZeroLGR.RingBuffer

open Transition Fifo Delayed

variable {α : Type*} {c : Capacity} {movedFrom : α → α} {s s' : System α} {q : List α}
  {C : Nat} {es : List (Event α)}

/-! ## §1. The channel of a state. -/

/-- The call that an event finishes. -/
def Event.call : Event α → Call α
  | .pushed val => .pushed val
  | .pushFailed => .full
  | .popped out => .popped out
  | .popFailed => .empty

/-- The channel `ch` is what the threads have made of the ring buffer so far. -/
structure Tracks (c : Capacity) (s : System α) (ch : Channel α c.capacity) : Prop where
  noticed : ch.noticed = s.headSeen
  arrived : ch.arrived = s.tailSeen
  inv : InvAt c s (ch.sent.drop ch.taken) ch.taken

/-- The channel of a state whose first `C` values were popped. -/
def InvAt.channel {sent : List α} (h : InvAt c s (sent.drop C) C) (hle : C ≤ sent.length) :
    Channel α c.capacity where
  sent := sent
  noticed := s.headSeen
  taken := C
  arrived := s.tailSeen
  noticed_le := h.headSeen_le
  taken_le := h.le_tailSeen
  arrived_le := by
    have hseen := h.tailSeen_le
    rw [List.length_drop] at hseen
    omega
  room := by
    have hroom := h.room
    have hcap : c.capacity = c.N.toNat - 1 := c.toNat_mask
    rw [List.length_drop] at hroom
    omega

theorem InvAt.tracks {sent : List α} (h : InvAt c s (sent.drop C) C) (hle : C ≤ sent.length) :
    Tracks c s (h.channel hle) := ⟨rfl, rfl, h⟩

theorem tracks_init (c : Capacity) (buf : UInt64 → α) : Tracks c (System.init buf) Channel.new := by
  obtain ⟨C, h⟩ := inv_init c buf
  have hzero : C = 0 := by
    have hseen := h.le_tailSeen
    have : (System.init buf).tailSeen = 0 := rfl
    omega
  subst hzero
  exact ⟨rfl, rfl, h⟩

/-! ## §2. The steps that look at the other side's index. -/

/-- A load of `head_` moves the observation on; when the push fails, there are
`N - 1` values after the head that was seen. -/
theorem pushLoadHead_seen {i : Nat} (h : InvAt c s q C)
    (hs : step c movedFrom s (.pushLoadHead i) = some (s', es)) :
    s.headSeen ≤ s'.headSeen ∧ s'.tailSeen = s.tailSeen ∧
      (es = [] ∨ es = [.pushFailed] ∧ C + q.length + 1 = s'.headSeen + c.N.toNat) := by
  simp only [step] at hs
  split at hs
  · next val t next v hpc hv =>
      obtain ⟨hseen, hle, rfl⟩ := AtomicIndex.loadFrom_of_history h.head hv
      have hprod := h.producer
      rw [hpc] at hprod
      split at hs
      · next heq =>
          cases hs
          refine ⟨hseen, rfl, .inr ⟨rfl, ?_⟩⟩
          show C + q.length + 1 = i + c.N.toNat
          -- equal slots at most `N` apart, and not equal counters
          have hslots : slot c i = slot c (C + q.length + 1) := by rw [← heq, hprod.2]
          have hroom := h.room
          by_contra hne
          have := slot_inj (by omega) (show C + q.length + 1 < i + c.N.toNat by omega) hslots
          omega
      · cases hs
        exact ⟨hseen, rfl, .inl rfl⟩
  · cases hs

/-- A load of `tail_` moves the observation on; when the pop fails, there is no
value before the tail that was seen. -/
theorem popLoadTail_seen {i : Nat} (h : InvAt c s q C)
    (hs : step c movedFrom s (.popLoadTail i) = some (s', es)) :
    s.tailSeen ≤ s'.tailSeen ∧ s'.headSeen = s.headSeen ∧
      (es = [] ∨ es = [.popFailed] ∧ C = s'.tailSeen) := by
  simp only [step] at hs
  split at hs
  · next v t hpc ht =>
      obtain ⟨hseen, hle, rfl⟩ := AtomicIndex.loadFrom_of_history h.tail ht
      have hcons := h.consumer
      rw [hpc] at hcons
      split at hs
      · next heq =>
          cases hs
          refine ⟨hseen, rfl, .inr ⟨rfl, ?_⟩⟩
          show C = i
          have hslots : slot c C = slot c i := by
            rw [← heq]
            exact hcons.symm
          have hlen := h.length_le
          have hcap : c.capacity = c.N.toNat - 1 := c.toNat_mask
          have htwo := c.two_le_toNat
          have htaken := h.le_tailSeen
          exact slot_inj (by omega) (by omega) hslots
      · cases hs
        exact ⟨hseen, rfl, .inl rfl⟩
  · cases hs

/-! ## §3. Each step is a move of the channel. -/

theorem QueueMove.of_silent {q' : List α} (h : QueueMove q [] q') : q' = q := by
  cases h
  rfl

theorem QueueMove.of_pushFailed {q' : List α} (h : QueueMove q [.pushFailed] q') : q' = q := by
  cases h
  rfl

theorem QueueMove.of_popFailed {q' : List α} (h : QueueMove q [.popFailed] q') : q' = q := by
  cases h
  rfl

theorem QueueMove.of_pushed {q' : List α} {val : α} (h : QueueMove q [.pushed val] q') :
    q' = q ++ [val] := by
  cases h
  rfl

theorem QueueMove.of_popped {q' : List α} {out : α} (h : QueueMove q [.popped out] q') :
    q = out :: q' := by
  cases h
  rfl

/-- A step that finishes no call and looks at nothing. -/
theorem Tracks.quiet {ch : Channel α c.capacity} (h : Tracks c s ch)
    (hinv : InvAt c s' (ch.sent.drop ch.taken) ch.taken) (hhead : s'.headSeen = s.headSeen)
    (htail : s'.tailSeen = s.tailSeen) : Moves ch [] ch ∧ Tracks c s' ch := by
  refine ⟨.look rfl rfl (Nat.le_refl _) (Nat.le_refl _), ?_, ?_, hinv⟩
  · rw [hhead]
    exact h.noticed
  · rw [htail]
    exact h.arrived

/-- **Each step is a move of the channel.** -/
theorem step_moves {ch : Channel α c.capacity} {a : Action α} (h : Tracks c s ch)
    (hs : step c movedFrom s a = some (s', es)) :
    ∃ ch' : Channel α c.capacity, Moves ch (es.map Event.call) ch' ∧ Tracks c s' ch' := by
  have hle := ch.taken_le_length
  cases a with
  | pushLoadTail val =>
      obtain ⟨hinv, -⟩ := pushLoadTail_inv h.inv hs
      simp only [step] at hs
      split at hs <;> cases hs
      exact ⟨ch, h.quiet hinv rfl rfl⟩
  | pushLoadHead i =>
      obtain ⟨hinv, -⟩ := pushLoadHead_inv h.inv hs
      obtain ⟨hhead, htail, hes⟩ := pushLoadHead_seen h.inv hs
      have hnoticed : ch.noticed ≤ s'.headSeen := by
        rw [h.noticed]
        exact hhead
      have harrived : s'.tailSeen = ch.arrived := by rw [htail, h.arrived]
      refine ⟨hinv.channel hle, ?_, hinv.tracks hle⟩
      rcases hes with rfl | ⟨rfl, hfull⟩
      · exact .look rfl rfl hnoticed (Nat.le_of_eq harrived.symm)
      · refine .full rfl rfl hnoticed harrived ?_
        have hcap : c.capacity = c.N.toNat - 1 := c.toNat_mask
        have htwo := c.two_le_toNat
        rw [List.length_drop] at hfull
        show ch.sent.length = s'.headSeen + c.capacity
        omega
  | pushWriteSlot =>
      obtain ⟨hinv, -⟩ := pushWriteSlot_inv h.inv hs
      simp only [step] at hs
      split at hs <;> cases hs
      exact ⟨ch, h.quiet hinv rfl rfl⟩
  | pushStoreTail =>
      obtain ⟨val, hinv, hmove⟩ := pushStoreTail_inv h.inv hs
      rw [← List.drop_append_of_le_length hle] at hinv
      have hlonger : ch.taken ≤ (ch.sent ++ [val]).length := by
        rw [List.length_append]
        omega
      refine ⟨hinv.channel hlonger, ?_, hinv.tracks hlonger⟩
      -- the value stored is the one the event shows
      simp only [step] at hs
      split at hs <;> cases hs
      next v next hpc =>
        have hq := hmove.of_pushed
        rw [List.append_cancel_left_eq, List.singleton_inj] at hq
        subst hq
        exact .pushed rfl rfl h.noticed.symm h.arrived.symm
  | popLoadHead =>
      obtain ⟨hinv, -⟩ := popLoadHead_inv h.inv hs
      simp only [step] at hs
      split at hs <;> cases hs
      exact ⟨ch, h.quiet hinv rfl rfl⟩
  | popLoadTail i =>
      obtain ⟨hinv, -⟩ := popLoadTail_inv h.inv hs
      obtain ⟨htail, hhead, hes⟩ := popLoadTail_seen h.inv hs
      have harrived : ch.arrived ≤ s'.tailSeen := by
        rw [h.arrived]
        exact htail
      have hnoticed : s'.headSeen = ch.noticed := by rw [hhead, h.noticed]
      refine ⟨hinv.channel hle, ?_, hinv.tracks hle⟩
      rcases hes with rfl | ⟨rfl, hempty⟩
      · exact .look rfl rfl (Nat.le_of_eq hnoticed.symm) harrived
      · exact .empty rfl rfl hnoticed harrived hempty
  | popReadSlot =>
      obtain ⟨hinv, -⟩ := popReadSlot_inv h.inv hs
      simp only [step] at hs
      split at hs <;> cases hs
      exact ⟨ch, h.quiet hinv rfl rfl⟩
  | popStoreHead =>
      obtain ⟨rest, hinv, hmove⟩ := popStoreHead_inv h.inv hs
      simp only [step] at hs
      split at hs <;> cases hs
      next v out hpc =>
        have hq := hmove.of_popped
        -- the value popped is the first of those that were not taken
        have hfirst : ch.sent[ch.taken]? = some out := by
          rw [← List.head?_drop, hq]
          rfl
        have hrest : ch.sent.drop (ch.taken + 1) = rest := by
          rw [← List.tail_drop, hq]
          rfl
        have hlt : ch.taken + 1 ≤ ch.sent.length := (List.getElem?_eq_some_iff.mp hfirst).1
        rw [← hrest] at hinv
        exact ⟨hinv.channel hlt, .popped rfl rfl h.noticed.symm h.arrived.symm hfirst,
          hinv.tracks hlt⟩

/-- **Every run is a run of the channel.** -/
theorem run_channel {buf : UInt64 → α} {as : List (Action α)}
    {u : Traced (System α) (Event α)}
    (h : run (traced (step c movedFrom)) ⟨System.init buf, []⟩ as = some u) :
    ∃ ch : Channel α c.capacity, Runs .new (u.trace.map Event.call) ch ∧ Tracks c u.state ch := by
  refine traced_invariant (fun s tr => ∃ ch : Channel α c.capacity,
    Runs .new (tr.map Event.call) ch ∧ Tracks c s ch) ?_ ⟨.new, .nil _, tracks_init c buf⟩ h
  intro s tr a s' es hs hstep
  obtain ⟨ch, hruns, htracks⟩ := hs
  obtain ⟨ch', hmoves, htracks'⟩ := step_moves htracks hstep
  refine ⟨ch', ?_, htracks'⟩
  rw [List.map_append]
  exact .snoc hruns hmoves

/-! ## §4. An atomic queue, to either thread. -/

/-- The calls of the producer in a record. -/
def producerCalls (tr : List (Event α)) : List (Call α) := (tr.map Event.call).filter Call.isPush

/-- The calls of the consumer in a record. -/
def consumerCalls (tr : List (Event α)) : List (Call α) := (tr.map Event.call).filter Call.isPop

theorem pushedValue_call (tr : List (Event α)) :
    (tr.map Event.call).filterMap Call.pushedValue = pushedValues tr := by
  induction tr with
  | nil => rfl
  | cons e tr ih =>
      rw [List.map_cons, List.filterMap_cons, ih]
      cases e <;> rfl

theorem poppedValue_call (tr : List (Event α)) :
    (tr.map Event.call).filterMap Call.poppedValue = poppedValues tr := by
  induction tr with
  | nil => rfl
  | cons e tr ih =>
      rw [List.map_cons, List.filterMap_cons, ih]
      cases e <;> rfl

/-- **EITHER THREAD SEES AN ATOMIC QUEUE.**  For every interleaving, with stale
loads of the other side's index: an atomic bounded queue of capacity `N - 1`
allows exactly the consumer's calls with exactly their results, pushes of a
prefix of the pushed values between them; and another one allows exactly the
producer's calls, pops of a prefix of the popped values between them. -/
theorem each_thread_sees_fifo {buf : UInt64 → α} {as : List (Action α)}
    {u : Traced (System α) (Event α)}
    (h : run (traced (step c movedFrom)) ⟨System.init buf, []⟩ as = some u) :
    (∃ (cs : List (Call α)) (q : Bounded α c.capacity) (arrived : List α),
      Calls .empty cs q ∧ cs.filter Call.isPop = consumerCalls u.trace ∧
      cs.filter Call.isPush = arrived.map .pushed ∧ arrived <+: pushedValues u.trace) ∧
    ∃ (cs : List (Call α)) (q : Bounded α c.capacity) (noticed : List α),
      Calls .empty cs q ∧ cs.filter Call.isPush = producerCalls u.trace ∧
      cs.filter Call.isPop = noticed.map .popped ∧ noticed <+: poppedValues u.trace := by
  obtain ⟨ch, hruns, -⟩ := run_channel h
  obtain ⟨hsent, htaken⟩ := hruns.record
  rw [pushedValue_call] at hsent
  rw [poppedValue_call] at htaken
  refine ⟨?_, ?_⟩
  · obtain ⟨cs, hcalls, hpops, hpushes⟩ := hruns.received
    refine ⟨cs, ch.inbox, _, hcalls, hpops, hpushes, ?_⟩
    rw [← hsent]
    exact List.take_prefix _ _
  · obtain ⟨cs, hcalls, hpushes, hpops⟩ := hruns.delivered
    refine ⟨cs, ch.outbox, _, hcalls, hpushes, hpops, ?_⟩
    rw [← htaken]
    exact List.take_prefix_take_left ch.noticed_le

/-- A `SPSCRingBuffer<T, 2>` in which the producer misses that its one value was
popped: the second push is refused, with nothing held. -/
def staleFullRun : Option (Traced (System Nat) (Event Nat)) :=
  run (traced (step ⟨2, by decide, by decide⟩ id)) ⟨System.init (fun _ => 0), []⟩
    [.pushLoadTail 10, .pushLoadHead 0, .pushWriteSlot, .pushStoreTail,
     .popLoadHead, .popLoadTail 1, .popReadSlot, .popStoreHead,
     .pushLoadTail 20, .pushLoadHead 0]

theorem staleFullRun_seen :
    ∃ u, staleFullRun = some u ∧
      (pushedValues u.trace, poppedValues u.trace, producerCalls u.trace) =
        ([10], [10], [.pushed 10, .full]) ∧
      ∃ (cs : List (Call Nat)) (q : Bounded Nat 1) (noticed : List Nat),
        Calls .empty cs q ∧ cs.filter Call.isPush = [.pushed 10, .full] ∧
        cs.filter Call.isPop = noticed.map .popped ∧ noticed <+: [10] := by
  have hvalues : staleFullRun.map (fun u =>
      (pushedValues u.trace, poppedValues u.trace, producerCalls u.trace)) =
        some ([10], [10], [.pushed 10, .full]) := by decide +kernel
  obtain ⟨u, hu, heq⟩ := Option.map_eq_some_iff.mp hvalues
  obtain ⟨-, hproducer⟩ := each_thread_sees_fifo hu
  have hparts := heq
  simp only [Prod.mk.injEq] at hparts
  obtain ⟨-, hpopped, hcalls⟩ := hparts
  rw [hpopped, hcalls] at hproducer
  exact ⟨u, hu, heq, hproducer⟩

/-! ## §5. Calls that are under way. -/

/-- The value that the producer is pushing. -/
def ProducerPc.value : ProducerPc α → Option α
  | .idle => none
  | .loadedTail val _ _ | .loadedHead val _ _ | .wrote val _ => some val

/-- The consumer is inside `pop`. -/
def ConsumerPc.busy : ConsumerPc α → Bool
  | .idle => false
  | .loadedHead _ | .loadedTail _ | .read _ _ => true

/-- Where a step leaves the two threads: inside a call, or behind one. -/
inductive Stands (s s' : System α) (a : Action α) : List (Event α) → Prop
  | inside : (∀ v, s'.producer.value = some v → s.producer.value = some v ∨ a = .pushLoadTail v) →
      (s'.consumer.busy = true → s.consumer.busy = true ∨ a = .popLoadHead) → Stands s s' a []
  | pushed {v : α} : s.producer.value = some v → s'.producer.value = none →
      s'.consumer = s.consumer → Stands s s' a [.pushed v]
  | pushFailed {v : α} {i : Nat} : a = .pushLoadHead i → s.producer.value = some v →
      s'.producer.value = none → s'.consumer = s.consumer → Stands s s' a [.pushFailed]
  | popped {out : α} : s.consumer.busy = true → s'.consumer.busy = false →
      s'.producer = s.producer → Stands s s' a [.popped out]
  | popFailed {i : Nat} : a = .popLoadTail i → s.consumer.busy = true →
      s'.consumer.busy = false → s'.producer = s.producer → Stands s s' a [.popFailed]

theorem step_stands {a : Action α} (hs : step c movedFrom s a = some (s', es)) :
    Stands s s' a es := by
  cases a with
  | pushLoadTail val =>
      simp only [step] at hs
      split at hs <;> cases hs
      exact .inside (fun v hv => .inr (by rw [Option.some.inj hv])) .inl
  | pushLoadHead i =>
      simp only [step] at hs
      split at hs
      · next hpc _ =>
          split at hs <;> cases hs
          · exact .pushFailed rfl (by rw [hpc]; rfl) rfl rfl
          · exact .inside (fun v hv => .inl (by rw [hpc]; exact hv)) .inl
      · cases hs
  | pushWriteSlot =>
      simp only [step] at hs
      split at hs <;> cases hs
      next hpc => exact .inside (fun v hv => .inl (by rw [hpc]; exact hv)) .inl
  | pushStoreTail =>
      simp only [step] at hs
      split at hs <;> cases hs
      next hpc => exact .pushed (by rw [hpc]; rfl) rfl rfl
  | popLoadHead =>
      simp only [step] at hs
      split at hs <;> cases hs
      exact .inside (fun v hv => .inl hv) (fun _ => .inr rfl)
  | popLoadTail i =>
      simp only [step] at hs
      split at hs
      · next hpc _ =>
          split at hs <;> cases hs
          · exact .popFailed rfl (by rw [hpc]; rfl) rfl rfl
          · exact .inside (fun v hv => .inl hv) (fun _ => .inl (by rw [hpc]; rfl))
      · cases hs
  | popReadSlot =>
      simp only [step] at hs
      split at hs <;> cases hs
      next hpc => exact .inside (fun v hv => .inl hv) (fun _ => .inl (by rw [hpc]; rfl))
  | popStoreHead =>
      simp only [step] at hs
      split at hs <;> cases hs
      next hpc => exact .popped (by rw [hpc]; rfl) rfl rfl

/-- A load of the other side's index sees its newest value. -/
def fresh (s : System α) : Action α → Bool
  | .pushLoadHead i => decide (s.ring.head.stores[i]? = some s.ring.head.load)
  | .popLoadTail i => decide (s.ring.tail.stores[i]? = some s.ring.tail.load)
  | _ => true

end ZeroLGR.RingBuffer
