/-
  ZeroLGR.Gateway.Pending — what stays in `pending_requests`.

  `_send_and_wait` enters its future before it sends.  The entry goes when the
  receiver takes the answer, or in the `except` clause for the time-out.  A call
  that ends in any other way, because `send_multipart` raises or because its task
  is cancelled, leaves the entry behind.

    • `NoLeak` — every entry belongs to a call in progress,
    • `step_ends` — the ways in which a call can end,
    • `EndsAnswered` — the condition at one step: the call that ends in one of
      those ways has no entry any more,
    • `no_leak_iff` — nothing leaks in a run exactly if all its steps meet it,
    • `abandonedCalls_leak` — two calls that have ended, and both entries.
-/
import ZeroLGR.Gateway.Correlation

namespace ZeroLGR.Gateway

open Transition

/-! ## §1. Calls in progress. -/

/-- The call has neither returned nor raised. -/
def CallPc.inProgress : CallPc → Bool
  | .sending => true
  | .waiting => true
  | .expired => true
  | .returned _ => false
  | .raised => false

/-- **Pending requests do not leak.**  An entry belongs to a call in progress; a
call that has ended has none under its id, unless another call goes by the same
id; and with no call in progress there is none at all. -/
structure NoLeak (s : ZmqClient) : Prop where
  owner : ∀ (key : Bytes) (i : Nat), s.pendingRequests.lookup key = some i →
    ∃ call, s.calls[i]? = some call ∧ call.corrId = key ∧ call.pc.inProgress = true
  ended : ∀ (i : Nat) (call : Call), s.calls[i]? = some call → call.pc.inProgress = false →
    (∀ (j : Nat) (other : Call), s.calls[j]? = some other → other.corrId = call.corrId → j = i) →
      call.corrId ∉ s.pendingRequests
  empty : (∀ call ∈ s.calls, call.pc.inProgress = false) → s.pendingRequests = ∅

/-- The condition, at one step: a call whose sending fails, or whose task is
cancelled, has no entry under its id any more. -/
def EndsAnswered (s : ZmqClient) (a : ZmqClient.Action) : Prop :=
  ∀ (i : Nat) (call : Call), a = .sendFails i ∨ a = .cancel i → s.calls[i]? = some call →
    s.pendingRequests.lookup call.corrId ≠ some i

/-! ## §2. The invariant. -/

/-- An entry leads to the call that has made it, which is in progress and has no
answer yet. -/
def Awaited (s : ZmqClient) : Prop :=
  ∀ (key : Bytes) (i : Nat), s.pendingRequests.lookup key = some i →
    ∃ call, s.calls[i]? = some call ∧ call.corrId = key ∧ call.pc.inProgress = true ∧
      ∀ msg, call.future ≠ .result msg

section Invariant

variable {s s' : ZmqClient} {a : ZmqClient.Action} {es : List ZmqClient.Event}

/-- The entries are among those of before. -/
def FewerEntries (s s' : ZmqClient) : Prop :=
  ∀ key i, s'.pendingRequests.lookup key = some i → s.pendingRequests.lookup key = some i

theorem Awaited.of_calls (h : Awaited s) (hcalls : s'.calls = s.calls)
    (hfewer : FewerEntries s s') : Awaited s' := by
  intro key i hlookup
  rw [hcalls]
  exact h key i (hfewer key i hlookup)

/-- **A call moves.**  If it still has its entry, it is still in progress without
an answer. -/
theorem Awaited.set {i : Nat} {call call' : Call} (h : Awaited s) (hcall : s.calls[i]? = some call)
    (hcalls : s'.calls = s.calls.set i call') (hid : call'.corrId = call.corrId)
    (hfewer : FewerEntries s s')
    (hentry : s'.pendingRequests.lookup call.corrId = some i →
      call'.pc.inProgress = true ∧ ∀ msg, call'.future ≠ .result msg) : Awaited s' := by
  intro key j hlookup
  obtain ⟨c, hc, hkey, hprogress⟩ := h key j (hfewer key j hlookup)
  by_cases hj : i = j
  · subst hj
    rw [hcall] at hc
    cases hc
    refine ⟨call', ?_, hid.trans hkey, hentry (by rwa [hkey])⟩
    rw [hcalls, List.getElem?_set_self (List.getElem?_eq_some_iff.mp hcall).1]
  · refine ⟨c, ?_, hkey, hprogress⟩
    rw [hcalls, List.getElem?_set_ne hj]
    exact hc

/-- What the entry of a call says about it. -/
theorem Awaited.of_entry (h : Awaited s) {i : Nat} {call : Call} (hcall : s.calls[i]? = some call)
    (hlookup : s.pendingRequests.lookup call.corrId = some i) :
    call.pc.inProgress = true ∧ ∀ msg, call.future ≠ .result msg := by
  obtain ⟨c, hc, -, hprogress⟩ := h _ i hlookup
  rw [hcall] at hc
  cases hc
  exact hprogress

/-- A new call has an entry, which may take the place of another. -/
theorem Awaited.register (h : Awaited s) (corrId : Bytes) : Awaited (s.register corrId) := by
  intro key i hlookup
  by_cases hkey : key = corrId
  · subst hkey
    have hi : i = s.calls.length :=
      Option.some.inj (hlookup.symm.trans (AList.lookup_insert _))
    rw [hi]
    exact ⟨_, List.getElem?_concat_length, rfl, rfl, fun msg hmsg => (by cases hmsg)⟩
  · have hold : s.pendingRequests.lookup key = some i :=
      (AList.lookup_insert_ne hkey).symm.trans hlookup
    obtain ⟨call, hcall, hrest⟩ := h key i hold
    refine ⟨call, ?_, hrest⟩
    show (s.calls ++ _)[i]? = some call
    rw [List.getElem?_append_left (List.getElem?_eq_some_iff.mp hcall).1]
    exact hcall

/-- The receiver keeps no entry of a call whose answer it has set. -/
theorem Awaited.receive {parts : List Bytes} (h : Awaited s) (hparts : parts ≠ [])
    (hreceive : s.receive parts = .ok (s', es)) : Awaited s' := by
  obtain ⟨msg, hmsg⟩ : ∃ msg, parts.getLast? = some msg :=
    ⟨_, List.getLast?_eq_some_getLast hparts⟩
  rcases receive_cases s hmsg with hcase | ⟨-, hcase | ⟨i, call, hlookup, hcall, -, hcase⟩⟩
  · rw [hcase] at hreceive
    cases hreceive
    exact h.of_calls rfl (fun _ _ h => h)
  · rw [hcase] at hreceive
    cases hreceive
    exact h.of_calls rfl (fun _ _ => lookup_of_erase)
  · rw [hcase] at hreceive
    cases hreceive
    obtain ⟨c, hc, hkey, -⟩ := h _ i hlookup
    rw [hcall] at hc
    cases hc
    refine h.set hcall rfl rfl (fun _ _ => lookup_of_erase) (fun hentry => ?_)
    rw [hkey] at hentry
    exact absurd hentry (by simp [ZmqClient.setCall, ZmqClient.popped, AList.lookup_erase])

/-- **One step** that meets the condition. -/
theorem Awaited.step (h : Awaited s) (hstep : s.step a = some (s', es)) (hends : EndsAnswered s a) :
    Awaited s' := by
  cases a with
  | call corrId =>
      cases hstep
      exact h.register corrId
  | sent i =>
      obtain ⟨-, call, hcall, hf⟩ := move_inv hstep
      split at hf
      · cases hf
        exact h.set hcall rfl rfl (fun _ _ h => h)
          (fun hentry => ⟨rfl, (h.of_entry hcall hentry).2⟩)
      · cases hf
  | sendFails i =>
      obtain ⟨-, call, hcall, hf⟩ := move_inv hstep
      split at hf
      · cases hf
        exact h.set hcall rfl rfl (fun _ _ h => h)
          (fun hentry => absurd hentry (hends i call (.inl rfl) hcall))
      · cases hf
  | resume i =>
      obtain ⟨-, call, hcall, hf⟩ := move_inv hstep
      split at hf
      next msg hpc hfuture =>
        -- the receiver took the entry out when it set the result
        cases hf
        exact h.set hcall rfl rfl (fun _ _ h => h)
          (fun hentry => absurd hfuture ((h.of_entry hcall hentry).2 msg))
      next => cases hf
  | expire i =>
      obtain ⟨-, call, hcall, hf⟩ := move_inv hstep
      split at hf
      · cases hf
        refine h.set hcall rfl rfl (fun _ _ h => h) (fun hentry => ⟨rfl, ?_⟩)
        intro msg hmsg
        exact (h.of_entry hcall hentry).2 msg (call.future.kept_cancel.of_result msg hmsg)
      · cases hf
  | timeout i =>
      obtain ⟨-, call, hcall, hf⟩ := move_inv hstep
      split at hf
      · cases hf
        refine h.set hcall rfl rfl (fun _ _ => lookup_of_erase) (fun hentry => ?_)
        exact absurd hentry (by simp [AList.lookup_erase])
      · cases hf
  | cancel i =>
      obtain ⟨-, call, hcall, hf⟩ := move_inv hstep
      have hleft : s.pendingRequests.lookup call.corrId ≠ some i := hends i call (.inr rfl) hcall
      split at hf
      · cases hf
        exact h.set hcall rfl rfl (fun _ _ h => h) (fun hentry => absurd hentry hleft)
      · cases hf
        exact h.set hcall rfl rfl (fun _ _ h => h) (fun hentry => absurd hentry hleft)
      · cases hf
        exact h.set hcall rfl rfl (fun _ _ h => h) (fun hentry => absurd hentry hleft)
      · cases hf
  | receive m =>
      unfold ZmqClient.step at hstep
      dsimp only at hstep
      split at hstep
      · split at hstep
        next r hr =>
          cases hstep
          exact h.receive m.sent hr
        next e he =>
          cases hstep
          exact h.of_calls rfl (fun _ _ h => h)
      · cases hstep
  | disconnect =>
      unfold ZmqClient.step at hstep
      dsimp only at hstep
      split at hstep
      · cases hstep
        exact h.of_calls rfl (fun _ _ h => h)
      · cases hstep

/-- **Entries that are awaited do not leak.** -/
theorem Awaited.noLeak (h : Awaited s) : NoLeak s := by
  refine ⟨?_, ?_, ?_⟩
  · intro key i hlookup
    obtain ⟨call, hcall, hkey, hprogress, -⟩ := h key i hlookup
    exact ⟨call, hcall, hkey, hprogress⟩
  · intro i call hcall hended halone hmem
    obtain ⟨j, hj⟩ := Option.isSome_iff_exists.mp (AList.lookup_isSome.mpr hmem)
    obtain ⟨other, hother, hkey, hprogress, -⟩ := h _ j hj
    have hij : j = i := halone j other hother hkey
    rw [hij, hcall] at hother
    cases hother
    rw [hended] at hprogress
    cases hprogress
  · intro hended
    refine AList.ext (List.eq_nil_iff_forall_not_mem.mpr ?_)
    intro entry hentry
    obtain ⟨call, hcall, -, hprogress, -⟩ := h _ _ (AList.mem_lookup_iff.mpr hentry)
    rw [hended call (List.mem_of_getElem? hcall)] at hprogress
    cases hprogress

/-- A call that ends without its answer leaves the entries alone. -/
theorem ends_keeps {i : Nat} (ha : a = .sendFails i ∨ a = .cancel i)
    (hstep : s.step a = some (s', es)) :
    s'.pendingRequests = s.pendingRequests ∧
      ∃ call', s'.calls[i]? = some call' ∧ call'.pc = .raised := by
  have hraised : ∀ {call call' : Call}, s.calls[i]? = some call → call'.pc = .raised →
      (s.setCall i call').pendingRequests = s.pendingRequests ∧
        ∃ c, (s.setCall i call').calls[i]? = some c ∧ c.pc = .raised := by
    intro call call' hcall hpc
    exact ⟨rfl, call', List.getElem?_set_self (List.getElem?_eq_some_iff.mp hcall).1, hpc⟩
  rcases ha with rfl | rfl
  · obtain ⟨-, call, hcall, hf⟩ := move_inv hstep
    split at hf
    · cases hf
      exact hraised hcall rfl
    · cases hf
  · obtain ⟨-, call, hcall, hf⟩ := move_inv hstep
    split at hf
    · cases hf
      exact hraised hcall rfl
    · cases hf
      exact hraised hcall rfl
    · cases hf
      exact hraised hcall rfl
    · cases hf

/-- **A step that misses the condition leaks**: the call has ended, and its entry
is still there. -/
theorem not_noLeak_of_ends (hstep : s.step a = some (s', es)) (hends : ¬ EndsAnswered s a) :
    ¬ NoLeak s' := by
  intro hleak
  refine hends ?_
  intro i call ha hcall hentry
  obtain ⟨hpending, call', hcall', hraised⟩ := ends_keeps ha hstep
  rw [← hpending] at hentry
  obtain ⟨owner, howner, -, hin⟩ := hleak.owner _ i hentry
  rw [hcall'] at howner
  cases howner
  rw [hraised] at hin
  cases hin

end Invariant

/-! ## §3. All runs. -/

/-- **WHEN NOTHING LEAKS.**  In every run: nothing leaks in any of its states
exactly if no call whose sending fails, or whose task is cancelled, still has its
entry. -/
theorem no_leak_iff (acts : List ZmqClient.Action) :
    (∀ t, Visits (traced ZmqClient.step) ⟨.connected, []⟩ acts t → NoLeak t.state) ↔
      ∀ t a t', Takes (traced ZmqClient.step) ⟨.connected, []⟩ acts t a t' →
        EndsAnswered t.state a := by
  constructor
  · intro hleak t a t' htakes
    by_contra hends
    obtain ⟨es, hes, -⟩ := htakes.shows
    exact not_noLeak_of_ends hes hends (hleak t' htakes.target)
  · intro hends t hvisits
    have hnone : Awaited .connected := fun key i hlookup =>
      absurd hlookup (by simp [ZmqClient.connected])
    refine Awaited.noLeak (traced_of_takes (fun s _ => Awaited s) hnone ?_ hvisits)
    intro u a u' es htakes hes hawaited
    exact hawaited.step hes (hends u a u' htakes)

/-- Two calls: the socket raises on the first, the second waits and is cancelled. -/
def abandonedCalls : List ZmqClient.Action :=
  [.call (List.replicate 16 1), .sendFails 0, .call (List.replicate 16 2), .sent 1, .cancel 1]

/-- **Both entries stay**, with no call in progress. -/
theorem abandonedCalls_leak :
    ∃ t, Visits (traced ZmqClient.step) ⟨.connected, []⟩ abandonedCalls t ∧
      t.state.calls.map Call.pc = [.raised, .raised] ∧
      t.state.pendingRequests.keys = [List.replicate 16 2, List.replicate 16 1] ∧
      ¬ NoLeak t.state := by
  have hrun : (run (traced ZmqClient.step) ⟨.connected, []⟩ abandonedCalls).map
      (fun t => (t.state.calls.map Call.pc, t.state.pendingRequests.keys)) =
        some ([.raised, .raised], [List.replicate 16 2, List.replicate 16 1]) := by
    decide +kernel
  obtain ⟨t, ht, heq⟩ := Option.map_eq_some_iff.mp hrun
  obtain ⟨hpcs, hkeys⟩ := Prod.mk.inj heq
  refine ⟨t, visits_end ht, hpcs, hkeys, ?_⟩
  intro hleak
  have hended : ∀ call ∈ t.state.calls, call.pc.inProgress = false := by
    intro call hcall
    have hmem : call.pc ∈ [CallPc.raised, .raised] := hpcs ▸ List.mem_map_of_mem hcall
    have hpc : call.pc = .raised := by simpa using hmem
    rw [hpc]
    rfl
  rw [hleak.empty hended] at hkeys
  cases hkeys

end ZeroLGR.Gateway
