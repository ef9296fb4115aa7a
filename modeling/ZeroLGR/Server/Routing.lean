/-
  ZeroLGR.Server.Routing — which replies find their way back.

  The identity of a client is recorded in one of the two `pending_identities`
  and looked up in the other.  The one that is searched is never written, so no
  reply is ever sent, and the one that is written never forgets.

    • `inFlight` — the requests accepted and not yet answered by an envelope,
    • `RepliesRouted` — what the two places promise together,
    • `run_drain_empty` — the searched map is empty in every reachable state,
    • `routing_iff` — a run routes its replies exactly if it pops none.
-/
import ZeroLGR.Server.IoLoop

namespace ZeroLGR.Server

open Transition Ledger

/-! ## §1. What is promised. -/

/-- An accepted request is in flight, until an envelope with its correlation id
is popped. -/
def track (inFlight : List (Uuid × Bytes)) : Event → List (Uuid × Bytes)
  | .accepted identity req => inFlight ++ [(req.correlationId, identity)]
  | .answered _ _ => inFlight
  | .drained envelope _ => inFlight.eraseP (fun p => p.1 = envelope.response.correlationId)

/-- The requests in flight, with the identities they came from. -/
def inFlight (tr : List Event) : List (Uuid × Bytes) := tr.foldl track []

theorem inFlight_append (tr es : List Event) : inFlight (tr ++ es) = es.foldl track (inFlight tr) :=
  List.foldl_append

/-- An envelope of no request in flight ends none. -/
theorem inFlight_drained {tr : List Event} {envelope : TxResponseEnvelope}
    (sends : List (Bytes × Bytes))
    (h : ∀ identity, (envelope.response.correlationId, identity) ∉ inFlight tr) :
    inFlight (tr ++ [.drained envelope sends]) = inFlight tr := by
  rw [inFlight_append]
  apply List.eraseP_of_forall_not
  intro p hp
  obtain ⟨correlationId, identity⟩ := p
  simp only [decide_eq_true_eq]
  rintro rfl
  exact h identity hp

/-- An identity is recorded under the key, in either map. -/
def Recorded (s : EngineServer) (corrKey : Bytes) : Prop :=
  corrKey ∈ s.casePendingIdentities ∨ corrKey ∈ s.drainPendingIdentities

/-- The run `acts` of a started server takes the step from `t` to `t'` and pops
`envelope` in it, for which it sends `sends`. -/
def Pops (acts : List Action) (t t' : Traced EngineServer Event) (envelope : TxResponseEnvelope)
    (sends : List (Bytes × Bytes)) : Prop :=
  (∃ a, Takes (traced step) ⟨.started, []⟩ acts t a t') ∧
    t'.trace = t.trace ++ [.drained envelope sends]

/-- **Reply routing over a run.** -/
structure RepliesRouted (acts : List Action) : Prop where
  /-- An envelope of an accepted request is sent once, to where it came from. -/
  routed : ∀ t t' envelope sends, Pops acts t t' envelope sends →
    ∀ identity, (envelope.response.correlationId, identity) ∈ inFlight t.trace →
      sends = [(identity, serializeResponse envelope.response)]
  /-- Only requests in flight have an identity recorded: it is forgotten with the reply. -/
  forgotten : ∀ t, Visits (traced step) ⟨.started, []⟩ acts t → ∀ corrKey,
    Recorded t.state corrKey → ∃ p ∈ inFlight t.trace, p.1.bytes = corrKey
  /-- So none is left when no request is in flight. -/
  none_left : ∀ t, Visits (traced step) ⟨.started, []⟩ acts t → inFlight t.trace = [] →
    ∀ corrKey, ¬ Recorded t.state corrKey

/-- No envelope of an accepted request is popped. -/
def PopsNoReply (acts : List Action) : Prop :=
  ∀ t t' envelope sends, Pops acts t t' envelope sends →
    ∀ identity, (envelope.response.correlationId, identity) ∉ inFlight t.trace

/-! ## §2. The map that is searched. -/

/-- The drain looks its keys up in a map nobody writes. -/
theorem run_drain_empty {acts : List Action} {t : Traced EngineServer Event}
    (h : Visits (traced step) ⟨.started, []⟩ acts t) : t.state.drainPendingIdentities = ∅ := by
  refine visits_of_takes (fun t => t.state.drainPendingIdentities = ∅) rfl ?_ h
  intro u a u' htakes hempty
  obtain ⟨es, hes, -⟩ := htakes.shows
  have he := step_effect hes
  generalize u'.state = s' at he ⊢
  cases he with
  | aside hsame | answer hsame =>
      rw [hsame.ofDrain]
      exact hempty
  | accept | record | drainNotFound => exact hempty
  | drainFound hpc hlookup =>
      -- nothing is found in the empty map
      rw [hempty] at hlookup
      cases hlookup

/-- **No reply is ever sent.** -/
theorem sends_eq_nil {acts : List Action} {t t' : Traced EngineServer Event}
    {envelope : TxResponseEnvelope} {sends : List (Bytes × Bytes)}
    (h : Pops acts t t' envelope sends) : sends = [] := by
  obtain ⟨⟨a, htakes⟩, htrace⟩ := h
  have hempty := run_drain_empty htakes.source
  obtain ⟨es, hes, htrace'⟩ := htakes.shows
  rw [htrace'] at htrace
  have hevents : es = [.drained envelope sends] := List.append_cancel_left htrace
  have he := step_effect hes
  rw [hevents] at he
  generalize t'.state = s' at he
  -- the map looked in is empty, so nothing is found
  cases he with
  | drainFound hpc hlookup =>
      rw [hempty] at hlookup
      cases hlookup
  | drainNotFound => rfl

/-! ## §3. The map that is written. -/

/-- Recorded identities, and the one about to be recorded, are of requests in
flight. -/
structure Remembers (s : EngineServer) (tr : List Event) : Prop where
  ofCase : ∀ corrKey ∈ s.casePendingIdentities, ∃ p ∈ inFlight tr, p.1.bytes = corrKey
  recording : ∀ identity payload, s.pc = .recordIdentity identity payload →
    ∃ p ∈ inFlight tr, p.1.bytes = (payload.drop 1).take 16

/-- **One step**, as long as it pops no reply to a request in flight. -/
theorem Remembers.step {s s' : EngineServer} {tr es : List Event} (h : Remembers s tr)
    (he : Effect s s' es)
    (hnone : ∀ envelope sends, es = [.drained envelope sends] →
      ∀ identity, (envelope.response.correlationId, identity) ∉ inFlight tr) :
    Remembers s' (tr ++ es) := by
  cases he with
  | aside hsame =>
      rw [List.append_nil]
      refine ⟨?_, ?_⟩
      · rw [hsame.ofCase]
        exact h.ofCase
      · intro identity payload hpc
        exact h.recording identity payload (hsame.recording identity payload hpc)
  | answer hsame =>
      have hflight : ∀ identity message, inFlight (tr ++ [.answered identity message]) =
          inFlight tr := fun _ _ => inFlight_append tr _
      constructor
      · rw [hflight, hsame.ofCase]
        exact h.ofCase
      · rw [hflight]
        intro identity payload hpc
        exact h.recording identity payload (hsame.recording identity payload hpc)
  | @accept q identity payload req hreq =>
      have hflight : inFlight (tr ++ [.accepted identity req]) =
          inFlight tr ++ [(req.correlationId, identity)] := inFlight_append tr _
      constructor
      · rw [hflight]
        intro corrKey hkey
        obtain ⟨p, hp, hbytes⟩ := h.ofCase corrKey hkey
        exact ⟨p, List.mem_append_left _ hp, hbytes⟩
      · -- the key is read from the message once more
        rw [hflight]
        intro identity' payload' hpc
        cases hpc
        exact ⟨_, List.mem_append_right _ (List.mem_singleton_self _),
          deserializeRequest_correlationId hreq⟩
  | @record identity payload hpc =>
      rw [List.append_nil]
      constructor
      · intro corrKey hkey
        rcases (AList.mem_insert _).mp hkey with rfl | hold
        · exact h.recording identity payload hpc
        · exact h.ofCase corrKey hold
      · intro identity' payload' hpc'
        cases hpc'
  | drainFound hpc _ | drainNotFound hpc _ =>
      constructor
      · -- the popped envelope is of no request in flight
        rw [inFlight_drained _ (hnone _ _ rfl)]
        exact h.ofCase
      · intro identity payload hpc'
        rw [show s.pc = _ from hpc'] at hpc
        cases hpc

/-- In a run that pops no reply, the identities recorded are of requests in flight. -/
theorem run_remembers {acts : List Action} (hnone : PopsNoReply acts)
    {t : Traced EngineServer Event} (h : Visits (traced step) ⟨.started, []⟩ acts t) :
    Remembers t.state t.trace := by
  refine visits_of_takes (fun t => Remembers t.state t.trace) ?_ ?_ h
  · constructor
    · intro corrKey hkey
      exact absurd hkey (AList.notMem_empty corrKey)
    · intro identity payload hpc
      cases hpc
  · intro u a u' htakes hu
    obtain ⟨es, hes, htrace⟩ := htakes.shows
    rw [htrace]
    refine hu.step (step_effect hes) ?_
    rintro envelope sends rfl
    exact hnone u u' envelope sends ⟨⟨a, htakes⟩, htrace⟩

/-! ## §4. The condition. -/

/-- **WHEN REPLIES ARE ROUTED.**  Over every run, exactly if the run pops no
envelope of an accepted request. -/
theorem routing_iff (acts : List Action) : RepliesRouted acts ↔ PopsNoReply acts := by
  constructor
  · intro h t t' envelope sends hpops identity hflight
    have hrouted := h.routed t t' envelope sends hpops identity hflight
    rw [sends_eq_nil hpops] at hrouted
    cases hrouted
  · intro hnone
    have hforgotten : ∀ t, Visits (traced step) ⟨.started, []⟩ acts t → ∀ corrKey,
        Recorded t.state corrKey → ∃ p ∈ inFlight t.trace, p.1.bytes = corrKey := by
      intro t ht corrKey hrecorded
      rcases hrecorded with hcase | hdrain
      · exact (run_remembers hnone ht).ofCase corrKey hcase
      · rw [run_drain_empty ht] at hdrain
        exact absurd hdrain (AList.notMem_empty corrKey)
    -- the first promise is about no envelope, the last about no recorded identity
    refine ⟨?_, hforgotten, ?_⟩
    · intro t t' envelope sends hpops identity hflight
      exact absurd hflight (hnone t t' envelope sends hpops identity)
    · intro t ht hempty corrKey hrecorded
      obtain ⟨p, hp, -⟩ := hforgotten t ht corrKey hrecorded
      rw [hempty] at hp
      cases hp

/-- A request with empty strings and the amount zero. -/
def smallRequest : Bytes := MSG_TX_REQUEST :: List.replicate 48 0

/-- What the engine answers to it. -/
def smallResponse : TransactionResponse :=
  ⟨Uuid.zero, Uuid.zero, .errInternal, errorMessage .errInternal, 0⟩

/-- One client sends the request, the engine answers it, the reply is drained. -/
def oneRequest : List Action :=
  [.arrive [[7], [], smallRequest]] ++ List.replicate 4 (.io [] Uuid.zero) ++
    [.engineTake, .engineReply 0 smallResponse, .io [] Uuid.zero]

/-- **The reply to a single request is dropped**, and its identity stays
recorded with no request in flight. -/
theorem oneRequest_not_routed :
    ¬ RepliesRouted oneRequest ∧
      (run (traced step) ⟨.started, []⟩ oneRequest).map
        (fun t => (t.trace.length, inFlight t.trace,
          t.state.casePendingIdentities.lookup Uuid.zero.bytes)) = some (2, [], some [7]) := by
  have hrun : (run (traced step) ⟨.started, []⟩ oneRequest).map
      (fun t => (t.trace.length, inFlight t.trace,
        t.state.casePendingIdentities.lookup Uuid.zero.bytes)) = some (2, [], some [7]) := by
    decide +kernel
  refine ⟨?_, hrun⟩
  intro h
  obtain ⟨t, ht, heq⟩ := Option.map_eq_some_iff.mp hrun
  simp only [Prod.mk.injEq] at heq
  obtain ⟨-, hflight, hlookup⟩ := heq
  have hrecorded : Recorded t.state Uuid.zero.bytes :=
    .inl (AList.lookup_isSome.mp (by rw [hlookup]; rfl))
  exact h.none_left t (visits_end ht) hflight _ hrecorded

end ZeroLGR.Server
