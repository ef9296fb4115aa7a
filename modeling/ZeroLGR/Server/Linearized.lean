/-
  ZeroLGR.Server.Linearized — from loads and stores to the bank.

  The program runs two threads over two lock-free ring buffers, and serves its
  clients as if it were the sequential bank.  The engine does not notice the ring
  buffers, and an engine with atomic queues is linearizable; what the engine
  records of its own steps is the same in both.

    • `own_filterMap`, `SameRecord` — what the two records have in common,
    • `ServesAsBank` — linearizable, from the push of a request to the pop of its
      reply,
    • `buffered_linearizable` — the statement for the two threads.
-/
import ZeroLGR.Ledger.Linearizable
import ZeroLGR.Ledger.Outcome
import ZeroLGR.Server.Buffered

namespace ZeroLGR.Server.Buffered

open Transition Ledger

/-! ## §1. The record of the engine. -/

/-- A list of the engine's own events does not depend on the other ends of the
queues. -/
theorem own_filterMap {β : Type} {f : Ledger.Event → Option β}
    (hf : ∀ e, isOwn e = true ∨ f e = none) (etr : List Ledger.Event) :
    (etr.filter isOwn).filterMap f = etr.filterMap f := by
  induction etr with
  | nil => rfl
  | cons e etr ih =>
      by_cases hown : isOwn e = true
      · rw [List.filter_cons_of_pos hown, List.filterMap_cons, List.filterMap_cons, ih]
      · rw [List.filter_cons_of_neg hown, List.filterMap_cons, (hf e).resolve_left hown, ih]

/-- The lists that two records with the same own events share. -/
structure SameRecord (tr etr : List Ledger.Event) : Prop where
  popped : popped tr = popped etr
  responses : responses tr = responses etr
  history : history tr = history etr

theorem sameRecord_of_own {tr etr : List Ledger.Event} (h : etr.filter isOwn = tr.filter isOwn) :
    SameRecord tr etr := by
  have hlist : ∀ {β : Type} {f : Ledger.Event → Option β}, (∀ e, isOwn e = true ∨ f e = none) →
      tr.filterMap f = etr.filterMap f := by
    intro β f hf
    rw [← own_filterMap hf, ← h, own_filterMap hf]
  constructor <;> refine hlist ?_ <;> intro e <;>
    cases e <;> first | exact .inl rfl | exact .inr rfl

/-! ## §2. The program. -/

/-- **The program serves its clients as the bank.** -/
structure ServesAsBank (t : Traced Buffered Process.Event) : Prop where
  /-- The calls, in the order in which they count, are calls at the bank. -/
  linearizable : Linearizable t.state.process.engine (Process.engineTrace t.trace)
  /-- Requests are popped in the order in which the I/O thread pushed them. -/
  served : popped (Process.engineTrace t.trace) <+: submitted (Process.engineTrace t.trace)
  /-- A reply that the I/O thread pops says what the bank said to a request with
  its correlation id, which was popped before. -/
  taken : ∀ resp ∈ taken (Process.engineTrace t.trace),
    ∃ req ∈ popped (Process.engineTrace t.trace), req.correlationId = resp.correlationId ∧
      .answer req resp.verdict ∈ history (Process.engineTrace t.trace)

section Runs

variable {movedRequest : TransactionRequest → TransactionRequest}
  {movedEnvelope : TxResponseEnvelope → TxResponseEnvelope}
  {requestSlots : UInt64 → TransactionRequest} {replySlots : UInt64 → TxResponseEnvelope}
  {wal : Wal.WriteAheadLog} {acts : List Action} {t : Traced Buffered Process.Event}

/-- **FROM LOADS AND STORES TO THE BANK.**  For every interleaving of the single
loads and stores of the two threads, with stale loads, and in every state it
reaches, until the counter wraps. -/
theorem buffered_linearizable
    (h : runBuffered movedRequest movedEnvelope requestSlots replySlots wal acts = some t)
    (hk : t.state.process.engine.uuidCounter ≤ 2 ^ 64) : ServesAsBank t := by
  obtain ⟨requests, replies, etr, hsim⟩ := run_simulation h
  obtain ⟨bs, hbs⟩ := hsim.engine
  have hsame := sameRecord_of_own hsim.own
  obtain ⟨b, hpath, hagrees⟩ := run_agrees hbs hk
  obtain ⟨hinvoked, hreturned⟩ := run_counted hbs
  have hown := (run_once hbs).outcome.own
  have hcounted : Ledger.counted (Process.engineTrace t.trace) = Ledger.counted etr := by
    unfold Ledger.counted
    rw [hsame.history]
  refine ⟨⟨⟨b, ?_, hagrees.accounts⟩, ?_, ?_, ?_⟩, ?_, ?_⟩
  · rw [hsame.history]
    exact hpath
  · rw [hsame.popped, hcounted]
    exact hinvoked
  · rw [hcounted, hsame.responses]
    exact hreturned
  · rw [hsame.responses]
    exact hown
  · rw [hsame.popped]
    have harrived : popped etr <+: submitted etr := by
      rw [(run_traffic hbs).requests]
      exact List.prefix_append _ _
    refine harrived.trans ?_
    rw [hsim.arrived, hsim.sent]
    exact List.take_prefix _ _
  · intro resp hresp
    -- what was taken was pushed by the engine, which built it for a request
    have hreplied : resp ∈ replied etr := by
      rw [replied_eq_sent hsim]
      rw [hsim.drained] at hresp
      exact ((List.take_sublist _ _).map _).subset hresp
    obtain ⟨req, hbuilt⟩ := (run_origin hbs).pushed resp hreplied
    refine ⟨req, ?_, (hown _ hbuilt).symm, ?_⟩
    · rw [hsame.popped]
      exact (run_origin hbs).built _ hbuilt
    · rw [hsame.history, ← mem_counted, hreturned]
      exact List.mem_append_left _ (List.mem_map.mpr ⟨(req, resp), hbuilt, rfl⟩)

end Runs

/-- The request of `staleRoundTrip` is served: its reply was popped. -/
theorem staleRoundTrip_serves :
    ∃ t, runBuffered id id (fun _ => Process.smallParsed) (fun _ => smallReply) newLog
        staleRoundTrip = some t ∧
      taken (Process.engineTrace t.trace) = [smallResponse] ∧ ServesAsBank t := by
  have hrun : (runBuffered id id (fun _ => Process.smallParsed) (fun _ => smallReply) newLog
      staleRoundTrip).map (fun t => (taken (Process.engineTrace t.trace),
        t.state.process.engine.uuidCounter)) = some ([smallResponse], 0) := by
    decide +kernel
  obtain ⟨t, ht, hboth⟩ := Option.map_eq_some_iff.mp hrun
  obtain ⟨htaken, hcounter⟩ := Prod.mk.inj hboth
  exact ⟨t, ht, htaken, buffered_linearizable ht (by rw [hcounter]; decide)⟩

end ZeroLGR.Server.Buffered
