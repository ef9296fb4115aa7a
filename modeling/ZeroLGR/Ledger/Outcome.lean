/-
  ZeroLGR.Ledger.Outcome — what a reply says about its key.

  A reply carries the outcome that is settled for the key of its request, and
  what is settled stays.  A key that is settled with a rejection is never
  applied, neither before nor after.

    • `Origin` — where replies and responses come from,
    • `Confirms` — an applied request settles its key with OK,
    • `Rejected`, `not_applied_of_rejected` — a rejected key is never applied,
    • `OutOfReach` — neither is one that no request is left of,
    • `reply_origin` — a reply, its request, and the outcome they share,
    • `applied_submitted` — what is applied was pushed before.
-/
import ZeroLGR.Ledger.Idempotency
import ZeroLGR.Ledger.Traffic

namespace ZeroLGR.Ledger

open Transition

/-! ## §1. Where replies come from. -/

/-- Replies are responses that were built, for requests that were popped. -/
structure Origin (s : LedgerEngine) (tr : List Event) : Prop where
  hand : ∀ req ∈ s.pc.inHand, req ∈ popped tr
  built : ∀ b ∈ responses tr, b.1 ∈ popped tr
  ready : ∀ resp, s.pc.ready = some resp → ∃ req, (req, resp) ∈ responses tr
  pushed : ∀ resp ∈ replied tr, ∃ req, (req, resp) ∈ responses tr

/-- The key is settled, and not with OK. -/
def Rejected (s : LedgerEngine) (key : Bytes) : Prop :=
  ∃ r, settled s key = some r ∧ r.status ≠ .ok

instance (s : LedgerEngine) (key : Bytes) : Decidable (Rejected s key) :=
  decidable_of_iff ((settled s key).any (fun r => r.status ≠ .ok) = true)
    (by simp [Rejected, Option.any_eq_true])

/-- The request in hand, as long as it may be applied. -/
def Pc.pending : Pc → List TransactionRequest
  | .findCached req => [req]
  | .validate req => [req]
  | .generateUuid req _ => [req]
  | .appendWal req _ _ => [req]
  | .applyTransaction req _ _ => [req]
  | _ => []

/-- No request with the key was applied, and none is left that may be. -/
structure OutOfReach (s : LedgerEngine) (tr : List Event) (key : Bytes) : Prop where
  waiting : ∀ req ∈ s.requestQueue.items, req.idempotencyKey ≠ key
  pending : ∀ req ∈ s.pc.pending, req.idempotencyKey ≠ key
  applied : ∀ req ∈ applied tr, req.idempotencyKey ≠ key

instance (s : LedgerEngine) (tr : List Event) (key : Bytes) : Decidable (OutOfReach s tr key) :=
  decidable_of_iff
    ((∀ req ∈ s.requestQueue.items, req.idempotencyKey ≠ key) ∧
      (∀ req ∈ s.pc.pending, req.idempotencyKey ≠ key) ∧
        ∀ req ∈ Ledger.applied tr, req.idempotencyKey ≠ key)
    ⟨fun h => ⟨h.1, h.2.1, h.2.2⟩, fun h => ⟨h.waiting, h.pending, h.applied⟩⟩

/-- An applied request has settled its key with OK, or is about to. -/
def Confirms (s : LedgerEngine) (tr : List Event) : Prop :=
  ∀ req ∈ applied tr, req.idempotencyKey ≠ [] →
    (∃ r, settled s req.idempotencyKey = some r ∧ r.status = .ok) ∨
      ∃ req' tStart txId, s.pc = .buildResponse req' tStart txId .ok ∧
        req'.idempotencyKey = req.idempotencyKey

section Steps

variable {s s' : LedgerEngine} {a : Action} {tr es : List Event}

/-- A step that builds for the request in hand and pushes what is ready. -/
theorem Origin.extend (h : Origin s tr)
    (hhand : ∀ req ∈ s'.pc.inHand, req ∈ s.pc.inHand ∨ req ∈ popped es)
    (hbuilt : ∀ b ∈ responses es, b.1 ∈ s.pc.inHand)
    (hready : ∀ resp, s'.pc.ready = some resp →
      s.pc.ready = some resp ∨ ∃ req, (req, resp) ∈ responses es)
    (hpushed : ∀ resp ∈ replied es, s.pc.ready = some resp) : Origin s' (tr ++ es) := by
  have hold : ∀ {resp}, (∃ req, (req, resp) ∈ responses tr) →
      ∃ req, (req, resp) ∈ responses (tr ++ es) := by
    intro resp hresp
    obtain ⟨req, hreq⟩ := hresp
    exact ⟨req, by rw [responses_append]; exact List.mem_append_left _ hreq⟩
  constructor
  · intro req hreq
    rw [popped_append]
    rcases hhand req hreq with hbefore | hnew
    · exact List.mem_append_left _ (h.hand req hbefore)
    · exact List.mem_append_right _ hnew
  · intro b hb
    rw [responses_append] at hb
    rw [popped_append]
    rcases List.mem_append.mp hb with hbefore | hnew
    · exact List.mem_append_left _ (h.built b hbefore)
    · exact List.mem_append_left _ (h.hand b.1 (hbuilt b hnew))
  · intro resp hresp
    rcases hready resp hresp with hbefore | hnew
    · exact hold (h.ready resp hbefore)
    · obtain ⟨req, hreq⟩ := hnew
      exact ⟨req, by rw [responses_append]; exact List.mem_append_right _ hreq⟩
  · intro resp hresp
    rw [replied_append] at hresp
    rcases List.mem_append.mp hresp with hbefore | hnew
    · exact hold (h.pushed resp hbefore)
    · exact hold (h.ready resp (hpushed resp hnew))

@[simp] theorem responses_nil : responses [] = [] := rfl
@[simp] theorem replied_nil : replied [] = [] := rfl
@[simp] theorem responses_one (e : Event) : responses [e] = e.asResponse.toList := filterMap_one _ e

/-- **One step.** -/
theorem Origin.step (h : Origin s tr) (he : Effect s a s' es) : Origin s' (tr ++ es) := by
  cases he with
  | aside hside =>
      obtain ⟨-, -, -, -, -, -, -, hresponses⟩ := hside.silent.lists
      have hreplied : replied es = [] := hside.silent.filterMap (by
        intro e he
        cases e <;> first | rfl | cases he)
      have hhand : s'.pc.inHand = s.pc.inHand := hside.view (d := []) (by
        intro pc hidle
        cases pc <;> first | rfl | cases hidle)
      have hready : s'.pc.ready = s.pc.ready := hside.view (d := none) (by
        intro pc hidle
        cases pc <;> first | rfl | cases hidle)
      refine h.extend ?_ ?_ ?_ ?_
      · rw [hhand]
        exact fun _ hreq => .inl hreq
      · rw [hresponses]
        exact fun _ hb => absurd hb List.not_mem_nil
      · rw [hready]
        exact fun _ hresp => .inl hresp
      · rw [hreplied]
        exact fun _ hresp => absurd hresp List.not_mem_nil
  | @replyCached now os req resp q pushed hpc | @reply now os req resp q pushed hpc =>
      refine h.extend ?_ ?_ ?_ ?_ <;> rw [hpc]
      · simp [Pc.inHand]
      · simp [Event.asResponse]
      · simp [Pc.ready]
      · -- whether it fits or not, it is the response that was ready
        cases pushed <;> simp [Event.asReplied, Pc.ready]
  | pop hpc | hit hpc | miss hpc | accept hpc | reject hpc | drawTxId hpc | append hpc
  | appendThrows hpc | apply hpc | build hpc | cache hpc | noCache hpc =>
      refine h.extend ?_ ?_ ?_ ?_ <;> rw [hpc] <;>
        simp [Pc.inHand, Pc.ready, Event.asPopped, Event.asResponse, Event.asReplied]
  | drawAccountId | commitAccount =>
      refine h.extend (fun _ hreq => .inl hreq) ?_ (fun _ hresp => .inl hresp) ?_ <;>
        simp [Event.asResponse, Event.asReplied]

/-! ## §2. Keys that are not applied. -/

theorem Confirms.keep (h : Confirms s tr) (habsent : KeyAbsent s) (he : Effect s a s' es)
    (happlied : applied es = [])
    (hpc : ∀ req tStart txId, s.pc = .buildResponse req tStart txId .ok →
      s'.pc = .buildResponse req tStart txId .ok) : Confirms s' (tr ++ es) := by
  intro req hreq hkey
  rw [applied_append, happlied, List.append_nil] at hreq
  rcases h req hreq hkey with ⟨r, hr, hok⟩ | ⟨req', tStart, txId, hbuild, heq⟩
  · exact .inl ⟨r, he.settled_stable habsent hkey hr, hok⟩
  · exact .inr ⟨req', tStart, txId, hpc req' tStart txId hbuild, heq⟩

theorem Confirms.step (h : Confirms s tr) (habsent : KeyAbsent s) (he : Effect s a s' es) :
    Confirms s' (tr ++ es) := by
  have he' := he
  cases he' with
  | aside hside =>
      obtain ⟨-, -, -, -, -, happlied, -, -⟩ := hside.silent.lists
      refine h.keep habsent he happlied ?_
      intro req tStart txId hpc
      rcases hside.idle with hsame | ⟨hidle, -⟩
      · rw [hsame, hpc]
      · rw [hpc] at hidle
        cases hidle
  | pop hpc | hit hpc | miss hpc | replyCached hpc | accept hpc | reject hpc | drawTxId hpc
  | append hpc | appendThrows hpc | cache hpc | noCache hpc | reply hpc =>
      refine h.keep habsent he rfl ?_
      intro req tStart txId hbuild
      rw [hpc] at hbuild
      cases hbuild
  | @apply now os req tStart txId hpc =>
      intro req' hreq' hkey
      rw [applied_append] at hreq'
      rcases List.mem_append.mp hreq' with hbefore | hnew
      · rcases h req' hbefore hkey with ⟨r, hr, hok⟩ | ⟨_, _, _, hbuild, -⟩
        · exact .inl ⟨r, he.settled_stable habsent hkey hr, hok⟩
        · rw [hpc] at hbuild
          cases hbuild
      · rw [List.mem_singleton.mp hnew]
        exact .inr ⟨req, tStart, txId, rfl, rfl⟩
  | @build now os req tStart txId status resp hpc _ _ hstatus _ =>
      intro req' hreq' hkey
      rw [applied_append] at hreq'
      have hbefore : req' ∈ applied tr := by simpa [applied, Event.asApplied] using hreq'
      rcases h req' hbefore hkey with ⟨r, hr, hok⟩ | ⟨req₀, _, _, hbuild, heq⟩
      · exact .inl ⟨r, he.settled_stable habsent hkey hr, hok⟩
      · -- the response that was to be built settles the key
        rw [hpc] at hbuild
        cases hbuild
        have hlookup := habsent.inHand req (by rw [hpc]; rfl)
        refine .inl ⟨resp, ?_, hstatus⟩
        unfold settled
        rw [← heq, hlookup]
        exact if_pos rfl
  | drawAccountId | commitAccount => exact h.keep habsent he rfl (fun _ _ _ hpc => hpc)

/-- A rejection is not taken back. -/
theorem Rejected.stable {key : Bytes} (h : Rejected s key) (habsent : KeyAbsent s)
    (he : Effect s a s' es) (hkey : key ≠ []) : Rejected s' key := by
  obtain ⟨r, hr, hbad⟩ := h
  exact ⟨r, he.settled_stable habsent hkey hr, hbad⟩

/-- **A rejected key is never applied.** -/
theorem not_applied_of_rejected {key : Bytes} (h : Rejected s key) (hkey : key ≠ [])
    (habsent : KeyAbsent s) (hconfirms : Confirms s tr) :
    ∀ req ∈ applied tr, req.idempotencyKey ≠ key := by
  rintro req hreq rfl
  obtain ⟨r, hr, hbad⟩ := h
  rcases hconfirms req hreq hkey with ⟨r', hr', hok⟩ | ⟨req', tStart, txId, hpc, heq⟩
  · rw [hr] at hr'
    cases hr'
    exact hbad hok
  · -- while the response is built, its key is not settled
    have hlookup := habsent.inHand req' (by rw [hpc]; rfl)
    rw [settled_of_cache (by rw [hpc]; rfl), ← heq, hlookup] at hr
    cases hr

/-- A step of a thread that takes up no request with the key. -/
theorem OutOfReach.extend {key : Bytes} (h : OutOfReach s tr key)
    (hwaiting : ∀ req ∈ s'.requestQueue.items, req ∈ s.requestQueue.items ∨ req ∈ submitted es)
    (hpending : ∀ req ∈ s'.pc.pending, req ∈ s.pc.pending ∨ req ∈ s.requestQueue.items)
    (happlied : ∀ req ∈ Ledger.applied es, req ∈ s.pc.pending)
    (hsubmitted : ∀ req ∈ submitted es, req.idempotencyKey ≠ key) :
    OutOfReach s' (tr ++ es) key := by
  constructor
  · intro req hreq
    rcases hwaiting req hreq with hold | hnew
    · exact h.waiting req hold
    · exact hsubmitted req hnew
  · intro req hreq
    rcases hpending req hreq with hold | hpopped
    · exact h.pending req hold
    · exact h.waiting req hpopped
  · intro req hreq
    rw [applied_append] at hreq
    rcases List.mem_append.mp hreq with hold | hnew
    · exact h.applied req hold
    · exact h.pending req (happlied req hnew)

/-- **A key stays out of reach** until a request with it is pushed. -/
theorem OutOfReach.step {key : Bytes} (h : OutOfReach s tr key) (he : Effect s a s' es)
    (hsubmitted : ∀ req ∈ submitted es, req.idempotencyKey ≠ key) :
    OutOfReach s' (tr ++ es) key := by
  cases he with
  | aside hside =>
      obtain ⟨-, -, -, -, -, happlied, -, -⟩ := hside.silent.lists
      have hpending : s'.pc.pending = s.pc.pending := hside.view (d := []) (by
        intro pc hidle
        cases pc <;> first | rfl | cases hidle)
      refine h.extend ?_ (by rw [hpending]; exact fun _ hreq => .inl hreq)
        (by rw [happlied]; exact fun _ hreq => absurd hreq List.not_mem_nil) hsubmitted
      intro req hreq
      cases hside with
      | @submit req' q hq =>
          rw [Fifo.Bounded.enqueue_eq_some hq] at hreq
          exact List.mem_append.mp hreq
      | enterLoop | leaveLoop | queueEmpty | countTotal | countWindow | addLatency | takeReply
      | snapshot | getMetricsSample | loadWindow | loadLatency | sample | resetMetricsWindow
      | storeLatency | shutdown => exact .inl hreq
  | @pop _ _ req q hpc hq =>
      have hitems := Fifo.Bounded.dequeue_eq_some hq
      refine h.extend ?_ ?_ (fun _ hreq => absurd hreq List.not_mem_nil) hsubmitted
      · intro req' hreq'
        rw [hitems]
        exact .inl (List.mem_cons_of_mem _ hreq')
      · intro req' hreq'
        rw [hitems, List.mem_singleton.mp hreq']
        exact .inr List.mem_cons_self
  | hit hpc | miss hpc | replyCached hpc | accept hpc | reject hpc | drawTxId hpc | append hpc
  | appendThrows hpc | apply hpc | build hpc | cache hpc | noCache hpc | reply hpc =>
      refine h.extend (fun _ hreq => .inl hreq) ?_ ?_ hsubmitted <;> rw [hpc] <;>
        simp [Pc.pending, Ledger.applied, Event.asApplied]
  | drawAccountId | commitAccount =>
      exact h.extend (fun _ hreq => .inl hreq) (fun _ hreq => .inl hreq)
        (fun _ hreq => absurd hreq List.not_mem_nil) hsubmitted

end Steps

/-! ## §3. Runs. -/

section Runs

variable {w : Wal.WriteAheadLog} {acts : List Action} {t : Traced LedgerEngine Event}

theorem run_origin (h : runEngine (.init w) acts = some t) : Origin t.state t.trace := by
  refine traced_invariant Origin ?_ ?_ h
  · intro s tr a s' es hs hstep
    exact hs.step (step_effect hstep)
  · constructor <;> intro _ hmem <;> cases hmem

theorem run_confirms (h : runEngine (.init w) acts = some t) : Confirms t.state t.trace := by
  have hinv : KeyAbsent t.state ∧ Confirms t.state t.trace := by
    refine traced_invariant (fun s tr => KeyAbsent s ∧ Confirms s tr) ?_ ?_ h
    · intro s tr a s' es hs hstep
      obtain ⟨habsent, hconfirms⟩ := hs
      have he := step_effect hstep
      exact ⟨habsent.step he, hconfirms.step habsent he⟩
    · refine ⟨(once_init w).absent, ?_⟩
      intro req hreq
      cases hreq
  exact hinv.2

/-- **A reply and its request.**  The request was pushed; the reply has its
correlation id and the status settled for its key. -/
theorem reply_origin (h : runEngine (.init w) acts = some t) {resp : TransactionResponse}
    (hresp : resp ∈ replied t.trace) :
    ∃ req ∈ submitted t.trace, resp.correlationId = req.correlationId ∧
      (req.idempotencyKey ≠ [] →
        ∃ r, settled t.state req.idempotencyKey = some r ∧ r.status = resp.status) := by
  have horigin := run_origin h
  have houtcome := (run_once h).outcome
  obtain ⟨req, hreq⟩ := horigin.pushed resp hresp
  have hsubmitted : req ∈ submitted t.trace := by
    rw [(run_traffic h).requests]
    exact List.mem_append_left _ (horigin.built _ hreq)
  refine ⟨req, hsubmitted, houtcome.own _ hreq, ?_⟩
  intro hkey
  obtain ⟨r, hr, hsame⟩ := houtcome.agrees _ hreq hkey
  exact ⟨r, hr, hsame.status.symm⟩

/-- **What is applied was pushed before.** -/
theorem applied_submitted (h : runEngine (.init w) acts = some t) :
    ∀ req ∈ applied t.trace, req ∈ submitted t.trace := by
  intro req hreq
  have hbooks := run_bookkeeping h
  have hlogged : req ∈ (logged t.trace).map LogEntry.req := by
    rw [hbooks.logged_eq]
    exact List.mem_append_left _ hreq
  have haccepted : req ∈ accepted t.trace := by
    rw [hbooks.accepted_eq]
    exact List.mem_append_left _ hlogged
  have hpopped : req ∈ popped t.trace := by
    rw [hbooks.popped_eq]
    obtain ⟨e, he, hreq⟩ := List.mem_filterMap.mp haccepted
    have hdecided : (req, some .ok) ∈ decided t.trace := by
      refine List.mem_filterMap.mpr ⟨e, he, ?_⟩
      unfold Event.asAccepted at hreq
      split at hreq
      · cases hreq
        rfl
      · cases hreq
    exact List.mem_append_left _ (List.mem_map_of_mem (f := Prod.fst) hdecided)
  rw [(run_traffic h).requests]
  exact List.mem_append_left _ hpopped

end Runs

end ZeroLGR.Ledger
