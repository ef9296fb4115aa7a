/-
  ZeroLGR.Gateway.Reversal — a refund is booked only after the charge.

  The webhook `charge.refunded` books the reversal of a charge and does not ask
  whether the charge was booked.  A refund of Stripe that compensates a charge
  the engine has rejected comes back as such a webhook, under a key of its own.

    • `Reversed`, `ReversesCredits` — what is promised,
    • `CreditFirst` — the credit is applied before the reversal is sent,
    • `reversal_after_credit` — then a reversal is applied only after its credit.
-/
import ZeroLGR.Gateway.Atomicity

namespace ZeroLGR.Gateway

open Transition Ledger Server

/-! ## §1. What is promised. -/

/-- The reversal of the charge was applied in the ledger. -/
def Reversed (tr : List Event) (id : String) : Prop :=
  ∃ req ∈ applied (ledgerTrace tr), req.idempotencyKey = encodeUtf8 (reversalKey id)

/-- **A reversal undoes only what was booked.** -/
def ReversesCredits (tr : List Event) : Prop := ∀ id, Reversed tr id → Credited tr id

/-- A transfer with the key of a reversal is sent only when the credit of its
charge was applied. -/
def CreditFirst (settings : Settings) (wal : Wal.WriteAheadLog) (acts : List Action) : Prop :=
  ∀ t i corrId fails t',
    Takes (traced (step settings)) ⟨.started wal, []⟩ acts t (.send i corrId fails) t' →
    ∀ job id, t.state.tasks[i]? = some ⟨job, .send⟩ →
      (job.args settings).idempotencyKey = reversalKey id → Credited t.trace id

/-! ## §2. The invariant. -/

/-- What was applied stays on record. -/
theorem applied_mono {tr : List Event} {key : Bytes}
    (h : ∃ req ∈ applied (ledgerTrace tr), req.idempotencyKey = key) (es : List Event) :
    ∃ req ∈ applied (ledgerTrace (tr ++ es)), req.idempotencyKey = key := by
  obtain ⟨req, hreq, hkey⟩ := h
  refine ⟨req, ?_, hkey⟩
  rw [ledgerTrace_append, applied_append]
  exact List.mem_append_left _ hreq

theorem Credited.mono {tr : List Event} {id : String} (h : Credited tr id) (es : List Event) :
    Credited (tr ++ es) id := applied_mono h es

theorem Reversed.mono {tr : List Event} {id : String} (h : Reversed tr id) (es : List Event) :
    Reversed (tr ++ es) id := applied_mono h es

/-- What was sent with the key of a reversal has its credit. -/
def Covered (s : System) (tr : List Event) : Prop :=
  ∀ c ∈ s.sent, ∀ id, c.2.idempotencyKey = reversalKey id → Credited tr id

section Steps

variable {settings : Settings} {s s' : System} {a : Action} {tr es : List Event}

/-- Transfers are sent by the coroutines that are about to. -/
theorem Effect.sent (he : Effect settings s a s' es) :
    s'.sent = s.sent ∨ ∃ i corrId fails job, a = .send i corrId fails ∧
      s.tasks[i]? = some ⟨job, .send⟩ ∧ s'.sent = s.sent ++ [(corrId, job.args settings)] := by
  cases he with
  | @send i corrId fails job msg htask _ _ => exact .inr ⟨i, corrId, fails, job, rfl, htask, rfl⟩
  | @sendFails i corrId fails job htask _ => exact .inr ⟨i, corrId, fails, job, rfl, htask, rfl⟩
  | ledger | submit | refuse | drain | lose | start | note | receive | timeout | broadcast
  | refund => exact .inl rfl

/-- **One step**, as long as the credit comes first. -/
theorem Covered.step (h : Covered s tr) (he : Effect settings s a s' es)
    (hfirst : ∀ i corrId fails, a = .send i corrId fails → ∀ job id,
      s.tasks[i]? = some ⟨job, .send⟩ → (job.args settings).idempotencyKey = reversalKey id →
        Credited tr id) : Covered s' (tr ++ es) := by
  intro c hc id hkey
  rcases he.sent with hsame | ⟨i, corrId, fails, job, ha, htask, hsent⟩
  · rw [hsame] at hc
    exact (h c hc id hkey).mono es
  · rw [hsent] at hc
    rcases List.mem_append.mp hc with hold | hnew
    · exact (h c hold id hkey).mono es
    · rw [List.mem_singleton.mp hnew] at hkey
      exact (hfirst i corrId fails ha job id htask hkey).mono es

end Steps

/-! ## §3. The condition. -/

/-- **A REVERSAL UNDOES ONLY WHAT WAS BOOKED.**  Over every run in which the
credit comes first, and in every state it passes through. -/
theorem reversal_after_credit {settings : Settings} {wal : Wal.WriteAheadLog} {acts : List Action}
    (h : CreditFirst settings wal acts) {t : Traced System Event}
    (ht : Visits (traced (step settings)) ⟨.started wal, []⟩ acts t) : ReversesCredits t.trace := by
  have hcovered : Covered t.state t.trace := by
    refine traced_of_takes Covered ?_ ?_ ht
    · intro c hc
      cases hc
    · intro u a u' es htakes hes hu
      refine hu.step (step_effect hes) ?_
      rintro i corrId fails rfl
      exact h u i corrId fails u' htakes
  obtain ⟨before, -, -, hrun⟩ := ht
  obtain ⟨bs, hledger⟩ := run_ledger hrun
  intro id hreversed
  obtain ⟨req, hreq, hkey⟩ := hreversed
  -- what was applied was sent, under this key
  obtain ⟨c, hc, rfl⟩ := (run_honest hrun).requests req (applied_submitted hledger req hreq)
  exact hcovered c hc id (encodeUtf8_inj hkey)

/-- The credit is there when a reversal is sent. -/
def creditFirst (t : Traced System Event) : Action → Bool
  | .send i _ _ =>
      match t.state.tasks[i]? with
      | some ⟨.saga _, _⟩ => true
      | some ⟨.reversal charge, _⟩ =>
          (applied (ledgerTrace t.trace)).any (fun req => req.idempotencyKey = keyOf charge.id)
      | _ => false
  | _ => true

theorem reversalKey_inj {a b : String} (h : reversalKey a = reversalKey b) : a = b :=
  (String.append_right_inj "reversal-").mp h

theorem chargeKey_ne_reversalKey (a b : String) : chargeKey a ≠ reversalKey b := by
  intro h
  have hchars := congrArg String.toList h
  simp [chargeKey, reversalKey] at hchars

theorem creditFirst_of_checked {settings : Settings} {wal : Wal.WriteAheadLog} {acts : List Action}
    (h : checked (traced (step settings)) creditFirst ⟨.started wal, []⟩ acts = true) :
    CreditFirst settings wal acts := by
  intro t i corrId fails t' htakes job id htask hkey
  have hok : creditFirst t (.send i corrId fails) = true := htakes.checked h
  simp only [creditFirst, htask] at hok
  cases job with
  | saga charge => exact absurd hkey (chargeKey_ne_reversalKey charge.id id)
  | reversal charge =>
      have hid : charge.id = id := reversalKey_inj hkey
      obtain ⟨req, hreq, hsame⟩ := List.any_eq_true.mp hok
      exact ⟨req, hreq, by rw [← hid]; exact of_decide_eq_true hsame⟩
  | transfer args => cases hok

/-- A webhook of a refund whose message reaches the engine. -/
def deliveredRefund (i : Nat) (charge : Charge) (corrId : Uuid) : List Action :=
  [.webhook (.chargeRefunded charge), .send i corrId false, .ioReceive 0 Uuid.zero]

/-- The charge is applied, and its refund is booked. -/
def refundedCharge : List Action :=
  accountCalls .liability ++ deliveredCharge 0 ⟨"ch_1", 500, "usd"⟩ (repeatedId 0) ++
    engineWorks 13 ++ deliveredRefund 1 ⟨"ch_1", 500, "usd"⟩ (repeatedId 1) ++ engineWorks 13

theorem refundedCharge_reverses :
    ∃ t, runSystem bookedSettings newLog refundedCharge = some t ∧ ReversesCredits t.trace ∧
      (applied (ledgerTrace t.trace)).map (·.idempotencyKey) =
        [keyOf "ch_1", encodeUtf8 (reversalKey "ch_1")] := by
  have hrun : (runSystem bookedSettings newLog refundedCharge).map
      (fun t => (applied (ledgerTrace t.trace)).map (·.idempotencyKey)) =
        some [keyOf "ch_1", encodeUtf8 (reversalKey "ch_1")] := by
    decide +kernel
  obtain ⟨t, ht, heq⟩ := Option.map_eq_some_iff.mp hrun
  exact ⟨t, ht, reversal_after_credit (creditFirst_of_checked (by decide +kernel)) (visits_end ht),
    heq⟩

/-- The escrow account has no funds, so the engine rejects the charge.  Its
answer is lost, the saga refunds the charge, and Stripe sends the webhook. -/
def compensatedCharge : List Action :=
  accountCalls .asset ++ deliveredCharge 0 ⟨"ch_1", 500, "usd"⟩ (repeatedId 0) ++ engineWorks 10 ++
    [.ioDrain false] ++ refundedLate 0 ++
    deliveredRefund 1 ⟨"ch_1", 500, "usd"⟩ (repeatedId 1) ++ engineWorks 13

/-- **The reversal of a charge that was never booked.** -/
theorem compensatedCharge_reversed :
    ∃ t, runSystem bookedSettings newLog compensatedCharge = some t ∧
      refunds t.trace = [(Charge.mk "ch_1" 500 "usd").refund] ∧ Reversed t.trace "ch_1" ∧
      ¬ ReversesCredits t.trace := by
  have hrun : (runSystem bookedSettings newLog compensatedCharge).map
      (fun t => (refunds t.trace, (applied (ledgerTrace t.trace)).map (·.idempotencyKey))) =
        some ([(Charge.mk "ch_1" 500 "usd").refund], [encodeUtf8 (reversalKey "ch_1")]) := by
    decide +kernel
  obtain ⟨t, ht, heq⟩ := Option.map_eq_some_iff.mp hrun
  simp only [Prod.mk.injEq] at heq
  obtain ⟨hrefunds, hkeys⟩ := heq
  obtain ⟨req, hreq, hkey⟩ := List.mem_map.mp (hkeys ▸ List.mem_singleton_self _)
  refine ⟨t, ht, hrefunds, ⟨req, hreq, hkey⟩, ?_⟩
  intro h
  obtain ⟨req', hreq', hkey'⟩ := h "ch_1" ⟨req, hreq, hkey⟩
  have hmem : keyOf "ch_1" ∈ [encodeUtf8 (reversalKey "ch_1")] := by
    rw [← hkeys, ← hkey']
    exact List.mem_map_of_mem hreq'
  exact absurd hmem (by decide +kernel)

end ZeroLGR.Gateway
