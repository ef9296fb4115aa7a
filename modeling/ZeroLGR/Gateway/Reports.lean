/-
  ZeroLGR.Gateway.Reports — what the payment saga reports.

  The saga tells its caller that a charge was compensated, and its listeners what
  became of the refund.  A refund that Stripe has not accepted is reported to the
  caller as a compensation; a broadcast that raises stands in the way of the
  refund, or turns its report around.

    • `Truthful` — what the reports promise,
    • `Compensation.WellReported`, `Outcomes.WellReported` — the outcomes of the
      calls for which they keep it,
    • `truthful_iff` — exactly those,
    • `refusedRefund_compensated` — a refund that was not accepted.
-/
import ZeroLGR.Gateway.Payment

namespace ZeroLGR.Gateway

/-! ## §1. Truth. -/

/-- The engine has rejected the transaction, or timed out. -/
def EngineOutcome.refuses : EngineOutcome → Bool
  | .returns resp => decide (resp.status ≠ 0)
  | .raises e => e.isTimeout

/-- No failure of the refund is reported once it was accepted. -/
def NotDenied (charge : Charge) (before after : Report) : Prop :=
  before = .refund charge.refund .accepted →
    ∀ reason, after ≠ .broadcast charge.id (.stripeRefundFailed reason)

/-- **The reports are truthful.**  A compensation is returned only if the refund
was accepted; a failure of the refund is broadcast only if it was not; and if the
engine refuses, the refund is asked for. -/
structure Truthful (charge : Charge) (tr : List Report) (result : Except Raised SagaStatus) :
    Prop where
  compensated : result = .ok .compensated ∨ result = .ok .timeoutCompensated →
    .refund charge.refund .accepted ∈ tr
  failed : tr.Pairwise (NotDenied charge)
  refunded : ∀ outcome, .engine outcome ∈ tr → outcome.refuses = true →
    ∃ answer, .refund charge.refund answer ∈ tr

/-- The outcomes for which a compensation ends as it reports: Stripe accepts, and
no `Exception` comes from the broadcast that says so; or Stripe does not, and the
compensation raises, too. -/
def Compensation.WellReported (c : Compensation) : Prop :=
  (c.refund = .accepted ∧ ∀ e, c.success = some e → e.isException = false) ∨
    ∃ e, c.refund = .raises e ∧ (e.isException = true → c.failed ≠ none)

/-- A `ZMQTimeoutError` comes out of the body of the `try` before it has asked for
a refund. -/
def Outcomes.TimesOutEarly (o : Outcomes) : Prop :=
  (∃ e, o.engine = .raises e ∧ e.isTimeout = true) ∨
    ∃ resp e, o.engine = .returns resp ∧ e.isTimeout = true ∧
      (resp.status = 0 ∧ o.commit = some e ∨ resp.status ≠ 0 ∧ o.validationFailed = some e)

/-- It comes out of the compensation in the `try`. -/
def Outcomes.TimesOutLate (o : Outcomes) : Prop :=
  o.validationFailed = none ∧ o.rejected.RaisesTimeout ∧
    ∃ resp, o.engine = .returns resp ∧ resp.status ≠ 0

/-- **The outcomes for which the reports are truthful**, once the transaction was
dispatched. -/
structure Outcomes.WellReported (o : Outcomes) : Prop where
  rejected : ∀ resp, o.engine = .returns resp → resp.status ≠ 0 →
    (o.validationFailed = none ∧ o.rejected.WellReported) ∨
      ∃ e, o.validationFailed = some e ∧ e.isTimeout = true
  notified : o.engine.refuses = true → o.TimesOutEarly → o.engineTimeout = none
  timedOut : o.TimesOutEarly ∨ o.TimesOutLate → o.engineTimeout = none → o.timedOut.WellReported

section Truth

variable {charge : Charge} {c : Compensation} {o : Outcomes} {tr es pre : List Report}

/-- Nothing was accepted so far. -/
def Unaccepted (charge : Charge) (tr : List Report) : Prop :=
  .refund charge.refund .accepted ∉ tr

theorem Unaccepted.pairwise (h : Unaccepted charge tr) : tr.Pairwise (NotDenied charge) := by
  refine List.pairwise_of_forall_mem_list ?_
  intro before hbefore after _ heq
  exact absurd (heq ▸ hbefore) h

/-- What a compensation reports is right. -/
def HonestEnd (charge : Charge) (es : List Report) (result : Except Raised Unit) : Prop :=
  es.Pairwise (NotDenied charge) ∧ (result = .ok () → .refund charge.refund .accepted ∈ es)

theorem Compensation.Ends.honest_iff {result : Except Raised Unit}
    (h : c.Ends charge es result) : HonestEnd charge es result ↔ c.WellReported := by
  cases h with
  | accepted hrefund hsuccess =>
      simp [HonestEnd, Compensation.WellReported, NotDenied, hrefund, hsuccess]
  | left e hrefund hsuccess he =>
      simp [HonestEnd, Compensation.WellReported, NotDenied, hrefund, hsuccess, he]
  | turned e hrefund hsuccess he =>
      simp [HonestEnd, Compensation.WellReported, NotDenied, hrefund, hsuccess, he]
  | refused e hrefund he =>
      simp [HonestEnd, Compensation.WellReported, NotDenied, hrefund, he, ended_eq_ok]
  | interrupted e hrefund he =>
      simp [HonestEnd, Compensation.WellReported, NotDenied, hrefund, he]

theorem Compensation.Ends.refunded {result : Except Raised Unit} (h : c.Ends charge es result) :
    ∃ answer, .refund charge.refund answer ∈ es := by
  cases h with
  | accepted => exact ⟨_, List.mem_cons_self⟩
  | left => exact ⟨_, List.mem_cons_self⟩
  | turned => exact ⟨_, List.mem_cons_self⟩
  | refused => exact ⟨_, List.mem_cons_self⟩
  | interrupted => exact ⟨_, List.mem_cons_self⟩

/-- **A compensation behind calls of which none was an accepted refund.** -/
theorem truthful_compensation {result : Except Raised Unit} {status : SagaStatus}
    (hpre : Unaccepted charge pre) (hends : c.Ends charge es result)
    (hstatus : status = .compensated ∨ status = .timeoutCompensated) :
    Truthful charge (pre ++ es) (result.map (fun _ => status)) ↔ c.WellReported := by
  rw [← hends.honest_iff]
  have hmem : .refund charge.refund .accepted ∈ pre ++ es ↔
      .refund charge.refund .accepted ∈ es := by
    rw [List.mem_append]
    exact or_iff_right hpre
  have hpairwise : (pre ++ es).Pairwise (NotDenied charge) ↔ es.Pairwise (NotDenied charge) := by
    rw [List.pairwise_append]
    refine ⟨fun h => h.2.1, fun h => ⟨hpre.pairwise, h, ?_⟩⟩
    intro before hbefore after _ heq
    exact absurd (heq ▸ hbefore) hpre
  constructor
  · intro htruth
    refine ⟨hpairwise.mp htruth.failed, fun hok => hmem.mp (htruth.compensated ?_)⟩
    rw [hok]
    rcases hstatus with rfl | rfl
    · exact .inl rfl
    · exact .inr rfl
  · intro hhonest
    refine ⟨fun hok => hmem.mpr (hhonest.2 ?_), hpairwise.mpr hhonest.1, fun _ _ _ => ?_⟩
    · cases result with
      | ok u => rfl
      | error e => rcases hok with h | h <;> cases h
    · obtain ⟨answer, hanswer⟩ := hends.refunded
      exact ⟨answer, List.mem_append_right _ hanswer⟩

/-- **No compensation.** -/
theorem truthful_without {result : Except Raised SagaStatus} (htr : Unaccepted charge tr)
    (hresult : result ≠ .ok .compensated ∧ result ≠ .ok .timeoutCompensated) :
    Truthful charge tr result ↔ ∀ outcome, .engine outcome ∈ tr → outcome.refuses = true →
      ∃ answer, .refund charge.refund answer ∈ tr := by
  refine ⟨fun h => h.refunded, fun h => ⟨?_, htr.pairwise, h⟩⟩
  intro hok
  rcases hok with hok | hok
  · exact absurd hok hresult.1
  · exact absurd hok hresult.2

/-- A compensation that ends in a `ZMQTimeoutError` has no accepted refund, or has
made a wrong report already. -/
theorem Compensation.Ends.timeout {result : Except Raised Unit} {e : Raised}
    (h : c.Ends charge es result) (hresult : result = .error e) (he : e.isTimeout = true) :
    c.WellReported ∧ Unaccepted charge es ∨
      ¬ c.WellReported ∧ ¬ es.Pairwise (NotDenied charge) := by
  have hexception := Raised.isException_of_isTimeout he
  cases h with
  | accepted hrefund hsuccess => cases hresult
  | left e' hrefund hsuccess he' =>
      cases hresult
      rw [hexception] at he'
      cases he'
  | turned e' hrefund hsuccess he' =>
      refine .inr ⟨?_, ?_⟩
      · simp [Compensation.WellReported, hrefund, hsuccess, he']
      · simp [NotDenied]
  | refused e' hrefund he' =>
      have hfailed := ended_eq_error.mp hresult
      refine .inl ⟨?_, ?_⟩
      · simp [Compensation.WellReported, hrefund, hfailed]
      · simp [Unaccepted]
  | interrupted e' hrefund he' =>
      cases hresult
      rw [hexception] at he'
      cases he'

/-! ## §2. The outcomes that count. -/

/-- The engine does not refuse, and the notice of it does not time out. -/
theorem wellReported_of_accepted (haccepts : o.engine.refuses = false)
    (hearly : ¬ o.TimesOutEarly) : o.WellReported := by
  have hnot : ∀ resp, o.engine = .returns resp → ¬ resp.status ≠ 0 := by
    intro resp hengine hstatus
    rw [hengine] at haccepts
    exact absurd hstatus (of_decide_eq_false haccepts)
  refine ⟨fun resp hengine hstatus => absurd hstatus (hnot resp hengine),
    fun _ h => absurd h hearly, ?_⟩
  intro htimes
  rcases htimes with h | ⟨-, -, resp, hengine, hstatus⟩
  · exact absurd h hearly
  · exact absurd hstatus (hnot resp hengine)

/-- A `ZMQTimeoutError` comes before any refund. -/
theorem wellReported_of_early (hearly : o.TimesOutEarly) :
    o.WellReported ↔ (o.engine.refuses = true → o.engineTimeout = none) ∧
      (o.engineTimeout = none → o.timedOut.WellReported) := by
  constructor
  · exact fun h => ⟨fun hrefuses => h.notified hrefuses hearly, h.timedOut (.inl hearly)⟩
  · intro h
    obtain ⟨hnotified, htimedOut⟩ := h
    refine ⟨?_, fun hrefuses _ => hnotified hrefuses, fun _ => htimedOut⟩
    intro resp hengine hstatus
    right
    rcases hearly with ⟨e, hraises, -⟩ | ⟨resp', e, hengine', he, hwhere⟩
    · rw [hengine] at hraises
      cases hraises
    · rw [hengine] at hengine'
      cases hengine'
      rcases hwhere with ⟨hok, -⟩ | ⟨-, hfailed⟩
      · exact absurd hok hstatus
      · exact ⟨e, hfailed, he⟩

/-- The engine rejects, and the notice of it is broadcast. -/
theorem wellReported_of_rejected {resp : TransactionResult} (hengine : o.engine = .returns resp)
    (hstatus : resp.status ≠ 0) (hfailed : o.validationFailed = none) :
    o.WellReported ↔ o.rejected.WellReported ∧
      (o.rejected.RaisesTimeout → o.engineTimeout = none → o.timedOut.WellReported) := by
  have hearly : ¬ o.TimesOutEarly := by
    intro h
    rcases h with ⟨e, hraises, -⟩ | ⟨resp', e, hengine', -, hwhere⟩
    · rw [hengine] at hraises
      cases hraises
    · rw [hengine] at hengine'
      cases hengine'
      rcases hwhere with ⟨hok, -⟩ | ⟨-, hsome⟩
      · exact absurd hok hstatus
      · rw [hfailed] at hsome
        cases hsome
  constructor
  · intro h
    refine ⟨?_, fun hraises => h.timedOut (.inr ⟨hfailed, hraises, resp, hengine, hstatus⟩)⟩
    rcases h.rejected resp hengine hstatus with ⟨-, hwell⟩ | ⟨e, hsome, -⟩
    · exact hwell
    · rw [hfailed] at hsome
      cases hsome
  · intro h
    refine ⟨fun _ _ _ => .inl ⟨hfailed, h.1⟩, fun _ h => absurd h hearly, ?_⟩
    intro htimes
    rcases htimes with hno | ⟨-, hraises, -⟩
    · exact absurd hno hearly
    · exact h.2 hraises

/-! ## §3. The ways in which the saga ends. -/

/-- How the body of the `try` comes to a `ZMQTimeoutError`: before any refund, or
out of the compensation. -/
theorem TryEnds.timeout {result : Except Raised SagaStatus} {e : Raised}
    (h : TryEnds charge o es result) (hresult : result = .error e) (he : e.isTimeout = true) :
    (o.TimesOutEarly ∧ (∀ outcome, .engine outcome ∈ es ↔ outcome = o.engine) ∧
        ∀ request answer, .refund request answer ∉ es) ∨
      ∃ resp es', o.engine = .returns resp ∧ resp.status ≠ 0 ∧ o.validationFailed = none ∧
        es = [.engine (.returns resp), .broadcast charge.id (.validationFailed resp.message)] ++
          es' ∧ o.rejected.Ends charge es' (.error e) := by
  cases h with
  | raised e' hengine =>
      cases hresult
      exact .inl ⟨.inl ⟨e, hengine, he⟩, by simp [hengine], by simp⟩
  | success resp hengine hstatus hcommit => cases hresult
  | commitRaised resp e' hengine hstatus hcommit =>
      cases hresult
      exact .inl ⟨.inr ⟨resp, e, hengine, he, .inl ⟨hstatus, hcommit⟩⟩, by simp [hengine], by simp⟩
  | noticeRaised resp e' hengine hstatus hfailed =>
      cases hresult
      exact .inl ⟨.inr ⟨resp, e, hengine, he, .inr ⟨hstatus, hfailed⟩⟩, by simp [hengine], by simp⟩
  | compensated resp es' result' hengine hstatus hfailed hends =>
      cases result' with
      | ok u => cases hresult
      | error e' =>
          cases hresult
          exact .inr ⟨resp, es', hengine, hstatus, hfailed, rfl, hends⟩

/-- The body of the `try` is the end. -/
theorem truthful_iff_of_tried {result : Except Raised SagaStatus}
    (h : TryEnds charge o es result) (hno : ∀ e, result = .error e → e.isTimeout = false) :
    Truthful charge ([.broadcast charge.id .dispatchZmq] ++ es) result ↔ o.WellReported := by
  cases h with
  | raised e hengine =>
      have he : e.isTimeout = false := hno e rfl
      have hwell : o.WellReported := by
        refine wellReported_of_accepted (by rw [hengine]; exact he) ?_
        simp [Outcomes.TimesOutEarly, hengine, he]
      rw [truthful_without (by simp [Unaccepted]) (by simp)]
      simp [EngineOutcome.refuses, he, hwell]
  | success resp hengine hstatus hcommit =>
      have hwell : o.WellReported := by
        refine wellReported_of_accepted (by simp [hengine, EngineOutcome.refuses, hstatus]) ?_
        simp [Outcomes.TimesOutEarly, hengine, hstatus, hcommit]
      rw [truthful_without (by simp [Unaccepted]) (by simp)]
      simp [EngineOutcome.refuses, hstatus, hwell]
  | commitRaised resp e hengine hstatus hcommit =>
      have he : e.isTimeout = false := hno e rfl
      have hwell : o.WellReported := by
        refine wellReported_of_accepted (by simp [hengine, EngineOutcome.refuses, hstatus]) ?_
        simp [Outcomes.TimesOutEarly, hengine, hstatus, hcommit, he]
      rw [truthful_without (by simp [Unaccepted]) (by simp)]
      simp [EngineOutcome.refuses, hstatus, hwell]
  | noticeRaised resp e hengine hstatus hfailed =>
      have he : e.isTimeout = false := hno e rfl
      have hwell : ¬ o.WellReported := by
        intro h
        have hrejected := h.rejected resp hengine hstatus
        simp [hfailed, he] at hrejected
      rw [truthful_without (by simp [Unaccepted]) (by simp)]
      simp [EngineOutcome.refuses, hstatus, hwell]
  | compensated resp es' result' hengine hstatus hfailed hends =>
      have hquiet : ¬ o.rejected.RaisesTimeout := by
        intro hraises
        obtain ⟨e, heq, he⟩ := hends.raisesTimeout_iff.mpr hraises
        have hfalse := hno e (by rw [heq]; rfl)
        rw [he] at hfalse
        cases hfalse
      rw [wellReported_of_rejected hengine hstatus hfailed, ← List.append_assoc,
        truthful_compensation (by simp [Unaccepted]) hends (.inl rfl)]
      exact ⟨fun h => ⟨h, fun hraises => absurd hraises hquiet⟩, fun h => h.1⟩

/-- A `ZMQTimeoutError` has come, and the notice of it has raised. -/
theorem truthful_iff_of_noticeRaised {e e' : Raised} (h : TryEnds charge o es (.error e))
    (he : e.isTimeout = true) (htimeout : o.engineTimeout = some e') :
    Truthful charge ([.broadcast charge.id .dispatchZmq] ++ es ++
      [.broadcast charge.id .engineTimeout]) (.error e') ↔ o.WellReported := by
  rcases h.timeout rfl he with ⟨hearly, hengine, hnone⟩ |
    ⟨resp, es', hengine, hstatus, hfailed, rfl, hends⟩
  · have hun : Unaccepted charge ([.broadcast charge.id .dispatchZmq] ++ es ++
        [.broadcast charge.id .engineTimeout]) := by
      simp [Unaccepted, hnone]
    rw [truthful_without hun (by simp), wellReported_of_early hearly]
    simp [hengine, hnone, htimeout]
  · rw [wellReported_of_rejected hengine hstatus hfailed]
    simp only [htimeout, reduceCtorEq, false_implies, implies_true, and_true]
    rcases hends.timeout rfl he with ⟨hwell, hun⟩ | ⟨hwell, hdenied⟩
    · refine iff_of_true ?_ hwell
      refine (truthful_without ?_ (by simp)).mpr (fun _ _ _ => ?_)
      · simpa [Unaccepted] using hun
      · obtain ⟨answer, hanswer⟩ := hends.refunded
        exact ⟨answer, by simp [hanswer]⟩
    · refine iff_of_false (fun htruth => hdenied ?_) hwell
      refine htruth.failed.sublist ?_
      exact ((List.sublist_append_right _ es').trans (List.sublist_append_right _ _)).trans
        (List.sublist_append_left _ _)

/-- A `ZMQTimeoutError` has come, and the compensation behind it. -/
theorem truthful_iff_of_timedOut {e : Raised} {es' : List Report} {result : Except Raised Unit}
    (h : TryEnds charge o es (.error e)) (he : e.isTimeout = true)
    (htimeout : o.engineTimeout = none) (hends : o.timedOut.Ends charge es' result) :
    Truthful charge ([.broadcast charge.id .dispatchZmq] ++ es ++
      [.broadcast charge.id .engineTimeout] ++ es')
        (result.map (fun _ => .timeoutCompensated)) ↔ o.WellReported := by
  rcases h.timeout rfl he with ⟨hearly, -, hnone⟩ |
    ⟨resp, es'', hengine, hstatus, hfailed, rfl, hends'⟩
  · have hun : Unaccepted charge ([.broadcast charge.id .dispatchZmq] ++ es ++
        [.broadcast charge.id .engineTimeout]) := by
      simp [Unaccepted, hnone]
    rw [truthful_compensation hun hends (.inr rfl), wellReported_of_early hearly]
    simp [htimeout]
  · rw [wellReported_of_rejected hengine hstatus hfailed]
    have hraises := hends'.raisesTimeout_iff.mp ⟨e, rfl, he⟩
    rcases hends'.timeout rfl he with ⟨hwell, hun⟩ | ⟨hwell, hdenied⟩
    · have hpre : Unaccepted charge ([.broadcast charge.id .dispatchZmq] ++
          ([.engine (.returns resp), .broadcast charge.id (.validationFailed resp.message)] ++
            es'') ++ [.broadcast charge.id .engineTimeout]) := by
        simpa [Unaccepted] using hun
      rw [truthful_compensation hpre hends (.inr rfl)]
      exact ⟨fun h => ⟨hwell, fun _ _ => h⟩, fun h => h.2 hraises htimeout⟩
    · refine iff_of_false (fun htruth => hdenied ?_) (fun h => hwell h.1)
      refine htruth.failed.sublist ?_
      exact (((List.sublist_append_right _ es'').trans (List.sublist_append_right _ _)).trans
        (List.sublist_append_left _ _)).trans (List.sublist_append_left _ _)

end Truth

/-- **WHEN THE REPORTS ARE TRUTHFUL.**  For every charge and all outcomes of all
calls: exactly if the first broadcast raises, or the outcomes are `WellReported`. -/
theorem truthful_iff (charge : Charge) (o : Outcomes) :
    Truthful charge ((executePaymentSaga charge o).exec []).2
        ((executePaymentSaga charge o).exec []).1 ↔
      (o.dispatch = none → o.WellReported) := by
  obtain ⟨tr, result, hexec, hends⟩ := saga_ends charge o
  rw [hexec]
  show Truthful charge tr result ↔ _
  cases hends with
  | notSent e hdispatch =>
      rw [truthful_without (by simp [Unaccepted]) (by simp)]
      simp [hdispatch]
  | tried es _ hdispatch htry hno =>
      rw [truthful_iff_of_tried htry hno]
      simp [hdispatch]
  | noticeRaised es e e' hdispatch htry he htimeout =>
      rw [truthful_iff_of_noticeRaised htry he htimeout]
      simp [hdispatch]
  | timedOut es e es' result' hdispatch htry he htimeout hends' =>
      rw [truthful_iff_of_timedOut htry he htimeout hends']
      simp [hdispatch]

/-! ## §4. A refund that was not accepted. -/

/-- The engine times out, and Stripe refuses the refund; every broadcast returns. -/
def refusedRefund : Outcomes where
  dispatch := none
  engine := .raises (.zmqTimeoutError "Timed out waiting for C++ engine response")
  commit := none
  validationFailed := none
  rejected := ⟨.accepted, none, none⟩
  engineTimeout := none
  timedOut := ⟨.raises (.exception "card_declined"), none, none⟩

/-- **The saga returns `TIMEOUT_COMPENSATED`** although the refund was not accepted. -/
theorem refusedRefund_compensated :
    ((executePaymentSaga ⟨"ch_1", 500, "usd"⟩ refusedRefund).exec []).1 =
        .ok .timeoutCompensated ∧
      .refund (Charge.refund ⟨"ch_1", 500, "usd"⟩) .accepted ∉
        ((executePaymentSaga ⟨"ch_1", 500, "usd"⟩ refusedRefund).exec []).2 ∧
      ¬ Truthful ⟨"ch_1", 500, "usd"⟩
        ((executePaymentSaga ⟨"ch_1", 500, "usd"⟩ refusedRefund).exec []).2
        ((executePaymentSaga ⟨"ch_1", 500, "usd"⟩ refusedRefund).exec []).1 := by
  have hresult : ((executePaymentSaga ⟨"ch_1", 500, "usd"⟩ refusedRefund).exec []).1 =
      .ok .timeoutCompensated := rfl
  have hrefund : .refund (Charge.refund ⟨"ch_1", 500, "usd"⟩) .accepted ∉
      ((executePaymentSaga ⟨"ch_1", 500, "usd"⟩ refusedRefund).exec []).2 := by
    decide +kernel
  exact ⟨hresult, hrefund, fun h => hrefund (h.compensated (.inr hresult))⟩

end ZeroLGR.Gateway
