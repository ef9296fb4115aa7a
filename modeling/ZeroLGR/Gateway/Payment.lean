/-
  ZeroLGR.Gateway.Payment — the payment saga from its start to its end.

  `execute_payment_saga` and `compensate_stripe_charge` as they run through, for
  every outcome of every call they make: the engine, the refund, and each
  broadcast, which may raise anything.  `Gateway.Saga` has the same coroutine by
  where it stands at an `await`.

    • `Raised`, `Coroutine` — exceptions, and the record of a coroutine,
    • `Compensation`, `Outcomes` — the outcomes of the calls,
    • `compensateStripeCharge`, `executePaymentSaga` — the coroutines,
    • `compensate_ends`, `saga_ends` — every way in which they can end,
    • `saga_path` — the coroutine of `Gateway.Saga` makes the same calls.
-/
import ZeroLGR.Gateway.System

namespace ZeroLGR.Gateway

/-! ## §1. Coroutines. -/

/-- An exception: `ZMQTimeoutError`, another `Exception`, or one outside of
`Exception`, such as `asyncio.CancelledError`. -/
inductive Raised where
  | zmqTimeoutError (text : String)
  | exception (text : String)
  | baseException (text : String)
  deriving DecidableEq

/-- `except Exception` takes it. -/
def Raised.isException : Raised → Bool
  | .zmqTimeoutError _ => true
  | .exception _ => true
  | .baseException _ => false

/-- `except ZMQTimeoutError` takes it. -/
def Raised.isTimeout : Raised → Bool
  | .zmqTimeoutError _ => true
  | .exception _ => false
  | .baseException _ => false

/-- `str(e)`. -/
def Raised.text : Raised → String
  | .zmqTimeoutError text => text
  | .exception text => text
  | .baseException text => text

theorem Raised.isException_of_isTimeout {e : Raised} (h : e.isTimeout = true) :
    e.isException = true := by
  cases e with
  | zmqTimeoutError text => rfl
  | exception text => rfl
  | baseException text => cases h

theorem Raised.isTimeout_of_base {e : Raised} (h : e.isException = false) :
    e.isTimeout = false := by
  cases e with
  | zmqTimeoutError text => cases h
  | exception text => rfl
  | baseException text => rfl

/-- What comes of `send_transaction`. -/
inductive EngineOutcome where
  | returns (resp : TransactionResult)
  | raises (e : Raised)
  deriving DecidableEq

/-- What comes of `stripe.Refund.create`. -/
inductive RefundOutcome where
  | accepted
  | raises (e : Raised)
  deriving DecidableEq

/-- A call the saga makes. -/
inductive Report where
  | broadcast (chargeId : String) (message : SagaMessage)
  | engine (outcome : EngineOutcome)
  | refund (request : RefundRequest) (outcome : RefundOutcome)
  deriving DecidableEq

/-- A coroutine that keeps a record of its calls, and may raise. -/
abbrev Coroutine (α : Type) := ExceptT Raised (StateM (List Report)) α

/-- Run it on a record. -/
def Coroutine.exec {α : Type} (x : Coroutine α) (tr : List Report) :
    Except Raised α × List Report := (x.run.run tr).run

/-- A call is put on record. -/
def note (e : Report) : Coroutine Unit := modify (fun tr => tr ++ [e])

/-- `broadcaster.broadcast`, which returns or raises. -/
def broadcast (chargeId : String) (message : SagaMessage) (raises : Option Raised) :
    Coroutine Unit := do
  note (.broadcast chargeId message)
  match raises with
  | some e => throw e
  | none => return

/-- `send_transaction`. -/
def sendTransaction (outcome : EngineOutcome) : Coroutine TransactionResult := do
  note (.engine outcome)
  match outcome with
  | .returns resp => return resp
  | .raises e => throw e

/-- `stripe.Refund.create`, or `create_async`. -/
def createRefund (request : RefundRequest) (outcome : RefundOutcome) : Coroutine Unit := do
  note (.refund request outcome)
  match outcome with
  | .accepted => return
  | .raises e => throw e

/-! ## §2. The saga. -/

/-- The outcomes of the calls in `compensate_stripe_charge`. -/
structure Compensation where
  refund : RefundOutcome
  success : Option Raised
  failed : Option Raised

/-- The outcomes of the calls in `execute_payment_saga`.  It may compensate in
its `try` and in its `except` clause. -/
structure Outcomes where
  dispatch : Option Raised
  engine : EngineOutcome
  commit : Option Raised
  validationFailed : Option Raised
  rejected : Compensation
  engineTimeout : Option Raised
  timedOut : Compensation

/-- `compensate_stripe_charge`. -/
def compensateStripeCharge (charge : Charge) (c : Compensation) : Coroutine Unit := do
  try
    createRefund charge.refund c.refund
    broadcast charge.id .stripeRefund c.success
  catch e =>
    if e.isException = true then broadcast charge.id (.stripeRefundFailed e.text) c.failed
    else throw e

/-- `execute_payment_saga`. -/
def executePaymentSaga (charge : Charge) (o : Outcomes) : Coroutine SagaStatus := do
  broadcast charge.id .dispatchZmq o.dispatch
  try
    let resp ← sendTransaction o.engine
    if resp.status = 0 then
      broadcast charge.id (.commit resp.transactionId resp.latencyUs) o.commit
      pure .success
    else
      broadcast charge.id (.validationFailed resp.message) o.validationFailed
      compensateStripeCharge charge o.rejected
      pure .compensated
  catch e =>
    if e.isTimeout = true then
      broadcast charge.id .engineTimeout o.engineTimeout
      compensateStripeCharge charge o.timedOut
      pure .timeoutCompensated
    else throw e

/-! ## §3. How a coroutine ends. -/

section Exec

variable {α β : Type} {tr tr' : List Report}

theorem exec_bind_ok {x : Coroutine α} {f : α → Coroutine β} {a : α}
    (h : x.exec tr = (.ok a, tr')) : Coroutine.exec (x >>= f) tr = (f a).exec tr' := by
  unfold Coroutine.exec at h ⊢
  show (ExceptT.bind x f).run.run tr = _
  simp only [ExceptT.bind, ExceptT.mk, ExceptT.run, StateT.run, bind, StateT.bind, Id.run] at h ⊢
  rw [h]
  rfl

theorem exec_bind_error {x : Coroutine α} {f : α → Coroutine β} {e : Raised}
    (h : x.exec tr = (.error e, tr')) : Coroutine.exec (x >>= f) tr = (.error e, tr') := by
  unfold Coroutine.exec at h ⊢
  show (ExceptT.bind x f).run.run tr = _
  simp only [ExceptT.bind, ExceptT.mk, ExceptT.run, StateT.run, bind, StateT.bind, Id.run] at h ⊢
  rw [h]
  rfl

theorem exec_try_ok {x : Coroutine α} {f : Raised → Coroutine α} {a : α}
    (h : x.exec tr = (.ok a, tr')) : Coroutine.exec (tryCatch x f) tr = (.ok a, tr') := by
  unfold Coroutine.exec at h ⊢
  show (ExceptT.tryCatch x f).run.run tr = _
  simp only [ExceptT.tryCatch, ExceptT.mk, ExceptT.run, StateT.run, bind, StateT.bind,
    Id.run] at h ⊢
  rw [h]
  rfl

theorem exec_try_error {x : Coroutine α} {f : Raised → Coroutine α} {e : Raised}
    (h : x.exec tr = (.error e, tr')) : Coroutine.exec (tryCatch x f) tr = (f e).exec tr' := by
  unfold Coroutine.exec at h ⊢
  show (ExceptT.tryCatch x f).run.run tr = _
  simp only [ExceptT.tryCatch, ExceptT.mk, ExceptT.run, StateT.run, bind, StateT.bind,
    Id.run] at h ⊢
  rw [h]

end Exec

/-- A call that returns nothing, or raises. -/
def ended : Option Raised → Except Raised Unit
  | some e => .error e
  | none => .ok ()

theorem ended_eq_ok {raises : Option Raised} : ended raises = .ok () ↔ raises = none := by
  cases raises with
  | none => simp [ended]
  | some e => simp [ended]

theorem ended_eq_error {raises : Option Raised} {e : Raised} :
    ended raises = .error e ↔ raises = some e := by
  cases raises with
  | none => simp [ended]
  | some e' => simp [ended]

theorem exec_broadcast (chargeId : String) (message : SagaMessage) (raises : Option Raised)
    (tr : List Report) : (broadcast chargeId message raises).exec tr =
      (ended raises, tr ++ [.broadcast chargeId message]) := by
  cases raises with
  | none => rfl
  | some e => rfl

section Saga

variable {charge : Charge} {c : Compensation} {tr : List Report}

/-- **The ways in which a compensation can end**, with the calls it has made. -/
inductive Compensation.Ends (charge : Charge) (c : Compensation) :
    List Report → Except Raised Unit → Prop
  | accepted : c.refund = .accepted → c.success = none →
      Ends charge c [.refund charge.refund .accepted, .broadcast charge.id .stripeRefund] (.ok ())
  | left (e : Raised) : c.refund = .accepted → c.success = some e → e.isException = false →
      Ends charge c [.refund charge.refund .accepted, .broadcast charge.id .stripeRefund] (.error e)
  | turned (e : Raised) : c.refund = .accepted → c.success = some e → e.isException = true →
      Ends charge c [.refund charge.refund .accepted, .broadcast charge.id .stripeRefund,
        .broadcast charge.id (.stripeRefundFailed e.text)] (ended c.failed)
  | refused (e : Raised) : c.refund = .raises e → e.isException = true →
      Ends charge c [.refund charge.refund (.raises e),
        .broadcast charge.id (.stripeRefundFailed e.text)] (ended c.failed)
  | interrupted (e : Raised) : c.refund = .raises e → e.isException = false →
      Ends charge c [.refund charge.refund (.raises e)] (.error e)

theorem compensate_ends (charge : Charge) (c : Compensation) (tr : List Report) :
    ∃ es result, (compensateStripeCharge charge c).exec tr = (result, tr ++ es) ∧
      c.Ends charge es result := by
  -- the exception handler, behind whatever was called before
  have hreport : ∀ (e : Raised) (es : List Report), e.isException = true →
      Coroutine.exec (if e.isException = true then
          broadcast charge.id (.stripeRefundFailed e.text) c.failed else throw e) (tr ++ es) =
        (ended c.failed, tr ++ (es ++ [.broadcast charge.id (.stripeRefundFailed e.text)])) := by
    intro e es he
    rw [if_pos he, exec_broadcast, List.append_assoc]
  have hpass : ∀ (e : Raised) (es : List Report), e.isException = false →
      Coroutine.exec (if e.isException = true then
          broadcast charge.id (.stripeRefundFailed e.text) c.failed else throw e) (tr ++ es) =
        (.error e, tr ++ es) := by
    intro e es he
    rw [if_neg (by rw [he]; decide)]
    rfl
  unfold compensateStripeCharge
  cases hrefund : c.refund with
  | accepted =>
      have hcreate : (createRefund charge.refund .accepted).exec tr =
          (.ok (), tr ++ [.refund charge.refund .accepted]) := rfl
      have hbody := exec_bind_ok (f := fun _ => broadcast charge.id .stripeRefund c.success) hcreate
      rw [exec_broadcast, List.append_assoc] at hbody
      cases hsuccess : c.success with
      | none =>
          rw [hsuccess] at hbody
          exact ⟨_, _, exec_try_ok hbody, .accepted hrefund hsuccess⟩
      | some e =>
          rw [hsuccess] at hbody
          cases he : e.isException with
          | false =>
              exact ⟨_, _, (exec_try_error hbody).trans (hpass e _ he), .left e hrefund hsuccess he⟩
          | true =>
              exact ⟨_, _, (exec_try_error hbody).trans (hreport e _ he),
                .turned e hrefund hsuccess he⟩
  | raises e =>
      have hcreate : (createRefund charge.refund (.raises e)).exec tr =
          (.error e, tr ++ [.refund charge.refund (.raises e)]) := rfl
      have hbody := exec_bind_error (f := fun _ => broadcast charge.id .stripeRefund c.success)
        hcreate
      cases he : e.isException with
      | false =>
          exact ⟨_, _, (exec_try_error hbody).trans (hpass e _ he), .interrupted e hrefund he⟩
      | true =>
          exact ⟨_, _, (exec_try_error hbody).trans (hreport e _ he), .refused e hrefund he⟩

/-- A `ZMQTimeoutError` comes out of the compensation. -/
def Compensation.RaisesTimeout (c : Compensation) : Prop :=
  (∃ e, c.failed = some e ∧ e.isTimeout = true) ∧
    ∃ e, e.isException = true ∧
      (c.refund = .raises e ∨ c.refund = .accepted ∧ c.success = some e)

/-- **When a `ZMQTimeoutError` comes out of a compensation.** -/
theorem Compensation.Ends.raisesTimeout_iff {es : List Report} {result : Except Raised Unit}
    (h : c.Ends charge es result) :
    (∃ e, result = .error e ∧ e.isTimeout = true) ↔ c.RaisesTimeout := by
  cases h with
  | accepted hrefund hsuccess => simp [Compensation.RaisesTimeout, hrefund, hsuccess]
  | left e hrefund hsuccess he =>
      have hnot := Raised.isTimeout_of_base he
      simp [Compensation.RaisesTimeout, hrefund, hsuccess, he, hnot]
  | turned e hrefund hsuccess he =>
      simp [Compensation.RaisesTimeout, hrefund, hsuccess, he, ended_eq_error]
  | refused e hrefund he => simp [Compensation.RaisesTimeout, hrefund, he, ended_eq_error]
  | interrupted e hrefund he =>
      have hnot := Raised.isTimeout_of_base he
      simp [Compensation.RaisesTimeout, hrefund, he, hnot]

/-- The ways in which the body of the `try` can end. -/
inductive TryEnds (charge : Charge) (o : Outcomes) :
    List Report → Except Raised SagaStatus → Prop
  | raised (e : Raised) : o.engine = .raises e →
      TryEnds charge o [.engine (.raises e)] (.error e)
  | success (resp : TransactionResult) : o.engine = .returns resp → resp.status = 0 →
      o.commit = none →
      TryEnds charge o [.engine (.returns resp),
        .broadcast charge.id (.commit resp.transactionId resp.latencyUs)] (.ok .success)
  | commitRaised (resp : TransactionResult) (e : Raised) : o.engine = .returns resp →
      resp.status = 0 → o.commit = some e →
      TryEnds charge o [.engine (.returns resp),
        .broadcast charge.id (.commit resp.transactionId resp.latencyUs)] (.error e)
  | noticeRaised (resp : TransactionResult) (e : Raised) : o.engine = .returns resp →
      resp.status ≠ 0 → o.validationFailed = some e →
      TryEnds charge o [.engine (.returns resp),
        .broadcast charge.id (.validationFailed resp.message)] (.error e)
  | compensated (resp : TransactionResult) (es : List Report) (result : Except Raised Unit) :
      o.engine = .returns resp → resp.status ≠ 0 → o.validationFailed = none →
      o.rejected.Ends charge es result →
      TryEnds charge o ([.engine (.returns resp),
        .broadcast charge.id (.validationFailed resp.message)] ++ es)
        (result.map (fun _ => .compensated))

/-- **The ways in which the saga can end.** -/
inductive SagaEnds (charge : Charge) (o : Outcomes) :
    List Report → Except Raised SagaStatus → Prop
  | notSent (e : Raised) : o.dispatch = some e →
      SagaEnds charge o [.broadcast charge.id .dispatchZmq] (.error e)
  | tried (es : List Report) (result : Except Raised SagaStatus) : o.dispatch = none →
      TryEnds charge o es result → (∀ e, result = .error e → e.isTimeout = false) →
      SagaEnds charge o ([.broadcast charge.id .dispatchZmq] ++ es) result
  | noticeRaised (es : List Report) (e e' : Raised) : o.dispatch = none →
      TryEnds charge o es (.error e) → e.isTimeout = true → o.engineTimeout = some e' →
      SagaEnds charge o ([.broadcast charge.id .dispatchZmq] ++ es ++
        [.broadcast charge.id .engineTimeout]) (.error e')
  | timedOut (es : List Report) (e : Raised) (es' : List Report) (result : Except Raised Unit) :
      o.dispatch = none → TryEnds charge o es (.error e) → e.isTimeout = true →
      o.engineTimeout = none → o.timedOut.Ends charge es' result →
      SagaEnds charge o ([.broadcast charge.id .dispatchZmq] ++ es ++
        [.broadcast charge.id .engineTimeout] ++ es')
        (result.map (fun _ => .timeoutCompensated))

/-- A compensation, and then the status. -/
theorem compensate_return (charge : Charge) (c : Compensation) (status : SagaStatus)
    (tr : List Report) :
    ∃ es result, Coroutine.exec (compensateStripeCharge charge c >>= fun _ => pure status) tr =
        (result.map (fun _ => status), tr ++ es) ∧ c.Ends charge es result := by
  obtain ⟨es, result, hexec, hends⟩ := compensate_ends charge c tr
  refine ⟨es, result, ?_, hends⟩
  cases result with
  | error e => exact exec_bind_error hexec
  | ok u => exact exec_bind_ok hexec

/-- The body of the `try`. -/
theorem try_ends (charge : Charge) (o : Outcomes) (tr : List Report) :
    ∃ es result, Coroutine.exec (do
        let resp ← sendTransaction o.engine
        if resp.status = 0 then
          broadcast charge.id (.commit resp.transactionId resp.latencyUs) o.commit
          pure SagaStatus.success
        else
          broadcast charge.id (.validationFailed resp.message) o.validationFailed
          compensateStripeCharge charge o.rejected
          pure SagaStatus.compensated) tr = (result, tr ++ es) ∧ TryEnds charge o es result := by
  cases hengine : o.engine with
  | raises e =>
      have hsend : (sendTransaction (.raises e)).exec tr =
          (.error e, tr ++ [.engine (.raises e)]) := rfl
      exact ⟨_, _, exec_bind_error hsend, .raised e hengine⟩
  | returns resp =>
      have hsend : (sendTransaction (.returns resp)).exec tr =
          (.ok resp, tr ++ [.engine (.returns resp)]) := rfl
      rw [exec_bind_ok hsend]
      by_cases hstatus : resp.status = 0
      · rw [if_pos hstatus]
        cases hcommit : o.commit with
        | none =>
            have hnotice := exec_broadcast charge.id (.commit resp.transactionId resp.latencyUs)
              none (tr ++ [.engine (.returns resp)])
            rw [exec_bind_ok hnotice, List.append_assoc]
            exact ⟨_, _, rfl, .success resp hengine hstatus hcommit⟩
        | some e =>
            have hnotice := exec_broadcast charge.id (.commit resp.transactionId resp.latencyUs)
              (some e) (tr ++ [.engine (.returns resp)])
            rw [exec_bind_error hnotice, List.append_assoc]
            exact ⟨_, _, rfl, .commitRaised resp e hengine hstatus hcommit⟩
      · rw [if_neg hstatus]
        cases hfailed : o.validationFailed with
        | none =>
            have hnotice := exec_broadcast charge.id (.validationFailed resp.message)
              none (tr ++ [.engine (.returns resp)])
            rw [exec_bind_ok hnotice, List.append_assoc]
            obtain ⟨es, result, hexec, hends⟩ := compensate_return charge o.rejected .compensated
              (tr ++ ([.engine (.returns resp)] ++
                [.broadcast charge.id (.validationFailed resp.message)]))
            refine ⟨_, _, ?_, .compensated resp es result hengine hstatus hfailed hends⟩
            rw [hexec, List.append_assoc]
            rfl
        | some e =>
            have hnotice := exec_broadcast charge.id (.validationFailed resp.message)
              (some e) (tr ++ [.engine (.returns resp)])
            rw [exec_bind_error hnotice, List.append_assoc]
            exact ⟨_, _, rfl, .noticeRaised resp e hengine hstatus hfailed⟩

/-- **Every saga ends in one of these ways.** -/
theorem saga_ends (charge : Charge) (o : Outcomes) :
    ∃ tr result, (executePaymentSaga charge o).exec [] = (result, tr) ∧
      SagaEnds charge o tr result := by
  unfold executePaymentSaga
  cases hdispatch : o.dispatch with
  | some e =>
      have hnotice := exec_broadcast charge.id .dispatchZmq (some e) []
      exact ⟨_, _, exec_bind_error hnotice, .notSent e hdispatch⟩
  | none =>
      have hnotice := exec_broadcast charge.id .dispatchZmq none []
      rw [exec_bind_ok hnotice]
      obtain ⟨es, result, hbody, hends⟩ := try_ends charge o
        ([] ++ [.broadcast charge.id .dispatchZmq])
      cases hresult : result with
      | ok status =>
          rw [hresult] at hbody hends
          exact ⟨_, _, exec_try_ok hbody, .tried es _ hdispatch hends (fun e h => by cases h)⟩
      | error e =>
          rw [hresult] at hbody hends
          rw [exec_try_error hbody]
          cases he : e.isTimeout with
          | false =>
              refine ⟨_, _, ?_, .tried es _ hdispatch hends (fun e' h => by cases h; exact he)⟩
              rw [if_neg (by decide)]
              rfl
          | true =>
              rw [if_pos rfl]
              have hnotice' := exec_broadcast charge.id .engineTimeout o.engineTimeout
                ([] ++ [.broadcast charge.id .dispatchZmq] ++ es)
              cases htimeout : o.engineTimeout with
              | some e' =>
                  rw [htimeout] at hnotice'
                  exact ⟨_, _, exec_bind_error hnotice',
                    .noticeRaised es e e' hdispatch hends he htimeout⟩
              | none =>
                  rw [htimeout] at hnotice'
                  rw [exec_bind_ok hnotice']
                  obtain ⟨es', result', hexec, hends'⟩ := compensate_return charge o.timedOut
                    .timeoutCompensated ([] ++ [.broadcast charge.id .dispatchZmq] ++ es ++
                      [.broadcast charge.id .engineTimeout])
                  exact ⟨_, _, hexec, .timedOut es e es' result' hdispatch hends he htimeout hends'⟩

end Saga

/-! ## §4. The same calls, one `await` at a time.

    `Gateway.Saga` gives the coroutine by where it stands.  There an exception is
    one `except Exception` takes, and only the engine times out. -/

/-- The outcomes of the compensation that ends in the status. -/
def Outcomes.compensation (o : Outcomes) : SagaStatus → Compensation
  | .success => o.rejected
  | .compensated => o.rejected
  | .timeoutCompensated => o.timedOut

/-- The outcome of the broadcast at this place. -/
def Outcomes.broadcastAt (o : Outcomes) : TaskPc → Option Raised
  | .broadcastDispatch => o.dispatch
  | .broadcastCommit _ => o.commit
  | .broadcastValidationFailed _ => o.validationFailed
  | .broadcastTimeout => o.engineTimeout
  | .broadcastRefund status => (o.compensation status).success
  | .broadcastRefundFailed _ status => (o.compensation status).failed
  | _ => none

/-- The text of what the refund has raised. -/
def RefundOutcome.text : RefundOutcome → Option String
  | .accepted => none
  | .raises e => some e.text

/-- Where `send_transaction` leaves the saga. -/
def EngineOutcome.next (charge : Charge) : EngineOutcome → TaskPc
  | .returns resp => (Job.saga charge).onResult resp
  | .raises e =>
      if e.isTimeout = true then (Job.saga charge).onTimeout else (Job.saga charge).onError

/-- The call a coroutine makes where it stands, and where it stands behind it. -/
inductive Goes (charge : Charge) (o : Outcomes) : TaskPc → Report → TaskPc → Prop
  | send : Goes charge o .send (.engine o.engine) (o.engine.next charge)
  | refund (status : SagaStatus) :
      Goes charge o (.createRefund status)
        (.refund charge.refund (o.compensation status).refund)
        (.onRefund (o.compensation status).refund.text status)
  | broadcast {pc : TaskPc} {message : SagaMessage} : pc.message = some message →
      Goes charge o pc (.broadcast charge.id message)
        (pc.onBroadcast ((o.broadcastAt pc).map Raised.text))

/-- An exception that is not told apart from others. -/
def Raised.Plain : Raised → Prop
  | .exception _ => True
  | _ => False

/-- Such exceptions only; the engine may time out. -/
structure Outcomes.Plain (o : Outcomes) : Prop where
  broadcast : ∀ pc e, o.broadcastAt pc = some e → e.Plain
  refund : ∀ status e, (o.compensation status).refund = .raises e → e.Plain

/-- Where the saga stands at its end. -/
def endPc : Except Raised SagaStatus → TaskPc
  | .ok status => .returned (some status)
  | .error _ => .raised

section Path

variable {charge : Charge} {o : Outcomes} {es : List Report}

open Transition

theorem goes_broadcast (pc : TaskPc) {message : SagaMessage} {raises : Option Raised}
    (hmessage : pc.message = some message) (hraises : o.broadcastAt pc = raises) :
    Path (Goes charge o) pc [.broadcast charge.id message]
      (pc.onBroadcast (raises.map Raised.text)) := by
  rw [← hraises]
  exact .single (.broadcast hmessage)

theorem goes_refund {status : SagaStatus} {answer : RefundOutcome}
    (hanswer : (o.compensation status).refund = answer) :
    Path (Goes charge o) (.createRefund status) [.refund charge.refund answer]
      (.onRefund answer.text status) := by
  rw [← hanswer]
  exact .single (.refund status)

theorem goes_send (charge : Charge) {outcome : EngineOutcome} (hengine : o.engine = outcome) :
    Path (Goes charge o) .send [.engine outcome] (outcome.next charge) := by
  rw [← hengine]
  exact .single .send

theorem Raised.Plain.isException {e : Raised} (h : e.Plain) : e.isException = true := by
  cases e with
  | zmqTimeoutError text => cases h
  | exception text => rfl
  | baseException text => cases h

theorem Raised.Plain.isTimeout {e : Raised} (h : e.Plain) : e.isTimeout = false := by
  cases e with
  | zmqTimeoutError text => cases h
  | exception text => rfl
  | baseException text => cases h

/-- The report of a failure is the last call. -/
theorem failed_path {status : SagaStatus} (reason : String) :
    Path (Goes charge o) (.broadcastRefundFailed reason status)
      [.broadcast charge.id (.stripeRefundFailed reason)]
      (endPc ((ended (o.compensation status).failed).map (fun _ => status))) := by
  cases hfailed : (o.compensation status).failed with
  | none => exact goes_broadcast (.broadcastRefundFailed reason status) rfl hfailed
  | some e => exact goes_broadcast (.broadcastRefundFailed reason status) rfl hfailed

theorem compensation_path {status : SagaStatus} {result : Except Raised Unit} (hplain : o.Plain)
    (hends : (o.compensation status).Ends charge es result) :
    Path (Goes charge o) (.createRefund status) es (endPc (result.map (fun _ => status))) := by
  cases hends with
  | accepted hrefund hsuccess =>
      exact (goes_refund hrefund).trans (goes_broadcast (.broadcastRefund status) rfl hsuccess)
  | left e hrefund hsuccess he =>
      have hexception := (hplain.broadcast (.broadcastRefund status) e hsuccess).isException
      rw [he] at hexception
      cases hexception
  | turned e hrefund hsuccess he =>
      exact ((goes_refund hrefund).trans
        (goes_broadcast (.broadcastRefund status) rfl hsuccess)).trans (failed_path e.text)
  | refused e hrefund he => exact (goes_refund hrefund).trans (failed_path e.text)
  | interrupted e hrefund he =>
      have hexception := (hplain.refund status e hrefund).isException
      rw [he] at hexception
      cases hexception

theorem try_path {result : Except Raised SagaStatus} (hplain : o.Plain)
    (h : TryEnds charge o es result) (hno : ∀ e, result = .error e → e.isTimeout = false) :
    Path (Goes charge o) .send es (endPc result) := by
  cases h with
  | raised e hengine =>
      have hsend := goes_send charge hengine
      rw [EngineOutcome.next, hno e rfl] at hsend
      exact hsend
  | success resp hengine hstatus hcommit =>
      have hsend := goes_send charge hengine
      rw [EngineOutcome.next, Job.onResult, if_pos hstatus] at hsend
      exact hsend.trans (goes_broadcast (.broadcastCommit resp) rfl hcommit)
  | commitRaised resp e hengine hstatus hcommit =>
      have hsend := goes_send charge hengine
      rw [EngineOutcome.next, Job.onResult, if_pos hstatus] at hsend
      exact hsend.trans (goes_broadcast (.broadcastCommit resp) rfl hcommit)
  | noticeRaised resp e hengine hstatus hfailed =>
      have hsend := goes_send charge hengine
      rw [EngineOutcome.next, Job.onResult, if_neg hstatus] at hsend
      exact hsend.trans (goes_broadcast (.broadcastValidationFailed resp) rfl hfailed)
  | compensated resp es' result' hengine hstatus hfailed hends =>
      have hsend := goes_send charge hengine
      rw [EngineOutcome.next, Job.onResult, if_neg hstatus] at hsend
      exact (hsend.trans (goes_broadcast (.broadcastValidationFailed resp) rfl hfailed)).trans
        (compensation_path hplain hends)

/-- With such exceptions only the engine times out. -/
theorem timeout_path {e : Raised} (hplain : o.Plain) (h : TryEnds charge o es (.error e))
    (he : e.isTimeout = true) : Path (Goes charge o) .send es .broadcastTimeout := by
  have hnot : ∀ pc, o.broadcastAt pc = some e → False := by
    intro pc hraises
    have hfalse := (hplain.broadcast pc e hraises).isTimeout
    rw [he] at hfalse
    cases hfalse
  generalize hresult : (Except.error e : Except Raised SagaStatus) = result at h
  cases h with
  | raised e' hengine =>
      cases hresult
      have hsend := goes_send charge hengine
      rw [EngineOutcome.next, if_pos he] at hsend
      exact hsend
  | success resp hengine hstatus hcommit => cases hresult
  | commitRaised resp e' hengine hstatus hcommit =>
      cases hresult
      exact absurd hcommit (hnot (.broadcastCommit resp))
  | noticeRaised resp e' hengine hstatus hfailed =>
      cases hresult
      exact absurd hfailed (hnot (.broadcastValidationFailed resp))
  | compensated resp es' result' hengine hstatus hfailed hends =>
      cases result' with
      | ok u => cases hresult
      | error e' =>
          cases hresult
          obtain ⟨⟨e', hraises, he'⟩, -⟩ := hends.raisesTimeout_iff.mp ⟨e, rfl, he⟩
          have hfalse :=
            (hplain.broadcast (.broadcastRefundFailed "" .compensated) e' hraises).isTimeout
          rw [he'] at hfalse
          cases hfalse

end Path

/-- **The coroutine of `Gateway.Saga` makes the same calls**, and ends the same. -/
theorem saga_path (charge : Charge) {o : Outcomes} (hplain : o.Plain) :
    Transition.Path (Goes charge o) (Job.saga charge).start.pc
      ((executePaymentSaga charge o).exec []).2
      (endPc ((executePaymentSaga charge o).exec []).1) := by
  obtain ⟨tr, result, hexec, hends⟩ := saga_ends charge o
  rw [hexec]
  show Transition.Path (Goes charge o) .broadcastDispatch tr (endPc result)
  cases hends with
  | notSent e hdispatch => exact goes_broadcast .broadcastDispatch rfl hdispatch
  | tried es _ hdispatch htry hno =>
      exact (goes_broadcast .broadcastDispatch rfl hdispatch).trans (try_path hplain htry hno)
  | noticeRaised es e e' hdispatch htry he htimeout =>
      exact ((goes_broadcast .broadcastDispatch rfl hdispatch).trans
        (timeout_path hplain htry he)).trans (goes_broadcast .broadcastTimeout rfl htimeout)
  | timedOut es e es' result' hdispatch htry he htimeout hends' =>
      exact (((goes_broadcast .broadcastDispatch rfl hdispatch).trans
        (timeout_path hplain htry he)).trans (goes_broadcast .broadcastTimeout rfl htimeout)).trans
        (compensation_path hplain (show (o.compensation .timeoutCompensated).Ends charge es' _ from
          hends'))

end ZeroLGR.Gateway
