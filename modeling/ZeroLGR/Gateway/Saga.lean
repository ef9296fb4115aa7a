/-
  ZeroLGR.Gateway.Saga — gateway/saga.py and gateway/stripe_handler.py.

  A webhook runs a coroutine: the payment saga of a charge, or the reversal of a
  refunded one.  So does a call of `create_transfer`.  A coroutine is given here
  by where it stands at its next `await`, and by what it does with the outcome:
  an answer of the engine, a timeout, an exception.

    • `Settings`, `Charge`, `Transfer` — what is sent, and for what,
    • `SagaMessage` — what is broadcast,
    • `Job`, `TaskPc`, `Task` — the coroutines,
    • `Job.onResult`, `Job.onTimeout`, `Job.onError`, `TaskPc.onBroadcast`,
      `TaskPc.onRefund` — how they go on,
    • `transferMessage_read` — the engine reads the transfer that was meant.
-/
import ZeroLGR.Gateway.Codec

namespace ZeroLGR.Gateway

open Ledger Server

/-! ## §1. What is sent. -/

/-- The settings of the two accounts the gateway books on. -/
structure Settings where
  stripeEscrowAccountId : String
  merchantRevenueAccountId : String
  deriving DecidableEq

/-- The defaults of `config.py`. -/
def Settings.defaults : Settings where
  stripeEscrowAccountId := "acc_stripe_escrow"
  merchantRevenueAccountId := "acc_merchant_revenue"

/-- What is read of a charge object. -/
structure Charge where
  id : String
  amount : Int
  currency : String
  deriving DecidableEq

/-- The arguments of `send_transaction`. -/
structure Transfer where
  debitAccountId : String
  creditAccountId : String
  amountMinor : Int
  currency : String
  description : String
  idempotencyKey : String
  stripeChargeId : String
  deriving DecidableEq

/-- The idempotency key of the transfer for a charge. -/
def chargeKey (id : String) : String := "charge-" ++ id

/-- The idempotency key of its reversal. -/
def reversalKey (id : String) : String := "reversal-" ++ id

/-- What `execute_payment_saga` sends. -/
def Settings.credit (settings : Settings) (charge : Charge) : Transfer where
  debitAccountId := settings.stripeEscrowAccountId
  creditAccountId := settings.merchantRevenueAccountId
  amountMinor := charge.amount
  currency := charge.currency
  description := "Stripe Charge " ++ charge.id
  idempotencyKey := chargeKey charge.id
  stripeChargeId := charge.id

/-- What the webhook `charge.refunded` sends. -/
def Settings.reversal (settings : Settings) (charge : Charge) : Transfer where
  debitAccountId := settings.merchantRevenueAccountId
  creditAccountId := settings.stripeEscrowAccountId
  amountMinor := charge.amount
  currency := charge.currency
  description := "Refund " ++ charge.id
  idempotencyKey := reversalKey charge.id
  stripeChargeId := charge.id

/-- The message of a transfer. -/
def Transfer.message (corrId : Uuid) (args : Transfer) : Py Bytes :=
  transactionMessage corrId args.debitAccountId args.creditAccountId args.amountMinor args.currency
    args.description args.idempotencyKey args.stripeChargeId

/-! ## §2. The coroutines. -/

/-- `SagaResult.status`. -/
inductive SagaStatus where
  | success
  | compensated
  | timeoutCompensated
  deriving DecidableEq

/-- The `SAGA_EVENT` messages. -/
inductive SagaMessage where
  | dispatchZmq
  | commit (txId : String) (latencyUs : Int)
  | validationFailed (reason : String)
  | engineTimeout
  | stripeRefund
  | stripeRefundFailed (reason : String)
  deriving DecidableEq

/-- What a coroutine is for. -/
inductive Job where
  | saga (charge : Charge)
  | reversal (charge : Charge)
  | transfer (args : Transfer)
  deriving DecidableEq

/-- Where a coroutine stands. -/
inductive TaskPc where
  | broadcastDispatch
  | send
  | wait (corrId : Uuid)
  | broadcastCommit (result : TransactionResult)
  | broadcastValidationFailed (result : TransactionResult)
  | broadcastTimeout
  | createRefund (status : SagaStatus)
  | broadcastRefund (status : SagaStatus)
  | broadcastRefundFailed (reason : String) (status : SagaStatus)
  | returned (result : Option SagaStatus)
  | raised
  deriving DecidableEq

structure Task where
  job : Job
  pc : TaskPc
  deriving DecidableEq

/-- The coroutine at its first `await`. -/
def Job.start : Job → Task
  | .saga charge => ⟨.saga charge, .broadcastDispatch⟩
  | .reversal charge => ⟨.reversal charge, .send⟩
  | .transfer args => ⟨.transfer args, .send⟩

/-- The transfer a coroutine sends. -/
def Job.args (settings : Settings) : Job → Transfer
  | .saga charge => settings.credit charge
  | .reversal charge => settings.reversal charge
  | .transfer args => args

/-- `send_transaction` has raised, and not for a timeout.  The reversal prints
every exception. -/
def Job.onError : Job → TaskPc
  | .saga _ => .raised
  | .reversal _ => .returned none
  | .transfer _ => .raised

/-- `send_transaction` has returned. -/
def Job.onResult : Job → TransactionResult → TaskPc
  | .saga _, result =>
      if result.status = 0 then .broadcastCommit result else .broadcastValidationFailed result
  | .reversal _, _ => .returned none
  | .transfer _, result => if result.status = 0 then .returned none else .raised

/-- `send_transaction` has got an answer. -/
def Job.onResponse (job : Job) (response : Bytes) : TaskPc :=
  match parseTransaction response with
  | .ok result => job.onResult result
  | .error _ => job.onError

/-- `send_transaction` has raised `ZMQTimeoutError`. -/
def Job.onTimeout : Job → TaskPc
  | .saga _ => .broadcastTimeout
  | .reversal _ => .returned none
  | .transfer _ => .raised

/-- What is broadcast at this place. -/
def TaskPc.message : TaskPc → Option SagaMessage
  | .broadcastDispatch => some .dispatchZmq
  | .broadcastCommit result => some (.commit result.transactionId result.latencyUs)
  | .broadcastValidationFailed result => some (.validationFailed result.message)
  | .broadcastTimeout => some .engineTimeout
  | .broadcastRefund _ => some .stripeRefund
  | .broadcastRefundFailed reason _ => some (.stripeRefundFailed reason)
  | _ => none

/-- A broadcast has returned, or raised an exception with the text.  The one
after the refund is inside the `try` of `compensate_stripe_charge`. -/
def TaskPc.onBroadcast (raises : Option String) : TaskPc → TaskPc
  | .broadcastDispatch => if raises.isSome = true then .raised else .send
  | .broadcastCommit _ => if raises.isSome = true then .raised else .returned (some .success)
  | .broadcastValidationFailed _ =>
      if raises.isSome = true then .raised else .createRefund .compensated
  | .broadcastTimeout =>
      if raises.isSome = true then .raised else .createRefund .timeoutCompensated
  | .broadcastRefund status =>
      match raises with
      | some reason => .broadcastRefundFailed reason status
      | none => .returned (some status)
  | .broadcastRefundFailed _ status =>
      if raises.isSome = true then .raised else .returned (some status)
  | pc => pc

/-- `stripe.Refund.create` has returned, or raised. -/
def TaskPc.onRefund (raises : Option String) (status : SagaStatus) : TaskPc :=
  match raises with
  | some reason => .broadcastRefundFailed reason status
  | none => .broadcastRefund status

/-! ## §3. On the wire. -/

/-- The request the engine is to read. -/
def Transfer.request (corrId : Uuid) (args : Transfer) : TransactionRequest :=
  requestOf corrId args.debitAccountId args.creditAccountId (Int64.ofInt args.amountMinor)
    args.currency args.description args.idempotencyKey args.stripeChargeId

/-- Only a string that fits is written. -/
theorem length_of_writeString {s : String} {bs : Bytes} (h : writeString s = .ok bs) :
    (encodeUtf8 s).length < 2 ^ 32 := by
  obtain ⟨length, hlength, -⟩ := bind_eq_ok.mp h
  unfold packI at hlength
  split at hlength
  · next hlt => exact hlt
  · cases hlength

/-- Only an amount that fits is written. -/
theorem amount_of_packQ {n : Int} {bs : Bytes} (h : packQ n = .ok bs) :
    (Int64.ofInt n).toInt = n := by
  unfold packQ at h
  split at h
  · next hfits => exact Int64.toInt_ofInt_of_le hfits.1 hfits.2
  · cases h

/-- **The engine reads the transfer that was meant**, if the message could be
written at all. -/
theorem transferMessage_read {corrId : Uuid} {args : Transfer} {msg : Bytes}
    (h : args.message corrId = .ok msg) :
    deserializeRequest msg = some (args.request corrId) := by
  have hwritten := h
  unfold Transfer.message transactionMessage at h
  obtain ⟨_, hamount, h⟩ := bind_eq_ok.mp h
  obtain ⟨_, hdebit, h⟩ := bind_eq_ok.mp h
  obtain ⟨_, hcredit, h⟩ := bind_eq_ok.mp h
  obtain ⟨_, hkey, h⟩ := bind_eq_ok.mp h
  obtain ⟨_, hdescription, h⟩ := bind_eq_ok.mp h
  obtain ⟨_, hcurrency, h⟩ := bind_eq_ok.mp h
  obtain ⟨_, hcharge, -⟩ := bind_eq_ok.mp h
  obtain ⟨msg', hmsg', hread, -⟩ := transactionMessage_read corrId (Int64.ofInt args.amountMinor)
    (length_of_writeString hdebit) (length_of_writeString hcredit)
    (length_of_writeString hcurrency) (length_of_writeString hdescription)
    (length_of_writeString hkey) (length_of_writeString hcharge)
  rw [amount_of_packQ hamount] at hmsg'
  rw [Transfer.message, hmsg'] at hwritten
  cases hwritten
  exact hread

end ZeroLGR.Gateway
