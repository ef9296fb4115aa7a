/-
  ZeroLGR.Ledger.Bank — what the engine is for, without its threads.

  A bank has accounts and a table of the answers it gave.  Each call happens at
  once: a request is validated, applied and answered in one step, under a
  transaction identifier of the bank's choice; accounts are created under fresh
  identifiers; a snapshot shows all accounts at one moment.  There is no queue,
  no log, no lock and no clock.

    • `Verdict`, `BankCall` — what the calls return,
    • `bank`, `Bank` — the service,
    • `bank_burns` — a key that was answered with an error never moves money.
-/
import ZeroLGR.Ledger.Accounts
import ZeroLGR.Lib.Memo

namespace ZeroLGR.Ledger

open Transition

/-! ## §1. The calls. -/

/-- What a client is told about a request.  The message is determined by the
status. -/
structure Verdict where
  transactionId : Uuid
  status : TxStatus
  deriving DecidableEq

/-- A call that is no request, with what it returns. -/
inductive BankCall where
  | created (resp : CreateAccountResponse)
  | snapshot (data : BalanceSnapshotData)
  | audited (ok : Bool)

/-- A request is applied if it is valid, and refused if it is not. -/
inductive Serves : Accounts → TransactionRequest → Verdict → Accounts → Prop
  | commit {accounts : Accounts} {req : TransactionRequest} {txId : Uuid} :
      validateTransaction accounts req = .ok →
      Serves accounts req ⟨txId, .ok⟩ (applyTransaction accounts req)
  | refuse {accounts : Accounts} {req : TransactionRequest} {status : TxStatus} :
      validateTransaction accounts req = status → status ≠ .ok →
      Serves accounts req ⟨Uuid.zero, status⟩ accounts

/-- The other calls.  An account gets an identifier that no account has. -/
inductive Other : Accounts → BankCall → Accounts → Prop
  | create {accounts : Accounts} {req : CreateAccountRequest} {id : Bytes} : id ∉ accounts →
      Other accounts (.created (commitAccount accounts req id).1)
        (commitAccount accounts req id).2
  | snapshot {accounts : Accounts} :
      Other accounts (.snapshot (getBalanceSnapshot accounts)) accounts
  | audit {accounts : Accounts} : Other accounts (.audited (checkInvariant accounts)) accounts

/-! ## §2. The service. -/

/-- The empty idempotency key is none. -/
def idempotencyKeyOf (req : TransactionRequest) : Option Bytes :=
  if req.idempotencyKey = [] then none else some req.idempotencyKey

theorem idempotencyKeyOf_of_ne {req : TransactionRequest} (h : req.idempotencyKey ≠ []) :
    idempotencyKeyOf req = some req.idempotencyKey := if_neg h

/-- The bank as a service that answers each key once. -/
def bank : Memo.Service Accounts TransactionRequest Bytes Verdict BankCall where
  key := idempotencyKeyOf
  Serves := Serves
  Other := Other

/-- Its states. -/
abbrev Bank := Memo.State Accounts Bytes Verdict

/-- A bank without accounts. -/
def Bank.empty : Bank := ⟨∅, fun _ => none⟩

/-- A call at the bank. -/
abbrev Call := Memo.Call TransactionRequest Verdict BankCall

/-- Calls at the bank, one after the other. -/
abbrev Sequential (calls : List Call) (b : Bank) : Prop :=
  Path (Memo.Step bank) Bank.empty calls b

/-- **An answer with an error is final**: no request with its key is committed,
before it or after it. -/
theorem bank_burns {calls : List Call} {b : Bank} (h : Sequential calls b)
    {req req' : TransactionRequest} {v v' : Verdict} (hkey : req.idempotencyKey ≠ [])
    (hsame : req'.idempotencyKey = req.idempotencyKey) (hcall : .answer req v ∈ calls)
    (hcall' : .answer req' v' ∈ calls) (hbad : v.status ≠ .ok) : v'.status ≠ .ok := by
  have hne : req'.idempotencyKey ≠ [] := by
    rw [hsame]
    exact hkey
  have hkey' : idempotencyKeyOf req' = some req.idempotencyKey := by
    rw [idempotencyKeyOf_of_ne hne, hsame]
  rw [← Memo.answers_agree h hcall hcall' (idempotencyKeyOf_of_ne hkey) hkey']
  exact hbad

end ZeroLGR.Ledger
