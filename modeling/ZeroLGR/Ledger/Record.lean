/-
  ZeroLGR.Ledger.Record — what the record of a run says, and where requests are.

  The record of a run lists the requests that were popped, how each was decided
  (answered from the cache, or validated with a status), the frames that were
  appended, the transfers that were applied and the responses that were built.
  Between two of these lists there is at most one request: the one the engine
  thread has in hand.

    • `popped`, `decided`, `validated`, `accepted`, `logged`, `applied`,
      `answered`, `responses`, `handedOut` — the lists,
    • `Pc.undecided`, `Pc.unlogged`, `Pc.unapplied`, `Pc.unanswered` — the
      request in hand, for each pair of lists,
    • `Bookkeeping`, `run_bookkeeping` — the lists agree up to that request, at
      every point of every run.
-/
import ZeroLGR.Ledger.Engine

namespace ZeroLGR.Ledger

open Transition

/-! ## §1. The lists of a record. -/

/-- A frame of the log, with the request and the identifier it was made from. -/
structure LogEntry where
  req : TransactionRequest
  txId : Uuid
  payload : Bytes
  deriving DecidableEq

def Event.asPopped : Event → Option TransactionRequest
  | .popped req => some req
  | _ => none

/-- A request that was answered from the cache has no status of its own. -/
def Event.asDecided : Event → Option (TransactionRequest × Option TxStatus)
  | .cacheHit req _ => some (req, none)
  | .validated req status => some (req, some status)
  | _ => none

def Event.asValidated : Event → Option (TransactionRequest × TxStatus)
  | .validated req status => some (req, status)
  | _ => none

def Event.asAccepted : Event → Option TransactionRequest
  | .validated req .ok => some req
  | _ => none

def Event.asLogged : Event → Option LogEntry
  | .appended req txId payload => some ⟨req, txId, payload⟩
  | _ => none

def Event.asApplied : Event → Option TransactionRequest
  | .applied req _ => some req
  | _ => none

/-- The status a request was answered with when it was not in the cache. -/
def Event.asAnswered : Event → Option (TransactionRequest × TxStatus)
  | .responded req resp => some (req, resp.status)
  | _ => none

/-- A response that was built for a request, from the cache or anew. -/
def Event.asResponse : Event → Option (TransactionRequest × TransactionResponse)
  | .cacheHit req resp => some (req, resp)
  | .responded req resp => some (req, resp)
  | _ => none

/-- The identifier of an account that was created. -/
def Event.asCreated : Event → Option Bytes
  | .accountCreated resp => if resp.status = .ok then some resp.accountId else none
  | _ => none

/-- The requests taken from the request queue. -/
def popped (tr : List Event) : List TransactionRequest := tr.filterMap Event.asPopped

/-- The requests the thread has decided on, and how. -/
def decided (tr : List Event) : List (TransactionRequest × Option TxStatus) :=
  tr.filterMap Event.asDecided

/-- The requests that were validated, and the outcome. -/
def validated (tr : List Event) : List (TransactionRequest × TxStatus) :=
  tr.filterMap Event.asValidated

/-- The requests that were validated OK and not answered from the cache. -/
def accepted (tr : List Event) : List TransactionRequest := tr.filterMap Event.asAccepted

/-- The frames `append` has returned for. -/
def logged (tr : List Event) : List LogEntry := tr.filterMap Event.asLogged

/-- The requests `apply_transaction` has returned for. -/
def applied (tr : List Event) : List TransactionRequest := tr.filterMap Event.asApplied

/-- The requests that got a response of their own, and its status. -/
def answered (tr : List Event) : List (TransactionRequest × TxStatus) :=
  tr.filterMap Event.asAnswered

/-- All responses built, with the requests they answer. -/
def responses (tr : List Event) : List (TransactionRequest × TransactionResponse) :=
  tr.filterMap Event.asResponse

/-- The identifiers `create_account` has handed out. -/
def handedOut (tr : List Event) : List Bytes := tr.filterMap Event.asCreated

section Lists

variable (tr es : List Event)

@[simp] theorem popped_append : popped (tr ++ es) = popped tr ++ popped es := List.filterMap_append
@[simp] theorem decided_append : decided (tr ++ es) = decided tr ++ decided es :=
  List.filterMap_append
@[simp] theorem validated_append : validated (tr ++ es) = validated tr ++ validated es :=
  List.filterMap_append
@[simp] theorem accepted_append : accepted (tr ++ es) = accepted tr ++ accepted es :=
  List.filterMap_append
@[simp] theorem logged_append : logged (tr ++ es) = logged tr ++ logged es := List.filterMap_append
@[simp] theorem applied_append : applied (tr ++ es) = applied tr ++ applied es :=
  List.filterMap_append
@[simp] theorem answered_append : answered (tr ++ es) = answered tr ++ answered es :=
  List.filterMap_append
@[simp] theorem responses_append : responses (tr ++ es) = responses tr ++ responses es :=
  List.filterMap_append
@[simp] theorem handedOut_append : handedOut (tr ++ es) = handedOut tr ++ handedOut es :=
  List.filterMap_append

/-- A frame is one more entry of the log. -/
theorem logged_appended (req : TransactionRequest) (txId : Uuid) (payload : Bytes) :
    logged (tr ++ [.appended req txId payload]) = logged tr ++ [⟨req, txId, payload⟩] :=
  logged_append tr _

end Lists

/-! ## §2. The request in hand. -/

/-- Popped, and neither found in the cache nor validated. -/
def Pc.undecided : Pc → List TransactionRequest
  | .findCached req => [req]
  | .validate req => [req]
  | _ => []

/-- Validated OK, and not in the log. -/
def Pc.unlogged : Pc → List TransactionRequest
  | .generateUuid req _ => [req]
  | .appendWal req _ _ => [req]
  | .terminated req => [req]
  | _ => []

/-- In the log, and not applied. -/
def Pc.unapplied : Pc → List TransactionRequest
  | .applyTransaction req _ _ => [req]
  | _ => []

/-- Validated, and without a response. -/
def Pc.unanswered : Pc → List (TransactionRequest × TxStatus)
  | .generateUuid req _ => [(req, .ok)]
  | .appendWal req _ _ => [(req, .ok)]
  | .applyTransaction req _ _ => [(req, .ok)]
  | .buildResponse req _ _ status => [(req, status)]
  | .terminated req => [(req, .ok)]
  | _ => []

/-- An exception has ended the thread. -/
def Pc.threw : Pc → Bool
  | .terminated _ => true
  | _ => false

/-- All four at once. -/
def Pc.hands (pc : Pc) :
    List TransactionRequest × List TransactionRequest × List TransactionRequest ×
      List (TransactionRequest × TxStatus) :=
  (pc.undecided, pc.unlogged, pc.unapplied, pc.unanswered)

theorem Pc.hands_idle {pc : Pc} (h : pc.idle = true) : pc.hands = ([], [], [], []) := by
  cases pc <;> first | rfl | cases h

/-- **The lists of the record agree up to the request in hand.** -/
structure Bookkeeping (pc : Pc) (tr : List Event) : Prop where
  popped_eq : popped tr = (decided tr).map Prod.fst ++ pc.undecided
  accepted_eq : accepted tr = (logged tr).map LogEntry.req ++ pc.unlogged
  logged_eq : (logged tr).map LogEntry.req = applied tr ++ pc.unapplied
  answered_eq : validated tr = answered tr ++ pc.unanswered

/-- What was accepted was taken from the queue. -/
theorem Bookkeeping.accepted_popped {pc : Pc} {tr : List Event} (h : Bookkeeping pc tr)
    {req : TransactionRequest} (hreq : req ∈ accepted tr) : req ∈ popped tr := by
  obtain ⟨e, he, hasAccepted⟩ := List.mem_filterMap.mp hreq
  have hdecided : e.asDecided = some (req, some .ok) := by
    unfold Event.asAccepted at hasAccepted
    split at hasAccepted
    · cases hasAccepted
      rfl
    · cases hasAccepted
  rw [h.popped_eq]
  exact List.mem_append_left _ (List.mem_map_of_mem (List.mem_filterMap.mpr ⟨e, he, hdecided⟩))

/-! ## §3. Every step keeps the books. -/

section Steps

variable {s s' : LedgerEngine} {a : Action} {tr es : List Event}

/-- Silent events are in none of the lists. -/
theorem Silent.lists (h : Silent es) :
    popped es = [] ∧ decided es = [] ∧ validated es = [] ∧ accepted es = [] ∧ logged es = [] ∧
      applied es = [] ∧ answered es = [] ∧ responses es = [] := by
  refine ⟨h.filterMap ?_, h.filterMap ?_, h.filterMap ?_, h.filterMap ?_, h.filterMap ?_,
    h.filterMap ?_, h.filterMap ?_, h.filterMap ?_⟩ <;> intro e he <;> cases e <;> first | rfl | cases he

/-- Silent events with no change of the request in hand keep the books. -/
theorem Bookkeeping.quiet {pc pc' : Pc} (h : Bookkeeping pc tr) (hes : Silent es)
    (hhands : pc'.hands = pc.hands) : Bookkeeping pc' (tr ++ es) := by
  obtain ⟨hpop, hdec, hval, hacc, hlog, happ, hans, -⟩ := hes.lists
  simp only [Pc.hands, Prod.mk.injEq] at hhands
  obtain ⟨hundec, hunlog, hunapp, hunans⟩ := hhands
  constructor
  · rw [popped_append, decided_append, hpop, hdec, hundec, List.append_nil, List.append_nil]
    exact h.popped_eq
  · rw [accepted_append, logged_append, hacc, hlog, hunlog, List.append_nil, List.append_nil]
    exact h.accepted_eq
  · rw [logged_append, applied_append, hlog, happ, hunapp, List.append_nil, List.append_nil]
    exact h.logged_eq
  · rw [validated_append, answered_append, hval, hans, hunans, List.append_nil, List.append_nil]
    exact h.answered_eq

/-- **One step**: a request that enters a list leaves the hand, or stays in it
until the next list. -/
theorem Bookkeeping.step (h : Bookkeeping s.pc tr) (he : Effect s a s' es) :
    Bookkeeping s'.pc (tr ++ es) := by
  cases he with
  | aside hside => exact h.quiet hside.silent (hside.view (fun _ => Pc.hands_idle))
  | pop hpc _ | hit hpc _ | miss hpc _ | replyCached hpc | accept hpc _ | drawTxId hpc
  | append hpc _ | appendThrows hpc | apply hpc | cache hpc _ | noCache hpc _ | reply hpc =>
      -- the four equations of the books, at this place and at the next
      rw [hpc] at h
      obtain ⟨hpop, hacc, hlog, hans⟩ := h
      simp only [Pc.undecided, Pc.unlogged, Pc.unapplied, Pc.unanswered] at hpop hacc hlog hans
      constructor <;> simp [hpop, hacc, hlog, hans] <;> rfl
  | build hpc _ _ hstatus _ =>
      -- the answer has the status of the validation
      rw [hpc] at h
      obtain ⟨hpop, hacc, hlog, hans⟩ := h
      simp only [Pc.undecided, Pc.unlogged, Pc.unapplied, Pc.unanswered] at hpop hacc hlog hans
      rw [← hstatus] at hans
      constructor <;> simp [hpop, hacc, hlog, hans] <;> rfl
  | @reject now os req status hpc _ hbad =>
      rw [hpc] at h
      obtain ⟨hpop, hacc, hlog, hans⟩ := h
      simp only [Pc.undecided, Pc.unlogged, Pc.unapplied, Pc.unanswered] at hpop hacc hlog hans
      -- a status other than OK accepts nothing
      have hnone : accepted [.validated req status] = [] := by
        cases status with
        | ok => exact absurd rfl hbad
        | errInsufficientFunds | errAccountNotFound | errInvariantViolated | errInternal => rfl
      constructor
      · simp [hpop]
        rfl
      · rw [accepted_append, hnone, hacc]
        simp
        exact ⟨rfl, rfl⟩
      · simp [hlog]
        rfl
      · simp [hans]
        rfl
  | drawAccountId => exact h.quiet (by simp [Silent]) rfl
  | commitAccount _ => exact h.quiet (by simp [Silent, Event.silent]) rfl

end Steps

/-- **The books are right at every point of every run.** -/
theorem run_bookkeeping {w : Wal.WriteAheadLog} {acts : List Action} {t : Traced LedgerEngine Event}
    (h : runEngine (.init w) acts = some t) : Bookkeeping t.state.pc t.trace := by
  refine traced_invariant (fun s tr => Bookkeeping s.pc tr) ?_ ⟨rfl, rfl, rfl, rfl⟩ h
  intro s tr a s' es hbooks hstep
  exact hbooks.step (step_effect hstep)

end ZeroLGR.Ledger
