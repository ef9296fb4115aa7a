/-
  ZeroLGR.Gateway.Atomicity — committed or refunded, not both.

  The saga refunds a charge when the engine does not answer in time, and when
  the answer is not OK.  An answer of `run()` that is not OK is final.  A timeout
  says nothing, and neither does the answer of the I/O thread that the queue is
  full: the transfer may have been applied, or may be applied later.

    • `Atomic` — what is promised,
    • `Unbooked` — the transfer was not applied, and none is left that may be,
    • `GivenUp` — the charge is refunded, or will be,
    • `Prudent` — a charge is given up only when it is unbooked, and not sent again,
    • `Unbooked.step`, `givenUp_step` — one step,
    • `saga_atomic` — then no charge is both applied and refunded.
-/
import ZeroLGR.Gateway.System

namespace ZeroLGR.Gateway

open Transition Ledger Server

/-! ## §1. What is promised. -/

/-- The key of the transfer for a charge, as the engine sees it. -/
def keyOf (id : String) : Bytes := encodeUtf8 (chargeKey id)

/-- The charge was applied in the ledger. -/
def Credited (tr : List Event) (id : String) : Prop :=
  ∃ req ∈ applied (ledgerTrace tr), req.idempotencyKey = keyOf id

def Event.asRefund : Event → Option RefundRequest
  | .refund request _ => some request
  | _ => none

/-- The refunds asked for. -/
def refunds (tr : List Event) : List RefundRequest := tr.filterMap Event.asRefund

@[simp] theorem refunds_append (tr es : List Event) :
    refunds (tr ++ es) = refunds tr ++ refunds es := List.filterMap_append

theorem refunds_map (es : List Ledger.Event) : refunds (es.map .ledger) = [] := by
  unfold refunds
  rw [List.filterMap_map, List.filterMap_eq_nil_iff]
  intro e _
  rfl

/-- **Saga atomicity**: no charge is applied in the ledger and refunded too. -/
def Atomic (tr : List Event) : Prop := ∀ request ∈ refunds tr, ¬ Credited tr request.charge

/-! ## §2. The condition. -/

/-- The transfer for the charge was rejected, or nothing is left of it: it was
not applied, and will not be unless it is sent again. -/
def Unbooked (s : System) (tr : List Event) (id : String) : Prop :=
  Rejected s.engine (keyOf id) ∨
    OutOfReach s.engine (ledgerTrace tr) (keyOf id) ∧
      ∀ msg ∈ s.toEngine, (deserializeRequest msg).map (·.idempotencyKey) ≠ some (keyOf id)

instance (s : System) (tr : List Event) (id : String) : Decidable (Unbooked s tr id) :=
  inferInstanceAs (Decidable (_ ∨ _ ∧ _))

/-- The charge of a payment saga. -/
def Job.chargeId : Job → Option String
  | .saga charge => some charge.id
  | _ => none

/-- The saga is on its way to a refund. -/
def TaskPc.compensating : TaskPc → Bool
  | .broadcastValidationFailed _ => true
  | .broadcastTimeout => true
  | .createRefund _ => true
  | .broadcastRefund _ => true
  | .broadcastRefundFailed _ _ => true
  | _ => false

/-- The answer makes a saga refund. -/
def declines (msg : Bytes) : Bool :=
  match parseTransaction msg with
  | .ok result => decide (result.status ≠ 0)
  | .error _ => false

/-- The charge was refunded, a saga is on its way to it, or an answer is that
will make one. -/
def GivenUp (s : System) (tr : List Event) (id : String) : Prop :=
  id ∈ (refunds tr).map (·.charge) ∨
    (∃ task ∈ s.tasks, task.job.chargeId = some id ∧ task.pc.compensating = true) ∨
      ∃ msg ∈ s.toGateway, declines msg = true ∧
        ∃ c ∈ s.sent, receiverKey msg = some c.1.bytes ∧ c.2.idempotencyKey = chargeKey id

instance (s : System) (tr : List Event) (id : String) : Decidable (GivenUp s tr id) :=
  inferInstanceAs (Decidable (_ ∨ _ ∨ _))

/-- **A charge is given up only when it is unbooked**: by a saga that stops
waiting, and by the I/O thread that refuses its request.  Once it is given up,
its transfer is not sent again, unless the engine has rejected it. -/
structure Prudent (settings : Settings) (s : System) (tr : List Event) (a : Action) : Prop where
  timeout : ∀ i, a = .timeout i → ∀ charge pc, s.tasks[i]? = some ⟨.saga charge, pc⟩ →
    Unbooked s tr charge.id
  refuse : ∀ k u, a = .ioReceive k u → s.engine.requestQueue.items.length = queueCapacity →
    ∀ msg req id, s.toEngine[k]? = some msg → deserializeRequest msg = some req →
      req.idempotencyKey = keyOf id → Unbooked { s with toEngine := s.toEngine.eraseIdx k } tr id
  send : ∀ i corrId fails, a = .send i corrId fails → ∀ job id,
    s.tasks[i]? = some ⟨job, .send⟩ → (job.args settings).idempotencyKey = chargeKey id →
      GivenUp s tr id → Rejected s.engine (keyOf id)

/-- Every step of the run is prudent. -/
def AlwaysPrudent (settings : Settings) (wal : Wal.WriteAheadLog) (acts : List Action) : Prop :=
  ∀ t a t', Takes (traced (step settings)) ⟨.started wal, []⟩ acts t a t' →
    Prudent settings t.state t.trace a

/-! ## §3. The invariant. -/

theorem keyOf_ne_nil (id : String) : keyOf id ≠ [] := by
  refine encodeUtf8_ne_nil ?_
  simp [chargeKey]

theorem keyOf_inj {key id : String} (h : encodeUtf8 key = keyOf id) : key = chargeKey id :=
  encodeUtf8_inj h

/-- Answers have the correlation id of a transfer that was sent, and what is
given up is unbooked. -/
structure Backed (s : System) (tr : List Event) : Prop where
  answers : ∀ msg ∈ s.toGateway, ∃ c ∈ s.sent, receiverKey msg = some c.1.bytes
  unbooked : ∀ id, GivenUp s tr id → Unbooked s tr id

section Steps

variable {settings : Settings} {wal : Wal.WriteAheadLog} {bs : List Ledger.Action}
  {s s' : System} {a : Action} {tr es : List Event} {id : String}

/-- Messages to the engine are there before, or are sent in the step. -/
theorem Effect.toEngine (he : Effect settings s a s' es) :
    ∀ msg ∈ s'.toEngine, msg ∈ s.toEngine ∨ ∃ i corrId fails job, a = .send i corrId fails ∧
      s.tasks[i]? = some ⟨job, .send⟩ ∧ (job.args settings).message corrId = .ok msg := by
  intro m hm
  cases he with
  | ledger | drain | start | note | sendFails | receive | timeout | broadcast | refund =>
      exact .inl hm
  | submit | refuse => exact .inl (List.mem_of_mem_eraseIdx hm)
  | lose hsub _ => exact .inl (hsub hm)
  | @send i corrId fails job msg htask _ hmsg =>
      rcases List.mem_append.mp hm with hold | hnew
      · exact .inl hold
      · rw [List.mem_singleton.mp hnew]
        exact .inr ⟨i, corrId, fails, job, rfl, htask, hmsg⟩

/-- What is pushed was read from a message. -/
theorem Effect.pushed (he : Effect settings s a s' es) :
    ∀ req ∈ submitted (ledgerTrace es), ∃ msg ∈ s.toEngine, deserializeRequest msg = some req := by
  intro req hreq
  cases he with
  | @ledger _ b e ees hb hstep =>
      rw [ledgerTrace_map, (step_own hstep hb).1] at hreq
      cases hreq
  | @submit k u msg req' e hmsg hread _ =>
      rw [List.mem_singleton.mp hreq]
      exact ⟨msg, List.mem_of_getElem? hmsg, hread⟩
  | note hnone _ =>
      rw [hnone] at hreq
      cases hreq
  | refuse | drain | lose | start | send | sendFails | receive | timeout | broadcast | refund =>
      cases hreq

/-- **What is unbooked stays so**, until it is sent again. -/
theorem Unbooked.step (h : Unbooked s tr id) (habsent : KeyAbsent s.engine)
    (he : Effect settings s a s' es)
    (hsend : ∀ i corrId fails, a = .send i corrId fails → ∀ job, s.tasks[i]? = some ⟨job, .send⟩ →
      (job.args settings).idempotencyKey = chargeKey id → Rejected s.engine (keyOf id)) :
    Unbooked s' (tr ++ es) id := by
  have hstable : Rejected s.engine (keyOf id) → Rejected s'.engine (keyOf id) := by
    intro hrejected
    rcases he.engine with ⟨hsame, -⟩ | ⟨b, hb⟩
    · rw [hsame]
      exact hrejected
    · exact hrejected.stable habsent (Ledger.step_effect hb) (keyOf_ne_nil id)
  rcases h with hrejected | ⟨hreach, hunsent⟩
  · exact .inl (hstable hrejected)
  · by_cases hrejected : Rejected s.engine (keyOf id)
    · exact .inl (hstable hrejected)
    · refine .inr ⟨?_, ?_⟩
      · rw [ledgerTrace_append]
        rcases he.engine with ⟨hsame, hnone⟩ | ⟨b, hb⟩
        · rw [hsame, hnone, List.append_nil]
          exact hreach
        · refine hreach.step (Ledger.step_effect hb) ?_
          intro req hreq hkey
          obtain ⟨msg, hmsg, hread⟩ := he.pushed req hreq
          exact hunsent msg hmsg (by rw [hread, Option.map_some, hkey])
      · intro msg hmsg hread
        rcases he.toEngine msg hmsg with hold | ⟨i, corrId, fails, job, ha, htask, hmessage⟩
        · exact hunsent msg hold hread
        · -- the message is of a transfer with the key
          rw [transferMessage_read hmessage, Option.map_some, Option.some.injEq] at hread
          exact hrejected (hsend i corrId fails ha job htask (keyOf_inj hread))

/-- A charge is given up by what was there before the step, or by what is new
in it. -/
theorem givenUp_of (h : GivenUp s' (tr ++ es) id)
    (hrefunds : ∀ request ∈ refunds es, request.charge = id →
      GivenUp s tr id ∨ Unbooked s' (tr ++ es) id)
    (htasks : ∀ task ∈ s'.tasks, task.job.chargeId = some id → task.pc.compensating = true →
      task ∈ s.tasks ∨ GivenUp s tr id ∨ Unbooked s' (tr ++ es) id)
    (hanswers : ∀ msg ∈ s'.toGateway, declines msg = true → ∀ c ∈ s'.sent,
      receiverKey msg = some c.1.bytes → c.2.idempotencyKey = chargeKey id →
        (msg ∈ s.toGateway ∧ c ∈ s.sent) ∨ Unbooked s' (tr ++ es) id) :
    GivenUp s tr id ∨ Unbooked s' (tr ++ es) id := by
  rcases h with hrefund | ⟨task, htask, hjob, hpc⟩ | ⟨msg, hmsg, hdeclines, c, hc, hid, hkey⟩
  · obtain ⟨request, hrequest, hcharge⟩ := List.mem_map.mp hrefund
    rw [refunds_append] at hrequest
    rcases List.mem_append.mp hrequest with hold | hnew
    · exact .inl (.inl (List.mem_map.mpr ⟨request, hold, hcharge⟩))
    · exact hrefunds request hnew hcharge
  · rcases htasks task htask hjob hpc with hold | hnew
    · exact .inl (.inr (.inl ⟨task, hold, hjob, hpc⟩))
    · exact hnew
  · rcases hanswers msg hmsg hdeclines c hc hid hkey with ⟨hold, hsent⟩ | hnew
    · exact .inl (.inr (.inr ⟨msg, hold, hdeclines, c, hsent, hid, hkey⟩))
    · exact .inr hnew

/-- A reply is popped from the reply queue. -/
theorem queued_of_taken {envelope : TxResponseEnvelope} {e : LedgerEngine}
    (h : Ledger.step s.engine .takeReply = some (e, [.taken envelope])) :
    envelope ∈ s.engine.replyQueue.items := by
  obtain ⟨r, hr, heq⟩ := Option.map_eq_some_iff.mp h
  cases heq
  rw [Fifo.Bounded.dequeue_eq_some hr]
  exact List.mem_cons_self

theorem replied_of_queued (hrun : runEngine (.init wal) bs = some ⟨s.engine, ledgerTrace tr⟩)
    {envelope : TxResponseEnvelope} (hreply : envelope ∈ s.engine.replyQueue.items) :
    envelope.response ∈ replied (ledgerTrace tr) := by
  rw [(run_traffic hrun).replies]
  exact List.mem_append_right _ (List.mem_map_of_mem hreply)

/-- A reply of the engine is to a transfer that was sent, and has the status
settled for its key. -/
theorem settled_of_reply (hrun : runEngine (.init wal) bs = some ⟨s.engine, ledgerTrace tr⟩)
    (hhonest : Honest settings s tr) {envelope : TxResponseEnvelope}
    (hreply : envelope ∈ s.engine.replyQueue.items) :
    ∃ c ∈ s.sent, envelope.response.correlationId = c.1 ∧
      ∀ id, c.2.idempotencyKey = chargeKey id →
        ∃ r, settled s.engine (keyOf id) = some r ∧ r.status = envelope.response.status := by
  obtain ⟨req, hreq, hid, hsettled⟩ := reply_origin hrun (replied_of_queued hrun hreply)
  obtain ⟨c, hc, rfl⟩ := hhonest.requests req hreq
  refine ⟨c, hc, hid, ?_⟩
  intro id hkey
  have hkeyOf : (c.2.request c.1).idempotencyKey = keyOf id := congrArg encodeUtf8 hkey
  rw [hkeyOf] at hsettled
  exact hsettled (keyOf_ne_nil id)

/-- A reply of the engine that declines has its key rejected. -/
theorem rejected_of_reply (hrun : runEngine (.init wal) bs = some ⟨s.engine, ledgerTrace tr⟩)
    (hhonest : Honest settings s tr) {envelope : TxResponseEnvelope}
    (hreply : envelope ∈ s.engine.replyQueue.items) :
    ∃ c ∈ s.sent, envelope.response.correlationId = c.1 ∧
      (envelope.response.status ≠ .ok → ∀ id, c.2.idempotencyKey = chargeKey id →
        Rejected s.engine (keyOf id)) := by
  obtain ⟨c, hc, hid, hsettled⟩ := settled_of_reply hrun hhonest hreply
  refine ⟨c, hc, hid, ?_⟩
  intro hbad id hkey
  obtain ⟨r, hr, hstatus⟩ := hsettled id hkey
  exact ⟨r, hr, by rw [hstatus]; exact hbad⟩

/-- An answer that declines is not OK. -/
theorem status_of_declines {resp : TransactionResponse}
    (h : declines (serializeResponse resp) = true) : resp.status ≠ .ok := by
  intro hok
  unfold declines at h
  split at h
  next result hresult =>
    have hzero : result.status = 0 := by
      rw [parseTransaction_status hresult, hok]
      rfl
    rw [hzero] at h
    cases h
  next => cases h

/-- The correlation id of an answer says which transfer it is for. -/
theorem transfer_of_answer (hhonest : Honest settings s tr) {resp : TransactionResponse}
    {c₀ c : Uuid × Transfer} (hc₀ : c₀ ∈ s.sent) (hid₀ : resp.correlationId = c₀.1)
    (hc : c ∈ s.sent) (hid : receiverKey (serializeResponse resp) = some c.1.bytes) : c₀ = c := by
  rw [receiverKey_serialize, hid₀, Option.some.injEq] at hid
  exact hhonest.unique hc₀ hc (Uuid.ext hid)

/-- A saga goes on to a refund after answers that decline. -/
theorem declines_of_compensating {job : Job} {msg : Bytes}
    (h : (job.onResponse msg).compensating = true) : declines msg = true := by
  unfold Job.onResponse at h
  split at h
  next result hresult =>
    cases job with
    | saga charge =>
        simp only [declines, hresult]
        apply decide_eq_true
        intro hzero
        simp only [Job.onResult, hzero, if_true] at h
        cases h
    | reversal charge => cases h
    | transfer args =>
        simp only [Job.onResult] at h
        split at h <;> cases h
  next =>
    cases job <;> cases h

theorem not_compensating_of_onError (job : Job) : job.onError.compensating ≠ true := by
  cases job <;> simp [Job.onError, TaskPc.compensating]

theorem not_compensating_of_start (job : Job) : job.start.pc.compensating ≠ true := by
  cases job <;> simp [Job.start, TaskPc.compensating]

/-- A broadcast leads to a refund only where it was on the way to one. -/
theorem compensating_of_broadcast {pc : TaskPc} {raises : Option String} {message : SagaMessage}
    (hmessage : pc.message = some message)
    (h : (pc.onBroadcast raises).compensating = true) : pc.compensating = true := by
  cases pc with
  | broadcastDispatch | broadcastCommit =>
      simp only [TaskPc.onBroadcast] at h
      split at h <;> cases h
  | broadcastValidationFailed | broadcastTimeout | broadcastRefund | broadcastRefundFailed => rfl
  | send | wait | createRefund | returned | raised => cases hmessage

/-- A payment saga sends under the key of its charge. -/
theorem chargeKey_of_chargeId {job : Job} (h : job.chargeId = some id) :
    (job.args settings).idempotencyKey = chargeKey id := by
  cases job with
  | saga charge =>
      cases h
      rfl
  | reversal charge => cases h
  | transfer args => cases h

/-- A saga that goes on to a refund with a message was given up by the message:
it is the answer to the saga's own transfer. -/
theorem givenUp_of_receive (hhonest : Honest settings s tr) {msg : Bytes} {task : Task}
    (hmsg : msg ∈ s.toGateway) (htask : task ∈ s.tasks) (hwaits : task.WaitsFor msg)
    (hjob : task.job.chargeId = some id)
    (hpc : (task.job.onResponse msg).compensating = true) : GivenUp s tr id := by
  obtain ⟨corrId, hwait, hid⟩ := hwaits
  have hsent := hhonest.waits task htask corrId hwait
  have hkey : (task.job.args settings).idempotencyKey = chargeKey id := chargeKey_of_chargeId hjob
  exact .inr (.inr ⟨msg, hmsg, declines_of_compensating hpc, _, hsent, hid, hkey⟩)

/-- A coroutine that moves is the only one that may be new on its way to a
refund. -/
theorem tasks_set {i : Nat} {task₀ : Task} {P : Prop}
    (h : task₀.job.chargeId = some id → task₀.pc.compensating = true → P) :
    ∀ task ∈ s.tasks.set i task₀, task.job.chargeId = some id → task.pc.compensating = true →
      task ∈ s.tasks ∨ P := by
  intro task htask hjob hpc
  rcases List.mem_or_eq_of_mem_set htask with hold | rfl
  · exact .inl hold
  · exact .inr (h hjob hpc)

/-- No answer is on its way to a transfer that has just been sent. -/
theorem sent_of_answer
    (h : ∀ msg ∈ s.toGateway, ∃ c ∈ s.sent, receiverKey msg = some c.1.bytes) {corrId : Uuid}
    {args : Transfer} (hfresh : corrId ∉ s.sent.map Prod.fst) {msg : Bytes}
    (hmsg : msg ∈ s.toGateway) {c : Uuid × Transfer} (hc : c ∈ s.sent ++ [(corrId, args)])
    (hid : receiverKey msg = some c.1.bytes) : c ∈ s.sent := by
  rcases List.mem_append.mp hc with hold | hnew
  · exact hold
  · obtain ⟨c₀, hc₀, hid₀⟩ := h msg hmsg
    rw [List.mem_singleton.mp hnew, hid₀, Option.some.injEq] at hid
    exact absurd (List.mem_map.mpr ⟨c₀, hc₀, Uuid.ext hid⟩) hfresh

/-- Every answer has the correlation id of a transfer that was sent. -/
theorem answers_step (hhonest : Honest settings s tr)
    (hrun : runEngine (.init wal) bs = some ⟨s.engine, ledgerTrace tr⟩)
    (he : Effect settings s a s' es)
    (h : ∀ msg ∈ s.toGateway, ∃ c ∈ s.sent, receiverKey msg = some c.1.bytes) :
    ∀ msg ∈ s'.toGateway, ∃ c ∈ s'.sent, receiverKey msg = some c.1.bytes := by
  cases he with
  | ledger | submit | start | note | timeout | broadcast | refund => exact h
  | lose _ hsub => exact fun msg hmsg => h msg (hsub hmsg)
  | receive => exact fun msg hmsg => h msg (List.mem_of_mem_eraseIdx hmsg)
  | send | sendFails =>
      intro msg hmsg
      obtain ⟨c, hc, hid⟩ := h msg hmsg
      exact ⟨c, List.mem_append_left _ hc, hid⟩
  | @refuse k u msg req hmsg hread _ =>
      intro m hm
      rcases List.mem_append.mp hm with hold | hnew
      · exact h m hold
      · obtain ⟨c, hc, rfl⟩ := hhonest.read (List.mem_of_getElem? hmsg) hread
        rw [List.mem_singleton.mp hnew]
        exact ⟨c, hc, receiverKey_serialize _⟩
  | @drain _ sends envelope e hstep =>
      intro m hm
      rcases List.mem_append.mp hm with hold | hnew
      · exact h m hold
      · obtain ⟨c, hc, hid, -⟩ := rejected_of_reply hrun hhonest (queued_of_taken hstep)
        split at hnew
        · rw [List.mem_singleton.mp hnew, receiverKey_serialize, hid]
          exact ⟨c, hc, rfl⟩
        · cases hnew

/-- **Giving up.**  What is given up after a prudent step was given up before it,
or is unbooked. -/
theorem givenUp_step (hbacked : Backed s tr) (hhonest : Honest settings s tr)
    (hrun : runEngine (.init wal) bs = some ⟨s.engine, ledgerTrace tr⟩)
    (he : Effect settings s a s' es) (hprudent : Prudent settings s tr a)
    (h : GivenUp s' (tr ++ es) id) : GivenUp s tr id ∨ Unbooked s' (tr ++ es) id := by
  -- an answer that is already there has another correlation id than a new transfer
  have hnew : ∀ {corrId : Uuid} {args : Transfer}, corrId ∉ s.sent.map Prod.fst →
      ∀ msg ∈ s.toGateway, declines msg = true → ∀ c ∈ s.sent ++ [(corrId, args)],
        receiverKey msg = some c.1.bytes → c.2.idempotencyKey = chargeKey id →
          (msg ∈ s.toGateway ∧ c ∈ s.sent) ∨ Unbooked s' (tr ++ es) id := by
    intro corrId args hfresh msg hmsg _ c hc hid _
    exact .inl ⟨hmsg, sent_of_answer hbacked.answers hfresh hmsg hc hid⟩
  have hanswers : ∀ msg ∈ s.toGateway, declines msg = true → ∀ c ∈ s.sent,
      receiverKey msg = some c.1.bytes → c.2.idempotencyKey = chargeKey id →
        (msg ∈ s.toGateway ∧ c ∈ s.sent) ∨ Unbooked s' (tr ++ es) id :=
    fun _ hmsg _ _ hc _ _ => .inl ⟨hmsg, hc⟩
  have htasks : ∀ task ∈ s.tasks, task.job.chargeId = some id → task.pc.compensating = true →
      task ∈ s.tasks ∨ GivenUp s tr id ∨ Unbooked s' (tr ++ es) id :=
    fun _ htask _ _ => .inl htask
  have hnone : ∀ request ∈ ([] : List RefundRequest), request.charge = id →
      GivenUp s tr id ∨ Unbooked s' (tr ++ es) id := fun _ hmem _ => by cases hmem
  cases he with
  | ledger => exact givenUp_of h (by rw [refunds_map]; exact hnone) htasks hanswers
  | submit => exact givenUp_of h hnone htasks hanswers
  | lose _ hsub =>
      refine givenUp_of h hnone htasks ?_
      exact fun msg hmsg hdeclines c hc hid hkey => .inl ⟨hsub hmsg, hc⟩
  | note _ hrefund =>
      refine givenUp_of h ?_ htasks hanswers
      intro request hrequest _
      obtain ⟨e, he, heq⟩ := List.mem_filterMap.mp hrequest
      cases e with
      | refund request' accepted => exact absurd he (hrefund request' accepted)
      | ledger | broadcast | acknowledged | badRequest => cases heq
  | @refuse k u msg req hmsg hread hfull =>
      refine givenUp_of h hnone htasks ?_
      intro m hm _ c hc hid hkey
      rcases List.mem_append.mp hm with hold | hlast
      · exact .inl ⟨hold, hc⟩
      · -- the request that is refused was sent under its correlation id
        obtain ⟨c₀, hc₀, rfl⟩ := hhonest.read (List.mem_of_getElem? hmsg) hread
        rw [List.mem_singleton.mp hlast] at hid
        cases transfer_of_answer hhonest hc₀ rfl hc hid
        have hunbooked :=
          hprudent.refuse k u rfl hfull msg _ id hmsg hread (congrArg encodeUtf8 hkey)
        rw [List.append_nil]
        exact .inr hunbooked
  | @drain _ sends envelope e hstep =>
      refine givenUp_of h hnone htasks ?_
      intro m hm hdeclines c hc hid hkey
      rcases List.mem_append.mp hm with hold | hlast
      · exact .inl ⟨hold, hc⟩
      · obtain ⟨c₀, hc₀, hid₀, hrejected⟩ :=
          rejected_of_reply hrun hhonest (queued_of_taken hstep)
        split at hlast
        · rw [List.mem_singleton.mp hlast] at hdeclines hid
          cases transfer_of_answer hhonest hc₀ hid₀ hc hid
          have hstable := (hrejected (status_of_declines hdeclines) id hkey).stable
            (run_once hrun).absent (Ledger.step_effect hstep) (keyOf_ne_nil id)
          exact .inr (.inl hstable)
        · cases hlast
  | @start _ job =>
      refine givenUp_of h hnone ?_ hanswers
      intro task htask _ hpc
      rcases List.mem_append.mp htask with hold | hlast
      · exact .inl hold
      · rw [List.mem_singleton.mp hlast] at hpc
        exact absurd hpc (not_compensating_of_start job)
  | @send i corrId fails job msg htask hfresh _ =>
      exact givenUp_of h hnone (tasks_set (fun _ hpc => by cases hpc)) (hnew hfresh)
  | @sendFails i corrId fails job htask hfresh =>
      refine givenUp_of h hnone (tasks_set ?_) (hnew hfresh)
      exact fun _ hpc => absurd hpc (not_compensating_of_onError job)
  | @receive _ k i msg task hmsg htask hwaits =>
      refine givenUp_of h hnone (tasks_set ?_) ?_
      · intro hjob hpc
        exact .inl (givenUp_of_receive hhonest (List.mem_of_getElem? hmsg)
          (List.mem_of_getElem? htask) hwaits hjob hpc)
      · exact fun m hm _ c hc _ _ => .inl ⟨List.mem_of_mem_eraseIdx hm, hc⟩
  | @timeout i job corrId htask =>
      refine givenUp_of h hnone (tasks_set ?_) hanswers
      intro hjob _
      cases job with
      | saga charge =>
          cases hjob
          rw [List.append_nil]
          exact .inr (hprudent.timeout i rfl charge _ htask)
      | reversal charge => cases hjob
      | transfer args => cases hjob
  | @broadcast _ i raises charge pc message htask hmessage =>
      refine givenUp_of h hnone (tasks_set ?_) hanswers
      intro hjob hpc
      exact .inl (.inr (.inl ⟨_, List.mem_of_getElem? htask, hjob,
        compensating_of_broadcast hmessage hpc⟩))
  | @refund _ i accepted raises charge status htask =>
      have hbefore : some charge.id = some id → GivenUp s tr id := by
        intro hid
        exact .inr (.inl ⟨_, List.mem_of_getElem? htask, hid, rfl⟩)
      refine givenUp_of h ?_ (tasks_set ?_) hanswers
      · intro request hrequest hcharge
        rw [List.mem_singleton.mp hrequest] at hcharge
        exact .inl (hbefore (congrArg some hcharge))
      · intro hjob _
        exact .inl (hbefore hjob)

/-- **One step**, if it is prudent. -/
theorem Backed.step (h : Backed s tr) (hhonest : Honest settings s tr)
    (hrun : runEngine (.init wal) bs = some ⟨s.engine, ledgerTrace tr⟩)
    (he : Effect settings s a s' es) (hprudent : Prudent settings s tr a) :
    Backed s' (tr ++ es) := by
  constructor
  · exact answers_step hhonest hrun he h.answers
  · intro id hgiven
    rcases givenUp_step h hhonest hrun he hprudent hgiven with hbefore | hunbooked
    · refine (h.unbooked id hbefore).step (run_once hrun).absent he ?_
      intro i corrId fails ha job htask hkey
      exact hprudent.send i corrId fails ha job id htask hkey hbefore
    · exact hunbooked

end Steps

/-! ## §4. Runs. -/

/-- **SAGA ATOMICITY.**  Over every run in which a charge is given up only when
it is unbooked, and in every state it passes through, no charge is applied in
the ledger and refunded too. -/
theorem saga_atomic {settings : Settings} {wal : Wal.WriteAheadLog} {acts : List Action}
    (h : AlwaysPrudent settings wal acts) {t : Traced System Event}
    (ht : Visits (traced (step settings)) ⟨.started wal, []⟩ acts t) : Atomic t.trace := by
  have hbacked : Backed t.state t.trace := by
    refine traced_of_takes Backed ?_ ?_ ht
    · constructor
      · intro msg hmsg
        cases hmsg
      · intro id hgiven
        rcases hgiven with hrefund | ⟨_, htask, -⟩ | ⟨_, hmsg, -⟩
        · cases hrefund
        · cases htask
        · cases hmsg
    · intro u a u' es htakes hes hu
      obtain ⟨before, -, -, hrun⟩ := htakes.source
      obtain ⟨bs, hledger⟩ := run_ledger hrun
      exact hu.step (run_honest hrun) hledger (step_effect hes) (h u a u' htakes)
  obtain ⟨before, -, -, hrun⟩ := ht
  obtain ⟨bs, hledger⟩ := run_ledger hrun
  intro request hrequest hcredited
  obtain ⟨req, hreq, hkey⟩ := hcredited
  rcases hbacked.unbooked request.charge (.inl (List.mem_map_of_mem hrequest)) with
    hrejected | ⟨hreach, -⟩
  · exact not_applied_of_rejected hrejected (keyOf_ne_nil _) (run_once hledger).absent
      (run_confirms hledger) req hreq hkey
  · exact hreach.applied req hreq hkey

/-- The step gives up a charge only when it is unbooked, and sends none that was
given up. -/
def prudent (t : Traced System Event) : Action → Bool
  | .timeout i =>
      match t.state.tasks[i]? with
      | some ⟨.saga charge, _⟩ => decide (Unbooked t.state t.trace charge.id)
      | _ => true
  | .ioReceive _ _ => decide (t.state.engine.requestQueue.items.length < queueCapacity)
  | .send i _ _ =>
      match t.state.tasks[i]? with
      | some ⟨.saga charge, _⟩ => decide (¬ GivenUp t.state t.trace charge.id)
      | _ => false
  | _ => true

theorem alwaysPrudent_of_checked {settings : Settings} {wal : Wal.WriteAheadLog}
    {acts : List Action}
    (h : checked (traced (step settings)) prudent ⟨.started wal, []⟩ acts = true) :
    AlwaysPrudent settings wal acts := by
  intro t a t' htakes
  have hok : prudent t a = true := htakes.checked h
  constructor
  · rintro i rfl charge pc htask
    simp only [prudent, htask] at hok
    exact of_decide_eq_true hok
  · rintro k u rfl hfull
    have hroom : t.state.engine.requestQueue.items.length < queueCapacity := of_decide_eq_true hok
    omega
  · rintro i corrId fails rfl job id htask hkey hgiven
    simp only [prudent, htask] at hok
    cases job with
    | saga charge =>
        have hid : charge.id = id := (String.append_right_inj "charge-").mp hkey
        have hnot : ¬ GivenUp t.state t.trace charge.id := of_decide_eq_true hok
        rw [hid] at hnot
        exact absurd hgiven hnot
    | reversal charge => cases hok
    | transfer args => cases hok

/-- A webhook whose message is sent. -/
def sentCharge (i : Nat) (charge : Charge) (corrId : Uuid) : List Action :=
  [.webhook (.chargeSucceeded charge), .broadcast i none, .send i corrId false]

/-- A webhook whose message reaches the engine. -/
def deliveredCharge (i : Nat) (charge : Charge) (corrId : Uuid) : List Action :=
  sentCharge i charge corrId ++ [.ioReceive 0 Uuid.zero]

/-- The saga gives up, and Stripe accepts the refund. -/
def refundedLate (i : Nat) : List Action :=
  [.timeout i, .broadcast i none, .refund i true none, .broadcast i none]

/-- One charge is applied; another, of the amount 0, is rejected and refunded;
the message of a third is lost, and it is refunded after five seconds. -/
def threeCharges : List Action :=
  accountCalls .liability ++ deliveredCharge 0 ⟨"ch_1", 500, "usd"⟩ (repeatedId 0) ++
    engineWorks 13 ++ [.ioDrain true, .receive 0, .broadcast 0 none] ++
    deliveredCharge 1 ⟨"ch_2", 0, "usd"⟩ (repeatedId 1) ++ engineWorks 10 ++
    [.ioDrain true, .receive 0, .broadcast 1 none, .refund 1 true none, .broadcast 1 none] ++
    sentCharge 2 ⟨"ch_3", 700, "usd"⟩ (repeatedId 2) ++ [.loseRequest 0] ++ refundedLate 2

/-- The run is atomic. -/
theorem threeCharges_atomic :
    ∃ t, runSystem bookedSettings newLog threeCharges = some t ∧ Atomic t.trace ∧
      refunds t.trace = [(Charge.mk "ch_2" 0 "usd").refund, (Charge.mk "ch_3" 700 "usd").refund] ∧
      Credited t.trace "ch_1" := by
  have hrun : (runSystem bookedSettings newLog threeCharges).map
      (fun t => (refunds t.trace, (applied (ledgerTrace t.trace)).map (·.idempotencyKey))) =
        some ([(Charge.mk "ch_2" 0 "usd").refund, (Charge.mk "ch_3" 700 "usd").refund],
          [keyOf "ch_1"]) := by
    decide +kernel
  obtain ⟨t, ht, heq⟩ := Option.map_eq_some_iff.mp hrun
  simp only [Prod.mk.injEq] at heq
  refine ⟨t, ht, saga_atomic (alwaysPrudent_of_checked (by decide +kernel)) (visits_end ht),
    heq.1, ?_⟩
  obtain ⟨req, hreq, hkey⟩ := List.mem_map.mp (heq.2 ▸ List.mem_singleton_self (keyOf "ch_1"))
  exact ⟨req, hreq, hkey⟩

/-- The engine takes up the request after five seconds. -/
def lateCommit : List Action :=
  accountCalls .liability ++ deliveredCharge 0 ⟨"ch_1", 500, "usd"⟩ (repeatedId 0) ++
    refundedLate 0 ++ engineWorks 13

/-- **The charge is refunded, and then applied.** -/
theorem lateCommit_breaks :
    ∃ t, runSystem bookedSettings newLog lateCommit = some t ∧ ¬ Atomic t.trace := by
  have hrun : (runSystem bookedSettings newLog lateCommit).map
      (fun t => (refunds t.trace, (applied (ledgerTrace t.trace)).map (·.idempotencyKey))) =
        some ([(Charge.mk "ch_1" 500 "usd").refund], [keyOf "ch_1"]) := by
    decide +kernel
  obtain ⟨t, ht, heq⟩ := Option.map_eq_some_iff.mp hrun
  simp only [Prod.mk.injEq] at heq
  refine ⟨t, ht, ?_⟩
  intro h
  obtain ⟨req, hreq, hkey⟩ := List.mem_map.mp (heq.2 ▸ List.mem_singleton_self (keyOf "ch_1"))
  exact h _ (heq.1 ▸ List.mem_singleton_self _) ⟨req, hreq, hkey⟩

end ZeroLGR.Gateway
