/-
  ZeroLGR.Gateway.Verdict — what an answer says about its charge.

  A saga takes every answer of the engine process for final: status zero is a
  success, every other one a reason to compensate.  An answer of `run()` has the
  status that is settled for the key of the charge.

    • `verdict`, `TaskPc.verdict` — what an answer says, and what a saga has heard,
    • `Stands` — the key of the charge is settled that way,
    • `Standing`, `Standing.step` — answers and sagas say what is settled, except
      where the I/O thread has turned a request away,
    • `Owned`, `run_owned` — the transfers under the key of a charge are its own,
      if no other client uses it.
-/
import ZeroLGR.Gateway.Reversal

namespace ZeroLGR.Gateway

open Transition Ledger Server

/-! ## §1. Verdicts. -/

/-- What the answer says: a success or not; nothing if it is no answer to a
transaction. -/
def verdict (msg : Bytes) : Option Bool :=
  match parseTransaction msg with
  | .ok result => some (decide (result.status = 0))
  | .error _ => none

/-- A timeout is no answer. -/
def SagaStatus.verdict : SagaStatus → Option Bool
  | .success => some true
  | .compensated => some false
  | .timeoutCompensated => none

/-- What a saga has heard from the engine process. -/
def TaskPc.verdict : TaskPc → Option Bool
  | .broadcastCommit _ => some true
  | .broadcastValidationFailed _ => some false
  | .createRefund status => status.verdict
  | .broadcastRefund status => status.verdict
  | .broadcastRefundFailed _ status => status.verdict
  | .returned (some status) => status.verdict
  | _ => none

/-- The key is settled with OK, or with another status. -/
def Stands (ok : Bool) (s : LedgerEngine) (key : Bytes) : Prop :=
  ∃ r, settled s key = some r ∧ decide (r.status = .ok) = ok

theorem Stands.unique {s : LedgerEngine} {key : Bytes} {ok ok' : Bool} (h : Stands ok s key)
    (h' : Stands ok' s key) : ok = ok' := by
  obtain ⟨r, hr, rfl⟩ := h
  obtain ⟨r', hr', rfl⟩ := h'
  rw [hr] at hr'
  cases hr'
  rfl

theorem stands_of_rejected {s : LedgerEngine} {key : Bytes} (h : Rejected s key) :
    Stands false s key := by
  obtain ⟨r, hr, hbad⟩ := h
  exact ⟨r, hr, decide_eq_false hbad⟩

theorem rejected_of_stands {s : LedgerEngine} {key : Bytes} (h : Stands false s key) :
    Rejected s key := by
  obtain ⟨r, hr, hbad⟩ := h
  exact ⟨r, hr, of_decide_eq_false hbad⟩

/-- The verdict of a response of the engine is its status. -/
theorem status_of_verdict {resp : TransactionResponse} {ok : Bool}
    (h : verdict (serializeResponse resp) = some ok) : decide (resp.status = .ok) = ok := by
  unfold verdict at h
  split at h
  next result hresult =>
    rw [parseTransaction_status hresult] at h
    have hzero : statusByte resp.status = 0 ↔ resp.status = .ok := statusByte_iff resp.status .ok
    rw [decide_eq_decide.mpr hzero] at h
    exact Option.some.inj h
  next => cases h

/-- What a saga hears is the verdict of the answer. -/
theorem verdict_of_response {charge : Charge} {msg : Bytes} {ok : Bool}
    (h : ((Job.saga charge).onResponse msg).verdict = some ok) : verdict msg = some ok := by
  unfold Job.onResponse at h
  split at h
  next result hresult =>
    simp only [verdict, hresult]
    simp only [Job.onResult] at h
    split at h
    next hzero =>
      rw [hzero]
      exact h
    next hother =>
      rw [decide_eq_false hother]
      exact h
  next => cases h

/-- A broadcast changes no verdict; one that raises may end the saga. -/
theorem verdict_of_broadcast {pc : TaskPc} {raises : Option String} {message : SagaMessage}
    {ok : Bool} (hmessage : pc.message = some message)
    (h : (pc.onBroadcast raises).verdict = some ok) : pc.verdict = some ok := by
  cases pc with
  | broadcastDispatch | broadcastTimeout =>
      simp only [TaskPc.onBroadcast] at h
      split at h <;> cases h
  | broadcastCommit | broadcastValidationFailed | broadcastRefundFailed =>
      simp only [TaskPc.onBroadcast] at h
      split at h
      · cases h
      · exact h
  | broadcastRefund =>
      simp only [TaskPc.onBroadcast] at h
      split at h <;> exact h
  | send | wait | createRefund | returned | raised => cases hmessage

theorem verdict_onRefund (raises : Option String) (status : SagaStatus) :
    (TaskPc.onRefund raises status).verdict = status.verdict := by
  cases raises <;> rfl

theorem verdict_start (job : Job) : job.start.pc.verdict = none := by
  cases job <;> rfl

theorem verdict_onError (job : Job) : job.onError.verdict = none := by
  cases job <;> rfl

theorem verdict_onTimeout (job : Job) : job.onTimeout.verdict = none := by
  cases job <;> rfl

/-! ## §2. Verdicts that stand. -/

/-- **What is said about the charge stands**: by the answers on their way to a
saga of it, and by the sagas that have heard one. -/
structure Standing (ok : Bool) (id : String) (s : System) : Prop where
  answers : ∀ msg ∈ s.toGateway, verdict msg = some ok → ∀ c ∈ s.sent,
    receiverKey msg = some c.1.bytes → c.2.idempotencyKey = chargeKey id →
      Stands ok s.engine (keyOf id)
  tasks : ∀ task ∈ s.tasks, task.job.chargeId = some id → task.pc.verdict = some ok →
    Stands ok s.engine (keyOf id)

/-- The I/O thread turns a request for the charge away only after the engine has
rejected one. -/
def TurnsAwayRejected (id : String) (s : System) (a : Action) : Prop :=
  ∀ k u, a = .ioReceive k u → s.engine.requestQueue.items.length = queueCapacity →
    ∀ msg req, s.toEngine[k]? = some msg → deserializeRequest msg = some req →
      req.idempotencyKey = keyOf id → Rejected s.engine (keyOf id)

section Steps

variable {settings : Settings} {wal : Wal.WriteAheadLog} {bs : List Ledger.Action}
  {s s' : System} {a : Action} {tr es : List Event} {id : String} {ok : Bool}

/-- **What stands is not taken back.** -/
theorem Stands.step (h : Stands ok s.engine (keyOf id)) (habsent : KeyAbsent s.engine)
    (he : Effect settings s a s' es) : Stands ok s'.engine (keyOf id) := by
  obtain ⟨r, hr, hok⟩ := h
  rcases he.engine with ⟨hsame, -⟩ | ⟨b, hb⟩
  · rw [hsame]
    exact ⟨r, hr, hok⟩
  · exact ⟨r, (Ledger.step_effect hb).settled_stable habsent (keyOf_ne_nil id) hr, hok⟩

/-- A step in which new answers and new verdicts stand. -/
theorem Standing.extend (h : Standing ok id s) (habsent : KeyAbsent s.engine)
    (he : Effect settings s a s' es)
    (hanswers : ∀ msg ∈ s'.toGateway, verdict msg = some ok → ∀ c ∈ s'.sent,
      receiverKey msg = some c.1.bytes → c.2.idempotencyKey = chargeKey id →
        (msg ∈ s.toGateway ∧ c ∈ s.sent) ∨ Stands ok s.engine (keyOf id))
    (htasks : ∀ task ∈ s'.tasks, task.job.chargeId = some id → task.pc.verdict = some ok →
      task ∈ s.tasks ∨ Stands ok s.engine (keyOf id)) : Standing ok id s' := by
  constructor
  · intro msg hmsg hverdict c hc hid hkey
    rcases hanswers msg hmsg hverdict c hc hid hkey with ⟨hold, hsent⟩ | hstands
    · exact (h.answers msg hold hverdict c hsent hid hkey).step habsent he
    · exact hstands.step habsent he
  · intro task htask hjob hverdict
    rcases htasks task htask hjob hverdict with hold | hstands
    · exact (h.tasks task hold hjob hverdict).step habsent he
    · exact hstands.step habsent he

/-- One coroutine moves. -/
theorem standing_set {i : Nat} {task₀ : Task} {P : Prop}
    (h : task₀.job.chargeId = some id → task₀.pc.verdict = some ok → P) :
    ∀ task ∈ s.tasks.set i task₀, task.job.chargeId = some id → task.pc.verdict = some ok →
      task ∈ s.tasks ∨ P := by
  intro task htask hjob hverdict
  rcases List.mem_or_eq_of_mem_set htask with hold | rfl
  · exact .inl hold
  · exact .inr (h hjob hverdict)

/-- **One step.** -/
theorem Standing.step (h : Standing ok id s)
    (hfrom : ∀ msg ∈ s.toGateway, ∃ c ∈ s.sent, receiverKey msg = some c.1.bytes)
    (hhonest : Honest settings s tr)
    (hrun : runEngine (.init wal) bs = some ⟨s.engine, ledgerTrace tr⟩)
    (he : Effect settings s a s' es) (haway : ok = false → TurnsAwayRejected id s a) :
    Standing ok id s' := by
  have habsent := (run_once hrun).absent
  have hanswers : ∀ msg ∈ s.toGateway, verdict msg = some ok → ∀ c ∈ s.sent,
      receiverKey msg = some c.1.bytes → c.2.idempotencyKey = chargeKey id →
        (msg ∈ s.toGateway ∧ c ∈ s.sent) ∨ Stands ok s.engine (keyOf id) :=
    fun _ hmsg _ _ hc _ _ => .inl ⟨hmsg, hc⟩
  have htasks : ∀ task ∈ s.tasks, task.job.chargeId = some id → task.pc.verdict = some ok →
      task ∈ s.tasks ∨ Stands ok s.engine (keyOf id) := fun _ htask _ _ => .inl htask
  -- no answer is on its way to a transfer that has just been sent
  have hdrawn : ∀ {corrId : Uuid} {args : Transfer}, corrId ∉ s.sent.map Prod.fst →
      ∀ msg ∈ s.toGateway, verdict msg = some ok → ∀ c ∈ s.sent ++ [(corrId, args)],
        receiverKey msg = some c.1.bytes → c.2.idempotencyKey = chargeKey id →
          (msg ∈ s.toGateway ∧ c ∈ s.sent) ∨ Stands ok s.engine (keyOf id) := by
    intro corrId args hfresh msg hmsg _ c hc hid _
    exact .inl ⟨hmsg, sent_of_answer hfrom hfresh hmsg hc hid⟩
  have he' := he
  cases he' with
  | ledger | submit | note => exact h.extend habsent he hanswers htasks
  | lose _ hsub =>
      exact h.extend habsent he (fun _ hmsg _ _ hc _ _ => .inl ⟨hsub hmsg, hc⟩) htasks
  | @refuse k u msg req hmsg hread hfull =>
      refine h.extend habsent he ?_ htasks
      intro m hm hverdict c hc hid hkey
      rcases List.mem_append.mp hm with hold | hlast
      · exact .inl ⟨hold, hc⟩
      · -- the answer is no success, and is to the request that was read
        rw [List.mem_singleton.mp hlast] at hverdict hid
        obtain ⟨c₀, hc₀, rfl⟩ := hhonest.read (List.mem_of_getElem? hmsg) hread
        cases transfer_of_answer hhonest hc₀ rfl hc hid
        obtain rfl : false = ok := status_of_verdict hverdict
        exact .inr (stands_of_rejected
          (haway rfl k u rfl hfull msg _ hmsg hread (congrArg encodeUtf8 hkey)))
  | @drain _ sends envelope e hstep =>
      refine h.extend habsent he ?_ htasks
      intro m hm hverdict c hc hid hkey
      rcases List.mem_append.mp hm with hold | hlast
      · exact .inl ⟨hold, hc⟩
      · obtain ⟨c₀, hc₀, hid₀, hsettled⟩ := settled_of_reply hrun hhonest (queued_of_taken hstep)
        split at hlast
        · rw [List.mem_singleton.mp hlast] at hverdict hid
          cases transfer_of_answer hhonest hc₀ hid₀ hc hid
          obtain ⟨r, hr, hstatus⟩ := hsettled id hkey
          exact .inr ⟨r, hr, by rw [hstatus]; exact status_of_verdict hverdict⟩
        · cases hlast
  | @start _ job =>
      refine h.extend habsent he hanswers ?_
      intro task htask _ hverdict
      rcases List.mem_append.mp htask with hold | hlast
      · exact .inl hold
      · rw [List.mem_singleton.mp hlast, verdict_start] at hverdict
        cases hverdict
  | @send i corrId fails job msg htask hfresh _ =>
      exact h.extend habsent he (hdrawn hfresh) (standing_set (fun _ hverdict => by cases hverdict))
  | @sendFails i corrId fails job htask hfresh =>
      refine h.extend habsent he (hdrawn hfresh) (standing_set ?_)
      intro _ hverdict
      rw [verdict_onError] at hverdict
      cases hverdict
  | @receive _ k i msg task hmsg htask hwaits =>
      refine h.extend habsent he ?_ (standing_set ?_)
      · exact fun _ hm _ _ hc _ _ => .inl ⟨List.mem_of_mem_eraseIdx hm, hc⟩
      · intro hjob hverdict
        obtain ⟨corrId, hwait, hid⟩ := hwaits
        have hsent := hhonest.waits task (List.mem_of_getElem? htask) corrId hwait
        have hkey : (task.job.args settings).idempotencyKey = chargeKey id :=
          chargeKey_of_chargeId hjob
        cases hcase : task.job with
        | saga charge =>
            rw [hcase] at hverdict
            exact h.answers msg (List.mem_of_getElem? hmsg) (verdict_of_response hverdict) _ hsent
              hid hkey
        | reversal charge =>
            rw [hcase] at hjob
            cases hjob
        | transfer args =>
            rw [hcase] at hjob
            cases hjob
  | @timeout i job corrId htask =>
      refine h.extend habsent he hanswers (standing_set ?_)
      intro _ hverdict
      rw [verdict_onTimeout] at hverdict
      cases hverdict
  | @broadcast _ i raises charge pc message htask hmessage =>
      refine h.extend habsent he hanswers (standing_set ?_)
      intro hjob hverdict
      exact h.tasks _ (List.mem_of_getElem? htask) hjob (verdict_of_broadcast hmessage hverdict)
  | @refund _ i accepted raises charge status htask =>
      refine h.extend habsent he hanswers (standing_set ?_)
      intro hjob hverdict
      rw [verdict_onRefund] at hverdict
      exact h.tasks _ (List.mem_of_getElem? htask) hjob hverdict

end Steps

/-- Answers are to transfers that were sent, in every reachable state. -/
theorem run_answers {settings : Settings} {wal : Wal.WriteAheadLog} {acts : List Action}
    {t : Traced System Event} (h : Visits (traced (step settings)) ⟨.started wal, []⟩ acts t) :
    ∀ msg ∈ t.state.toGateway, ∃ c ∈ t.state.sent, receiverKey msg = some c.1.bytes := by
  refine visits_of_takes (fun t : Traced System Event =>
    ∀ msg ∈ t.state.toGateway, ∃ c ∈ t.state.sent, receiverKey msg = some c.1.bytes) ?_ ?_ h
  · intro msg hmsg
    cases hmsg
  · intro u a u' htakes hu
    obtain ⟨es, hes, -⟩ := htakes.shows
    obtain ⟨before, -, -, hrun⟩ := htakes.source
    obtain ⟨bs, hledger⟩ := run_ledger hrun
    exact answers_step (run_honest hrun) hledger (step_effect hes) hu

/-- **What is said about the charge stands**, in every state of every run. -/
theorem run_standing {settings : Settings} {wal : Wal.WriteAheadLog} {acts : List Action}
    {id : String} {ok : Bool}
    (haway : ok = false → ∀ t a t', Takes (traced (step settings)) ⟨.started wal, []⟩ acts t a t' →
      TurnsAwayRejected id t.state a) {t : Traced System Event}
    (h : Visits (traced (step settings)) ⟨.started wal, []⟩ acts t) : Standing ok id t.state := by
  refine visits_of_takes (fun t : Traced System Event => Standing ok id t.state) ?_ ?_ h
  · constructor
    · intro msg hmsg
      cases hmsg
    · intro task htask
      cases htask
  · intro u a u' htakes hu
    have hanswers := run_answers htakes.source
    obtain ⟨es, hes, -⟩ := htakes.shows
    obtain ⟨before, -, -, hrun⟩ := htakes.source
    obtain ⟨bs, hledger⟩ := run_ledger hrun
    exact hu.step hanswers (run_honest hrun) hledger (step_effect hes)
      (fun hok => haway hok u a u' htakes)

/-! ## §3. Whose transfers they are. -/

/-- The action is no transfer of another client under the key of the charge. -/
def LeavesKey (id : String) (a : Action) : Prop :=
  ∀ args, a = .transfer args → args.idempotencyKey ≠ chargeKey id

/-- What is sent under the key of the charge is the credit of a saga, and no
other client is about to use the key. -/
structure Owned (settings : Settings) (id : String) (s : System) : Prop where
  sent : ∀ c ∈ s.sent, c.2.idempotencyKey = chargeKey id → ∃ charge : Charge, charge.id = id ∧
    Job.saga charge ∈ s.tasks.map Task.job ∧ c.2 = settings.credit charge
  jobs : ∀ args, Job.transfer args ∈ s.tasks.map Task.job → args.idempotencyKey ≠ chargeKey id

section Steps

variable {settings : Settings} {s s' : System} {a : Action} {tr es : List Event} {id : String}

/-- A coroutine that goes on is for the same job. -/
theorem jobs_set {tasks : List Task} {i : Nat} {task : Task} (htask : tasks[i]? = some task)
    (pc : TaskPc) :
    (tasks.set i { task with pc := pc }).map Task.job = tasks.map Task.job := by
  rw [List.map_set]
  refine List.ext_getElem? ?_
  intro j
  rw [List.getElem?_set]
  split
  · next heq =>
      subst heq
      rw [List.length_map, List.getElem?_map, htask]
      split
      · rfl
      · next hout =>
          obtain ⟨hlt, -⟩ := List.getElem?_eq_some_iff.mp htask
          exact absurd hlt hout
  · rfl

/-- **New coroutines** are sagas, reversals and transfers that were asked for. -/
theorem jobs_step (h : step settings s a = some (s', es)) :
    ∃ new, s'.tasks.map Task.job = s.tasks.map Task.job ++ new ∧
      ∀ args, Job.transfer args ∈ new → a = .transfer args := by
  have hsame : s'.tasks.map Task.job = s.tasks.map Task.job →
      ∃ new, s'.tasks.map Task.job = s.tasks.map Task.job ++ new ∧
        ∀ args, Job.transfer args ∈ new → a = .transfer args :=
    fun heq => ⟨[], by rw [heq, List.append_nil], fun _ hmem => by cases hmem⟩
  cases a with
  | webhook request =>
      have h := Option.some.inj h
      cases request with
      | invalidPayload | invalidSignature | other type =>
          cases h
          exact hsame rfl
      | chargeSucceeded charge =>
          cases h
          exact ⟨[.saga charge], List.map_append, fun _ hmem => by cases List.mem_singleton.mp hmem⟩
      | chargeRefunded charge =>
          cases h
          exact ⟨[.reversal charge], List.map_append,
            fun _ hmem => by cases List.mem_singleton.mp hmem⟩
  | transfer args =>
      cases h
      refine ⟨[.transfer args], List.map_append, ?_⟩
      intro args' hmem
      cases List.mem_singleton.mp hmem
      rfl
  | broadcast i raises =>
      obtain ⟨charge, pc, message, htask, -, rfl, -⟩ := broadcast_inv h
      exact hsame (jobs_set htask _)
  | send i corrId fails =>
      obtain ⟨job, htask, -, -, hsent⟩ := send_inv h
      rcases hsent with ⟨msg, -, rfl⟩ | rfl
      · exact hsame (jobs_set htask _)
      · exact hsame (jobs_set htask _)
  | loseRequest k | loseReply k =>
      cases h
      exact hsame rfl
  | ioReceive k u =>
      refine hsame ?_
      obtain ⟨msg, -, h⟩ := Option.bind_eq_some_iff.mp h
      obtain ⟨req, -, h⟩ := Option.map_eq_some_iff.mp h
      dsimp only at h
      split at h <;> cases h <;> rfl
  | engine now os =>
      obtain ⟨r, -, heq⟩ := Option.map_eq_some_iff.mp h
      cases heq
      exact hsame rfl
  | call b =>
      change (if b.isCall = true then _ else none) = some (s', es) at h
      split at h
      · obtain ⟨r, -, heq⟩ := Option.map_eq_some_iff.mp h
        cases heq
        exact hsame rfl
      · cases h
  | ioDrain sends =>
      obtain ⟨r, -, heq⟩ := Option.map_eq_some_iff.mp h
      cases heq
      exact hsame rfl
  | receive k =>
      obtain ⟨msg, -, -, hreceived⟩ := receive_inv h
      rcases hreceived with rfl | ⟨i, task, htask, -, rfl⟩
      · exact hsame rfl
      · exact hsame (jobs_set htask _)
  | timeout i =>
      obtain ⟨job, corrId, htask, rfl, -⟩ := timeout_inv h
      exact hsame (jobs_set htask _)
  | refund i accepted raises =>
      obtain ⟨charge, status, htask, rfl, -⟩ := refund_inv h
      exact hsame (jobs_set htask _)

/-- A coroutine under the key of the charge is a saga of it. -/
theorem saga_of_chargeKey {job : Job} (hkey : (job.args settings).idempotencyKey = chargeKey id)
    (hother : ∀ args, job = .transfer args → args.idempotencyKey ≠ chargeKey id) :
    ∃ charge : Charge, charge.id = id ∧ job = .saga charge := by
  cases job with
  | saga charge => exact ⟨charge, (String.append_right_inj "charge-").mp hkey, rfl⟩
  | reversal charge => exact absurd hkey.symm (chargeKey_ne_reversalKey id charge.id)
  | transfer args => exact absurd hkey (hother args rfl)

/-- **One step**, of any client but those that use the key. -/
theorem Owned.step (h : Owned settings id s) (hleaves : LeavesKey id a)
    (hstep : step settings s a = some (s', es)) : Owned settings id s' := by
  obtain ⟨new, hjobs, hnew⟩ := jobs_step hstep
  constructor
  · intro c hc hkey
    rw [hjobs]
    rcases (step_effect hstep).sent with hsame | ⟨i, corrId, fails, job, -, htask, hsent⟩
    · rw [hsame] at hc
      obtain ⟨charge, hid, hjob, hcredit⟩ := h.sent c hc hkey
      exact ⟨charge, hid, List.mem_append_left _ hjob, hcredit⟩
    · rw [hsent] at hc
      rcases List.mem_append.mp hc with hold | hlast
      · obtain ⟨charge, hid, hjob, hcredit⟩ := h.sent c hold hkey
        exact ⟨charge, hid, List.mem_append_left _ hjob, hcredit⟩
      · have hmem : job ∈ s.tasks.map Task.job :=
          List.mem_map.mpr ⟨_, List.mem_of_getElem? htask, rfl⟩
        rw [List.mem_singleton.mp hlast] at hkey ⊢
        obtain ⟨charge, hid, rfl⟩ := saga_of_chargeKey hkey
          (fun args hargs => h.jobs args (hargs ▸ hmem))
        exact ⟨charge, hid, List.mem_append_left _ hmem, rfl⟩
  · intro args hargs
    rw [hjobs] at hargs
    rcases List.mem_append.mp hargs with hold | hlast
    · exact h.jobs args hold
    · exact hleaves args (hnew args hlast)

end Steps

theorem run_owned {settings : Settings} {wal : Wal.WriteAheadLog} {acts : List Action} {id : String}
    (hleaves : ∀ a ∈ acts, LeavesKey id a) {t : Traced System Event}
    (h : runSystem settings wal acts = some t) : Owned settings id t.state := by
  refine run_invariant_of (fun t : Traced System Event => Owned settings id t.state) ?_ ?_ h
  · intro a ha u u' hu hstep
    obtain ⟨es, hes, -⟩ := traced_eq_some.mp hstep
    exact hu.step (hleaves a ha) hes
  · constructor
    · intro c hc
      cases hc
    · intro args hargs
      cases hargs

end ZeroLGR.Gateway
