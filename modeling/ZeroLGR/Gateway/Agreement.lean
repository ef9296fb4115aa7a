/-
  ZeroLGR.Gateway.Agreement — one outcome for all deliveries of a charge.

  Stripe may deliver `charge.succeeded` any number of times, and each delivery
  runs a saga of its own.  They share one key, so the engine answers all of them
  alike.  The I/O thread answers by itself when the request queue is full; it
  knows nothing of keys, and its answer is no outcome of the charge.

    • `run_stands`, `credited_run` — what a run keeps,
    • `Agreement` — what is promised,
    • `outcomes_agree` — it holds if no request for the charge is turned away,
      unless the engine has rejected the charge,
    • `turnedAway_disagrees` — a charge that was credited, and compensated when it
      was delivered again.
-/
import ZeroLGR.Gateway.Verdict
import ZeroLGR.Ledger.Certificate

namespace ZeroLGR.Gateway

open Transition Ledger Server

/-! ## §1. What a run keeps. -/

section Runs

variable {settings : Settings} {wal : Wal.WriteAheadLog} {acts : List Action} {id : String}
  {u v t : Traced System Event}

/-- **What stands, stands in every later state.** -/
theorem run_stands {ok : Bool} (habsent : KeyAbsent u.state.engine)
    (h : Stands ok u.state.engine (keyOf id)) {as : List Action}
    (hrun : run (traced (step settings)) u as = some v) : Stands ok v.state.engine (keyOf id) := by
  have hboth : KeyAbsent v.state.engine ∧ Stands ok v.state.engine (keyOf id) := by
    refine run_invariant (fun t : Traced System Event =>
      KeyAbsent t.state.engine ∧ Stands ok t.state.engine (keyOf id)) ?_ ⟨habsent, h⟩ hrun
    intro a t t' ht hstep
    obtain ⟨hkeys, hstands⟩ := ht
    obtain ⟨es, hes, -⟩ := traced_eq_some.mp hstep
    have he := step_effect hes
    refine ⟨?_, hstands.step hkeys he⟩
    rcases he.engine with ⟨hsame, -⟩ | ⟨b, hb⟩
    · rw [hsame]
      exact hkeys
    · exact hkeys.step (Ledger.step_effect hb)
  exact hboth.2

/-- What was applied was applied in every later state. -/
theorem credited_run (h : Credited u.trace id) {as : List Action}
    (hrun : run (traced (step settings)) u as = some v) : Credited v.trace id := by
  refine run_invariant (fun t : Traced System Event => Credited t.trace id) ?_ h hrun
  intro a t t' ht hstep
  obtain ⟨es, -, htrace⟩ := traced_eq_some.mp hstep
  rw [htrace]
  exact ht.mono es

/-- In every state that is visited the cache is in order. -/
theorem visits_absent (h : Visits (traced (step settings)) ⟨.started wal, []⟩ acts t) :
    KeyAbsent t.state.engine := by
  obtain ⟨before, -, -, hrun⟩ := h
  obtain ⟨bs, hledger⟩ := run_ledger hrun
  exact (run_once hledger).absent

/-- Nothing is applied under a key that stands rejected. -/
theorem not_credited (ht : Visits (traced (step settings)) ⟨.started wal, []⟩ acts t)
    (h : Stands false t.state.engine (keyOf id)) : ¬ Credited t.trace id := by
  intro hcredited
  obtain ⟨req, hreq, hkey⟩ := hcredited
  obtain ⟨before, -, -, hrun⟩ := ht
  obtain ⟨bs, hledger⟩ := run_ledger hrun
  exact not_applied_of_rejected (rejected_of_stands h) (keyOf_ne_nil id) (run_once hledger).absent
    (run_confirms hledger) req hreq hkey

/-- **A key that stands has one transfer**, that of the charge. -/
theorem credited_once (hleaves : ∀ a ∈ acts, LeavesKey id a)
    (h : runSystem settings wal acts = some t) (hstands : Stands true t.state.engine (keyOf id)) :
    ∃ charge corrId, charge.id = id ∧ Job.saga charge ∈ t.state.tasks.map Task.job ∧
      (applied (ledgerTrace t.trace)).filter (fun req => req.idempotencyKey = keyOf id) =
        [(settings.credit charge).request corrId] := by
  obtain ⟨r, hr, hok⟩ := hstands
  obtain ⟨bs, hledger⟩ := run_ledger h
  obtain ⟨req, happlied, hkey⟩ := applied_of_settled hledger hr (of_decide_eq_true hok)
  obtain ⟨c, hc, hreq⟩ := (run_honest h).requests req (applied_submitted hledger req happlied)
  have hsent : c.2.idempotencyKey = chargeKey id := by
    rw [hreq] at hkey
    exact keyOf_inj hkey
  obtain ⟨charge, hid, hjob, hcredit⟩ := (run_owned hleaves h).sent c hc hsent
  refine ⟨charge, c.1, hid, hjob, ?_⟩
  rw [← hcredit, ← hreq]
  exact applied_only hledger happlied hkey (keyOf_ne_nil id)

end Runs

/-! ## §2. Refunds. -/

/-- A saga on its way to a refund has not succeeded. -/
def NoneRefundsSuccess (s : System) : Prop := ∀ task ∈ s.tasks, task.pc ≠ .createRefund .success

theorem onBroadcast_ne (raises : Option String) {pc : TaskPc} {message : SagaMessage}
    (hmessage : pc.message = some message) : pc.onBroadcast raises ≠ .createRefund .success := by
  cases pc with
  | send | wait | createRefund | returned | raised => cases hmessage
  | broadcastDispatch | broadcastCommit | broadcastValidationFailed | broadcastTimeout
  | broadcastRefund | broadcastRefundFailed =>
      simp only [TaskPc.onBroadcast]
      split <;> simp

theorem onResponse_ne (job : Job) (msg : Bytes) :
    job.onResponse msg ≠ .createRefund .success := by
  unfold Job.onResponse
  split
  · cases job <;> simp only [Job.onResult] <;> try split
    all_goals simp
  · cases job <;> simp [Job.onError]

theorem NoneRefundsSuccess.step {settings : Settings} {s s' : System} {a : Action}
    {es : List Event} (h : NoneRefundsSuccess s) (he : Effect settings s a s' es) :
    NoneRefundsSuccess s' := by
  have hset : ∀ {i : Nat} {task : Task}, task.pc ≠ .createRefund .success →
      ∀ task' ∈ s.tasks.set i task, task'.pc ≠ .createRefund .success := by
    intro i task hpc task' htask'
    rcases List.mem_or_eq_of_mem_set htask' with hold | rfl
    · exact h task' hold
    · exact hpc
  cases he with
  | ledger | submit | refuse | drain | lose | note => exact h
  | @start _ job =>
      intro task htask
      rcases List.mem_append.mp htask with hold | hlast
      · exact h task hold
      · rw [List.mem_singleton.mp hlast]
        cases job <;> simp [Job.start]
  | send => exact hset (by simp)
  | @sendFails i corrId fails job => exact hset (by cases job <;> simp [Job.onError])
  | receive => exact hset (onResponse_ne _ _)
  | @timeout i job => exact hset (by cases job <;> simp [Job.onTimeout])
  | broadcast _ hmessage => exact hset (onBroadcast_ne _ hmessage)
  | @refund _ i accepted raises => exact hset (by cases raises <;> simp [TaskPc.onRefund])

/-! ## §3. Agreement. -/

/-- The saga of the charge has heard the verdict. -/
def Heard (s : System) (id : String) (ok : Bool) : Prop :=
  ∃ task ∈ s.tasks, task.job.chargeId = some id ∧ task.pc.verdict = some ok

/-- **All deliveries of the charge agree**, over a whole run. -/
structure Agreement (settings : Settings) (wal : Wal.WriteAheadLog) (acts : List Action)
    (id : String) : Prop where
  /-- All sagas that hear an answer hear, and so return, the same. -/
  verdicts : ∀ u v, Visits (traced (step settings)) ⟨.started wal, []⟩ acts u →
    Visits (traced (step settings)) ⟨.started wal, []⟩ acts v → ∀ ok ok',
      Heard u.state id ok → Heard v.state id ok' → ok = ok'
  /-- If it is a success, the charge was credited once. -/
  credited : ∀ u, Visits (traced (step settings)) ⟨.started wal, []⟩ acts u →
    Heard u.state id true → ∃ charge corrId, charge.id = id ∧
      Job.saga charge ∈ u.state.tasks.map Task.job ∧
      (applied (ledgerTrace u.trace)).filter (fun req => req.idempotencyKey = keyOf id) =
        [(settings.credit charge).request corrId]
  /-- Then nobody who has heard an answer asks for a refund. -/
  refunds : ∀ u v i accepted raises u',
    Takes (traced (step settings)) ⟨.started wal, []⟩ acts u (.refund i accepted raises) u' →
    Visits (traced (step settings)) ⟨.started wal, []⟩ acts v → Heard v.state id true →
      ∀ charge status, u.state.tasks[i]? = some ⟨.saga charge, .createRefund status⟩ →
        charge.id = id → status = .timeoutCompensated
  /-- If it is not, the charge is not credited at any time. -/
  uncredited : ∀ u v, Visits (traced (step settings)) ⟨.started wal, []⟩ acts u →
    Visits (traced (step settings)) ⟨.started wal, []⟩ acts v → Heard u.state id false →
      ¬ Credited v.trace id

/-- **ALL DELIVERIES OF A CHARGE AGREE**, over every run in which no other client
uses its key and no request with the key is turned away by a full queue, unless
the engine has rejected one before. -/
theorem outcomes_agree {settings : Settings} {wal : Wal.WriteAheadLog} {acts : List Action}
    {id : String} (hleaves : ∀ a ∈ acts, LeavesKey id a)
    (haway : ∀ t a t', Takes (traced (step settings)) ⟨.started wal, []⟩ acts t a t' →
      TurnsAwayRejected id t.state a) : Agreement settings wal acts id := by
  have hstands : ∀ {ok : Bool} {u : Traced System Event},
      Visits (traced (step settings)) ⟨.started wal, []⟩ acts u → Heard u.state id ok →
        Stands ok u.state.engine (keyOf id) := by
    intro ok u hu hheard
    obtain ⟨task, htask, hjob, hverdict⟩ := hheard
    exact (run_standing (fun _ => haway) hu).tasks task htask hjob hverdict
  have hverdicts : ∀ u v, Visits (traced (step settings)) ⟨.started wal, []⟩ acts u →
      Visits (traced (step settings)) ⟨.started wal, []⟩ acts v → ∀ ok ok',
        Heard u.state id ok → Heard v.state id ok' → ok = ok' := by
    intro u v hu hv ok ok' hok hok'
    -- both stand in the later of the two states
    obtain ⟨t, -, ⟨as, has⟩, ⟨bs, hbs⟩⟩ := visits_later hu hv
    exact (run_stands (visits_absent hu) (hstands hu hok) has).unique
      (run_stands (visits_absent hv) (hstands hv hok') hbs)
  refine ⟨hverdicts, ?_, ?_, ?_⟩
  · intro u hu hheard
    have hstand := hstands hu hheard
    obtain ⟨before, after, rfl, hrun⟩ := hu
    exact credited_once (fun a ha => hleaves a (List.mem_append_left after ha)) hrun hstand
  · intro u v i accepted raises u' htakes hv hheard charge status htask hid
    have hmem := List.mem_of_getElem? htask
    have hnone : NoneRefundsSuccess u.state := by
      obtain ⟨before, -, -, hrun, -⟩ := htakes
      refine traced_invariant (fun s _ => NoneRefundsSuccess s) ?_ ?_ hrun
      · intro s tr a s' es hs hstep
        exact hs.step (step_effect hstep)
      · intro task htask
        cases htask
    cases status with
    | success => exact absurd rfl (hnone _ hmem)
    | timeoutCompensated => rfl
    | compensated =>
        have hother : Heard u.state id false := ⟨_, hmem, congrArg some hid, rfl⟩
        cases hverdicts u v htakes.source hv false true hother hheard
  · intro u v hu hv hheard hcredited
    obtain ⟨t, ht, ⟨as, has⟩, ⟨bs, hbs⟩⟩ := visits_later hu hv
    exact not_credited ht (run_stands (visits_absent hu) (hstands hu hheard) has)
      (credited_run hcredited hbs)

/-- The condition, at one step: the queue has room. -/
def hasRoom (t : Traced System Event) : Action → Bool
  | .ioReceive _ _ => decide (t.state.engine.requestQueue.items.length < queueCapacity)
  | _ => true

theorem turnsAway_of_checked {settings : Settings} {wal : Wal.WriteAheadLog} {acts : List Action}
    {id : String} (h : checked (traced (step settings)) hasRoom ⟨.started wal, []⟩ acts = true) :
    ∀ t a t', Takes (traced (step settings)) ⟨.started wal, []⟩ acts t a t' →
      TurnsAwayRejected id t.state a := by
  intro t a t' htakes
  have hok : hasRoom t a = true := htakes.checked h
  rintro k u rfl hfull
  have hlt : t.state.engine.requestQueue.items.length < queueCapacity := of_decide_eq_true hok
  omega

/-- A charge, as Stripe sends it. -/
def smallCharge : Charge := ⟨"ch_1", 500, "usd"⟩

/-- It is delivered a second time before the first answer is there. -/
def deliveredTwice : List Action :=
  accountCalls .liability ++ deliveredCharge 0 smallCharge (repeatedId 0) ++
    deliveredCharge 1 smallCharge (repeatedId 1) ++ engineWorks 20 ++
    [.ioDrain true, .ioDrain true, .receive 0, .receive 0, .broadcast 0 none, .broadcast 1 none]

theorem deliveredTwice_agree :
    Agreement bookedSettings newLog deliveredTwice "ch_1" ∧
      (runSystem bookedSettings newLog deliveredTwice).map (fun t =>
        (t.state.tasks.map Task.pc, (applied (ledgerTrace t.trace)).length)) =
          some ([.returned (some .success), .returned (some .success)], 1) := by
  refine ⟨outcomes_agree ?_ (turnsAway_of_checked (by decide +kernel)), by decide +kernel⟩
  intro a ha args hargs
  subst hargs
  simp [deliveredTwice, accountCalls, deliveredCharge, sentCharge, engineWorks,
    createAccountCall] at ha

/-! ## §4. A full queue. -/

/-- Correlation ids, one for each number. -/
def numberedId (n : Nat) : Uuid := ⟨Bytes.toLE 16 n, Bytes.length_toLE 16 n⟩

theorem numberedId_inj {m n : Nat} (hm : m < 2 ^ 128) (hn : n < 2 ^ 128)
    (h : numberedId m = numberedId n) : m = n :=
  Bytes.toLE_inj hm hn (congrArg Uuid.bytes h)

/-- A transfer of another client, without a key. -/
def otherTransfer : Transfer := ⟨"acc_0", "acc_1", 1, "usd", "", "", ""⟩

/-- Nothing is on its way, and only the first `n` correlation ids are in use. -/
structure Calm (n : Nat) (s : System) : Prop where
  toEngine : s.toEngine = []
  toGateway : s.toGateway = []
  sent : ∀ id ∈ s.sent.map Prod.fst, ∃ j, j < n ∧ id = numberedId j
  waits : ∀ task ∈ s.tasks, ∀ corrId, task.pc = .wait corrId → ∃ j, j < n ∧ corrId = numberedId j

/-- The next correlation id is a new one. -/
theorem Calm.fresh {n : Nat} {s : System} (h : Calm n s) (hn : n < 2 ^ 128) :
    numberedId n ∉ s.sent.map Prod.fst := by
  intro hmem
  obtain ⟨j, hj, heq⟩ := h.sent _ hmem
  have hsame := numberedId_inj hn (by omega) heq
  omega

/-- No coroutine waits for it. -/
theorem Calm.awaits {n : Nat} {s : System} (h : Calm n s) (hn : n < 2 ^ 128) :
    ∀ task ∈ s.tasks, Task.awaits (numberedId n).bytes task = false := by
  intro task htask
  unfold Task.awaits
  split
  next corrId hpc =>
    obtain ⟨j, hj, rfl⟩ := h.waits task htask corrId hpc
    refine decide_eq_false ?_
    intro hbytes
    have hsame := numberedId_inj (by omega) hn (Uuid.ext hbytes)
    omega
  next => rfl

section Last

variable {settings : Settings} {e : LedgerEngine} {toEngine toGateway : List Bytes}
  {sent : List (Uuid × Transfer)} {tasks : List Task}

theorem set_last (tasks : List Task) (task task' : Task) :
    (tasks ++ [task]).set tasks.length task' = tasks ++ [task'] := by
  rw [List.set_append_right _ _ (Nat.le_refl _), Nat.sub_self]
  rfl

/-- The last coroutine sends, and its message is written. -/
theorem last_sends (job : Job) {corrId : Uuid} {msg : Bytes} (hfresh : corrId ∉ sent.map Prod.fst)
    (hmsg : (job.args settings).message corrId = .ok msg) :
    step settings ⟨e, [], toGateway, sent, tasks ++ [⟨job, .send⟩]⟩
      (.send tasks.length corrId false) =
        some (⟨e, [msg], toGateway, sent ++ [(corrId, job.args settings)],
          tasks ++ [⟨job, .wait corrId⟩]⟩, []) := by
  simp only [step, System.send, List.getElem?_concat_length, if_neg hfresh, hmsg, System.resume,
    set_last, List.nil_append]

/-- The last coroutine broadcasts. -/
theorem last_broadcasts {charge : Charge} {pc : TaskPc} (pc' : TaskPc) {message : SagaMessage}
    (hmessage : pc.message = some message) (hpc : pc.onBroadcast none = pc') :
    step settings ⟨e, toEngine, toGateway, sent, tasks ++ [⟨.saga charge, pc⟩]⟩
      (.broadcast tasks.length none) =
        some (⟨e, toEngine, toGateway, sent, tasks ++ [⟨.saga charge, pc'⟩]⟩,
          [.broadcast charge.id message]) := by
  subst hpc
  simp only [step, System.broadcast, List.getElem?_concat_length, hmessage, Option.map_some,
    System.resume, set_last]

/-- The last coroutine asks for a refund. -/
theorem last_refunds {charge : Charge} {status : SagaStatus} :
    step settings ⟨e, toEngine, toGateway, sent, tasks ++ [⟨.saga charge, .createRefund status⟩]⟩
      (.refund tasks.length true none) =
        some (⟨e, toEngine, toGateway, sent, tasks ++ [⟨.saga charge, .broadcastRefund status⟩]⟩,
          [.refund charge.refund true]) := by
  simp only [step, System.refund, List.getElem?_concat_length, System.resume, set_last]
  rfl

/-- The last coroutine goes on with the answer it waits for. -/
theorem last_receives (job : Job) {corrId : Uuid} {msg : Bytes}
    (hkey : receiverKey msg = some corrId.bytes)
    (hothers : ∀ task ∈ tasks, Task.awaits corrId.bytes task = false) :
    step settings ⟨e, toEngine, [msg], sent, tasks ++ [⟨job, .wait corrId⟩]⟩ (.receive 0) =
      some (⟨e, toEngine, [], sent, tasks ++ [⟨job, job.onResponse msg⟩]⟩, []) := by
  have hindex : (tasks ++ [Task.mk job (.wait corrId)]).findIdx? (Task.awaits corrId.bytes) =
      some tasks.length := by
    rw [List.findIdx?_append, List.findIdx?_eq_none_iff.mpr hothers]
    simp [Task.awaits]
  simp only [step, System.receive, List.getElem?_cons_zero, Option.map_some, hkey, hindex,
    List.getElem?_concat_length, System.resume, set_last, List.eraseIdx_cons_zero]

/-- A request finds room. -/
theorem io_submits {msg : Bytes} {req : TransactionRequest} {q}
    (hread : deserializeRequest msg = some req) (hq : e.requestQueue.enqueue req = some q) :
    step settings ⟨e, [msg], toGateway, sent, tasks⟩ (.ioReceive 0 Uuid.zero) =
      some (⟨{ e with requestQueue := q }, [], toGateway, sent, tasks⟩,
        [.ledger (.submitted req)]) := by
  simp only [step, System.ioReceive, List.getElem?_cons_zero, Option.bind_some, hread,
    Option.map_some, hq, List.eraseIdx_cons_zero]

/-- A request finds the queue full. -/
theorem io_refuses {msg : Bytes} {req : TransactionRequest} {corrId : Uuid}
    (hread : deserializeRequest msg = some req) (hcorr : req.correlationId = corrId)
    (hq : e.requestQueue.enqueue req = none) :
    step settings ⟨e, [msg], [], sent, tasks⟩ (.ioReceive 0 Uuid.zero) =
      some (⟨e, [], [serializeResponse (queueFullResponse corrId Uuid.zero)], sent, tasks⟩, []) := by
  subst hcorr
  simp only [step, System.ioReceive, List.getElem?_cons_zero, Option.bind_some, hread,
    Option.map_some, hq, List.eraseIdx_cons_zero, List.nil_append]

end Last

/-- **One more request** of another client waits in the queue. -/
theorem calm_fills {settings : Settings} {n : Nat} {s : System} (h : Calm n s) (hn : n < 2 ^ 128)
    (hroom : s.engine.requestQueue.items.length < queueCapacity) (tr : List Event) :
    ∃ acts t, run (traced (step settings)) ⟨s, tr⟩ acts = some t ∧ Calm (n + 1) t.state ∧
      (∀ a ∈ acts, ∀ id, LeavesKey id a) ∧ (∃ more, t.state.tasks = s.tasks ++ more) ∧
      t.state.engine.requestQueue.items.length = s.engine.requestQueue.items.length + 1 := by
  obtain ⟨msg, hmsg, hread, -⟩ : ∃ msg,
      transactionMessage (numberedId n) "acc_0" "acc_1" (Int64.toInt 1) "usd" "" "" "" = .ok msg ∧
      deserializeRequest msg = some (requestOf (numberedId n) "acc_0" "acc_1" 1 "usd" "" "" "") ∧
      _ :=
    transactionMessage_read _ _ (by decide) (by decide) (by decide) (by decide) (by decide)
      (by decide)
  obtain ⟨e, toEngine, toGateway, sent, tasks⟩ := s
  obtain ⟨q, hq, hitems⟩ : ∃ q, e.requestQueue.enqueue
      (requestOf (numberedId n) "acc_0" "acc_1" 1 "usd" "" "" "") = some q ∧ _ :=
    Fifo.Bounded.enqueue_of_lt hroom _
  have hfresh : numberedId n ∉ sent.map Prod.fst := h.fresh hn
  obtain ⟨rfl, rfl, hsent, hwaits⟩ := h
  have hstart : step settings ⟨e, [], [], sent, tasks⟩ (.transfer otherTransfer) =
      some (⟨e, [], [], sent, tasks ++ [⟨.transfer otherTransfer, .send⟩]⟩, []) := rfl
  have hrun : ∃ tr', run (traced (step settings)) ⟨⟨e, [], [], sent, tasks⟩, tr⟩
      [.transfer otherTransfer, .send tasks.length (numberedId n) false, .ioReceive 0 Uuid.zero] =
        some ⟨⟨{ e with requestQueue := q }, [], [], sent ++ [(numberedId n, otherTransfer)],
          tasks ++ [⟨.transfer otherTransfer, .wait (numberedId n)⟩]⟩, tr'⟩ := by
    rw [run_traced_cons hstart,
      run_traced_cons (last_sends (.transfer otherTransfer) hfresh hmsg),
      run_traced_cons (io_submits hread hq)]
    exact ⟨_, rfl⟩
  obtain ⟨tr', hrun⟩ := hrun
  refine ⟨_, _, hrun, ⟨rfl, rfl, ?_, ?_⟩, ?_, ⟨_, rfl⟩, ?_⟩
  · intro id hid
    rcases List.mem_append.mp (List.map_append ▸ hid) with hold | hlast
    · obtain ⟨j, hj, heq⟩ := hsent id hold
      exact ⟨j, by omega, heq⟩
    · rw [List.mem_singleton.mp hlast]
      exact ⟨n, by omega, rfl⟩
  · intro task htask corrId hpc
    rcases List.mem_append.mp htask with hold | hlast
    · obtain ⟨j, hj, heq⟩ := hwaits task hold corrId hpc
      exact ⟨j, by omega, heq⟩
    · rw [List.mem_singleton.mp hlast] at hpc
      cases hpc
      exact ⟨n, by omega, rfl⟩
  · intro a ha id args hargs
    subst hargs
    simp only [List.mem_cons, List.not_mem_nil, or_false, Action.transfer.injEq] at ha
    rcases ha with rfl | ha | ha
    · intro hkey
      have hchars := congrArg String.toList hkey
      simp [otherTransfer, chargeKey] at hchars
    · cases ha
    · cases ha
  · show q.items.length = _
    rw [hitems, List.length_append, List.length_singleton]

/-- **Other clients fill the queue.** -/
theorem calm_crowds {settings : Settings} : ∀ (k : Nat) {n : Nat} {s : System}, Calm n s →
    n + k < 2 ^ 128 → s.engine.requestQueue.items.length + k ≤ queueCapacity →
      ∀ tr, ∃ acts t, run (traced (step settings)) ⟨s, tr⟩ acts = some t ∧ Calm (n + k) t.state ∧
        (∀ a ∈ acts, ∀ id, LeavesKey id a) ∧ (∃ more, t.state.tasks = s.tasks ++ more) ∧
        t.state.engine.requestQueue.items.length = s.engine.requestQueue.items.length + k := by
  intro k
  induction k with
  | zero =>
      intro n s h _ _ tr
      exact ⟨[], ⟨s, tr⟩, rfl, h, by simp, ⟨[], (List.append_nil _).symm⟩, rfl⟩
  | succ k ih =>
      intro n s h hn hroom tr
      obtain ⟨acts₁, t₁, hrun₁, hcalm₁, hleaves₁, ⟨more₁, htasks₁⟩, hlen₁⟩ :=
        calm_fills h (by omega) (by omega) tr
      obtain ⟨acts₂, t₂, hrun₂, hcalm₂, hleaves₂, ⟨more₂, htasks₂⟩, hlen₂⟩ :=
        ih hcalm₁ (by omega) (by omega) t₁.trace
      refine ⟨acts₁ ++ acts₂, t₂, ?_, ?_, ?_, ⟨more₁ ++ more₂, ?_⟩, by omega⟩
      · rw [run_append, hrun₁]
        exact hrun₂
      · rw [show n + (k + 1) = n + 1 + k by omega]
        exact hcalm₂
      · intro a ha
        rcases List.mem_append.mp ha with hfirst | hsecond
        · exact hleaves₁ a hfirst
        · exact hleaves₂ a hsecond
      · rw [htasks₂, htasks₁, List.append_assoc]

/-- The answer of the I/O thread is no success. -/
theorem onResponse_queueFull (charge : Charge) (corrId : Uuid) :
    ∃ result, (Job.saga charge).onResponse
      (serializeResponse (queueFullResponse corrId Uuid.zero)) =
        .broadcastValidationFailed result := by
  have htext : Text (ascii "Engine queue full") :=
    ⟨by decide, "Engine queue full", by decide +kernel⟩
  have hmessage : Text (queueFullResponse corrId Uuid.zero).message := htext
  obtain ⟨result, hresult, -⟩ := parseTransaction_serialize hmessage
  have hstatus : result.status = 4 := by
    rw [parseTransaction_status hresult]
    rfl
  refine ⟨result, ?_⟩
  unfold Job.onResponse
  rw [hresult]
  show (if result.status = 0 then _ else _) = _
  rw [hstatus]
  rfl

/-- **A delivery that finds the queue full is compensated**, whatever is settled
for the charge. -/
theorem turnedAway_compensates {n : Nat} {s : System} (h : Calm n s) (hn : n < 2 ^ 128)
    (hfull : s.engine.requestQueue.items.length = queueCapacity) (tr : List Event) :
    ∃ acts t, run (traced (step bookedSettings)) ⟨s, tr⟩ acts = some t ∧
      (∀ a ∈ acts, ∀ id, LeavesKey id a) ∧
      t.state.tasks = s.tasks ++ [⟨.saga smallCharge, .returned (some .compensated)⟩] := by
  -- the request of the charge
  let req : TransactionRequest := requestOf (numberedId n) "acc_0" "acc_1" 500 "usd"
    ("Stripe Charge " ++ "ch_1") (chargeKey "ch_1") "ch_1"
  obtain ⟨msg, hmsg, hread, -⟩ : ∃ msg,
      ((Job.saga smallCharge).args bookedSettings).message (numberedId n) = .ok msg ∧
      deserializeRequest msg = some req ∧ _ :=
    transactionMessage_read (numberedId n) 500 (by decide) (by decide) (by decide) (by decide)
      (by decide) (by decide)
  obtain ⟨result, hresult⟩ := onResponse_queueFull smallCharge (numberedId n)
  obtain ⟨e, toEngine, toGateway, sent, tasks⟩ := s
  have hfresh : numberedId n ∉ sent.map Prod.fst := h.fresh hn
  have hawaits : ∀ task ∈ tasks, Task.awaits (numberedId n).bytes task = false := h.awaits hn
  have hcorr : req.correlationId = numberedId n := rfl
  have hkey : receiverKey (serializeResponse (queueFullResponse (numberedId n) Uuid.zero)) =
      some (numberedId n).bytes := receiverKey_serialize _
  have hrefuses : ∀ req, e.requestQueue.enqueue req = none :=
    Fifo.Bounded.enqueue_of_full hfull
  obtain ⟨rfl, rfl, -, -⟩ := h
  have hstart : step bookedSettings ⟨e, [], [], sent, tasks⟩
      (.webhook (.chargeSucceeded smallCharge)) =
        some (⟨e, [], [], sent, tasks ++ [⟨.saga smallCharge, .broadcastDispatch⟩]⟩, []) := rfl
  have hrun : ∃ sent' tr', run (traced (step bookedSettings)) ⟨⟨e, [], [], sent, tasks⟩, tr⟩
      [.webhook (.chargeSucceeded smallCharge), .broadcast tasks.length none,
        .send tasks.length (numberedId n) false, .ioReceive 0 Uuid.zero, .receive 0,
        .broadcast tasks.length none, .refund tasks.length true none,
        .broadcast tasks.length none] =
      some ⟨⟨e, [], [], sent', tasks ++ [⟨.saga smallCharge, .returned (some .compensated)⟩]⟩,
        tr'⟩ := by
    rw [run_traced_cons hstart, run_traced_cons (last_broadcasts .send rfl rfl),
      run_traced_cons (last_sends (.saga smallCharge) hfresh hmsg),
      run_traced_cons (io_refuses hread hcorr (hrefuses _)),
      run_traced_cons (last_receives (.saga smallCharge) hkey hawaits),
      hresult, run_traced_cons (last_broadcasts (.createRefund .compensated) rfl rfl),
      run_traced_cons last_refunds,
      run_traced_cons (last_broadcasts (.returned (some .compensated)) rfl rfl)]
    exact ⟨_, _, rfl⟩
  obtain ⟨sent', tr', hrun⟩ := hrun
  refine ⟨_, _, hrun, ?_, rfl⟩
  intro a ha id args hargs
  subst hargs
  simp at ha

/-- The first delivery is applied and answered. -/
def firstDelivery : List Action :=
  accountCalls .liability ++ deliveredCharge 0 smallCharge (numberedId 0) ++ engineWorks 13 ++
    [.ioDrain true, .receive 0, .broadcast 0 none]

theorem firstDelivery_calm :
    ∃ t, runSystem bookedSettings newLog firstDelivery = some t ∧ Calm 1 t.state ∧
      t.state.tasks = [⟨.saga smallCharge, .returned (some .success)⟩] ∧
      t.state.engine.requestQueue.items.length = 0 := by
  have hends : (runSystem bookedSettings newLog firstDelivery).map (fun t =>
      (t.state.tasks, t.state.toEngine ++ t.state.toGateway, t.state.sent.map Prod.fst,
        t.state.engine.requestQueue.items.length)) =
      some ([⟨.saga smallCharge, .returned (some .success)⟩], [], [numberedId 0], 0) := by
    decide +kernel
  obtain ⟨t, hrun, ht⟩ := Option.map_eq_some_iff.mp hends
  simp only [Prod.mk.injEq] at ht
  obtain ⟨htasks, hempty, hsent, hlen⟩ := ht
  obtain ⟨htoEngine, htoGateway⟩ := List.append_eq_nil_iff.mp hempty
  refine ⟨t, hrun, ⟨htoEngine, htoGateway, ?_, ?_⟩, htasks, hlen⟩
  · intro id hid
    rw [hsent, List.mem_singleton] at hid
    exact ⟨0, by omega, hid⟩
  · intro task htask corrId hpc
    rw [htasks, List.mem_singleton] at htask
    rw [htask] at hpc
    cases hpc

/-- **One charge, two outcomes.**  The first delivery is credited and returns a
success.  Then other clients fill the queue, and a second delivery is turned away
and compensated. -/
theorem turnedAway_disagrees :
    ∃ acts t, runSystem bookedSettings newLog acts = some t ∧ (∀ a ∈ acts, LeavesKey "ch_1" a) ∧
      ⟨.saga smallCharge, .returned (some .success)⟩ ∈ t.state.tasks ∧
      ⟨.saga smallCharge, .returned (some .compensated)⟩ ∈ t.state.tasks ∧
      ¬ Agreement bookedSettings newLog acts "ch_1" := by
  obtain ⟨t₀, hrun₀, hcalm₀, htasks₀, hlen₀⟩ := firstDelivery_calm
  obtain ⟨acts₁, t₁, hrun₁, hcalm₁, hleaves₁, ⟨more, htasks₁⟩, hlen₁⟩ :=
    calm_crowds queueCapacity hcalm₀ (by decide) (by omega) t₀.trace
  obtain ⟨acts₂, t₂, hrun₂, hleaves₂, htasks₂⟩ :=
    turnedAway_compensates hcalm₁ (by decide) (by omega) t₁.trace
  have hrun : runSystem bookedSettings newLog (firstDelivery ++ acts₁ ++ acts₂) = some t₂ := by
    rw [runSystem, run_append, run_append, show run _ _ _ = _ from hrun₀]
    show (run _ t₀ acts₁).bind _ = _
    rw [hrun₁]
    exact hrun₂
  have hsuccess : ⟨.saga smallCharge, .returned (some .success)⟩ ∈ t₂.state.tasks := by
    rw [htasks₂, htasks₁, htasks₀]
    simp
  have hcompensated : ⟨.saga smallCharge, .returned (some .compensated)⟩ ∈ t₂.state.tasks := by
    rw [htasks₂]
    simp
  refine ⟨_, t₂, hrun, ?_, hsuccess, hcompensated, ?_⟩
  · intro a ha
    rcases List.mem_append.mp ha with hbefore | hlast
    · rcases List.mem_append.mp hbefore with hfirst | hcrowd
      · intro args hargs
        subst hargs
        simp [firstDelivery, accountCalls, deliveredCharge, sentCharge, engineWorks,
          createAccountCall] at hfirst
      · exact hleaves₁ a hcrowd "ch_1"
    · exact hleaves₂ a hlast "ch_1"
  · intro hagree
    have hend := visits_end hrun
    cases hagree.verdicts t₂ t₂ hend hend true false ⟨_, hsuccess, rfl, rfl⟩
      ⟨_, hcompensated, rfl, rfl⟩

end ZeroLGR.Gateway
