/-
  ZeroLGR.Gateway.Refunds — refunds are booked in full.

  Stripe sends `charge.refunded` for every refund of a charge.  The charge object
  has the original amount in `amount`, and what was refunded so far in
  `amount_refunded`, which the webhook does not read.  It reverses the original
  amount each time, always under the same key, prints every exception, takes any
  answer for a success, and acknowledges the event.

    • `BookedInFull` — what is promised,
    • `run_okBacked` — an OK answer was applied under the key of its transfer,
    • `reversedTotal_eq` — a reversal that was applied is of the original amount,
    • `booked_in_full` — it holds if and only if the whole charge is refunded, and
      the engine has applied the reversal, whenever the last event is acknowledged,
    • `partRefunded_overbooked` — 200 of 500 were refunded, and 500 reversed.
-/
import ZeroLGR.Gateway.Agreement

namespace ZeroLGR.Gateway

open Transition Ledger Server

/-! ## §1. What is promised. -/

def System.jobs (s : System) : List Job := s.tasks.map Task.job

/-- Where the coroutine stands. -/
def System.pcAt (s : System) (i : Nat) : Option TaskPc := (s.tasks[i]?).map Task.pc

/-- What Stripe knows of a charge: its amount, and the `amount_refunded` of the
event that coroutine `i` was started for. -/
structure RefundHistory where
  amount : Int
  amountRefunded : Nat → Int

/-- **What Stripe sends**: every event has the original amount, and with every
refund more of it is refunded. -/
structure StripeSends (history : RefundHistory) (id : String) (jobs : List Job) : Prop where
  original : ∀ charge : Charge, .saga charge ∈ jobs ∨ .reversal charge ∈ jobs → charge.id = id →
    charge.amount = history.amount
  part : ∀ (i : Nat) (charge : Charge), jobs[i]? = some (.reversal charge) → charge.id = id →
    0 < history.amountRefunded i ∧ history.amountRefunded i ≤ history.amount
  grows : ∀ (i j : Nat) (charge charge' : Charge), jobs[i]? = some (.reversal charge) →
    jobs[j]? = some (.reversal charge') → charge.id = id → charge'.id = id → i < j →
      history.amountRefunded i < history.amountRefunded j

/-- Coroutine `i` handles the last refund of the charge. -/
structure Latest (jobs : List Job) (id : String) (i : Nat) : Prop where
  refund : ∃ charge : Charge, jobs[i]? = some (.reversal charge) ∧ charge.id = id
  last : ∀ (j : Nat) (charge : Charge), jobs[j]? = some (.reversal charge) → charge.id = id → j ≤ i

/-- The reversals that were applied for the charge. -/
def reversals (tr : List Event) (id : String) : List TransactionRequest :=
  (applied (ledgerTrace tr)).filter (fun req => req.idempotencyKey = encodeUtf8 (reversalKey id))

/-- Their total. -/
def reversedTotal (tr : List Event) (id : String) : Int :=
  ((reversals tr id).map TransactionRequest.amount).sum

/-- **Refunds are booked in full**: once the last event is acknowledged, what was
reversed is what was refunded so far. -/
def BookedInFull (history : RefundHistory) (id : String) (t : Traced System Event) : Prop :=
  ∀ i, Latest t.state.jobs id i → t.state.pcAt i = some (.returned none) →
    reversedTotal t.trace id = history.amountRefunded i

/-- An OK is on its way to the coroutine. -/
def AnsweredOk (s : System) (i : Nat) : Prop :=
  ∃ task msg, s.tasks[i]? = some task ∧ msg ∈ s.toGateway ∧ task.WaitsFor msg ∧
    verdict msg = some true

/-- **When the last event is acknowledged**, the whole charge is refunded, and
the engine has answered with OK, or the reversal was applied before. -/
def EndsBooked (history : RefundHistory) (id : String) (t t' : Traced System Event) : Prop :=
  ∀ i, Latest t.state.jobs id i → t.state.pcAt i ≠ some (.returned none) →
    t'.state.pcAt i = some (.returned none) →
      history.amountRefunded i = history.amount ∧
        (AnsweredOk t.state i ∨ Reversed t.trace id)

/-- The action is no transfer of another client under the key of the reversal. -/
def LeavesReversalKey (id : String) (a : Action) : Prop :=
  ∀ args, a = .transfer args → args.idempotencyKey ≠ reversalKey id

/-! ## §2. An OK was applied. -/

/-- A transfer with the key was applied. -/
def AppliedUnder (tr : List Event) (key : String) : Prop :=
  ∃ req ∈ applied (ledgerTrace tr), req.idempotencyKey = encodeUtf8 key

theorem AppliedUnder.mono {tr : List Event} {key : String} (h : AppliedUnder tr key)
    (es : List Event) : AppliedUnder (tr ++ es) key := applied_mono h es

theorem reversalKey_ne (id : String) : reversalKey id ≠ "" := by
  simp [reversalKey]

/-- **Every OK on its way was applied** under the key of the transfer it is for. -/
def OkBacked (s : System) (tr : List Event) : Prop :=
  ∀ msg ∈ s.toGateway, verdict msg = some true → ∀ c ∈ s.sent,
    receiverKey msg = some c.1.bytes → c.2.idempotencyKey ≠ "" →
      AppliedUnder tr c.2.idempotencyKey

section Steps

variable {settings : Settings} {wal : Wal.WriteAheadLog} {bs : List Ledger.Action}
  {s s' : System} {a : Action} {tr es : List Event}

/-- A reply of the engine with OK is to a transfer that was applied. -/
theorem applied_of_reply (hrun : runEngine (.init wal) bs = some ⟨s.engine, ledgerTrace tr⟩)
    (hhonest : Honest settings s tr) {envelope : TxResponseEnvelope}
    (hreply : envelope ∈ s.engine.replyQueue.items) (hok : envelope.response.status = .ok) :
    ∃ c ∈ s.sent, envelope.response.correlationId = c.1 ∧
      (c.2.idempotencyKey ≠ "" → AppliedUnder tr c.2.idempotencyKey) := by
  obtain ⟨req, hreq, hid, hsettled⟩ := reply_origin hrun (replied_of_queued hrun hreply)
  obtain ⟨c, hc, rfl⟩ := hhonest.requests req hreq
  refine ⟨c, hc, hid, ?_⟩
  intro hkey
  obtain ⟨r, hr, hstatus⟩ := hsettled (encodeUtf8_ne_nil hkey)
  exact applied_of_settled hrun hr (hstatus.trans hok)

/-- **One step.** -/
theorem OkBacked.step (h : OkBacked s tr)
    (hfrom : ∀ msg ∈ s.toGateway, ∃ c ∈ s.sent, receiverKey msg = some c.1.bytes)
    (hhonest : Honest settings s tr)
    (hrun : runEngine (.init wal) bs = some ⟨s.engine, ledgerTrace tr⟩)
    (he : Effect settings s a s' es) : OkBacked s' (tr ++ es) := by
  have hold : ∀ msg ∈ s.toGateway, verdict msg = some true → ∀ c ∈ s.sent,
      receiverKey msg = some c.1.bytes → c.2.idempotencyKey ≠ "" →
        AppliedUnder (tr ++ es) c.2.idempotencyKey := by
    intro msg hmsg hverdict c hc hid hkey
    exact (h msg hmsg hverdict c hc hid hkey).mono es
  cases he with
  | ledger | submit | start | note | timeout | broadcast | refund => exact hold
  | lose _ hsub => exact fun msg hmsg => hold msg (hsub hmsg)
  | receive => exact fun msg hmsg => hold msg (List.mem_of_mem_eraseIdx hmsg)
  | refuse =>
      intro msg hmsg hverdict
      rcases List.mem_append.mp hmsg with hthere | hnew
      · exact hold msg hthere hverdict
      · -- a full queue is no OK
        rw [List.mem_singleton.mp hnew] at hverdict
        cases of_decide_eq_true (status_of_verdict hverdict)
  | @drain _ sends envelope e hstep =>
      intro msg hmsg hverdict c hc hid hkey
      rcases List.mem_append.mp hmsg with hthere | hnew
      · exact hold msg hthere hverdict c hc hid hkey
      · split at hnew
        · rw [List.mem_singleton.mp hnew] at hverdict hid
          obtain ⟨c₀, hc₀, hid₀, happlied⟩ := applied_of_reply hrun hhonest
            (queued_of_taken hstep) (of_decide_eq_true (status_of_verdict hverdict))
          cases transfer_of_answer hhonest hc₀ hid₀ hc hid
          exact (happlied hkey).mono _
        · cases hnew
  | @send i corrId fails job _ _ hfresh | @sendFails i corrId fails job _ hfresh =>
      intro msg hmsg hverdict c hc hid hkey
      exact hold msg hmsg hverdict c (sent_of_answer hfrom hfresh hmsg hc hid) hid hkey

end Steps

/-- In every state of every run. -/
theorem run_okBacked {settings : Settings} {wal : Wal.WriteAheadLog} {acts : List Action}
    {t : Traced System Event} (h : Visits (traced (step settings)) ⟨.started wal, []⟩ acts t) :
    OkBacked t.state t.trace := by
  refine traced_of_takes OkBacked ?_ ?_ h
  · intro msg hmsg
    cases hmsg
  · intro u a u' es htakes hes hu
    have hanswers := run_answers htakes.source
    obtain ⟨before, -, -, hrun⟩ := htakes.source
    obtain ⟨bs, hledger⟩ := run_ledger hrun
    exact hu.step hanswers (run_honest hrun) hledger (step_effect hes)

/-- A reversal that is answered with OK was applied. -/
theorem reversed_of_answeredOk {settings : Settings} {wal : Wal.WriteAheadLog}
    {acts : List Action} {t : Traced System Event}
    (ht : Visits (traced (step settings)) ⟨.started wal, []⟩ acts t) {i : Nat} {charge : Charge}
    (hjob : t.state.jobs[i]? = some (.reversal charge)) (h : AnsweredOk t.state i) :
    Reversed t.trace charge.id := by
  obtain ⟨task, msg, htask, hmsg, ⟨corrId, hwait, hid⟩, hverdict⟩ := h
  have hbacked := run_okBacked ht
  obtain ⟨before, -, -, hrun⟩ := ht
  have hsent := (run_honest hrun).waits task (List.mem_of_getElem? htask) corrId hwait
  rw [System.jobs, List.getElem?_map, htask, Option.map_some, Option.some.injEq] at hjob
  rw [hjob] at hsent
  exact hbacked msg hmsg hverdict _ hsent hid (reversalKey_ne charge.id)

/-! ## §3. Whose transfers they are. -/

/-- What is sent is what the coroutines send, and no other client is about to use
the key of the reversal. -/
structure LeftAlone (settings : Settings) (id : String) (s : System) : Prop where
  sent : ∀ c ∈ s.sent, ∃ job ∈ s.jobs, c.2 = job.args settings
  others : ∀ args, Job.transfer args ∈ s.jobs → args.idempotencyKey ≠ reversalKey id

/-- The requests of the engine are transfers that could be written. -/
def Written (s : System) (tr : List Event) : Prop :=
  ∀ req ∈ submitted (ledgerTrace tr), ∃ c ∈ s.sent, req = c.2.request c.1 ∧
    ∃ msg, c.2.message c.1 = .ok msg

section Steps

variable {settings : Settings} {s s' : System} {a : Action} {tr es : List Event} {id : String}

/-- **One step**, of any client but those that use the key. -/
theorem LeftAlone.step (h : LeftAlone settings id s) (hleaves : LeavesReversalKey id a)
    (hstep : step settings s a = some (s', es)) : LeftAlone settings id s' := by
  obtain ⟨new, hjobs, hnew⟩ := jobs_step hstep
  have hgrows : s'.jobs = s.jobs ++ new := hjobs
  constructor
  · intro c hc
    rw [hgrows]
    rcases (step_effect hstep).sent with hsame | ⟨i, corrId, fails, job, -, htask, hsent⟩
    · rw [hsame] at hc
      obtain ⟨job, hjob, hargs⟩ := h.sent c hc
      exact ⟨job, List.mem_append_left _ hjob, hargs⟩
    · rw [hsent] at hc
      rcases List.mem_append.mp hc with hold | hlast
      · obtain ⟨job', hjob, hargs⟩ := h.sent c hold
        exact ⟨job', List.mem_append_left _ hjob, hargs⟩
      · rw [List.mem_singleton.mp hlast]
        have hjob : job ∈ s.jobs := List.mem_map.mpr ⟨_, List.mem_of_getElem? htask, rfl⟩
        exact ⟨job, List.mem_append_left _ hjob, rfl⟩
  · intro args hargs
    rw [hgrows] at hargs
    rcases List.mem_append.mp hargs with hold | hlast
    · exact h.others args hold
    · exact hleaves args (hnew args hlast)

/-- Transfers that were sent stay sent. -/
theorem Effect.sent_subset (he : Effect settings s a s' es) : s.sent ⊆ s'.sent := by
  rcases he.sent with hsame | ⟨i, corrId, fails, job, -, -, hsent⟩
  · rw [hsame]
    exact List.Subset.refl _
  · rw [hsent]
    exact List.subset_append_left _ _

/-- **One step.** -/
theorem Written.step (h : Written s tr) (hhonest : Honest settings s tr)
    (he : Effect settings s a s' es) : Written s' (tr ++ es) := by
  intro req hreq
  rw [ledgerTrace_append, submitted_append] at hreq
  rcases List.mem_append.mp hreq with hold | hnew
  · obtain ⟨c, hc, hwritten⟩ := h req hold
    exact ⟨c, he.sent_subset hc, hwritten⟩
  · obtain ⟨msg, hmsg, hread⟩ := he.pushed req hnew
    obtain ⟨c, hc, hmessage⟩ := hhonest.messages msg hmsg
    rw [transferMessage_read hmessage] at hread
    exact ⟨c, he.sent_subset hc, (Option.some.inj hread).symm, msg, hmessage⟩

end Steps

section Runs

variable {settings : Settings} {wal : Wal.WriteAheadLog} {acts : List Action} {id : String}
  {t : Traced System Event}

theorem run_leftAlone (hleaves : ∀ a ∈ acts, LeavesReversalKey id a)
    (h : runSystem settings wal acts = some t) : LeftAlone settings id t.state := by
  refine run_invariant_of (fun t : Traced System Event => LeftAlone settings id t.state) ?_ ?_ h
  · intro a ha u u' hu hstep
    obtain ⟨es, hes, -⟩ := traced_eq_some.mp hstep
    exact hu.step (hleaves a ha) hes
  · constructor
    · intro c hc
      cases hc
    · intro args hargs
      cases hargs

theorem run_written (h : runSystem settings wal acts = some t) : Written t.state t.trace := by
  have hboth : Honest settings t.state t.trace ∧ Written t.state t.trace := by
    refine traced_invariant (fun s tr => Honest settings s tr ∧ Written s tr) ?_ ?_ h
    · intro s tr a s' es hs hstep
      have he := step_effect hstep
      exact ⟨hs.1.step he, hs.2.step hs.1 he⟩
    · have hstarted : runSystem settings wal [] = some ⟨.started wal, []⟩ := rfl
      refine ⟨run_honest hstarted, ?_⟩
      intro req hreq
      cases hreq
  exact hboth.2

/-- Only an amount that fits is sent. -/
theorem amount_of_message {corrId : Uuid} {args : Transfer} {msg : Bytes}
    (h : args.message corrId = .ok msg) : (args.request corrId).amount = args.amountMinor := by
  unfold Transfer.message transactionMessage at h
  obtain ⟨_, hamount, -⟩ := bind_eq_ok.mp h
  exact amount_of_packQ hamount

/-- **What is applied under the key** is the reversal of the original amount. -/
theorem amount_of_reversal (hleaves : ∀ a ∈ acts, LeavesReversalKey id a)
    (h : runSystem settings wal acts = some t) {history : RefundHistory}
    (hstripe : StripeSends history id t.state.jobs) :
    ∀ req ∈ reversals t.trace id, req.amount = history.amount := by
  intro req hreq
  obtain ⟨happlied, hkey⟩ := List.mem_filter.mp hreq
  obtain ⟨bs, hledger⟩ := run_ledger h
  have hsubmitted := applied_submitted hledger req happlied
  obtain ⟨c, hc, rfl, msg, hmessage⟩ := run_written h req hsubmitted
  have halone := run_leftAlone hleaves h
  obtain ⟨job, hjob, hargs⟩ := halone.sent c hc
  have hsame : c.2.idempotencyKey = reversalKey id := encodeUtf8_inj (of_decide_eq_true hkey)
  rw [amount_of_message hmessage, hargs]
  rw [hargs] at hsame
  cases job with
  | saga charge => exact absurd hsame (chargeKey_ne_reversalKey charge.id id)
  | reversal charge => exact hstripe.original charge (.inr hjob) (reversalKey_inj hsame)
  | transfer args => exact absurd hsame (halone.others args hjob)

/-- **A reversal that was applied is the only one**, and of the original amount. -/
theorem reversedTotal_eq (hleaves : ∀ a ∈ acts, LeavesReversalKey id a)
    (h : runSystem settings wal acts = some t) {history : RefundHistory}
    (hstripe : StripeSends history id t.state.jobs) (hreversed : Reversed t.trace id) :
    reversedTotal t.trace id = history.amount := by
  obtain ⟨bs, hledger⟩ := run_ledger h
  obtain ⟨req, happlied, hkey⟩ := hreversed
  have honly : reversals t.trace id = [req] :=
    applied_only hledger happlied hkey (encodeUtf8_ne_nil (reversalKey_ne id))
  have hamount := amount_of_reversal hleaves h hstripe req
  rw [honly] at hamount
  rw [reversedTotal, honly, List.map_singleton, List.sum_singleton]
  exact hamount (List.mem_singleton_self req)

/-- Without one, nothing was reversed. -/
theorem reversedTotal_zero (h : ¬ Reversed t.trace id) : reversedTotal t.trace id = 0 := by
  have hnone : reversals t.trace id = [] := by
    refine List.filter_eq_nil_iff.mpr ?_
    intro req hreq hkey
    exact h ⟨req, hreq, of_decide_eq_true hkey⟩
  rw [reversedTotal, hnone]
  rfl

end Runs

/-! ## §4. Booked in full. -/

/-- The last acknowledged event has the whole charge refunded, and it was
reversed. -/
def AcknowledgedBooked (history : RefundHistory) (id : String) (t : Traced System Event) : Prop :=
  ∀ i, Latest t.state.jobs id i → t.state.pcAt i = some (.returned none) →
    history.amountRefunded i = history.amount ∧ Reversed t.trace id

theorem Latest.of_append {jobs new : List Job} {id : String} {i : Nat}
    (h : Latest (jobs ++ new) id i) (hi : i < jobs.length) : Latest jobs id i := by
  obtain ⟨charge, hjob, hid⟩ := h.refund
  refine ⟨⟨charge, ?_, hid⟩, ?_⟩
  · rwa [List.getElem?_append_left hi] at hjob
  · intro j charge' hjob' hid'
    have hj : j < jobs.length := (List.getElem?_eq_some_iff.mp hjob').1
    exact h.last j charge' (by rwa [List.getElem?_append_left hj]) hid'

section Steps

variable {settings : Settings} {s s' : System} {a : Action} {es : List Event}

/-- **What a step does to the coroutines**: nothing, start one, or let one go on,
and then the engine does nothing. -/
theorem Effect.tasks (he : Effect settings s a s' es) :
    s'.tasks = s.tasks ∨ (∃ job : Job, s'.tasks = s.tasks ++ [job.start]) ∨
      s'.jobs = s.jobs ∧ ledgerTrace es = [] := by
  cases he with
  | ledger | submit | refuse | drain | lose | note => exact .inl rfl
  | @start _ job => exact .inr (.inl ⟨job, rfl⟩)
  | send htask | sendFails htask | timeout htask | broadcast htask | refund htask =>
      exact .inr (.inr ⟨jobs_set htask _, rfl⟩)
  | receive _ htask _ => exact .inr (.inr ⟨jobs_set htask _, rfl⟩)

theorem Effect.jobs_append (he : Effect settings s a s' es) : ∃ new, s'.jobs = s.jobs ++ new := by
  rcases he.tasks with hsame | ⟨job, hstart⟩ | ⟨hjobs, -⟩
  · exact ⟨[], by rw [System.jobs, hsame, List.append_nil, System.jobs]⟩
  · exact ⟨[job.start.job], by rw [System.jobs, hstart, List.map_append, System.jobs]; rfl⟩
  · exact ⟨[], by rw [hjobs, List.append_nil]⟩

/-- When a coroutine goes on, the engine does nothing. -/
theorem Effect.pcAt (he : Effect settings s a s' es) {i : Nat} (hi : i < s.tasks.length) :
    s'.pcAt i = s.pcAt i ∨ s'.jobs = s.jobs ∧ ledgerTrace es = [] := by
  rcases he.tasks with hsame | ⟨job, hstart⟩ | hmoves
  · exact .inl (by rw [System.pcAt, hsame, System.pcAt])
  · refine .inl ?_
    rw [System.pcAt, hstart, List.getElem?_append_left hi, System.pcAt]
  · exact .inr hmoves

/-- A coroutine that was not there has not returned. -/
theorem Effect.pcAt_new (he : Effect settings s a s' es) {i : Nat} (hi : s.tasks.length ≤ i) :
    s'.pcAt i ≠ some (.returned none) := by
  intro hpc
  obtain ⟨task, htask, hreturned⟩ := Option.map_eq_some_iff.mp hpc
  obtain ⟨hlt, -⟩ := List.getElem?_eq_some_iff.mp htask
  rcases he.tasks with hsame | ⟨job, hstart⟩ | ⟨hjobs, -⟩
  · rw [hsame] at hlt
    omega
  · rw [hstart, List.getElem?_append_right hi] at htask
    have hnew := List.mem_of_getElem? htask
    rw [List.mem_singleton.mp hnew] at hreturned
    cases job <;> cases hreturned
  · have hlength := congrArg List.length hjobs
    rw [System.jobs, System.jobs, List.length_map, List.length_map] at hlength
    omega

end Steps

section Runs

variable {settings : Settings} {wal : Wal.WriteAheadLog} {acts : List Action} {id : String}
  {history : RefundHistory} {t t' : Traced System Event} {a : Action}

/-- **In one state**: booked in full is refunded as a whole and reversed. -/
theorem bookedInFull_iff (hleaves : ∀ a ∈ acts, LeavesReversalKey id a)
    (ht : Visits (traced (step settings)) ⟨.started wal, []⟩ acts t)
    (hstripe : StripeSends history id t.state.jobs) :
    BookedInFull history id t ↔ AcknowledgedBooked history id t := by
  obtain ⟨before, after, rfl, hrun⟩ := ht
  have hbefore : ∀ a ∈ before, LeavesReversalKey id a :=
    fun a ha => hleaves a (List.mem_append_left after ha)
  constructor
  · intro h i hlatest hpc
    have htotal := h i hlatest hpc
    obtain ⟨charge, hjob, hid⟩ := hlatest.refund
    have hpositive := (hstripe.part i charge hjob hid).1
    have hreversed : Reversed t.trace id := by
      by_contra hnot
      rw [reversedTotal_zero hnot] at htotal
      omega
    rw [reversedTotal_eq hbefore hrun hstripe hreversed] at htotal
    exact ⟨htotal.symm, hreversed⟩
  · intro h i hlatest hpc
    obtain ⟨hwhole, hreversed⟩ := h i hlatest hpc
    rw [reversedTotal_eq hbefore hrun hstripe hreversed, hwhole]

/-- The handler of the last event was there before the step. -/
theorem latest_before {es : List Event} (he : Effect settings t.state a t'.state es) {i : Nat}
    (hlatest : Latest t'.state.jobs id i) (hpc : t'.state.pcAt i = some (.returned none)) :
    Latest t.state.jobs id i := by
  obtain ⟨new, hnew⟩ := he.jobs_append
  have hi : i < t.state.tasks.length := by
    by_contra hnot
    exact he.pcAt_new (Nat.le_of_not_lt hnot) hpc
  rw [hnew] at hlatest
  exact hlatest.of_append (by rwa [System.jobs, List.length_map])

/-- **One step**: what is acknowledged in it is booked. -/
theorem acknowledgedBooked_step
    (htakes : Takes (traced (step settings)) ⟨.started wal, []⟩ acts t a t')
    (hends : EndsBooked history id t t') (h : AcknowledgedBooked history id t) :
    AcknowledgedBooked history id t' := by
  obtain ⟨es, hes, htrace⟩ := htakes.shows
  intro i hlatest' hpc'
  have hlatest := latest_before (step_effect hes) hlatest' hpc'
  rw [htrace]
  by_cases hpc : t.state.pcAt i = some (.returned none)
  · obtain ⟨hwhole, hreversed⟩ := h i hlatest hpc
    exact ⟨hwhole, hreversed.mono es⟩
  · obtain ⟨hwhole, hanswered | hreversed⟩ := hends i hlatest hpc hpc'
    · obtain ⟨charge, hjob, rfl⟩ := hlatest.refund
      exact ⟨hwhole, (reversed_of_answeredOk htakes.source hjob hanswered).mono es⟩
    · exact ⟨hwhole, hreversed.mono es⟩

/-- A step that acknowledges the last event reverses nothing. -/
theorem endsBooked_of_acknowledged
    (htakes : Takes (traced (step settings)) ⟨.started wal, []⟩ acts t a t')
    (h : AcknowledgedBooked history id t') : EndsBooked history id t t' := by
  obtain ⟨es, hes, htrace⟩ := htakes.shows
  intro i hlatest hpc hpc'
  obtain ⟨charge, hjob, -⟩ := hlatest.refund
  have hi : i < t.state.tasks.length := by
    have hlt := (List.getElem?_eq_some_iff.mp hjob).1
    rwa [System.jobs, List.length_map] at hlt
  rcases (step_effect hes).pcAt hi with hsame | ⟨hjobs, hnone⟩
  · exact absurd (hsame ▸ hpc') hpc
  · obtain ⟨hwhole, req, hreq, hkey⟩ := h i (by rw [hjobs]; exact hlatest) hpc'
    rw [htrace, ledgerTrace_append, hnone, List.append_nil] at hreq
    exact ⟨hwhole, .inr ⟨req, hreq, hkey⟩⟩

/-- **REFUNDS ARE BOOKED IN FULL**, if and only if, whenever the last event of the
charge is acknowledged, the whole charge is refunded and the engine has applied
the reversal.  Over every run in which no other client uses its key. -/
theorem booked_in_full {settings : Settings} {wal : Wal.WriteAheadLog} {acts : List Action}
    {history : RefundHistory} {id : String} (hleaves : ∀ a ∈ acts, LeavesReversalKey id a)
    (hstripe : ∀ t, Visits (traced (step settings)) ⟨.started wal, []⟩ acts t →
      StripeSends history id t.state.jobs) :
    (∀ t, Visits (traced (step settings)) ⟨.started wal, []⟩ acts t → BookedInFull history id t) ↔
      ∀ t a t', Takes (traced (step settings)) ⟨.started wal, []⟩ acts t a t' →
        EndsBooked history id t t' := by
  constructor
  · intro h t a t' htakes
    have ht' := htakes.target
    exact endsBooked_of_acknowledged htakes
      ((bookedInFull_iff hleaves ht' (hstripe t' ht')).mp (h t' ht'))
  · intro h t ht
    refine (bookedInFull_iff hleaves ht (hstripe t ht)).mpr ?_
    refine visits_of_takes (AcknowledgedBooked history id) ?_ ?_ ht
    · intro i hlatest
      obtain ⟨charge, hjob, -⟩ := hlatest.refund
      cases hjob
    · intro u a u' htakes hu
      exact acknowledgedBooked_step htakes (h u a u' htakes) hu

end Runs

/-! ## §5. A refund of a part. -/

theorem StripeSends.of_append {history : RefundHistory} {id : String} {jobs new : List Job}
    (h : StripeSends history id (jobs ++ new)) : StripeSends history id jobs := by
  have hthere : ∀ {i : Nat} {charge : Charge}, jobs[i]? = some (.reversal charge) →
      (jobs ++ new)[i]? = some (.reversal charge) := by
    intro i charge hjob
    rwa [List.getElem?_append_left (List.getElem?_eq_some_iff.mp hjob).1]
  refine ⟨?_, ?_, ?_⟩
  · intro charge hjob
    exact h.original charge
      (hjob.imp (List.mem_append_left new) (List.mem_append_left new))
  · exact fun i charge hjob => h.part i charge (hthere hjob)
  · exact fun i j charge charge' hi hj => h.grows i j charge charge' (hthere hi) (hthere hj)

/-- The events of a whole run are those of its parts. -/
theorem stripeSends_of_end {settings : Settings} {wal : Wal.WriteAheadLog} {acts : List Action}
    {history : RefundHistory} {id : String} {t : Traced System Event}
    (h : runSystem settings wal acts = some t) (hstripe : StripeSends history id t.state.jobs) :
    ∀ u, Visits (traced (step settings)) ⟨.started wal, []⟩ acts u →
      StripeSends history id u.state.jobs := by
  intro u hu
  obtain ⟨before, after, rfl, hrun⟩ := hu
  rw [runSystem, run_append, hrun, Option.bind_some] at h
  have hgrows : ∃ new, t.state.jobs = u.state.jobs ++ new := by
    refine run_invariant (fun v : Traced System Event => ∃ new, v.state.jobs = u.state.jobs ++ new)
      ?_ ⟨[], (List.append_nil _).symm⟩ h
    intro a v v' hv hstep
    obtain ⟨new, hnew⟩ := hv
    obtain ⟨es, hes, -⟩ := traced_eq_some.mp hstep
    obtain ⟨more, hmore⟩ := (step_effect hes).jobs_append
    exact ⟨new ++ more, by rw [hmore, hnew, List.append_assoc]⟩
  obtain ⟨new, hnew⟩ := hgrows
  rw [hnew] at hstripe
  exact hstripe.of_append

/-- The condition, at one step, where every refund is a full one. -/
def endsReversed (settings : Settings) (id : String) (t : Traced System Event) (a : Action) :
    Bool :=
  match step settings t.state a with
  | none => true
  | some (s', _) =>
      (List.range t.state.tasks.length).all (fun i =>
        decide (t.state.pcAt i = s'.pcAt i) || decide (s'.pcAt i ≠ some (.returned none)) ||
          (applied (ledgerTrace t.trace)).any
            (fun req => req.idempotencyKey = encodeUtf8 (reversalKey id)))

theorem endsBooked_of_checked {settings : Settings} {wal : Wal.WriteAheadLog} {acts : List Action}
    {id : String} {history : RefundHistory}
    (hwhole : ∀ i, history.amountRefunded i = history.amount)
    (h : checked (traced (step settings)) (endsReversed settings id) ⟨.started wal, []⟩ acts =
      true) :
    ∀ t a t', Takes (traced (step settings)) ⟨.started wal, []⟩ acts t a t' →
      EndsBooked history id t t' := by
  intro t a t' htakes i hlatest hpc hpc'
  refine ⟨hwhole i, .inr ?_⟩
  have hok : endsReversed settings id t a = true := htakes.checked h
  obtain ⟨es, hes, -⟩ := htakes.shows
  obtain ⟨charge, hjob, -⟩ := hlatest.refund
  have hi : i < t.state.tasks.length := by
    have hlt := (List.getElem?_eq_some_iff.mp hjob).1
    rwa [System.jobs, List.length_map] at hlt
  simp only [endsReversed, hes] at hok
  have hone := List.all_eq_true.mp hok i (List.mem_range.mpr hi)
  rw [hpc'] at hone
  simp only [hpc, decide_false, Bool.false_or, ne_eq, not_true_eq_false] at hone
  obtain ⟨req, hreq, hkey⟩ := List.any_eq_true.mp hone
  exact ⟨req, hreq, of_decide_eq_true hkey⟩

/-- The charge is credited, an event says that some of it was refunded, and the
reversal is answered with OK. -/
def refundedOnce : List Action :=
  firstDelivery ++ deliveredRefund 1 smallCharge (numberedId 1) ++ engineWorks 13 ++
    [.ioDrain true, .receive 0]

theorem refundedOnce_leaves : ∀ a ∈ refundedOnce, LeavesReversalKey "ch_1" a := by
  intro a ha args hargs
  subst hargs
  simp [refundedOnce, firstDelivery, deliveredRefund, accountCalls, deliveredCharge, sentCharge,
    engineWorks, createAccountCall] at ha

theorem refundedOnce_ends :
    ∃ t, runSystem bookedSettings newLog refundedOnce = some t ∧
      t.state.jobs = [.saga smallCharge, .reversal smallCharge] ∧
      t.state.pcAt 1 = some (.returned none) ∧ Credited t.trace "ch_1" ∧
      reversedTotal t.trace "ch_1" = 500 := by
  have hends : (runSystem bookedSettings newLog refundedOnce).map (fun t =>
      (t.state.jobs, t.state.pcAt 1,
        (applied (ledgerTrace t.trace)).any (fun req => req.idempotencyKey = keyOf "ch_1"),
        reversedTotal t.trace "ch_1")) =
      some ([.saga smallCharge, .reversal smallCharge], some (.returned none), true, 500) := by
    decide +kernel
  obtain ⟨t, hrun, ht⟩ := Option.map_eq_some_iff.mp hends
  simp only [Prod.mk.injEq] at ht
  obtain ⟨hjobs, hpc, hcredited, htotal⟩ := ht
  obtain ⟨req, hreq, hkey⟩ := List.any_eq_true.mp hcredited
  exact ⟨t, hrun, hjobs, hpc, ⟨req, hreq, of_decide_eq_true hkey⟩, htotal⟩

/-- One refund of it is what Stripe sends, if it is of a part of the charge. -/
theorem stripeSends_once {refunded : Int} (hpositive : 0 < refunded) (hpart : refunded ≤ 500) :
    StripeSends ⟨500, fun _ => refunded⟩ "ch_1" [.saga smallCharge, .reversal smallCharge] := by
  have hplace : ∀ {i : Nat} {charge : Charge},
      [Job.saga smallCharge, .reversal smallCharge][i]? = some (.reversal charge) → i = 1 := by
    intro i charge hjob
    rcases i with - | - | i
    · cases hjob
    · rfl
    · cases hjob
  refine ⟨?_, fun _ _ _ _ => ⟨hpositive, hpart⟩, ?_⟩
  · intro charge hjob _
    simp only [List.mem_cons, List.not_mem_nil, or_false, Job.saga.injEq, Job.reversal.injEq,
      reduceCtorEq, false_or] at hjob
    rcases hjob with rfl | rfl <;> rfl
  · intro i j charge charge' hi hj _ _ hlt
    rw [hplace hi, hplace hj] at hlt
    exact absurd hlt (Nat.lt_irrefl 1)

/-- If the whole charge is refunded, it is booked in full. -/
theorem refundedOnce_booked :
    ∃ t, runSystem bookedSettings newLog refundedOnce = some t ∧
      t.state.pcAt 1 = some (.returned none) ∧ reversedTotal t.trace "ch_1" = 500 ∧
      ∀ u, Visits (traced (step bookedSettings)) ⟨.started newLog, []⟩ refundedOnce u →
        BookedInFull ⟨500, fun _ => 500⟩ "ch_1" u := by
  obtain ⟨t, hrun, hjobs, hpc, -, htotal⟩ := refundedOnce_ends
  have hstripe : StripeSends ⟨500, fun _ => 500⟩ "ch_1" t.state.jobs := by
    rw [hjobs]
    exact stripeSends_once (by decide) (by decide)
  exact ⟨t, hrun, hpc, htotal,
    (booked_in_full refundedOnce_leaves (stripeSends_of_end hrun hstripe)).mpr
      (endsBooked_of_checked (fun _ => rfl) (by decide +kernel))⟩

/-- **200 of 500 are refunded, and 500 reversed.** -/
theorem partRefunded_overbooked :
    ∃ t, runSystem bookedSettings newLog refundedOnce = some t ∧
      (∀ u, Visits (traced (step bookedSettings)) ⟨.started newLog, []⟩ refundedOnce u →
        StripeSends ⟨500, fun _ => 200⟩ "ch_1" u.state.jobs) ∧
      (∀ a ∈ refundedOnce, LeavesReversalKey "ch_1" a) ∧ Credited t.trace "ch_1" ∧
      reversedTotal t.trace "ch_1" = 500 ∧ ¬ BookedInFull ⟨500, fun _ => 200⟩ "ch_1" t := by
  obtain ⟨t, hrun, hjobs, hpc, hcredited, htotal⟩ := refundedOnce_ends
  have hstripe : StripeSends ⟨500, fun _ => 200⟩ "ch_1" t.state.jobs := by
    rw [hjobs]
    exact stripeSends_once (by decide) (by decide)
  refine ⟨t, hrun, stripeSends_of_end hrun hstripe, refundedOnce_leaves, hcredited, htotal, ?_⟩
  intro hbooked
  have hlatest : Latest t.state.jobs "ch_1" 1 := by
    rw [hjobs]
    refine ⟨⟨smallCharge, rfl, rfl⟩, ?_⟩
    intro j charge hjob _
    rcases j with - | - | j
    · exact Nat.zero_le 1
    · exact Nat.le_refl 1
    · cases hjob
  have hrefunded := hbooked 1 hlatest hpc
  rw [htotal] at hrefunded
  exact absurd hrefunded (by decide)

end ZeroLGR.Gateway
