/-
  ZeroLGR.Gateway.Unreachable — the accounts of the default settings.

  The gateway books on `acc_stripe_escrow` and `acc_merchant_revenue` unless it
  is told otherwise.  The engine makes its own identifiers, and these are none
  of them: no charge is ever booked, and no reversal of one.

    • `credit_namesOther`, `reversal_namesOther` — what the gateway sends,
    • `NeverBooked` — what follows for its coroutines,
    • `unreachable_by_default` — over every run of the engine and of the system.
-/
import ZeroLGR.Gateway.Verdict
import ZeroLGR.Ledger.Certificate
import ZeroLGR.Ledger.Issued

namespace ZeroLGR.Gateway

open Transition Ledger Server

/-! ## §1. The default accounts. -/

/-- The byte after `acc_` is an `s`. -/
theorem escrow_not_issued : ¬ Issued (encodeUtf8 Settings.defaults.stripeEscrowAccountId) := by
  have htext : encodeUtf8 Settings.defaults.stripeEscrowAccountId =
      ascii "acc_" ++ ascii "stripe_escrow" := by
    decide +kernel
  rw [htext]
  exact not_issued (b := 115) (by decide +kernel) (by decide)

/-- The byte after `acc_` is an `m`. -/
theorem revenue_not_issued : ¬ Issued (encodeUtf8 Settings.defaults.merchantRevenueAccountId) := by
  have htext : encodeUtf8 Settings.defaults.merchantRevenueAccountId =
      ascii "acc_" ++ ascii "merchant_revenue" := by
    decide +kernel
  rw [htext]
  exact not_issued (b := 109) (by decide +kernel) (by decide)

/-- What `execute_payment_saga` sends names accounts that cannot be. -/
theorem credit_namesOther (charge : Charge) (corrId : Uuid) :
    NamesOther ((Settings.defaults.credit charge).request corrId) := .inl escrow_not_issued

/-- So does what a refunded charge makes the gateway send. -/
theorem reversal_namesOther (charge : Charge) (corrId : Uuid) :
    NamesOther ((Settings.defaults.reversal charge).request corrId) := .inl revenue_not_issued

/-! ## §2. Every run. -/

/-- **Nothing is booked on them.** -/
structure NeverBooked (t : Traced System Event) : Prop where
  /-- No saga returns a success. -/
  sagas : ∀ task ∈ t.state.tasks, ∀ charge, task.job = .saga charge →
    task.pc ≠ .returned (some .success)
  /-- No credit is applied, and no reversal. -/
  credits : ∀ charge corrId,
    (Settings.defaults.credit charge).request corrId ∉ applied (ledgerTrace t.trace)
  reversals : ∀ charge corrId,
    (Settings.defaults.reversal charge).request corrId ∉ applied (ledgerTrace t.trace)

/-- The key of a charge is never settled with OK. -/
theorem not_stands {wal : Wal.WriteAheadLog} {acts : List Action} {id : String}
    (hleaves : ∀ a ∈ acts, LeavesKey id a) {t : Traced System Event}
    (h : runSystem .defaults wal acts = some t) : ¬ Stands true t.state.engine (keyOf id) := by
  intro hstands
  obtain ⟨r, hr, hok⟩ := hstands
  obtain ⟨bs, hledger⟩ := run_ledger h
  -- the OK comes from a transfer with the key, which was applied
  obtain ⟨req, ⟨l, hbooked, rfl, -⟩, hkey⟩ :=
    (run_sourced hledger).settled hr (of_decide_eq_true hok)
  have happlied : l.req ∈ applied (ledgerTrace t.trace) :=
    List.mem_filterMap.mpr ⟨_, hbooked.applied, rfl⟩
  -- so it was sent, and by a saga
  obtain ⟨c, hc, hreq⟩ := (run_honest h).requests _ (applied_submitted hledger _ happlied)
  rw [hreq] at hkey
  obtain ⟨charge, -, -, hcredit⟩ := (run_owned hleaves h).sent c hc (keyOf_inj hkey)
  refine (run_excluded hledger).logged l hbooked.logged ?_
  rw [hreq, hcredit]
  exact credit_namesOther charge c.1

/-- **THE DEFAULT ACCOUNTS ARE OUT OF REACH.**  In every reachable state of the
engine, and for every run of the gateway in which no other client uses the key
of a charge. -/
theorem unreachable_by_default (wal : Wal.WriteAheadLog) :
    (∀ acts t, runEngine (.init wal) acts = some t → Excluded t.state t.trace) ∧
      ∀ acts, (∀ a ∈ acts, ∀ id, LeavesKey id a) → ∀ t,
        Visits (traced (step .defaults)) ⟨.started wal, []⟩ acts t → NeverBooked t := by
  refine ⟨fun acts t => run_excluded, ?_⟩
  intro acts hleaves t ht
  have hstanding : ∀ id, Standing true id t.state := fun id =>
    run_standing (fun h => by cases h) ht
  obtain ⟨before, after, rfl, hrun⟩ := ht
  have hbefore : ∀ id, ∀ a ∈ before, LeavesKey id a :=
    fun id a ha => hleaves a (List.mem_append_left after ha) id
  obtain ⟨bs, hledger⟩ := run_ledger hrun
  have hexcluded := run_excluded hledger
  refine ⟨?_, ?_, ?_⟩
  · intro task htask charge hjob hpc
    have hid : task.job.chargeId = some charge.id := by
      rw [hjob]
      rfl
    have hverdict : task.pc.verdict = some true := by
      rw [hpc]
      rfl
    exact not_stands (hbefore charge.id) hrun ((hstanding charge.id).tasks task htask hid hverdict)
  · exact fun charge corrId hmem => hexcluded.applied _ hmem (credit_namesOther charge corrId)
  · exact fun charge corrId hmem => hexcluded.applied _ hmem (reversal_namesOther charge corrId)

/-- Two accounts are there, a charge is delivered, and refunded. -/
def defaultCharge : List Action :=
  accountCalls .liability ++ deliveredCharge 0 ⟨"ch_1", 500, "usd"⟩ (repeatedId 0) ++
    engineWorks 10 ++ [.ioDrain true, .receive 0, .broadcast 0 none, .refund 0 true none,
      .broadcast 0 none, .webhook (.chargeRefunded ⟨"ch_1", 500, "usd"⟩),
      .send 1 (repeatedId 1) false, .ioReceive 0 Uuid.zero] ++ engineWorks 10

theorem defaultCharge_neverBooked :
    ∃ t, runSystem .defaults newLog defaultCharge = some t ∧ NeverBooked t ∧
      t.state.tasks.map Task.pc =
        [.returned (some .compensated), .wait (repeatedId 1)] := by
  have hrun : (runSystem .defaults newLog defaultCharge).map
      (fun t => t.state.tasks.map Task.pc) =
        some [.returned (some .compensated), .wait (repeatedId 1)] := by
    decide +kernel
  obtain ⟨t, ht, heq⟩ := Option.map_eq_some_iff.mp hrun
  have hleaves : ∀ a ∈ defaultCharge, ∀ id, LeavesKey id a := by
    intro a ha id args hargs
    subst hargs
    simp [defaultCharge, accountCalls, deliveredCharge, sentCharge, engineWorks,
      createAccountCall] at ha
  exact ⟨t, ht, (unreachable_by_default newLog).2 _ hleaves t (visits_end ht), heq⟩

end ZeroLGR.Gateway
