/-
  ZeroLGR.Ledger.Recovery — what the log would be good for.

  `main` replays the log and looks at none of its frames, so every life starts
  without balances.  A reader of the frames could do better: what was answered
  with OK is among the records of its life, and these make up the balances that
  the life had at its end, up to the one transfer that was logged and not
  applied any more.

    • `recordsOf` — what a reader of the log gets from a life,
    • `run_balances` — a balance is what was credited minus what was debited,
    • `Sufficient`, `life_sufficient` — the records of one life,
    • `log_suffices` — the records of all lives, at the next start.
-/
import ZeroLGR.Ledger.Certificate
import ZeroLGR.Ledger.Lives

namespace ZeroLGR.Ledger

open Transition

/-! ## §1. The records of a life. -/

/-- What a reader of the log gets from a life: identifiers and requests. -/
def recordsOf (t : Traced LedgerEngine Event) : List (Uuid × TransactionRequest) :=
  (logged t.trace).map (fun l => (l.txId, l.req))

/-- What these requests do to the balance of an account. -/
def netEffect (reqs : List TransactionRequest) (id : Bytes) : Int :=
  credited reqs id - debited reqs id

theorem netEffect_append (reqs reqs' : List TransactionRequest) (id : Bytes) :
    netEffect (reqs ++ reqs') id = netEffect reqs id + netEffect reqs' id := by
  unfold netEffect credited debited
  rw [List.filter_append, List.filter_append, List.map_append, List.map_append, List.sum_append,
    List.sum_append]
  omega

/-- The records tell what the life was worth. -/
structure Sufficient (t : Traced LedgerEngine Event) : Prop where
  /-- Every OK stands for a record with its identifier and its key, which was applied. -/
  acknowledged : ∀ b ∈ responses t.trace, b.2.status = .ok →
    ∃ req ∈ applied t.trace, (b.2.transactionId, req) ∈ recordsOf t ∧
      req.idempotencyKey = b.1.idempotencyKey
  /-- The requests of the records, in order, are those that were applied and the
  one that was not any more. -/
  requests : (recordsOf t).map Prod.snd = applied t.trace ++ t.state.pc.unapplied
  /-- Until the counter wraps, they make up the balances. -/
  balances : t.state.uuidCounter ≤ 2 ^ 64 → ∀ id,
    netEffect ((recordsOf t).map Prod.snd) id =
      balanceOf t.state.accounts id + netEffect t.state.pc.unapplied id

/-- The one step that moves balances applies one transfer. -/
theorem Effect.applies {s s' : LedgerEngine} {a : Action} {es : List Event}
    (he : Effect s a s' es) (hsome : applied es ≠ []) :
    ∃ req, applied es = [req] ∧ s'.accounts = applyTransaction s.accounts req := by
  cases he with
  | aside hside =>
      obtain ⟨-, -, -, -, -, hnone, -⟩ := hside.silent.lists
      exact absurd hnone hsome
  | @apply now os req tStart txId hpc => exact ⟨req, rfl, rfl⟩
  | pop | hit | miss | replyCached | accept | reject | drawTxId | append | appendThrows | build
  | cache | noCache | reply | drawAccountId | commitAccount => exact absurd rfl hsome

section Life

variable {w : Wal.WriteAheadLog} {acts : List Action} {t : Traced LedgerEngine Event}

/-- **A balance is what was credited minus what was debited**, whatever log the
engine has found. -/
theorem run_balances (h : runEngine (.init w) acts = some t) (hk : t.state.uuidCounter ≤ 2 ^ 64) :
    ∀ id, balanceOf t.state.accounts id = netEffect (applied t.trace) id := by
  have hboth : Identifiers t.state ∧
      ∀ id, balanceOf t.state.accounts id = netEffect (applied t.trace) id := by
    refine traced_invariant
      (fun s tr => s.uuidCounter ≤ 2 ^ 64 → Identifiers s ∧
        ∀ id, balanceOf s.accounts id = netEffect (applied tr) id) ?_ ?_ h hk
    · intro s tr a s' es hs hstep hk'
      have he := step_effect hstep
      obtain ⟨hids, hbalances⟩ := hs (he.counter_le.trans hk')
      refine ⟨hids.step he hk', ?_⟩
      intro id
      rw [applied_append]
      by_cases hnone : applied es = []
      · rw [hnone, List.append_nil, (he.quiet hids).2 hnone id]
        exact hbalances id
      · -- the one step that moves balances
        obtain ⟨req, hes, haccounts⟩ := he.applies hnone
        rw [hes, haccounts]
        unfold netEffect
        rw [balanceOf_apply, abstract_balance_snoc]
        exact congrArg (· + transferEffect req id) (hbalances id)
    · intro _
      exact ⟨identifiers_init w, fun _ => rfl⟩
  exact hboth.2

/-- **The records of a life tell what it was worth.** -/
theorem life_sufficient (h : runEngine (.init w) acts = some t) : Sufficient t := by
  have hbooks := run_bookkeeping h
  have hrequests : (recordsOf t).map Prod.snd = applied t.trace ++ t.state.pc.unapplied := by
    unfold recordsOf
    rw [List.map_map]
    exact hbooks.logged_eq
  refine ⟨?_, hrequests, ?_⟩
  · intro b hb hok
    -- the OK comes from a booked transfer, from the cache or not
    obtain ⟨req, ⟨l, hbooked, rfl, htx⟩, hkey⟩ := (run_sourced h).answers b hb hok
    refine ⟨l.req, List.mem_filterMap.mpr ⟨_, hbooked.applied, rfl⟩, ?_, hkey⟩
    rw [← htx]
    exact List.mem_map.mpr ⟨l, hbooked.logged, rfl⟩
  · intro hk id
    rw [hrequests, netEffect_append, run_balances h hk]

end Life

/-! ## §2. The records of all lives. -/

section Lives

variable {pageSize : Wal.PageSize} {path : String} {disk : Wal.FileImage} {lives : List Life}
  {u : Traced Wal.FileImage (Traced LedgerEngine Event)}

/-- Every life is a run of an engine that `main` has started. -/
theorem runLives_runs (hrun : runLives pageSize path disk lives = some u) :
    ∀ t ∈ u.trace, ∃ w acts, runEngine (.init w) acts = some t := by
  refine traced_invariant
    (fun _ past => ∀ t ∈ past, ∃ w acts, runEngine (.init w) acts = some t) ?_ ?_ hrun
  · intro file past life file' ts hpast hlive t ht
    obtain ⟨s₀, t', hstart, hrun', -, rfl⟩ := live_inv hlive
    obtain ⟨w, -, rfl⟩ := startMain_inv hstart
    rcases List.mem_append.mp ht with hold | hnew
    · exact hpast t hold
    · rw [List.mem_singleton.mp hnew]
      exact ⟨w.replay.log, life.acts, hrun'⟩
  · intro t ht
    cases ht

/-- **THE LOG WOULD SUFFICE.**  While the frames fit, a reader of the log gets, at
the next start, the records of every life in order; those of a life hold every
transfer that it has answered with OK, and make up its balances. -/
theorem log_suffices (hzero : ∀ i, disk.byte i = 0)
    (hrun : runLives pageSize path disk lives = some u)
    (hlengths : ∀ t ∈ u.trace, ∀ req ∈ accepted t.trace, req.LengthsFit)
    (hfit : Wal.framesLength (payloadsOf (entries u.trace)) ≤
      Wal.initialSizeAligned pageSize defaultWalSize)
    {os : Wal.OsReply} {w : Wal.WriteAheadLog}
    (hopen : (Wal.construct pageSize os path u.state defaultWalSize).1 = .returned w) :
    w.replay.delivered.map (fun item => auditPayload item.2) =
        (u.trace.flatMap recordsOf).map some ∧
      ∀ t ∈ u.trace, Sufficient t := by
  constructor
  · obtain ⟨-, -, haudit⟩ := lives_delivered hzero hrun hlengths hfit hopen
    have hrecords : u.trace.flatMap recordsOf =
        (entries u.trace).map (fun l => (l.txId, l.req)) := by
      unfold entries recordsOf
      rw [List.map_flatMap]
    rw [haudit, hrecords, List.map_map]
    rfl
  · intro t ht
    obtain ⟨w', acts, hrun'⟩ := runLives_runs hrun t ht
    exact life_sufficient hrun'

end Lives

/-- The first life was killed before it answered the sale, the second one has
answered it with OK; the log has a record of each. -/
theorem killedThenAgain_suffices :
    ∃ u w, runLives Wal.page4096 "zerolgr.wal" Wal.FileImage.empty killedThenAgain = some u ∧
      u.trace.map (fun t => (responses t.trace).map (fun b => b.2.status)) = [[], [.ok]] ∧
      (Wal.WriteAheadLog.replay w).delivered.map (fun item => auditPayload item.2) =
        (u.trace.flatMap recordsOf).map some ∧
      ∀ t ∈ u.trace, Sufficient t := by
  obtain ⟨u, w, hu, hopen, hlengths, hanswers, -, hlength⟩ := killedThenAgain_runs
  have hroom : Wal.framesLength (payloadsOf (entries u.trace)) ≤
      Wal.initialSizeAligned Wal.page4096 defaultWalSize := by
    rw [hlength]
    decide +kernel
  exact ⟨u, w, hu, hanswers, log_suffices (fun _ => rfl) hu hlengths hroom hopen⟩

end ZeroLGR.Ledger
