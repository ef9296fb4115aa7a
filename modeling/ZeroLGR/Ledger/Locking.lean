/-
  ZeroLGR.Ledger.Locking — what happens while `accounts_mutex_` is held.

  In `LedgerEngine` each use of the account map is one step.  Here it is taken
  apart: the lock is taken, the map is read or written one element at a time,
  and the lock is given back; all that does not take the lock goes on in
  between.  `validate_transaction`, `apply_transaction`, the end of
  `create_account`, `get_balance_snapshot` and the end of `get_metrics_sample`
  are the sections.

    • `Section`, `access`, `outcome` — the sections, and where they lead,
    • `engineSections` — the engine with them,
    • `runLocked_atomic` — every such run is a run of the engine,
    • `snapshot_of_move` — a snapshot shows the map as it is when the lock is
      given back.
-/
import ZeroLGR.Ledger.Engine
import ZeroLGR.Lib.CriticalSection

namespace ZeroLGR.Ledger

open Transition CriticalSection

/-! ## §1. The sections. -/

/-- The check of the funds at the end of `validate_transaction`. -/
def fundsStatus (accounts : Accounts) (req : TransactionRequest) : TxStatus :=
  if (slot accounts req.debitAccountId).type = .asset ∧
      (slot accounts req.debitAccountId).balance < req.amount then .errInsufficientFunds
  else .ok

/-- What it returns once the debited account was looked up. -/
def foundStatus (accounts : Accounts) (req : TransactionRequest) (debitFound : Bool) : TxStatus :=
  if debitFound = true ∧ (accounts.lookup req.creditAccountId).isSome = true then
    fundsStatus accounts req
  else .errAccountNotFound

/-- The part of `validate_transaction` under the lock. -/
def lockedStatus (accounts : Accounts) (req : TransactionRequest) : TxStatus :=
  foundStatus accounts req (accounts.lookup req.debitAccountId).isSome

/-- Where a section stands, with its local variables. -/
inductive Section where
  | findDebit (req : TransactionRequest)
  | findCredit (req : TransactionRequest) (debitFound : Bool)
  | checkFunds (req : TransactionRequest)
  | validated (status : TxStatus)
  | loadDebit (req : TransactionRequest)
  | storeDebit (req : TransactionRequest) (balance : Int)
  | loadCredit (req : TransactionRequest)
  | storeCredit (req : TransactionRequest) (balance : Int)
  | applied
  | beginNames (req : CreateAccountRequest) (id : Bytes)
  | checkNames (req : CreateAccountRequest) (id : Bytes) (rest : List Bytes)
  | insertAccount (req : CreateAccountRequest) (id : Bytes)
  | created (resp : CreateAccountResponse)
  | beginSnapshot
  | snapshot (rest : List Bytes) (snap : BalanceSnapshotData)
  | taken (snap : BalanceSnapshotData)
  | beginCheck
  | check (rest : List Bytes) (sums : Totals)
  | checked (ok : Bool)
  | unlocked

/-- The next access to the map.  A loop over the map visits one key at a time. -/
def access (accounts : Accounts) : Section → Option (Accounts × Section)
  | .findDebit req =>
      some (accounts, .findCredit req (accounts.lookup req.debitAccountId).isSome)
  | .findCredit req debitFound =>
      if debitFound = true ∧ (accounts.lookup req.creditAccountId).isSome = true then
        some (accounts, .checkFunds req)
      else some (accounts, .validated .errAccountNotFound)
  | .checkFunds req => some (accounts, .validated (fundsStatus accounts req))
  | .loadDebit req =>
      some (accounts, .storeDebit req (slot accounts req.debitAccountId).balance)
  | .storeDebit req balance =>
      some (accounts.insert req.debitAccountId
        { slot accounts req.debitAccountId with balance := balance + -req.amount },
        .loadCredit req)
  | .loadCredit req =>
      some (accounts, .storeCredit req (slot accounts req.creditAccountId).balance)
  | .storeCredit req balance =>
      some (accounts.insert req.creditAccountId
        { slot accounts req.creditAccountId with balance := balance + req.amount }, .applied)
  | .beginNames req id => some (accounts, .checkNames req id accounts.keys)
  | .checkNames req id [] => some (accounts, .insertAccount req id)
  | .checkNames req id (key :: rest) =>
      if (slot accounts key).name = req.name then
        some (accounts, .created ⟨req.correlationId, id, .errInternal,
          ascii "Account with name '" ++ req.name ++ ascii "' already exists"⟩)
      else some (accounts, .checkNames req id rest)
  | .insertAccount req id =>
      some (accounts.insert id ⟨id, req.name, req.type, 0⟩,
        .created ⟨req.correlationId, id, .ok, []⟩)
  | .beginSnapshot => some (accounts, .snapshot accounts.keys BalanceSnapshotData.valueInit)
  | .snapshot [] snap => some (accounts, .taken snap.checked)
  | .snapshot (key :: rest) snap => some (accounts, .snapshot rest (snap.push (slot accounts key)))
  | .beginCheck => some (accounts, .check accounts.keys ⟨0, 0, 0⟩)
  | .check [] sums => some (accounts, .checked sums.balanced)
  | .check (key :: rest) sums => some (accounts, .check rest (sums.add (slot accounts key)))
  | .validated _ | .applied | .created _ | .taken _ | .checked _ | .unlocked => none

/-- Where the accesses lead when nobody interferes. -/
def outcome (accounts : Accounts) : Section → Accounts × Section
  | .findDebit req => (accounts, .validated (lockedStatus accounts req))
  | .findCredit req debitFound => (accounts, .validated (foundStatus accounts req debitFound))
  | .checkFunds req => (accounts, .validated (fundsStatus accounts req))
  | .loadDebit req => (applyTransaction accounts req, .applied)
  | .storeDebit req balance =>
      (addToBalance (accounts.insert req.debitAccountId
        { slot accounts req.debitAccountId with balance := balance + -req.amount })
          req.creditAccountId req.amount, .applied)
  | .loadCredit req => (addToBalance accounts req.creditAccountId req.amount, .applied)
  | .storeCredit req balance =>
      (accounts.insert req.creditAccountId
        { slot accounts req.creditAccountId with balance := balance + req.amount }, .applied)
  | .beginNames req id =>
      ((commitAccount accounts req id).2, .created (commitAccount accounts req id).1)
  | .checkNames req id rest =>
      if rest.any (fun key => decide ((slot accounts key).name = req.name)) = true then
        (accounts, .created ⟨req.correlationId, id, .errInternal,
          ascii "Account with name '" ++ req.name ++ ascii "' already exists"⟩)
      else
        (accounts.insert id ⟨id, req.name, req.type, 0⟩,
          .created ⟨req.correlationId, id, .ok, []⟩)
  | .insertAccount req id =>
      (accounts.insert id ⟨id, req.name, req.type, 0⟩, .created ⟨req.correlationId, id, .ok, []⟩)
  | .beginSnapshot => (accounts, .taken (getBalanceSnapshot accounts))
  | .snapshot rest snap =>
      (accounts, .taken
        (rest.foldl (fun snap key => BalanceSnapshotData.push snap (slot accounts key))
          snap).checked)
  | .beginCheck => (accounts, .checked (checkInvariant accounts))
  | .check rest sums =>
      (accounts, .checked
        (rest.foldl (fun sums key => Totals.add sums (slot accounts key)) sums).balanced)
  | .validated status => (accounts, .validated status)
  | .applied => (accounts, .applied)
  | .created resp => (accounts, .created resp)
  | .taken snap => (accounts, .taken snap)
  | .checked ok => (accounts, .checked ok)
  | .unlocked => (accounts, .unlocked)

/-! ## §2. One access leads on. -/

/-- What is found under the keys of the map is what the map stores. -/
theorem keys_map_slot (accounts : Accounts) :
    accounts.keys.map (slot accounts) = accounts.entries.map (fun e => e.2) := by
  unfold AList.keys List.keys
  rw [List.map_map]
  apply List.map_congr_left
  intro e he
  have hlookup : accounts.lookup e.1 = some e.2 := AList.mem_lookup_iff.mpr he
  show slot accounts e.1 = e.2
  rw [slot, hlookup]
  rfl

/-- A loop that visits the keys. -/
theorem foldl_keys {β : Type*} (accounts : Accounts) (f : β → AccountInfo → β) (b : β) :
    accounts.keys.foldl (fun b key => f b (slot accounts key)) b =
      accounts.entries.foldl (fun b e => f b e.2) b := by
  rw [← List.foldl_map, keys_map_slot, List.foldl_map]

theorem any_keys (accounts : Accounts) (p : AccountInfo → Bool) :
    accounts.keys.any (fun key => p (slot accounts key)) = accounts.entries.any (fun e => p e.2) := by
  have hmapped : (accounts.keys.map (slot accounts)).any p =
      (accounts.entries.map (fun e => e.2)).any p := by
    rw [keys_map_slot]
  rwa [List.any_map, List.any_map] at hmapped

/-- The section is all of the validation when the amount is positive. -/
theorem validateTransaction_locked {accounts : Accounts} {req : TransactionRequest}
    (hpos : 0 < req.amount) : validateTransaction accounts req = lockedStatus accounts req := by
  have hnot : ¬ req.amount ≤ 0 := by omega
  unfold validateTransaction lockedStatus foundStatus fundsStatus slot
  rw [if_neg hnot]
  cases accounts.lookup req.debitAccountId with
  | none => simp
  | some debitAccount =>
      cases accounts.lookup req.creditAccountId with
      | none => simp
      | some creditAccount =>
          simp only [Option.isSome_some, and_self, if_true, Option.getD_some]
          by_cases hasset : debitAccount.type = .asset
          · simp [hasset]
          · simp [hasset]

/-- **One access leads to where the section leads.** -/
theorem outcome_access {accounts accounts' : Accounts} {x x' : Section}
    (h : access accounts x = some (accounts', x')) : outcome accounts x = outcome accounts' x' := by
  cases x with
  | findCredit req debitFound =>
      simp only [access] at h
      split at h
      · next hfound =>
          cases h
          simp only [outcome, foundStatus, if_pos hfound]
      · next hmissing =>
          cases h
          simp only [outcome, foundStatus, if_neg hmissing]
  | findDebit | checkFunds | loadDebit | storeDebit | loadCredit | storeCredit | insertAccount =>
      cases h
      rfl
  | beginNames req id =>
      cases h
      simp only [outcome, any_keys accounts (fun info => decide (info.name = req.name))]
      unfold commitAccount nameTaken
      split <;> rfl
  | checkNames req id rest =>
      cases rest with
      | nil =>
          cases h
          rfl
      | cons key rest =>
          simp only [access] at h
          split at h
          · next hsame =>
              cases h
              simp [outcome, hsame]
          · next hother =>
              cases h
              simp [outcome, hother]
  | beginSnapshot =>
      cases h
      simp only [outcome, foldl_keys accounts BalanceSnapshotData.push]
      rfl
  | snapshot rest snap =>
      cases rest with
      | nil | cons key rest =>
          cases h
          rfl
  | beginCheck =>
      cases h
      simp only [outcome, foldl_keys accounts Totals.add]
      rfl
  | check rest sums =>
      cases rest with
      | nil | cons key rest =>
          cases h
          rfl
  | validated | applied | created | taken | checked | unlocked => cases h

/-- A section without a next access is at its end. -/
theorem outcome_end {accounts : Accounts} {x : Section} (h : access accounts x = none) :
    outcome accounts x = (accounts, x) := by
  cases x with
  | findCredit =>
      simp only [access] at h
      split at h <;> cases h
  | checkNames req id rest =>
      cases rest with
      | nil => cases h
      | cons key rest =>
          simp only [access] at h
          split at h <;> cases h
  | snapshot rest snap | check rest sums => cases rest <;> cases h
  | findDebit | checkFunds | loadDebit | storeDebit | loadCredit | storeCredit | insertAccount
  | beginNames | beginSnapshot | beginCheck => cases h
  | validated | applied | created | taken | checked | unlocked => rfl

/-! ## §3. The engine with its sections. -/

/-- Which steps take the lock.  The validation of an amount that is not positive
returns before it does. -/
def locks (s : LedgerEngine) : Action → Bool
  | .engine _ _ =>
      match s.pc with
      | .validate req => decide (0 < req.amount)
      | .applyTransaction _ _ _ => true
      | _ => false
  | .commitAccount i => (s.creating[i]?).isSome
  | .getBalanceSnapshot => true
  | .metrics =>
      match s.metrics with
      | .checkInvariant _ _ _ => true
      | _ => false
  | _ => false

/-- The section of a step. -/
def enter (s : LedgerEngine) : Action → Section
  | .engine _ _ =>
      match s.pc with
      | .validate req => .findDebit req
      | .applyTransaction req _ _ => .loadDebit req
      | _ => .unlocked
  | .commitAccount i =>
      match s.creating[i]? with
      | some c => .beginNames c.1 c.2
      | none => .unlocked
  | .getBalanceSnapshot => .beginSnapshot
  | .metrics => .beginCheck
  | _ => .unlocked

/-- What the thread does when it has given the lock back. -/
def leave (s : LedgerEngine) : Action → Section → Option (LedgerEngine × List Event)
  | .engine now _, .validated status =>
      match s.pc with
      | .validate req =>
          if status = .ok then
            some ({ s with pc := .generateUuid req now }, [.validated req status])
          else
            some ({ s with pc := .buildResponse req now Uuid.zero status },
              [.validated req status])
      | _ => none
  | .engine _ _, .applied =>
      match s.pc with
      | .applyTransaction req tStart txId =>
          some ({ s with pc := .buildResponse req tStart txId .ok }, [.applied req txId])
      | _ => none
  | .commitAccount i, .created resp =>
      some ({ s with creating := s.creating.eraseIdx i }, [.accountCreated resp])
  | .getBalanceSnapshot, .taken snap => some (s, [.snapshot snap])
  | .metrics, .checked ok =>
      match s.metrics with
      | .checkInvariant txCount windowCount windowLatency =>
          some ({ s with metrics := .idle },
            [.sampled ⟨txCount, windowCount, windowLatency, ok⟩])
      | _ => none
  | _, _ => none

/-- What is done without the lock does not use the map. -/
theorem step_frame {s : LedgerEngine} (m : Accounts) {a : Action} (h : locks s a = false) :
    step { s with accounts := m } a =
      (step s a).map (fun r => ({ r.1 with accounts := m }, r.2)) := by
  cases a with
  | engine now os =>
      obtain ⟨wal, running, requests, replies, accounts, cache, n₁, n₂, n₃, counter, creating,
        metrics, pc⟩ := s
      cases pc with
      | applyTransaction => cases h
      | validate req =>
          -- the amount is not positive, and the map is not looked at
          have hamount : req.amount ≤ 0 := by
            have hnot : decide (0 < req.amount) = false := h
            rw [decide_eq_false_iff_not] at hnot
            omega
          simp [step, LedgerEngine.engineStep, validateTransaction, hamount]
      | popRequest | findCached | cacheResponse | loadRunning =>
          simp only [step, LedgerEngine.engineStep]
          split <;> rfl
      | replyCached | pushReply =>
          simp only [step, LedgerEngine.engineStep, LedgerEngine.pushReply]
          split <;> rfl
      | appendWal =>
          simp only [step, LedgerEngine.engineStep, LedgerEngine.appendWal]
          split <;> rfl
      | generateUuid | buildResponse | countTotal | countWindow | addLatency | returned
      | terminated => rfl
  | submit req =>
      simp only [step, Option.map_map]
      rfl
  | takeReply =>
      simp only [step, Option.map_map]
      rfl
  | commitAccount i =>
      have hnone : s.creating[i]? = none := Option.not_isSome_iff_eq_none.mp
        (by rw [show (s.creating[i]?).isSome = false from h]; decide)
      simp [step, hnone]
  | getBalanceSnapshot => cases h
  | metrics =>
      obtain ⟨wal, running, requests, replies, accounts, cache, n₁, n₂, n₃, counter, creating,
        metrics, pc⟩ := s
      cases metrics with
      | checkInvariant => cases h
      | idle | loadWindow | loadLatency | storeLatency => rfl
  | getMetricsSample | resetMetricsWindow =>
      simp only [step]
      split <;> rfl
  | drawAccountId | shutdown => rfl

/-- The engine thread leaves the calls of the other threads alone. -/
theorem engineStep_calls {s s' : LedgerEngine} {now : Int64} {os : Wal.OsReply} {es : List Event}
    (h : s.engineStep now os = some (s', es)) :
    s'.creating = s.creating ∧ s'.metrics = s.metrics := by
  obtain ⟨wal, running, requests, replies, accounts, cache, n₁, n₂, n₃, counter, creating,
    metrics, pc⟩ := s
  cases pc with
  | loadRunning | popRequest | findCached | validate | cacheResponse | appendWal =>
      simp only [LedgerEngine.engineStep, LedgerEngine.appendWal] at h
      split at h <;> cases h <;> exact ⟨rfl, rfl⟩
  | replyCached | pushReply =>
      simp only [LedgerEngine.engineStep, LedgerEngine.pushReply] at h
      split at h <;> cases h <;> exact ⟨rfl, rfl⟩
  | generateUuid | applyTransaction | buildResponse | countTotal | countWindow | addLatency =>
      cases h
      exact ⟨rfl, rfl⟩
  | returned | terminated => cases h

/-- What is done without the lock leaves the variables of the others alone. -/
theorem step_calls {s s' : LedgerEngine} {b : Action} {es : List Event}
    (hb : locks s b = false) (hstep : step s b = some (s', es)) :
    ((∀ now os, b ≠ .engine now os) → s'.pc = s.pc) ∧
    (∃ added, s'.creating = s.creating ++ added) ∧
    (∀ m₁ m₂ m₃, s.metrics = .checkInvariant m₁ m₂ m₃ → s'.metrics = s.metrics) := by
  cases b with
  | engine now os =>
      obtain ⟨hcreating, hmetrics⟩ := engineStep_calls hstep
      exact ⟨fun hno => absurd rfl (hno now os), ⟨[], by rw [hcreating, List.append_nil]⟩,
        fun _ _ _ _ => hmetrics⟩
  | submit | takeReply =>
      obtain ⟨r, -, heq⟩ := Option.map_eq_some_iff.mp hstep
      cases heq
      exact ⟨fun _ => rfl, ⟨[], (List.append_nil _).symm⟩, fun _ _ _ _ => rfl⟩
  | drawAccountId req =>
      cases hstep
      exact ⟨fun _ => rfl, ⟨_, rfl⟩, fun _ _ _ _ => rfl⟩
  | commitAccount i =>
      obtain ⟨c, hc, -⟩ := Option.map_eq_some_iff.mp hstep
      have hlocks : (s.creating[i]?).isSome = false := hb
      rw [hc] at hlocks
      cases hlocks
  | getBalanceSnapshot => cases hb
  | shutdown =>
      cases hstep
      exact ⟨fun _ => rfl, ⟨[], (List.append_nil _).symm⟩, fun _ _ _ _ => rfl⟩
  | getMetricsSample | resetMetricsWindow =>
      simp only [step] at hstep
      split at hstep
      next hidle =>
        cases hstep
        refine ⟨fun _ => rfl, ⟨[], (List.append_nil _).symm⟩, ?_⟩
        intro m₁ m₂ m₃ hcheck
        rw [hidle] at hcheck
        cases hcheck
      next => cases hstep
  | metrics =>
      have hmove : s.metricsStep = some (s', es) := hstep
      have hside := metricsStep_aside hmove
      refine ⟨?_, ⟨[], ?_⟩, ?_⟩
      · intro _
        unfold LedgerEngine.metricsStep at hmove
        split at hmove <;> cases hmove <;> rfl
      · rw [List.append_nil]
        exact hside.sameData.creating
      · intro m₁ m₂ m₃ hcheck
        simp only [locks, hcheck] at hb
        cases hb

/-- A section keeps its lock and its variables while others go on. -/
theorem section_stable {s s' : LedgerEngine} {a b : Action} {es : List Event}
    (ha : locks s a = true) (hb : locks s b = false) (hstep : step s b = some (s', es)) :
    locks s' a = true ∧ enter s' a = enter s a := by
  obtain ⟨hpc, ⟨added, hcreating⟩, hmetrics⟩ := step_calls hb hstep
  cases a with
  | engine now os =>
      have hsame : s'.pc = s.pc := by
        apply hpc
        rintro now' os' rfl
        -- the thread itself is in the section
        have hlocks : locks s (.engine now' os') = true := ha
        rw [hb] at hlocks
        cases hlocks
      simp only [locks, enter, hsame] at ha ⊢
      exact ⟨ha, trivial⟩
  | commitAccount i =>
      obtain ⟨c, hc⟩ := Option.isSome_iff_exists.mp ha
      have hc' : s'.creating[i]? = some c := by
        obtain ⟨hi, -⟩ := List.getElem?_eq_some_iff.mp hc
        rw [hcreating, List.getElem?_append_left hi]
        exact hc
      simp only [locks, enter, hc, hc']
      exact ⟨rfl, trivial⟩
  | getBalanceSnapshot => exact ⟨rfl, rfl⟩
  | metrics =>
      cases hcheck : s.metrics with
      | checkInvariant m₁ m₂ m₃ =>
          have hsame := hmetrics m₁ m₂ m₃ hcheck
          simp only [locks, enter, hsame] at ha ⊢
          exact ⟨ha, trivial⟩
      | idle | loadWindow | loadLatency | storeLatency =>
          simp only [locks, hcheck] at ha
          cases ha
  | submit | takeReply | drawAccountId | getMetricsSample | resetMetricsWindow | shutdown =>
      cases ha

/-- A section without interference is the whole step. -/
theorem leave_outcome {s : LedgerEngine} {a : Action} (h : locks s a = true) :
    leave { s with accounts := (outcome s.accounts (enter s a)).1 } a
      (outcome s.accounts (enter s a)).2 = step s a := by
  cases a with
  | engine now os =>
      obtain ⟨wal, running, requests, replies, accounts, cache, n₁, n₂, n₃, counter, creating,
        metrics, pc⟩ := s
      cases pc with
      | validate req =>
          have hpos : 0 < req.amount := of_decide_eq_true h
          simp only [enter, outcome, leave, step, LedgerEngine.engineStep,
            validateTransaction_locked hpos]
      | applyTransaction req tStart txId => rfl
      | loadRunning | popRequest | findCached | replyCached | generateUuid | appendWal
      | buildResponse | cacheResponse | pushReply | countTotal | countWindow | addLatency
      | returned | terminated => cases h
  | commitAccount i =>
      obtain ⟨c, hc⟩ := Option.isSome_iff_exists.mp h
      simp only [enter, hc, outcome, leave, step, Option.map_some]
  | getBalanceSnapshot => rfl
  | metrics =>
      obtain ⟨wal, running, requests, replies, accounts, cache, n₁, n₂, n₃, counter, creating,
        metrics, pc⟩ := s
      cases metrics with
      | checkInvariant => rfl
      | idle | loadWindow | loadLatency | storeLatency => cases h
  | submit | takeReply | drawAccountId | getMetricsSample | resetMetricsWindow | shutdown =>
      cases h

/-- **The engine and its sections.** -/
def engineSections : Sections LedgerEngine Action Event Accounts Section where
  step := step
  locks := locks
  memory := LedgerEngine.accounts
  withMemory s m := { s with accounts := m }
  enter := enter
  access := access
  leave := leave
  outcome := outcome
  memory_with _ _ := rfl
  with_memory _ := rfl
  with_with _ _ _ := rfl
  locks_with s m a := by cases a <;> rfl
  enter_with s m a := by cases a <;> rfl
  free_frame _ m _ := step_frame m
  free_stable _ _ _ _ _ := section_stable
  outcome_access _ _ _ _ := outcome_access
  outcome_end _ _ := outcome_end
  atomic _ _ := leave_outcome

/-- A run of the engine in which the lock is taken and given back. -/
abbrev runLocked (s : LedgerEngine) (moves : List (Move Action)) :
    Option (Traced (Locked LedgerEngine Action Accounts Section) Event) :=
  run (traced (move engineSections)) ⟨⟨s, none⟩, []⟩ moves

/-- **Every such run is a run of the engine**, with the same record, in which an
open section has not begun. -/
theorem runLocked_atomic (P : Action → Prop) {moves : List (Move Action)} {s₀ : LedgerEngine}
    {u : Traced (Locked LedgerEngine Action Accounts Section) Event}
    (hP : ∀ m ∈ moves, ∀ a, m = .acquire a ∨ m = .free a → P a)
    (h : runLocked s₀ moves = some u) :
    Held engineSections u.state ∧ ∃ acts, (∀ a ∈ acts, P a) ∧
      runEngine s₀ acts = some ⟨view engineSections u.state, u.trace⟩ :=
  run_atomic P hP h

/-! ## §4. Snapshots. -/

/-- Only `get_balance_snapshot` shows a snapshot. -/
theorem snapshot_of_step {s s' : LedgerEngine} {a : Action} {snap : BalanceSnapshotData}
    (h : step s a = some (s', [.snapshot snap])) : a = .getBalanceSnapshot := by
  cases a with
  | engine now os =>
      obtain ⟨wal, running, requests, replies, accounts, cache, n₁, n₂, n₃, counter, creating,
        metrics, pc⟩ := s
      cases pc with
      | loadRunning | popRequest | findCached | validate | cacheResponse | appendWal =>
          simp only [step, LedgerEngine.engineStep, LedgerEngine.appendWal] at h
          split at h <;> cases h
      | replyCached | pushReply =>
          simp only [step, LedgerEngine.engineStep, LedgerEngine.pushReply] at h
          split at h <;> cases h
      | generateUuid | applyTransaction | buildResponse | countTotal | countWindow | addLatency
      | returned | terminated => cases h
  | submit | takeReply | commitAccount =>
      obtain ⟨r, -, heq⟩ := Option.map_eq_some_iff.mp h
      cases heq
  | getMetricsSample | resetMetricsWindow =>
      simp only [step] at h
      split at h <;> cases h
  | metrics =>
      have hmove : s.metricsStep = some (s', [.snapshot snap]) := h
      unfold LedgerEngine.metricsStep at hmove
      split at hmove <;> cases hmove
  | drawAccountId | shutdown => cases h
  | getBalanceSnapshot => rfl

theorem snapshot_of_leave {s s' : LedgerEngine} {a : Action} {x : Section}
    {snap : BalanceSnapshotData} (h : leave s a x = some (s', [.snapshot snap])) :
    a = .getBalanceSnapshot ∧ x = .taken snap := by
  unfold leave at h
  split at h
  next =>
    split at h
    next => split at h <;> cases h
    next => cases h
  next => split at h <;> cases h
  next => cases h
  next => cases h; exact ⟨rfl, rfl⟩
  next => split at h <;> cases h
  next => cases h

/-- **A snapshot shows the map as it is when the lock is given back.** -/
theorem snapshot_of_move {l l' : Locked LedgerEngine Action Accounts Section} {m : Move Action}
    {snap : BalanceSnapshotData} (hheld : Held engineSections l)
    (h : move engineSections l m = some (l', [.snapshot snap])) :
    snap = getBalanceSnapshot l.state.accounts ∧
      (view engineSections l).accounts = l.state.accounts := by
  obtain ⟨s, holder⟩ := l
  generalize hes : [Event.snapshot snap] = es at h
  cases moved_of_move h with
  | acquire | access => cases hes
  | @release hd s' es hend hleave =>
      subst hes
      obtain ⟨haction, hlocals⟩ := snapshot_of_leave hleave
      have hempty := hheld.at_end rfl hend
      rw [haction, hlocals] at hempty
      -- the section has written nothing, so the map is the one it found
      have hparts : (hd.found, Section.taken (getBalanceSnapshot hd.found)) =
          (s.accounts, Section.taken snap) := hempty
      simp only [Prod.mk.injEq, Section.taken.injEq] at hparts
      obtain ⟨hfound, hsnap⟩ := hparts
      rw [← hsnap, ← hfound]
      exact ⟨rfl, rfl⟩
  | free hfree hstep =>
      subst hes
      obtain rfl := snapshot_of_step hstep
      cases hfree

end ZeroLGR.Ledger
