/-
  ZeroLGR.Ledger.Conservation — money is moved, not made.

  A transfer takes its amount from one balance and adds it to another, and a new
  account is empty: the balances of all accounts add up to zero.  Every type of
  account belongs to one of the three totals of a snapshot, so the totals add up
  to zero as well, and the accounting equation holds exactly if the assets do.

    • `Conserved`, `Conserved.step`, `run_conserved` — the invariant,
    • `foldl_push`, `foldl_add` — what the two loops over the accounts compute,
    • `Consistent` — what a snapshot has to say, after the transfers so far,
    • `Conserved.consistent` — it does,
    • `snapshot_consistent` — so does every snapshot taken while the engine and
      the other threads contend for the lock.
-/
import ZeroLGR.Ledger.Locking
import ZeroLGR.Ledger.RefinesLog

namespace ZeroLGR.Ledger

open Transition KeyedSum CriticalSection

/-! ## §1. The invariant. -/

/-- One of the five types of accounts. -/
def AccountType.named : AccountType → Bool
  | .asset | .liability | .equity | .revenue | .expense => true
  | .unnamed _ _ => false

/-- The sum of all balances. -/
def balanceTotal (accounts : Accounts) : Int := total (fun _ info => info.balance) accounts

theorem share_balance (accounts : Accounts) (id : Bytes) :
    share (fun _ info => AccountInfo.balance info) id (accounts.lookup id) =
      balanceOf accounts id := by
  unfold balanceOf slot
  cases accounts.lookup id with
  | none => rfl
  | some info => rfl

theorem balanceTotal_addToBalance (accounts : Accounts) (id : Bytes) (delta : Int) :
    balanceTotal (addToBalance accounts id delta) = balanceTotal accounts + delta := by
  unfold balanceTotal addToBalance
  rw [total_insert, share_balance]
  unfold balanceOf
  ring

/-- **A transfer conserves the sum.** -/
theorem balanceTotal_apply (accounts : Accounts) (req : TransactionRequest) :
    balanceTotal (applyTransaction accounts req) = balanceTotal accounts := by
  unfold applyTransaction
  rw [balanceTotal_addToBalance, balanceTotal_addToBalance]
  ring

/-- A new account adds nothing to it. -/
theorem balanceTotal_commit {accounts : Accounts} {id : Bytes} (hnew : id ∉ accounts)
    (req : CreateAccountRequest) :
    balanceTotal (commitAccount accounts req id).2 = balanceTotal accounts := by
  unfold commitAccount balanceTotal
  split
  · rfl
  · rw [total_insert, share_balance, balanceOf, slot, AList.lookup_eq_none.mpr hnew]
    simp [AccountInfo.valueInit]

/-- What is known of every account that is stored: its type has a name, and it is
stored under its own identifier. -/
def Proper (accounts : Accounts) : Prop :=
  ∀ id info, accounts.lookup id = some info → info.type.named = true ∧ info.id = id

/-- Adding to the balance of an account that is there changes nothing else. -/
theorem Proper.addToBalance {accounts : Accounts} (h : Proper accounts) {id : Bytes}
    (hmem : id ∈ accounts) (delta : Int) : Proper (addToBalance accounts id delta) := by
  obtain ⟨info, hinfo⟩ := Option.isSome_iff_exists.mp (AList.lookup_isSome.mpr hmem)
  have hslot : slot accounts id = info := by
    rw [slot, hinfo]
    rfl
  intro id' info' hlookup
  rcases lookup_insert_iff.mp hlookup with ⟨rfl, rfl⟩ | ⟨-, hold⟩
  · rw [hslot]
    exact h id' info hinfo
  · exact h id' info' hold

theorem Proper.apply {accounts : Accounts} (h : Proper accounts) {req : TransactionRequest}
    (hknown : Known accounts req) : Proper (applyTransaction accounts req) :=
  (h.addToBalance hknown.1 _).addToBalance
    ((mem_addToBalance _ _ _ _).mpr (.inr hknown.2)) _

theorem Proper.commit {accounts : Accounts} (h : Proper accounts) {req : CreateAccountRequest}
    (hnamed : req.type.named = true) (id : Bytes) : Proper (commitAccount accounts req id).2 := by
  unfold commitAccount
  split
  · exact h
  · intro id' info hlookup
    rcases lookup_insert_iff.mp hlookup with ⟨rfl, rfl⟩ | ⟨-, hold⟩
    · exact ⟨hnamed, rfl⟩
    · exact h id' info hold

/-- **The invariant.** -/
structure Conserved (s : LedgerEngine) (tr : List Event) : Prop where
  proper : Proper s.accounts
  pending : ∀ c ∈ s.creating, c.1.type.named = true
  sum : balanceTotal s.accounts = 0
  balances : ∀ id, balanceOf s.accounts id = credited (applied tr) id - debited (applied tr) id

/-- The action creates no account of a type without a name. -/
def Action.NamedType (a : Action) : Prop :=
  ∀ req, a = .drawAccountId req → req.type.named = true

theorem conserved_init (w : Wal.WriteAheadLog) : Conserved (.init w) [] := by
  constructor
  · intro id info hlookup
    cases hlookup
  · intro c hc
    cases hc
  · rfl
  · intro id
    rfl

section Steps

variable {s s' : LedgerEngine} {a : Action} {tr es : List Event}

/-- A step that leaves the map and the pending calls alone. -/
theorem Conserved.move (h : Conserved s tr) (haccounts : s'.accounts = s.accounts)
    (hcreating : s'.creating = s.creating) (happlied : applied es = []) :
    Conserved s' (tr ++ es) := by
  constructor
  · rw [haccounts]
    exact h.proper
  · rw [hcreating]
    exact h.pending
  · rw [haccounts]
    exact h.sum
  · rw [haccounts, applied_append, happlied, List.append_nil]
    exact h.balances

/-- **One step conserves the sum.** -/
theorem balanceTotal_step (hids : Identifiers s) (he : Effect s a s' es) :
    balanceTotal s'.accounts = balanceTotal s.accounts := by
  cases he with
  | aside hside => rw [hside.sameData.accounts]
  | pop | hit | miss | replyCached | accept | reject | drawTxId | append | appendThrows | build
  | cache | noCache | reply | drawAccountId => rfl
  | apply hpc => exact balanceTotal_apply s.accounts _
  | commitAccount hi => exact balanceTotal_commit (hids.unused _ (List.mem_of_getElem? hi)) _

/-- **One step.** -/
theorem Conserved.step (h : Conserved s tr) (hids : Identifiers s) (hnamed : a.NamedType)
    (he : Effect s a s' es) : Conserved s' (tr ++ es) := by
  have hsum : balanceTotal s'.accounts = 0 := (balanceTotal_step hids he).trans h.sum
  cases he with
  | aside hside =>
      obtain ⟨-, -, -, -, -, happlied, -, -⟩ := hside.silent.lists
      exact h.move hside.sameData.accounts hside.sameData.creating happlied
  | pop | hit | miss | replyCached | accept | reject | drawTxId | append | appendThrows | build
  | cache | noCache | reply => exact h.move rfl rfl rfl
  | @apply now os req tStart txId hpc =>
      have hknown : Known s.accounts req :=
        hids.known req (by rw [hpc]; exact List.mem_singleton_self req)
      refine ⟨h.proper.apply hknown, h.pending, hsum, ?_⟩
      intro id
      rw [applied_append]
      show balanceOf (applyTransaction s.accounts req) id =
        credited (applied tr ++ [req]) id - debited (applied tr ++ [req]) id
      rw [balanceOf_apply, abstract_balance_snoc, h.balances id]
  | @drawAccountId req =>
      rw [List.append_nil]
      refine ⟨h.proper, ?_, hsum, h.balances⟩
      intro c hc
      rcases List.mem_append.mp hc with hc | hc
      · exact h.pending c hc
      · rw [List.mem_singleton.mp hc]
        exact hnamed req rfl
  | @commitAccount i req id hi =>
      have hmem := List.mem_of_getElem? hi
      refine ⟨h.proper.commit (h.pending _ hmem) id, ?_, hsum, ?_⟩
      · intro c hc
        exact h.pending c (List.mem_of_mem_eraseIdx hc)
      · intro id'
        have happlied : applied (tr ++ [.accountCreated (commitAccount s.accounts req id).1]) =
            applied tr := by
          rw [applied_append]
          exact List.append_nil _
        rw [happlied, hids.commit_balance hi]
        exact h.balances id'

end Steps

/-- **The invariant holds in every reachable state**, until the counter wraps. -/
theorem run_conserved {w : Wal.WriteAheadLog} {acts : List Action}
    {t : Traced LedgerEngine Event} (hnamed : ∀ a ∈ acts, a.NamedType)
    (h : runEngine (.init w) acts = some t) (hk : t.state.uuidCounter ≤ 2 ^ 64) :
    Conserved t.state t.trace := by
  have hboth : t.state.uuidCounter ≤ 2 ^ 64 → Identifiers t.state ∧ Conserved t.state t.trace := by
    refine run_invariant_of (fun u : Traced LedgerEngine Event =>
      u.state.uuidCounter ≤ 2 ^ 64 → Identifiers u.state ∧ Conserved u.state u.trace) ?_
      (fun _ => ⟨identifiers_init w, conserved_init w⟩) h
    intro a ha u u' hu hstep hk'
    obtain ⟨es, hes, htrace⟩ := traced_eq_some.mp hstep
    have he := step_effect hes
    obtain ⟨hids, hconserved⟩ := hu (he.counter_le.trans hk')
    rw [htrace]
    exact ⟨hids.step he hk', hconserved.step hids (hnamed a ha) he⟩
  exact (hboth hk).2

/-- The sum of all balances is zero in every reachable state, until then. -/
theorem run_balanceTotal {w : Wal.WriteAheadLog} {acts : List Action}
    {t : Traced LedgerEngine Event} (h : runEngine (.init w) acts = some t)
    (hk : t.state.uuidCounter ≤ 2 ^ 64) : balanceTotal t.state.accounts = 0 := by
  have hboth : Identifiers t.state ∧ balanceTotal t.state.accounts = 0 := by
    refine traced_invariant
      (fun s _ => s.uuidCounter ≤ 2 ^ 64 → Identifiers s ∧ balanceTotal s.accounts = 0) ?_
      (fun _ => ⟨identifiers_init w, rfl⟩) h hk
    intro s tr a s' es hs hstep hk'
    have he := step_effect hstep
    obtain ⟨hids, hsum⟩ := hs (he.counter_le.trans hk')
    exact ⟨hids.step he hk', (balanceTotal_step hids he).trans hsum⟩
  exact hboth.2

/-! ## §2. The two loops. -/

/-- The sum of the balances of some types. -/
def sumOfTypes (types : List AccountType) (infos : List AccountInfo) : Int :=
  ((infos.filter (fun info => info.type ∈ types)).map AccountInfo.balance).sum

/-- The types of `total_assets`, `total_liabilities` and `total_equity`. -/
def assetTypes : List AccountType := [.asset, .expense]
def liabilityTypes : List AccountType := [.liability]
def equityTypes : List AccountType := [.equity, .revenue]

theorem sumOfTypes_cons (types : List AccountType) (info : AccountInfo)
    (infos : List AccountInfo) :
    sumOfTypes types (info :: infos) =
      (if info.type ∈ types then info.balance else 0) + sumOfTypes types infos := by
  unfold sumOfTypes
  by_cases h : info.type ∈ types
  · simp [h]
  · simp [h]

/-- **The loop of `get_balance_snapshot`.** -/
theorem foldl_push : ∀ (infos : List AccountInfo) (snap : BalanceSnapshotData),
    infos.foldl BalanceSnapshotData.push snap =
      ⟨snap.accounts ++ infos, snap.totalAssets + sumOfTypes assetTypes infos,
        snap.totalLiabilities + sumOfTypes liabilityTypes infos,
        snap.totalEquity + sumOfTypes equityTypes infos, snap.invariantOk⟩
  | [], snap => by simp [sumOfTypes]
  | info :: infos, snap => by
      rw [List.foldl_cons, foldl_push infos, sumOfTypes_cons, sumOfTypes_cons, sumOfTypes_cons]
      unfold BalanceSnapshotData.push assetTypes liabilityTypes equityTypes
      split <;> simp_all <;> ring

/-- **The loop of `check_invariant`.** -/
theorem foldl_add : ∀ (infos : List AccountInfo) (t : Totals),
    infos.foldl Totals.add t =
      ⟨t.assets + sumOfTypes assetTypes infos, t.liabilities + sumOfTypes liabilityTypes infos,
        t.equity + sumOfTypes equityTypes infos⟩
  | [], t => by simp [sumOfTypes]
  | info :: infos, t => by
      rw [List.foldl_cons, foldl_add infos, sumOfTypes_cons, sumOfTypes_cons, sumOfTypes_cons]
      unfold Totals.add assetTypes liabilityTypes equityTypes
      split <;> simp_all <;> ring

/-- Every type with a name is in one of the three lists. -/
theorem sumOfTypes_partition : ∀ {infos : List AccountInfo},
    (∀ info ∈ infos, info.type.named = true) →
    sumOfTypes assetTypes infos + sumOfTypes liabilityTypes infos + sumOfTypes equityTypes infos =
      (infos.map AccountInfo.balance).sum
  | [], _ => rfl
  | info :: infos, h => by
      have ih := sumOfTypes_partition (fun i hi => h i (List.mem_cons_of_mem info hi))
      have hnamed := h info List.mem_cons_self
      rw [sumOfTypes_cons, sumOfTypes_cons, sumOfTypes_cons, List.map_cons, List.sum_cons, ← ih]
      unfold assetTypes liabilityTypes equityTypes
      cases htype : info.type with
      | asset | liability | equity | revenue | expense => simp; ring
      | unnamed raw hraw =>
          rw [htype] at hnamed
          cases hnamed

/-! ## §3. Snapshots. -/

/-- The accounts that are stored. -/
def stored (accounts : Accounts) : List AccountInfo := accounts.entries.map (fun e => e.2)

theorem mem_stored {accounts : Accounts} {info : AccountInfo} (h : info ∈ stored accounts) :
    ∃ id, accounts.lookup id = some info := by
  obtain ⟨e, he, rfl⟩ := List.mem_map.mp h
  exact ⟨e.1, AList.mem_lookup_iff.mpr he⟩

theorem getBalanceSnapshot_eq (accounts : Accounts) :
    getBalanceSnapshot accounts =
      BalanceSnapshotData.checked
        ⟨stored accounts, sumOfTypes assetTypes (stored accounts),
          sumOfTypes liabilityTypes (stored accounts), sumOfTypes equityTypes (stored accounts),
          true⟩ := by
  unfold getBalanceSnapshot stored
  rw [← List.foldl_map, foldl_push]
  simp [BalanceSnapshotData.valueInit]

theorem checkInvariant_eq (accounts : Accounts) :
    checkInvariant accounts =
      decide (sumOfTypes assetTypes (stored accounts) -
        sumOfTypes liabilityTypes (stored accounts) -
        sumOfTypes equityTypes (stored accounts) = 0) := by
  unfold checkInvariant totals stored Totals.balanced
  rw [← List.foldl_map, foldl_add]
  simp

/-- **What a snapshot has to say**, taken of `accounts` after the transfers of
`tr`. -/
structure Consistent (accounts : Accounts) (tr : List Event) (snap : BalanceSnapshotData) :
    Prop where
  /-- The listed balances add up to zero, and so do the totals. -/
  sum : (snap.accounts.map AccountInfo.balance).sum = 0
  totals : snap.totalAssets + snap.totalLiabilities + snap.totalEquity = 0
  /-- Each total is the sum of the listed balances of its types. -/
  assets : snap.totalAssets = sumOfTypes assetTypes snap.accounts
  liabilities : snap.totalLiabilities = sumOfTypes liabilityTypes snap.accounts
  equity : snap.totalEquity = sumOfTypes equityTypes snap.accounts
  /-- The flag is what `check_invariant` returns, and means that the assets are zero. -/
  flag : snap.invariantOk = checkInvariant accounts
  flag_iff : snap.invariantOk = true ↔ snap.totalAssets = 0
  /-- Every listed balance shows each transfer whole or not at all. -/
  whole : ∀ info ∈ snap.accounts,
    info.balance = credited (applied tr) info.id - debited (applied tr) info.id

/-- **A snapshot of conserved balances is consistent.** -/
theorem Conserved.consistent {s : LedgerEngine} {tr : List Event} (h : Conserved s tr) :
    Consistent s.accounts tr (getBalanceSnapshot s.accounts) := by
  have hnamed : ∀ info ∈ stored s.accounts, info.type.named = true := by
    intro info hinfo
    obtain ⟨id, hlookup⟩ := mem_stored hinfo
    exact (h.proper id info hlookup).1
  have hsum : ((stored s.accounts).map AccountInfo.balance).sum = 0 := by
    have hzero := h.sum
    unfold balanceTotal total at hzero
    unfold stored
    rw [List.map_map]
    exact hzero
  have hparts := sumOfTypes_partition hnamed
  rw [hsum] at hparts
  rw [getBalanceSnapshot_eq]
  refine ⟨hsum, hparts, rfl, rfl, rfl, (checkInvariant_eq s.accounts).symm, ?_, ?_⟩
  · -- the difference is twice the assets
    show decide (sumOfTypes assetTypes (stored s.accounts) -
        sumOfTypes liabilityTypes (stored s.accounts) -
        sumOfTypes equityTypes (stored s.accounts) = 0) = true ↔
      sumOfTypes assetTypes (stored s.accounts) = 0
    rw [decide_eq_true_iff]
    constructor
    · intro hzero
      omega
    · intro hzero
      omega
  · intro info hinfo
    obtain ⟨id, hlookup⟩ := mem_stored hinfo
    obtain ⟨-, rfl⟩ := h.proper id info hlookup
    rw [← h.balances, balanceOf, slot, hlookup]
    rfl

/-! ## §4. Snapshots among the other threads. -/

/-- **SNAPSHOTS ARE CONSISTENT.**  In every run in which the lock is taken and
given back and the maps are read and written one element at a time, a snapshot
is consistent with the map as it is when the snapshot is taken, and with the
transfers applied before: until the counter wraps, when every account is created
with one of the five types. -/
theorem snapshot_consistent {w : Wal.WriteAheadLog} {moves : List (Move Action)}
    {u u' : Traced (Locked LedgerEngine Action Accounts Section) Event} {m : Move Action}
    {snap : BalanceSnapshotData}
    (hnamed : ∀ m ∈ moves, ∀ a, m = .acquire a ∨ m = .free a → a.NamedType)
    (hrun : runLocked (.init w) moves = some u) (hk : u.state.state.uuidCounter ≤ 2 ^ 64)
    (hmove : traced (move engineSections) u m = some u')
    (hsnap : u'.trace = u.trace ++ [.snapshot snap]) :
    Consistent u.state.state.accounts u.trace snap := by
  obtain ⟨hheld, acts, hacts, hwhole⟩ := runLocked_atomic Action.NamedType hnamed hrun
  -- what the move shows is the snapshot
  obtain ⟨es, hes, htrace⟩ := traced_eq_some.mp hmove
  rw [hsnap] at htrace
  rw [← List.append_cancel_left htrace] at hes
  obtain ⟨rfl, hview⟩ := snapshot_of_move hheld hes
  have hcounter : (view engineSections u.state).uuidCounter = u.state.state.uuidCounter := by
    unfold view
    split <;> rfl
  have hconserved := run_conserved hacts hwhole (hcounter.trans_le hk)
  rw [← hview]
  exact hconserved.consistent

/-- A section of `n` accesses. -/
def sectionMoves (a : Action) (n : Nat) : List (Move Action) :=
  .acquire a :: (List.replicate n .access ++ [.release])

/-- `n` steps of the engine thread outside the lock. -/
def freeSteps (n : Nat) : List (Move Action) := List.replicate n (.free (.engine 1000 Wal.OsReply.ok))

/-- The sale of 500, up to the moment when a snapshot is about to be complete.
The snapshot has waited for the credit. -/
def lockedSale : List (Move Action) :=
  .free (.drawAccountId ⟨Uuid.zero, ascii "Sales", .revenue⟩) ::
    sectionMoves (.commitAccount 0) 3 ++
  .free (.drawAccountId ⟨Uuid.zero, ascii "Cash", .asset⟩) ::
    sectionMoves (.commitAccount 0) 4 ++
  .free (.submit (transferRequest "sale" 0 1 500)) :: freeSteps 3 ++
    sectionMoves (.engine 1000 Wal.OsReply.ok) 3 ++ freeSteps 2 ++
    sectionMoves (.engine 1000 Wal.OsReply.ok) 4 ++
  .acquire .getBalanceSnapshot :: List.replicate 4 .access

/-- The snapshot an event shows. -/
def snapshotOf : Event → Option BalanceSnapshotData
  | .snapshot snap => some snap
  | _ => none

theorem lockedSale_consistent :
    ∃ u, runLocked (.init newLog) lockedSale = some u ∧
      Consistent u.state.state.accounts u.trace
        ⟨[⟨accountId 1, ascii "Cash", .asset, 500⟩, ⟨accountId 0, ascii "Sales", .revenue, -500⟩],
          500, 0, -500, false⟩ := by
  have hrun : (runLocked (.init newLog) lockedSale).map (fun u =>
      (u.state.state.uuidCounter, (traced (move engineSections) u .release).map
        (fun u' => (u'.trace.drop u.trace.length).map snapshotOf))) =
      some (3, some [some ⟨[⟨accountId 1, ascii "Cash", .asset, 500⟩,
        ⟨accountId 0, ascii "Sales", .revenue, -500⟩], 500, 0, -500, false⟩]) := by
    decide +kernel
  have hnamed : ∀ m ∈ lockedSale, ∀ a, m = .acquire a ∨ m = .free a → a.NamedType := by
    intro m hm a ha req hreq
    subst hreq
    simp only [lockedSale, sectionMoves, freeSteps, List.mem_append, List.mem_cons,
      List.mem_replicate] at hm
    rcases ha with rfl | rfl
    · simp at hm
    · simp at hm
      rcases hm with rfl | rfl <;> rfl
  obtain ⟨u, hu, heq⟩ := Option.map_eq_some_iff.mp hrun
  simp only [Prod.mk.injEq] at heq
  obtain ⟨hcounter, hrelease⟩ := heq
  obtain ⟨u', hmove, hshown⟩ := Option.map_eq_some_iff.mp hrelease
  -- what the last move shows is one snapshot
  obtain ⟨es, -, htrace⟩ := traced_eq_some.mp hmove
  rw [htrace, List.drop_left] at hshown
  obtain ⟨e, rfl, he⟩ := List.map_eq_singleton_iff.mp hshown
  cases e with
  | snapshot snap =>
      obtain rfl := Option.some.inj he
      exact ⟨u, hu, snapshot_consistent hnamed hu (by rw [hcounter]; decide) hmove htrace⟩
  | popped | cacheHit | validated | appended | applied | responded | cached | replied | submitted
  | taken | accountCreated | sampled => cases he

end ZeroLGR.Ledger
