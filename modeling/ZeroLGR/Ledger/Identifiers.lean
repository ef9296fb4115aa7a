/-
  ZeroLGR.Ledger.Identifiers — account identifiers are fresh.

  `create_account` draws its identifier before it takes the lock, so several
  identifiers may be drawn and not yet stored.  As long as the counter has not
  wrapped, all of them are different and none is in the map: creating an account
  overwrites nothing.

    • `Identifiers` — the invariant, with the accounts an accepted request names,
    • `Identifiers.step`, `run_identifiers` — it holds in every reachable state,
    • `Identifiers.commit_balance` — a new account changes no balance.
-/
import ZeroLGR.Ledger.Record

namespace ZeroLGR.Ledger

open Transition

/-- The identifier is one of the first `k` drawn. -/
def Drawn (k : Nat) (id : Bytes) : Prop := ∃ j, j < k ∧ id = accountId j

theorem Drawn.mono {k k' : Nat} {id : Bytes} (hle : k ≤ k') (h : Drawn k id) : Drawn k' id := by
  obtain ⟨j, hj, hid⟩ := h
  exact ⟨j, by omega, hid⟩

/-- Before the counter wraps, the next identifier is a new one. -/
theorem Drawn.ne_next {k : Nat} {id : Bytes} (hk : k < 2 ^ 64) (h : Drawn k id) :
    id ≠ accountId k := by
  obtain ⟨j, hj, rfl⟩ := h
  intro heq
  have hjk := accountId_inj (by omega) hk heq
  omega

/-- Both accounts of the request exist. -/
def Known (accounts : Accounts) (req : TransactionRequest) : Prop :=
  req.debitAccountId ∈ accounts ∧ req.creditAccountId ∈ accounts

/-- **The invariant of the account map.**  Stored and pending identifiers come
from the counter, pending ones are different and not stored, and the request in
hand names accounts that exist once it is accepted. -/
structure Identifiers (s : LedgerEngine) : Prop where
  stored : ∀ id ∈ s.accounts, Drawn s.uuidCounter id
  pending : ∀ c ∈ s.creating, Drawn s.uuidCounter c.2
  distinct : (s.creating.map Prod.snd).Nodup
  unused : ∀ c ∈ s.creating, c.2 ∉ s.accounts
  known : ∀ req ∈ s.pc.unlogged ++ s.pc.unapplied, Known s.accounts req

theorem identifiers_init (w : Wal.WriteAheadLog) : Identifiers (.init w) := by
  constructor
  · intro id hid
    exact absurd hid (AList.notMem_empty id)
  · intro c hc
    cases hc
  · exact List.nodup_nil
  · intro c hc
    cases hc
  · intro req hreq
    cases hreq

section Steps

variable {s s' : LedgerEngine} {a : Action} {es : List Event}

/-- A step that leaves the map, the counter and the pending calls alone keeps
the invariant if the request it has in hand is known. -/
theorem Identifiers.move (h : Identifiers s) (haccounts : s'.accounts = s.accounts)
    (hcreating : s'.creating = s.creating) (hcounter : s.uuidCounter ≤ s'.uuidCounter)
    (hknown : ∀ req ∈ s'.pc.unlogged ++ s'.pc.unapplied, Known s.accounts req) :
    Identifiers s' := by
  constructor
  · rw [haccounts]
    intro id hid
    exact (h.stored id hid).mono hcounter
  · rw [hcreating]
    intro c hc
    exact (h.pending c hc).mono hcounter
  · rw [hcreating]
    exact h.distinct
  · rw [hcreating, haccounts]
    exact h.unused
  · rw [haccounts]
    exact hknown

/-- A transfer between known accounts stores no new identifier. -/
theorem Identifiers.apply (h : Identifiers s) {req : TransactionRequest} {tStart : Int64}
    {txId : Uuid} (hpc : s.pc = .applyTransaction req tStart txId) :
    Identifiers { s with
      accounts := applyTransaction s.accounts req, pc := .buildResponse req tStart txId .ok } := by
  -- `operator[]` would create an absent account; both are there since validation
  obtain ⟨hdebit, hcredit⟩ := h.known req (by rw [hpc]; exact List.mem_singleton_self req)
  have hmem := mem_apply hdebit hcredit
  constructor
  · intro id hid
    exact h.stored id ((hmem id).mp hid)
  · exact h.pending
  · exact h.distinct
  · intro c hc hstored
    exact h.unused c hc ((hmem c.2).mp hstored)
  · intro r hr
    cases hr

/-- Drawing an identifier. -/
theorem Identifiers.draw (h : Identifiers s) (req : CreateAccountRequest)
    (hk : s.uuidCounter < 2 ^ 64) :
    Identifiers { s with
      uuidCounter := s.uuidCounter + 1
      creating := s.creating ++ [(req, accountId s.uuidCounter)] } := by
  have hnew : Drawn (s.uuidCounter + 1) (accountId s.uuidCounter) :=
    ⟨s.uuidCounter, Nat.lt_succ_self _, rfl⟩
  constructor
  · intro id hid
    exact (h.stored id hid).mono (Nat.le_succ _)
  · intro c hc
    rcases List.mem_append.mp hc with hc | hc
    · exact (h.pending c hc).mono (Nat.le_succ _)
    · rw [List.mem_singleton.mp hc]
      exact hnew
  · show ((s.creating ++ [(req, accountId s.uuidCounter)]).map Prod.snd).Nodup
    rw [List.map_append, List.nodup_append]
    -- the counter has not wrapped, so what was drawn before is different
    refine ⟨h.distinct, List.nodup_singleton _, ?_⟩
    intro id hid id' hid'
    obtain ⟨c, hc, rfl⟩ := List.mem_map.mp hid
    rw [List.mem_singleton.mp hid']
    exact (h.pending c hc).ne_next hk
  · intro c hc hstored
    rcases List.mem_append.mp hc with hc | hc
    · exact h.unused c hc hstored
    · rw [List.mem_singleton.mp hc] at hstored
      exact (h.stored _ hstored).ne_next hk rfl
  · exact h.known

/-- A pending identifier is not the identifier of another pending call. -/
theorem Identifiers.erase (h : Identifiers s) {i : Nat} {req : CreateAccountRequest} {id : Bytes}
    (hi : s.creating[i]? = some (req, id)) :
    ∀ c ∈ s.creating.eraseIdx i, c ∈ s.creating ∧ c.2 ≠ id := by
  intro c hc
  refine ⟨List.mem_of_mem_eraseIdx hc, ?_⟩
  obtain ⟨hlt, hget⟩ := List.getElem?_eq_some_iff.mp hi
  -- the list around the call that is committed
  have hsplit : s.creating = s.creating.take i ++ (req, id) :: s.creating.drop (i + 1) := by
    rw [← hget, List.getElem_cons_drop, List.take_append_drop]
  have hdistinct := h.distinct
  rw [hsplit, List.map_append, List.map_cons] at hdistinct
  have hother : id ∉ (s.creating.take i ++ s.creating.drop (i + 1)).map Prod.snd := by
    rw [List.map_append]
    exact (List.nodup_middle.mp hdistinct).notMem
  rw [List.eraseIdx_eq_take_drop_succ] at hc
  intro heq
  exact hother (List.mem_map.mpr ⟨c, hc, heq⟩)

/-- The account that is committed was pending. -/
theorem Identifiers.commit (h : Identifiers s) {i : Nat} {req : CreateAccountRequest} {id : Bytes}
    (hi : s.creating[i]? = some (req, id)) :
    Identifiers { s with
      accounts := (Ledger.commitAccount s.accounts req id).2
      creating := s.creating.eraseIdx i } := by
  have hmem : (req, id) ∈ s.creating := List.mem_of_getElem? hi
  have herase := h.erase hi
  -- at most the committed identifier is new in the map
  have hstored : ∀ id', id' ∈ (Ledger.commitAccount s.accounts req id).2 →
      id' = id ∨ id' ∈ s.accounts := by
    intro id'
    unfold Ledger.commitAccount
    split
    · exact .inr
    · exact (AList.mem_insert s.accounts).mp
  constructor
  · intro id' hid'
    rcases hstored id' hid' with rfl | hold
    · exact h.pending _ hmem
    · exact h.stored id' hold
  · intro c hc
    exact h.pending c (herase c hc).1
  · exact ((List.eraseIdx_sublist _ _).map _).nodup h.distinct
  · intro c hc hid
    obtain ⟨hold, hne⟩ := herase c hc
    rcases hstored _ hid with heq | hin
    · exact hne heq
    · exact h.unused c hold hin
  · intro r hr
    obtain ⟨hdebit, hcredit⟩ := h.known r hr
    exact ⟨mem_commitAccount req id hdebit, mem_commitAccount req id hcredit⟩

/-- **One step.** -/
theorem Identifiers.step (h : Identifiers s) (he : Effect s a s' es)
    (hk : s'.uuidCounter ≤ 2 ^ 64) : Identifiers s' := by
  cases he with
  | aside hside =>
      have hsame := hside.sameData
      refine h.move hsame.accounts hsame.creating hsame.counter.ge ?_
      have hhands : s'.pc.hands = s.pc.hands := hside.view (fun _ => Pc.hands_idle)
      simp only [Pc.hands, Prod.mk.injEq] at hhands
      rw [hhands.2.1, hhands.2.2.1]
      exact h.known
  | pop | hit | miss | replyCached | reject | build | cache | noCache | reply =>
      refine h.move rfl rfl (Nat.le_refl _) ?_
      intro r hr
      cases hr
  | accept hpc hok =>
      -- validation has looked both accounts up
      obtain ⟨-, hdebit, hcredit⟩ := validateTransaction_ok hok
      refine h.move rfl rfl (Nat.le_refl _) ?_
      intro r hr
      rw [List.mem_singleton.mp hr]
      exact ⟨hdebit, hcredit⟩
  | drawTxId hpc =>
      refine h.move rfl rfl (Nat.le_succ _) ?_
      have hknown := h.known
      rw [hpc] at hknown
      exact hknown
  | append hpc _ | appendThrows hpc =>
      refine h.move rfl rfl (Nat.le_refl _) ?_
      have hknown := h.known
      rw [hpc] at hknown
      exact hknown
  | apply hpc => exact h.apply hpc
  | drawAccountId => exact h.draw _ hk
  | commitAccount hi => exact h.commit hi

/-- The counter is never set back. -/
theorem Effect.counter_le (he : Effect s a s' es) : s.uuidCounter ≤ s'.uuidCounter := by
  cases he with
  | aside hside => exact hside.sameData.counter.ge
  | drawTxId | drawAccountId => exact Nat.le_succ _
  | pop | hit | miss | replyCached | accept | reject | append | appendThrows | apply | build
  | cache | noCache | reply | commitAccount => exact Nat.le_refl _

end Steps

/-- **The invariant holds in every reachable state**, until the counter wraps. -/
theorem run_identifiers {w : Wal.WriteAheadLog} {acts : List Action}
    {t : Traced LedgerEngine Event} (h : runEngine (.init w) acts = some t)
    (hk : t.state.uuidCounter ≤ 2 ^ 64) : Identifiers t.state := by
  refine traced_invariant (fun s _ => s.uuidCounter ≤ 2 ^ 64 → Identifiers s) ?_
    (fun _ => identifiers_init w) h hk
  intro s tr a s' es hs hstep hk'
  have he := step_effect hstep
  exact (hs (he.counter_le.trans hk')).step he hk'

/-- **Creating an account changes no balance.** -/
theorem Identifiers.commit_balance {s : LedgerEngine} (h : Identifiers s) {i : Nat}
    {req : CreateAccountRequest} {id : Bytes} (hi : s.creating[i]? = some (req, id)) (id' : Bytes) :
    balanceOf (Ledger.commitAccount s.accounts req id).2 id' = balanceOf s.accounts id' := by
  by_cases hid : id' = id
  · -- the key was not there, which counts as a balance of zero
    subst hid
    have hnew : id' ∉ s.accounts := h.unused (req, id') (List.mem_of_getElem? hi)
    have habsent : balanceOf s.accounts id' = 0 := by
      rw [balanceOf, slot, AList.lookup_eq_none.mpr hnew]
      rfl
    rcases slot_commitAccount_self s.accounts req id' with hsame | hzero
    · rw [balanceOf, hsame]
      rfl
    · rw [hzero, habsent]
  · rw [balanceOf, slot_commitAccount_ne s.accounts req hid]
    rfl

end ZeroLGR.Ledger
