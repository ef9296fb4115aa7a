/-
  ZeroLGR.Ledger.Uniqueness — no identifier is given twice.

  `create_account` and `run()` draw from one counter on two threads, outside the
  lock under which names are compared and accounts are stored.  The identifiers
  of accounts are decimal texts of the values drawn, those of transactions carry
  them in their last eight bytes, so either kind is unique until the counter
  wraps.

    • `drawnTxIds` — the transaction ids given in a run,
    • `Carried`, `run_carried` — the frames carry them in the order in which they
      were drawn, the balances change under them, and the answers name them,
    • `Catalogue` — every account is stored under its own identifier, and no two
      have the same name,
    • `UniqueIdentifiers`, `identifiers_unique` — what holds over every run.
-/
import ZeroLGR.Ledger.Overdraft

namespace ZeroLGR.Ledger

open Transition KeyedSum

/-! ## §1. The identifiers given in a run. -/

/-- The transaction id that `run()` holds after the step, if it has called
`generate_uuid` in it. -/
def drawnTxId (s s' : LedgerEngine) : Option Uuid :=
  match s.pc, s'.pc with
  | .generateUuid _ _, .appendWal _ _ txId => some txId
  | _, _ => none

/-- The transaction ids drawn in a run, in their order. -/
def drawnTxIds (s : LedgerEngine) : List Action → List Uuid
  | [] => []
  | a :: acts =>
      match step s a with
      | some (s', _) => (drawnTxId s s').toList ++ drawnTxIds s' acts
      | none => []

/-- **The counter can be read back** from a transaction id, whatever the clock
was. -/
theorem generateUuid_inj {now now' : Int64} {j k : Nat} (hj : j < 2 ^ 64) (hk : k < 2 ^ 64)
    (h : generateUuid now j = generateUuid now' k) : j = k := by
  have hbytes : le64 now.toUInt64 ++ Bytes.toLE 8 (counterValue j) =
      le64 now'.toUInt64 ++ Bytes.toLE 8 (counterValue k) := congrArg Uuid.bytes h
  have hcounter := (List.append_inj hbytes (by simp [le64])).2
  unfold counterValue at hcounter
  rw [Nat.mod_eq_of_lt hj, Nat.mod_eq_of_lt hk] at hcounter
  exact Bytes.toLE_inj (by omega) (by omega) hcounter

section Draws

variable {s s' : LedgerEngine} {a : Action} {es : List Event}

/-- A thread that stays where it is draws nothing. -/
theorem drawnTxId_of_same (hpc : s'.pc = s.pc) : drawnTxId s s' = none := by
  unfold drawnTxId
  rw [hpc]
  split
  next hgen happend =>
    rw [hgen] at happend
    cases happend
  next => rfl

theorem drawnTxId_eq_none (hpc : ∀ req tStart, s.pc ≠ .generateUuid req tStart) :
    drawnTxId s s' = none := by
  unfold drawnTxId
  split
  next req tStart _ _ _ hgen _ => exact absurd hgen (hpc req tStart)
  next => rfl

/-- **Only `generate_uuid` draws a transaction id**, and it takes the next value
of the counter. -/
theorem drawnTxId_cases (he : Effect s a s' es) :
    drawnTxId s s' = none ∨
      ∃ now req tStart, s.pc = .generateUuid req tStart ∧ es = [] ∧
        s' = { s with
          uuidCounter := s.uuidCounter + 1
          pc := .appendWal req tStart (generateUuid now s.uuidCounter) } ∧
        drawnTxId s s' = some (generateUuid now s.uuidCounter) := by
  cases he with
  | @drawTxId now os req tStart hpc =>
      refine .inr ⟨now, req, tStart, hpc, rfl, rfl, ?_⟩
      unfold drawnTxId
      rw [hpc]
  | aside hside =>
      left
      rcases hside.idle with hsame | ⟨hidle, -⟩
      · exact drawnTxId_of_same hsame
      · refine drawnTxId_eq_none ?_
        intro req tStart hgen
        rw [hgen] at hidle
        cases hidle
  | drawAccountId | commitAccount => exact .inl (drawnTxId_of_same rfl)
  | pop hpc | hit hpc | miss hpc | replyCached hpc | accept hpc | reject hpc | append hpc
  | appendThrows hpc | apply hpc | build hpc | cache hpc | noCache hpc | reply hpc =>
      left
      refine drawnTxId_eq_none ?_
      intro req tStart hgen
      cases hpc.symm.trans hgen

theorem drawnTxIds_cons (h : step s a = some (s', es)) (acts : List Action) :
    drawnTxIds s (a :: acts) = (drawnTxId s s').toList ++ drawnTxIds s' acts := by
  rw [drawnTxIds, h]

/-- The transaction ids of a run are those of the counter values drawn in it. -/
theorem mem_drawnTxIds : ∀ {acts : List Action} {s : LedgerEngine} {tr : List Event}
    {t : Traced LedgerEngine Event}, run (traced Ledger.step) ⟨s, tr⟩ acts = some t →
      s.uuidCounter ≤ t.state.uuidCounter ∧ ∀ id ∈ drawnTxIds s acts, ∃ now k,
        s.uuidCounter ≤ k ∧ k < t.state.uuidCounter ∧ id = generateUuid now k := by
  intro acts
  induction acts with
  | nil =>
      intro s tr t h
      cases h
      exact ⟨Nat.le_refl _, fun id hid => by cases hid⟩
  | cons a acts ih =>
      intro s tr t h
      obtain ⟨⟨m, trm⟩, hm, hrest⟩ := Option.bind_eq_some_iff.mp h
      obtain ⟨es, hes, -⟩ := traced_eq_some.mp hm
      have hle : s.uuidCounter ≤ m.uuidCounter := (step_effect hes).counter_le
      obtain ⟨hmt, htail⟩ := ih hrest
      refine ⟨hle.trans hmt, ?_⟩
      intro id hid
      rw [drawnTxIds_cons hes] at hid
      rcases List.mem_append.mp hid with hhead | hlater
      · rcases drawnTxId_cases (step_effect hes) with
          hnone | ⟨now, req, tStart, -, -, hm', hsome⟩
        · rw [hnone] at hhead
          cases hhead
        · have hnext : m.uuidCounter = s.uuidCounter + 1 := congrArg LedgerEngine.uuidCounter hm'
          rw [hsome, Option.toList_some] at hhead
          exact ⟨now, s.uuidCounter, Nat.le_refl _, by omega, List.mem_singleton.mp hhead⟩
      · obtain ⟨now, k, hk, hlt, heq⟩ := htail id hlater
        exact ⟨now, k, hle.trans hk, hlt, heq⟩

/-- **Transaction ids are unique** until the counter wraps. -/
theorem drawnTxIds_nodup : ∀ {acts : List Action} {s : LedgerEngine} {tr : List Event}
    {t : Traced LedgerEngine Event}, run (traced Ledger.step) ⟨s, tr⟩ acts = some t →
      t.state.uuidCounter ≤ 2 ^ 64 → (drawnTxIds s acts).Nodup := by
  intro acts
  induction acts with
  | nil =>
      intro s tr t _ _
      exact List.nodup_nil
  | cons a acts ih =>
      intro s tr t h hk
      obtain ⟨⟨m, trm⟩, hm, hrest⟩ := Option.bind_eq_some_iff.mp h
      obtain ⟨es, hes, -⟩ := traced_eq_some.mp hm
      have htail := ih hrest hk
      rw [drawnTxIds_cons hes]
      rcases drawnTxId_cases (step_effect hes) with hnone | ⟨now, req, tStart, -, -, hm', hsome⟩
      · rw [hnone]
        exact htail
      · rw [hsome]
        refine List.nodup_cons.mpr ⟨?_, htail⟩
        intro hlater
        have hnext : m.uuidCounter = s.uuidCounter + 1 := congrArg LedgerEngine.uuidCounter hm'
        obtain ⟨now', k, hmk, hkt, hid⟩ := (mem_drawnTxIds hrest).2 _ hlater
        have hsame : s.uuidCounter = k := generateUuid_inj (by omega) (by omega) hid
        omega

end Draws

/-! ## §2. What becomes of them. -/

def Event.asTransferred : Event → Option (TransactionRequest × Uuid)
  | .applied req txId => some (req, txId)
  | _ => none

def Event.asConfirmed : Event → Option (TransactionRequest × Uuid)
  | .responded req resp => if resp.status = .ok then some (req, resp.transactionId) else none
  | _ => none

/-- The requests that were applied, with the identifiers under which they were. -/
def transferred (tr : List Event) : List (TransactionRequest × Uuid) :=
  tr.filterMap Event.asTransferred

/-- The requests that were answered anew with OK, with the identifiers of the
answers. -/
def confirmed (tr : List Event) : List (TransactionRequest × Uuid) :=
  tr.filterMap Event.asConfirmed

@[simp] theorem transferred_append (tr es : List Event) :
    transferred (tr ++ es) = transferred tr ++ transferred es := List.filterMap_append

@[simp] theorem confirmed_append (tr es : List Event) :
    confirmed (tr ++ es) = confirmed tr ++ confirmed es := List.filterMap_append

/-- A request of the log, with its identifier. -/
def LogEntry.transfer (l : LogEntry) : TransactionRequest × Uuid := (l.req, l.txId)

/-- Drawn, and not in the log. -/
def Pc.unloggedId : Pc → List Uuid
  | .appendWal _ _ txId => [txId]
  | _ => []

/-- In the log, and not applied. -/
def Pc.unappliedId : Pc → List (TransactionRequest × Uuid)
  | .applyTransaction req _ txId => [(req, txId)]
  | _ => []

/-- Applied, and not answered. -/
def Pc.unansweredId : Pc → List (TransactionRequest × Uuid)
  | .buildResponse req _ txId .ok => [(req, txId)]
  | _ => []

/-- **The identifiers that were drawn are those of the log**, up to the one in
hand and one whose append has thrown, and those of the log are those of the
balances and of the answers. -/
structure Carried (drawn : List Uuid) (pc : Pc) (tr : List Event) : Prop where
  drawn : ((logged tr).map LogEntry.txId ++ pc.unloggedId).Sublist drawn
  logged : (logged tr).map LogEntry.transfer = transferred tr ++ pc.unappliedId
  applied : transferred tr = confirmed tr ++ pc.unansweredId
  payloads : ∀ l ∈ Ledger.logged tr, l.payload.take 16 = l.txId.bytes

/-- All three at once. -/
def Pc.ids (pc : Pc) :
    List Uuid × List (TransactionRequest × Uuid) × List (TransactionRequest × Uuid) :=
  (pc.unloggedId, pc.unappliedId, pc.unansweredId)

theorem Pc.ids_idle {pc : Pc} (h : pc.idle = true) : pc.ids = ([], [], []) := by
  cases pc <;> first | rfl | cases h

/-- A record starts with its identifier. -/
theorem take_serializeForWal (req : TransactionRequest) (txId : Uuid) (now : Int64) :
    (serializeForWal req txId now).take 16 = txId.bytes := by
  have hlen : txId.bytes.length = 16 := txId.length_eq
  simp only [serializeForWal, List.append_assoc]
  rw [← hlen, List.take_left]

section Ids

variable {s s' : LedgerEngine} {a : Action} {tr es : List Event} {drawn : List Uuid}

/-- A step that draws, logs, applies and confirms nothing. -/
theorem Carried.move {pc pc' : Pc} (h : Carried drawn pc tr) (hids : pc'.ids = pc.ids)
    (hlogged : Ledger.logged es = []) (htransferred : transferred es = [])
    (hconfirmed : confirmed es = []) : Carried drawn pc' (tr ++ es) := by
  simp only [Pc.ids, Prod.mk.injEq] at hids
  obtain ⟨hunlogged, hunapplied, hunanswered⟩ := hids
  constructor
  · rw [logged_append, hlogged, List.append_nil, hunlogged]
    exact h.drawn
  · rw [logged_append, transferred_append, hlogged, htransferred, List.append_nil,
      List.append_nil, hunapplied]
    exact h.logged
  · rw [transferred_append, confirmed_append, htransferred, hconfirmed, List.append_nil,
      List.append_nil, hunanswered]
    exact h.applied
  · rw [logged_append, hlogged, List.append_nil]
    exact h.payloads

/-- **The identifier in hand is logged.** -/
theorem Carried.append {req : TransactionRequest} {tStart : Int64} {txId : Uuid}
    (h : Carried drawn (.appendWal req tStart txId) tr) (now : Int64) :
    Carried drawn (.applyTransaction req tStart txId)
      (tr ++ [.appended req txId (serializeForWal req txId now)]) := by
  have hlog := logged_appended tr req txId (serializeForWal req txId now)
  constructor
  · rw [hlog, List.map_append]
    simpa [Pc.unloggedId] using h.drawn
  · -- all logged before is applied, the new frame is not
    have hbefore : (Ledger.logged tr).map LogEntry.transfer = transferred tr := by
      simpa [Pc.unappliedId] using h.logged
    rw [hlog, List.map_append, hbefore, transferred_append]
    simp [transferred, Event.asTransferred, LogEntry.transfer, Pc.unappliedId]
  · have hnone : transferred [.appended req txId (serializeForWal req txId now)] = [] ∧
        confirmed [.appended req txId (serializeForWal req txId now)] = [] := ⟨rfl, rfl⟩
    rw [transferred_append, confirmed_append, hnone.1, hnone.2, List.append_nil, List.append_nil]
    exact h.applied
  · rw [hlog]
    intro l hl
    rcases List.mem_append.mp hl with hold | hlast
    · exact h.payloads l hold
    · rw [List.mem_singleton.mp hlast]
      exact take_serializeForWal req txId now

/-- **The logged transfer is applied.** -/
theorem Carried.apply {req : TransactionRequest} {tStart : Int64} {txId : Uuid}
    (h : Carried drawn (.applyTransaction req tStart txId) tr) :
    Carried drawn (.buildResponse req tStart txId .ok) (tr ++ [.applied req txId]) := by
  have hone : transferred [.applied req txId] = [(req, txId)] ∧
      confirmed [.applied req txId] = [] ∧ Ledger.logged [.applied req txId] = [] :=
    ⟨rfl, rfl, rfl⟩
  have hbefore : transferred tr = confirmed tr := by
    simpa [Pc.unansweredId] using h.applied
  constructor
  · rw [logged_append, hone.2.2, List.append_nil]
    exact h.drawn
  · rw [logged_append, hone.2.2, List.append_nil, transferred_append, hone.1, h.logged]
    exact (List.append_nil _).symm
  · rw [transferred_append, confirmed_append, hone.1, hone.2.1, List.append_nil, hbefore]
    rfl
  · rw [logged_append, hone.2.2, List.append_nil]
    exact h.payloads

/-- **The applied transfer is answered**, and no refused one is answered with OK. -/
theorem Carried.build {req : TransactionRequest} {tStart : Int64} {txId : Uuid}
    {status : TxStatus} {resp : TransactionResponse}
    (h : Carried drawn (.buildResponse req tStart txId status) tr)
    (htx : resp.transactionId = txId) (hstatus : resp.status = status) :
    Carried drawn (.cacheResponse req resp) (tr ++ [.responded req resp]) := by
  have hnone : transferred [.responded req resp] = [] ∧
      Ledger.logged [.responded req resp] = [] := ⟨rfl, rfl⟩
  constructor
  · rw [logged_append, hnone.2, List.append_nil]
    exact h.drawn
  · rw [logged_append, hnone.2, List.append_nil, transferred_append, hnone.1, List.append_nil]
    exact h.logged
  · -- an answer is confirmed exactly if its status is OK
    have hone : confirmed [.responded req resp] =
        (Pc.buildResponse req tStart txId status).unansweredId := by
      unfold confirmed
      cases status <;> simp [Event.asConfirmed, hstatus, htx, Pc.unansweredId]
    rw [transferred_append, confirmed_append, hnone.1, hone, List.append_nil, h.applied]
    exact (List.append_nil _).symm
  · rw [logged_append, hnone.2, List.append_nil]
    exact h.payloads

/-- A step that draws nothing. -/
theorem Carried.keep (h : Carried drawn s.pc tr) (he : Effect s a s' es)
    (hnone : drawnTxId s s' = none) : Carried drawn s'.pc (tr ++ es) := by
  cases he with
  | aside hside =>
      obtain ⟨-, -, -, -, hlogged, -⟩ := hside.silent.lists
      refine h.move (hside.view (fun _ => Pc.ids_idle)) hlogged ?_ ?_
      · exact hside.silent.filterMap (by intro e he; cases e <;> first | rfl | cases he)
      · exact hside.silent.filterMap (by intro e he; cases e <;> first | rfl | cases he)
  | drawTxId hpc =>
      unfold drawnTxId at hnone
      rw [hpc] at hnone
      cases hnone
  | drawAccountId | commitAccount => exact h.move rfl rfl rfl rfl
  | pop hpc | hit hpc | miss hpc | replyCached hpc | accept hpc | cache hpc | noCache hpc
  | reply hpc => exact h.move (by rw [hpc]; rfl) rfl rfl rfl
  | @reject now os req status hpc _ hbad =>
      refine h.move ?_ rfl rfl rfl
      rw [hpc]
      cases status with
      | ok => exact absurd rfl hbad
      | errInsufficientFunds | errAccountNotFound | errInvariantViolated | errInternal => rfl
  | appendThrows hpc =>
      -- the identifier in hand is given up
      rw [hpc] at h
      rw [List.append_nil]
      refine ⟨?_, h.logged, h.applied, h.payloads⟩
      exact (List.append_nil _).symm ▸ (List.sublist_append_left _ _).trans h.drawn
  | append hpc _ =>
      rw [hpc] at h
      exact h.append _
  | apply hpc =>
      rw [hpc] at h
      exact h.apply
  | build hpc _ htx hstatus _ =>
      rw [hpc] at h
      exact h.build htx hstatus

/-- **One step**: an identifier is drawn, logged, applied and confirmed in turn. -/
theorem Carried.step (h : Carried drawn s.pc tr) (he : Effect s a s' es) :
    Carried (drawn ++ (drawnTxId s s').toList) s'.pc (tr ++ es) := by
  rcases drawnTxId_cases he with hnone | ⟨now, req, tStart, hpc, rfl, rfl, hsome⟩
  · rw [hnone, Option.toList_none, List.append_nil]
    exact h.keep he hnone
  · rw [hpc] at h
    rw [hsome, List.append_nil]
    have hbefore : ((Ledger.logged tr).map LogEntry.txId).Sublist drawn := by
      simpa [Pc.unloggedId] using h.drawn
    exact ⟨hbefore.append (List.Sublist.refl _), h.logged, h.applied, h.payloads⟩

/-- **Any run.** -/
theorem run_carried : ∀ {acts : List Action} {s : LedgerEngine} {tr : List Event}
    {drawn : List Uuid} {t : Traced LedgerEngine Event}, Carried drawn s.pc tr →
      run (traced Ledger.step) ⟨s, tr⟩ acts = some t →
        Carried (drawn ++ drawnTxIds s acts) t.state.pc t.trace := by
  intro acts
  -- induction on the steps, with what was drawn before them
  induction acts with
  | nil =>
      intro s tr drawn t h hrun
      cases hrun
      rw [drawnTxIds, List.append_nil]
      exact h
  | cons a acts ih =>
      intro s tr drawn t h hrun
      obtain ⟨⟨m, trm⟩, hm, hrest⟩ := Option.bind_eq_some_iff.mp hrun
      obtain ⟨es, hes, htrace⟩ := traced_eq_some.mp hm
      rw [drawnTxIds_cons hes, ← List.append_assoc]
      have hnext := h.step (step_effect hes)
      rw [← htrace] at hnext
      exact ih hnext hrest

/-- The frames have the identifiers that were drawn, in their order. -/
theorem Carried.logged_sublist {pc : Pc} (h : Carried drawn pc tr) :
    ((Ledger.logged tr).map LogEntry.txId).Sublist drawn :=
  (List.sublist_append_left _ _).trans h.drawn

theorem Carried.applied_prefix {pc : Pc} (h : Carried drawn pc tr) :
    transferred tr <+: (Ledger.logged tr).map LogEntry.transfer := by
  rw [h.logged]
  exact List.prefix_append _ _

theorem Carried.confirmed_prefix {pc : Pc} (h : Carried drawn pc tr) :
    confirmed tr <+: transferred tr := by
  rw [h.applied]
  exact List.prefix_append _ _

/-- In a run of a new engine. -/
theorem carried_end {w : Wal.WriteAheadLog} {acts : List Action} {t : Traced LedgerEngine Event}
    (h : runEngine (.init w) acts = some t) :
    Carried (drawnTxIds (.init w) acts) t.state.pc t.trace := by
  have hinit : Carried [] (LedgerEngine.init w).pc [] :=
    ⟨List.Sublist.refl _, rfl, rfl, fun l hl => by cases hl⟩
  exact run_carried hinit h

end Ids

/-! ## §3. The catalogue. -/

/-- Every account is stored under its own identifier, and no two of them have
the same name. -/
structure Catalogue (accounts : Accounts) : Prop where
  own : ∀ id info, accounts.lookup id = some info → info.id = id
  names : ∀ id id' info info', accounts.lookup id = some info → accounts.lookup id' = some info' →
    info.name = info'.name → id = id'

theorem catalogue_empty : Catalogue ∅ := by
  constructor
  · intro id info hlookup
    cases hlookup
  · intro id id' info info' hlookup
    cases hlookup

/-- The entries of the second map are those of the first, up to their balances. -/
def SameEntries (accounts accounts' : Accounts) : Prop :=
  ∀ id info', accounts'.lookup id = some info' →
    ∃ info, accounts.lookup id = some info ∧ info' = { info with balance := info'.balance }

theorem sameEntries_addToBalance {accounts : Accounts} {id : Bytes} (hmem : id ∈ accounts)
    (delta : Int) : SameEntries accounts (addToBalance accounts id delta) := by
  obtain ⟨old, hold⟩ := Option.isSome_iff_exists.mp (AList.lookup_isSome.mpr hmem)
  have hslot : slot accounts id = old := by
    rw [slot, hold]
    rfl
  intro id' info' hlookup
  rcases lookup_insert_iff.mp hlookup with ⟨rfl, rfl⟩ | ⟨-, hother⟩
  · rw [hslot]
    exact ⟨old, hold, rfl⟩
  · exact ⟨info', hother, rfl⟩

theorem SameEntries.trans {a b c : Accounts} (hab : SameEntries a b) (hbc : SameEntries b c) :
    SameEntries a c := by
  intro id info'' hlookup
  obtain ⟨info', hb, heq'⟩ := hbc id info'' hlookup
  obtain ⟨info, ha, heq⟩ := hab id info' hb
  refine ⟨info, ha, ?_⟩
  rw [heq', heq]

/-- A transfer between accounts that exist changes only balances. -/
theorem sameEntries_apply {accounts : Accounts} {req : TransactionRequest}
    (hknown : Known accounts req) : SameEntries accounts (applyTransaction accounts req) :=
  (sameEntries_addToBalance hknown.1 _).trans
    (sameEntries_addToBalance ((mem_addToBalance _ _ _ _).mpr (.inr hknown.2)) _)

theorem Catalogue.same {accounts accounts' : Accounts} (h : Catalogue accounts)
    (hsame : SameEntries accounts accounts') : Catalogue accounts' := by
  constructor
  · intro id info' hlookup
    obtain ⟨info, hinfo, heq⟩ := hsame id info' hlookup
    rw [heq]
    exact h.own id info hinfo
  · intro id id' info₁ info₂ h₁ h₂ hname
    obtain ⟨old₁, hold₁, heq₁⟩ := hsame id info₁ h₁
    obtain ⟨old₂, hold₂, heq₂⟩ := hsame id' info₂ h₂
    rw [heq₁, heq₂] at hname
    exact h.names id id' old₁ old₂ hold₁ hold₂ hname

/-- A name that is not taken is no account's. -/
theorem name_ne_of_not_taken {accounts : Accounts} {name : Bytes}
    (h : ¬ nameTaken accounts name = true) {id : Bytes} {info : AccountInfo}
    (hlookup : accounts.lookup id = some info) : info.name ≠ name := by
  intro hname
  refine h (List.any_eq_true.mpr ⟨⟨id, info⟩, AList.mem_lookup_iff.mp hlookup, ?_⟩)
  exact decide_eq_true hname

theorem Catalogue.commit {accounts : Accounts} (h : Catalogue accounts)
    (req : CreateAccountRequest) (id : Bytes) : Catalogue (commitAccount accounts req id).2 := by
  unfold commitAccount
  split
  · exact h
  next hfree =>
    constructor
    · intro id' info hlookup
      rcases lookup_insert_iff.mp hlookup with ⟨rfl, rfl⟩ | ⟨-, hold⟩
      · rfl
      · exact h.own id' info hold
    · intro id₁ id₂ info₁ info₂ h₁ h₂ hname
      rcases lookup_insert_iff.mp h₁ with ⟨rfl, rfl⟩ | ⟨-, hold₁⟩
      · rcases lookup_insert_iff.mp h₂ with ⟨rfl, -⟩ | ⟨-, hold₂⟩
        · rfl
        · exact absurd hname.symm (name_ne_of_not_taken hfree hold₂)
      · rcases lookup_insert_iff.mp h₂ with ⟨rfl, rfl⟩ | ⟨-, hold₂⟩
        · exact absurd hname (name_ne_of_not_taken hfree hold₁)
        · exact h.names id₁ id₂ info₁ info₂ hold₁ hold₂ hname

/-! ## §4. Every step. -/

/-- A step of one of the two halves of `create_account`. -/
def Action.createsAccount : Action → Bool
  | .drawAccountId _ => true
  | .commitAccount _ => true
  | _ => false

section Steps

variable {s s' : LedgerEngine} {a : Action} {tr es : List Event}

/-- **One step keeps the catalogue**, if the accounts of the request in hand exist. -/
theorem Catalogue.step (h : Catalogue s.accounts)
    (hknown : ∀ req ∈ s.pc.unlogged ++ s.pc.unapplied, Known s.accounts req)
    (he : Effect s a s' es) : Catalogue s'.accounts := by
  cases he with
  | aside hside =>
      rw [hside.sameData.accounts]
      exact h
  | pop | hit | miss | replyCached | accept | reject | drawTxId | append | appendThrows | build
  | cache | noCache | reply | drawAccountId => exact h
  | @apply now os req tStart txId hpc =>
      have hreq : Known s.accounts req :=
        hknown req (by rw [hpc]; exact List.mem_singleton_self req)
      exact h.same (sameEntries_apply hreq)
  | commitAccount hi => exact h.commit _ _

/-- **Creating an account changes no entry that is there.** -/
theorem lookup_of_creates (hids : Identifiers s) (ha : a.createsAccount = true)
    (he : Effect s a s' es) {id : Bytes} {info : AccountInfo}
    (hlookup : s.accounts.lookup id = some info) : s'.accounts.lookup id = some info := by
  cases he with
  | aside hside =>
      rw [hside.sameData.accounts]
      exact hlookup
  | drawAccountId => exact hlookup
  | @commitAccount i req new hi =>
      have hnew : new ∉ s.accounts := hids.unused _ (List.mem_of_getElem? hi)
      show (Ledger.commitAccount s.accounts req new).2.lookup id = some info
      unfold Ledger.commitAccount
      split
      · exact hlookup
      · refine lookup_insert_iff.mpr (.inr ⟨?_, hlookup⟩)
        rintro rfl
        exact hnew (AList.lookup_isSome.mp (by rw [hlookup]; rfl))
  | pop | hit | miss | replyCached | accept | reject | drawTxId | append | appendThrows | apply
  | build | cache | noCache | reply => cases ha

/-- A call that fails stores nothing. -/
theorem accounts_of_failed {resp : CreateAccountResponse} (he : Effect s a s' es)
    (hshown : es = [.accountCreated resp]) (hfailed : resp.status ≠ .ok) :
    s'.accounts = s.accounts := by
  cases he with
  | aside hside => exact hside.sameData.accounts
  | @commitAccount i req new hi =>
      have hresp : (Ledger.commitAccount s.accounts req new).1 = resp := by
        cases hshown
        rfl
      show (Ledger.commitAccount s.accounts req new).2 = s.accounts
      unfold Ledger.commitAccount at hresp ⊢
      split at hresp
      next htaken => rw [if_pos htaken]
      next =>
        rw [← hresp] at hfailed
        exact absurd rfl hfailed
  | pop | hit | miss | replyCached | accept | reject | append | apply | build | cache | reply =>
      cases hshown
  | drawTxId | appendThrows | noCache | drawAccountId => cases hshown

/-- The account ids returned so far are different, and stored. -/
structure Handed (s : LedgerEngine) (tr : List Event) : Prop where
  distinct : (handedOut tr).Nodup
  stored : ∀ id ∈ handedOut tr, id ∈ s.accounts

/-- A step that returns no identifier and removes no account. -/
theorem Handed.move (h : Handed s tr) (hnone : handedOut es = [])
    (hkept : ∀ id ∈ s.accounts, id ∈ s'.accounts) : Handed s' (tr ++ es) := by
  constructor
  · rw [handedOut_append, hnone, List.append_nil]
    exact h.distinct
  · rw [handedOut_append, hnone, List.append_nil]
    exact fun id hid => hkept id (h.stored id hid)

/-- **One step.** -/
theorem Handed.step (h : Handed s tr) (hids : Identifiers s) (he : Effect s a s' es) :
    Handed s' (tr ++ es) := by
  cases he with
  | aside hside =>
      have hnone : handedOut es = [] := by
        cases hside <;> rfl
      refine h.move hnone ?_
      rw [hside.sameData.accounts]
      exact fun id hid => hid
  | pop | hit | miss | replyCached | accept | reject | drawTxId | append | appendThrows | build
  | cache | noCache | reply | drawAccountId => exact h.move rfl (fun id hid => hid)
  | apply hpc =>
      have hknown := hids.known _ (by rw [hpc]; exact List.mem_singleton_self _)
      exact h.move rfl (fun id hid => (mem_apply hknown.1 hknown.2 id).mpr hid)
  | @commitAccount i req new hi =>
      have hnew : new ∉ s.accounts := hids.unused _ (List.mem_of_getElem? hi)
      unfold Ledger.commitAccount
      split
      · exact h.move rfl (fun id hid => hid)
      · -- the identifier that is returned is stored only now
        have hshown : handedOut [.accountCreated ⟨req.correlationId, new, .ok, []⟩] = [new] := rfl
        constructor
        · rw [handedOut_append, hshown, List.nodup_append]
          refine ⟨h.distinct, List.nodup_singleton _, ?_⟩
          intro id hid id' hid'
          rw [List.mem_singleton.mp hid']
          rintro rfl
          exact hnew (h.stored id hid)
        · intro id hid
          rw [handedOut_append, hshown] at hid
          refine (AList.mem_insert s.accounts).mpr ?_
          rcases List.mem_append.mp hid with hold | hlast
          · exact .inr (h.stored id hold)
          · exact .inl (List.mem_singleton.mp hlast)

end Steps

/-! ## §5. Every run. -/

section Runs

variable {w : Wal.WriteAheadLog} {acts : List Action} {t : Traced LedgerEngine Event}

/-- In every reachable state, however many identifiers were drawn. -/
theorem run_catalogue (h : runEngine (.init w) acts = some t) : Catalogue t.state.accounts := by
  have hboth : (∀ req ∈ t.state.pc.unlogged ++ t.state.pc.unapplied, Known t.state.accounts req) ∧
      Catalogue t.state.accounts := by
    refine traced_invariant (fun s _ =>
      (∀ req ∈ s.pc.unlogged ++ s.pc.unapplied, Known s.accounts req) ∧ Catalogue s.accounts)
      ?_ ?_ h
    · intro s tr a s' es hs hstep
      obtain ⟨hknown, hcatalogue⟩ := hs
      exact ⟨known_step hknown (step_effect hstep), hcatalogue.step hknown (step_effect hstep)⟩
    · refine ⟨?_, catalogue_empty⟩
      intro req hreq
      cases hreq
  exact hboth.2

theorem run_handed (h : runEngine (.init w) acts = some t) (hk : t.state.uuidCounter ≤ 2 ^ 64) :
    Handed t.state t.trace := by
  have hboth : Identifiers t.state ∧ Handed t.state t.trace := by
    refine traced_invariant
      (fun s tr => s.uuidCounter ≤ 2 ^ 64 → Identifiers s ∧ Handed s tr) ?_ ?_ h hk
    · intro s tr a s' es hs hstep hk'
      have he := step_effect hstep
      obtain ⟨hids, hhanded⟩ := hs (he.counter_le.trans hk')
      exact ⟨hids.step he hk', hhanded.step hids he⟩
    · exact fun _ => ⟨identifiers_init w, List.nodup_nil, fun id hid => by cases hid⟩
  exact hboth.2

/-- A state the run passes through has drawn no more than its end. -/
theorem visits_counter_le {u : Traced LedgerEngine Event}
    (hu : Visits (traced Ledger.step) ⟨.init w, []⟩ acts u) (h : runEngine (.init w) acts = some t) :
    u.state.uuidCounter ≤ t.state.uuidCounter := by
  obtain ⟨s, tr⟩ := u
  obtain ⟨before, after, rfl, hbefore⟩ := hu
  rw [runEngine, run_append, hbefore] at h
  have hafter : run (traced Ledger.step) ⟨s, tr⟩ after = some t := h
  exact (mem_drawnTxIds hafter).1

end Runs

/-- **What identifiers promise** over a run that ends in `t`. -/
structure UniqueIdentifiers (w : Wal.WriteAheadLog) (acts : List Action)
    (t : Traced LedgerEngine Event) : Prop where
  accountIds : (handedOut t.trace).Nodup
  transactionIds : (drawnTxIds (.init w) acts).Nodup
  /-- The frames have different identifiers, those that were drawn, in that order,
  and a frame starts with its own. -/
  loggedIds : ((logged t.trace).map LogEntry.txId).Nodup ∧
    ((logged t.trace).map LogEntry.txId).Sublist (drawnTxIds (.init w) acts) ∧
    ∀ l ∈ logged t.trace, l.payload.take 16 = l.txId.bytes
  /-- The transfers are applied under the identifiers of their frames. -/
  appliedIds : ((transferred t.trace).map Prod.snd).Nodup ∧
    transferred t.trace <+: (logged t.trace).map LogEntry.transfer
  /-- No two requests are answered anew with the same identifier, and each is
  answered with the one under which it was applied. -/
  confirmedIds : ((confirmed t.trace).map Prod.snd).Nodup ∧
    confirmed t.trace <+: transferred t.trace
  catalogue : ∀ u, Visits (traced step) ⟨.init w, []⟩ acts u → Catalogue u.state.accounts
  kept : ∀ u a u', Takes (traced step) ⟨.init w, []⟩ acts u a u' → a.createsAccount = true →
    ∀ id info, u.state.accounts.lookup id = some info → u'.state.accounts.lookup id = some info
  failed : ∀ u a u' resp, Takes (traced step) ⟨.init w, []⟩ acts u a u' →
    u'.trace = u.trace ++ [.accountCreated resp] → resp.status ≠ .ok →
      u'.state.accounts = u.state.accounts

/-- **IDENTIFIERS ARE UNIQUE**, in every run that draws no more of them than the
counter has values. -/
theorem identifiers_unique {w : Wal.WriteAheadLog} {acts : List Action}
    {t : Traced LedgerEngine Event} (h : runEngine (.init w) acts = some t)
    (hk : t.state.uuidCounter ≤ 2 ^ 64) : UniqueIdentifiers w acts t := by
  have hdrawn := drawnTxIds_nodup h hk
  have hcarried := carried_end h
  have hlogged := hcarried.logged_sublist
  have happlied := hcarried.applied_prefix
  have hconfirmed := hcarried.confirmed_prefix
  -- what is applied and confirmed has its identifiers from the log
  have hlogged' : (((logged t.trace).map LogEntry.transfer).map Prod.snd).Nodup := by
    rw [List.map_map]
    exact hlogged.nodup hdrawn
  have happlied' : ((transferred t.trace).map Prod.snd).Nodup :=
    (happlied.sublist.map Prod.snd).nodup hlogged'
  constructor
  · exact (run_handed h hk).distinct
  · exact hdrawn
  · exact ⟨hlogged.nodup hdrawn, hlogged, hcarried.payloads⟩
  · exact ⟨happlied', happlied⟩
  · exact ⟨(hconfirmed.sublist.map Prod.snd).nodup happlied', hconfirmed⟩
  · intro u hu
    obtain ⟨before, -, -, hrun⟩ := hu
    exact run_catalogue hrun
  · intro u a u' htakes ha id info hlookup
    have hcounter := (visits_counter_le htakes.source h).trans hk
    obtain ⟨before, -, -, hrun, hstep⟩ := htakes
    obtain ⟨es, hes, -⟩ := traced_eq_some.mp hstep
    exact lookup_of_creates (run_identifiers hrun hcounter) ha (step_effect hes) hlookup
  · intro u a u' resp htakes hshown hfailed
    obtain ⟨es, hes, htrace⟩ := htakes.shows
    exact accounts_of_failed (step_effect hes)
      (List.append_cancel_left (htrace.symm.trans hshown)) hfailed

/-- Two accounts, a third of a name that is taken, and two transfers.  The calls
draw their identifiers while the engine draws its own. -/
def interleavedDraws : List Action :=
  createAccountCall "Sales" .revenue ++
    [.drawAccountId ⟨Uuid.zero, ascii "Cash", .asset⟩,
      .drawAccountId ⟨Uuid.zero, ascii "Cash", .equity⟩, .commitAccount 1,
      .submit (transferRequest "sale" 0 2 500), .submit (transferRequest "sale 2" 0 2 500)] ++
    engineSteps 6 ++ [.commitAccount 0] ++ engineSteps 20

theorem interleavedDraws_unique :
    ∃ t, runEngine (.init newLog) interleavedDraws = some t ∧
      UniqueIdentifiers newLog interleavedDraws t ∧
      handedOut t.trace = [accountId 0, accountId 2] ∧
      drawnTxIds (.init newLog) interleavedDraws =
        [generateUuid 1000 3, generateUuid 1000 4] ∧
      (confirmed t.trace).map Prod.snd = [generateUuid 1000 3, generateUuid 1000 4] := by
  have hrun : (runEngine (.init newLog) interleavedDraws).map
      (fun t => (t.state.uuidCounter, handedOut t.trace, (confirmed t.trace).map Prod.snd)) =
        some (5, [accountId 0, accountId 2], [generateUuid 1000 3, generateUuid 1000 4]) := by
    decide +kernel
  obtain ⟨t, ht, heq⟩ := Option.map_eq_some_iff.mp hrun
  simp only [Prod.mk.injEq] at heq
  obtain ⟨hcounter, hcreated, hconfirmed⟩ := heq
  exact ⟨t, ht, identifiers_unique ht (by rw [hcounter]; decide), hcreated, by decide +kernel,
    hconfirmed⟩

end ZeroLGR.Ledger
