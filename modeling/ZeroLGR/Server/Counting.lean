/-
  ZeroLGR.Server.Counting — which total an account is counted in.

  The type of an account travels as one byte: from the message through
  `deserialize_create_account` into `accounts_`, and on into the `switch` of
  `get_balance_snapshot` and that of `check_invariant`.  Neither of the two has
  a `default`, and the decoder accepts every byte.

    • `engineCall`, `receive` — the messages that reach the engine,
    • `Column`, `CountsIn`, `CountedOnce` — each account is in one total,
    • `countedOnce_iff` — that is the case if every type has a name,
    • `counted_once_iff` — over runs: if no account is stored under a type byte
      above four.
-/
import ZeroLGR.Ledger.Conservation
import ZeroLGR.Server.Wire

namespace ZeroLGR.Server

open Transition Ledger KeyedSum

/-! ## §1. Messages that reach the engine. -/

/-- The call that `io_loop` makes for a message which asks for a change. -/
def engineCall (payload : Bytes) : Option Ledger.Action :=
  match payload with
  | [] => none
  | msgType :: _ =>
      if msgType = MSG_TX_REQUEST then (deserializeRequest payload).map .submit
      else if msgType = MSG_CREATE_ACCOUNT then (deserializeCreateAccount payload).map .drawAccountId
      else none

/-- A message that the decoders accept, or a step that starts with no message. -/
inductive Input where
  | message (payload : Bytes)
  | inner (a : Ledger.Action)

/-- The action needs a message. -/
def asksForMessage : Ledger.Action → Bool
  | .submit _ => true
  | .drawAccountId _ => true
  | _ => false

/-- One message or one step of the engine.  A request that finds the queue full
is turned away. -/
def receive (s : LedgerEngine) : Input → Option (LedgerEngine × List Ledger.Event)
  | .message payload =>
      (engineCall payload).map (fun a =>
        match Ledger.step s a with
        | some r => r
        | none => (s, []))
  | .inner a => if asksForMessage a = true then none else Ledger.step s a

/-- The type byte of a `MSG_CREATE_ACCOUNT`, behind its name. -/
def sentType (payload : Bytes) : Option UInt8 :=
  (readString payload 17).bind fun name => payload[name.2]?

/-- **The type is the byte that was sent.** -/
theorem typeByte_of_sent {payload : Bytes} {req : CreateAccountRequest}
    (h : engineCall payload = some (.drawAccountId req)) :
    sentType payload = some (typeByte req.type) := by
  unfold engineCall at h
  split at h
  next => cases h
  next msgType rest =>
    split at h
    next =>
      obtain ⟨treq, -, heq⟩ := Option.map_eq_some_iff.mp h
      cases heq
    next =>
      split at h
      next =>
        obtain ⟨creq, hcreq, heq⟩ := Option.map_eq_some_iff.mp h
        cases heq
        unfold deserializeCreateAccount at hcreq
        obtain ⟨id, -, hcreq⟩ := Option.bind_eq_some_iff.mp hcreq
        obtain ⟨name, hname, hcreq⟩ := Option.bind_eq_some_iff.mp hcreq
        obtain ⟨type, htype, rfl⟩ := Option.map_eq_some_iff.mp hcreq
        unfold sentType
        rw [hname, Option.bind_some, htype, typeByte_accountTypeOf]
      next => cases h

/-- A message asks for one of the two calls that need a message. -/
theorem asksForMessage_of_engineCall {payload : Bytes} {a : Ledger.Action}
    (h : engineCall payload = some a) : asksForMessage a = true := by
  unfold engineCall at h
  split at h
  · cases h
  · split at h
    · obtain ⟨req, -, rfl⟩ := Option.map_eq_some_iff.mp h
      rfl
    · split at h
      · obtain ⟨req, -, rfl⟩ := Option.map_eq_some_iff.mp h
        rfl
      · cases h

/-- The bytes of the five names. -/
theorem typeByte_le_iff (type : AccountType) : typeByte type ≤ 4 ↔ type.named = true := by
  cases type with
  | asset | liability | equity | revenue | expense => decide
  | unnamed raw h =>
      show raw ≤ 4 ↔ false = true
      simp [h]

/-- **Each step is a step of the engine, or none to it.** -/
theorem receive_engine {s s' : LedgerEngine} {i : Input} {es : List Ledger.Event}
    (h : receive s i = some (s', es)) :
    (s' = s ∧ es = []) ∨ ∃ a, Ledger.step s a = some (s', es) ∧
      (i = .inner a ∧ asksForMessage a = false ∨
        ∃ payload, i = .message payload ∧ engineCall payload = some a) := by
  cases i with
  | message payload =>
      obtain ⟨a, ha, heq⟩ := Option.map_eq_some_iff.mp h
      cases hstep : Ledger.step s a with
      | none =>
          rw [hstep] at heq
          cases heq
          exact .inl ⟨rfl, rfl⟩
      | some r =>
          rw [hstep] at heq
          cases heq
          exact .inr ⟨a, hstep, .inr ⟨payload, rfl, ha⟩⟩
  | inner a =>
      change (if asksForMessage a = true then none else _) = some (s', es) at h
      split at h
      · cases h
      next hinner =>
        exact .inr ⟨a, h, .inl ⟨rfl, by simpa using hinner⟩⟩

/-! ## §2. Columns. -/

/-- The totals that a report has. -/
inductive Column where
  | assets
  | liabilities
  | equity
  deriving DecidableEq

/-- The types that belong to a column. -/
def Column.types : Column → List AccountType
  | .assets => assetTypes
  | .liabilities => liabilityTypes
  | .equity => equityTypes

/-- The totals of `get_balance_snapshot`. -/
def reported (accounts : Accounts) : Column → Int
  | .assets => (getBalanceSnapshot accounts).totalAssets
  | .liabilities => (getBalanceSnapshot accounts).totalLiabilities
  | .equity => (getBalanceSnapshot accounts).totalEquity

/-- The sums of `check_invariant`. -/
def summed (accounts : Accounts) : Column → Int
  | .assets => (totals accounts).assets
  | .liabilities => (totals accounts).liabilities
  | .equity => (totals accounts).equity

/-- The balance of the account contributes to this column and to no other:
whatever is added to the balance is added there. -/
def CountsIn (report : Accounts → Column → Int) (accounts : Accounts) (id : Bytes) (c : Column) :
    Prop :=
  ∀ delta c', report (addToBalance accounts id delta) c' =
    report accounts c' + if c' = c then delta else 0

/-- **Every account is counted once**, in the snapshot and in the check. -/
structure CountedOnce (accounts : Accounts) : Prop where
  snapshot : ∀ id ∈ accounts, ∃! c, CountsIn reported accounts id c
  check : ∀ id ∈ accounts, ∃! c, CountsIn summed accounts id c
  snapshotSum : reported accounts .assets + reported accounts .liabilities +
    reported accounts .equity = ((getBalanceSnapshot accounts).accounts.map AccountInfo.balance).sum
  checkSum : summed accounts .assets + summed accounts .liabilities + summed accounts .equity =
    ((getBalanceSnapshot accounts).accounts.map AccountInfo.balance).sum

/-- Both reports have in each column the sum over its types. -/
theorem reported_eq (accounts : Accounts) (c : Column) :
    reported accounts c = sumOfTypes c.types (stored accounts) := by
  unfold reported
  rw [getBalanceSnapshot_eq]
  cases c <;> rfl

theorem summed_eq (accounts : Accounts) (c : Column) :
    summed accounts c = sumOfTypes c.types (stored accounts) := by
  unfold summed totals stored
  rw [← List.foldl_map, foldl_add]
  cases c <;> simp [Column.types]

/-- What an account counts among some types. -/
def counted (types : List AccountType) (_ : Bytes) (info : AccountInfo) : Int :=
  if info.type ∈ types then info.balance else 0

theorem sumOfTypes_stored (types : List AccountType) (accounts : Accounts) :
    sumOfTypes types (stored accounts) = total (counted types) accounts := by
  unfold stored total
  induction accounts.entries with
  | nil => rfl
  | cons e es ih =>
      rw [List.map_cons, List.map_cons, List.sum_cons, sumOfTypes_cons, ih]
      rfl

/-- **What is added to a balance is added to the sums over its type.** -/
theorem sumOfTypes_addToBalance (types : List AccountType) (accounts : Accounts) (id : Bytes)
    (delta : Int) :
    sumOfTypes types (stored (addToBalance accounts id delta)) =
      sumOfTypes types (stored accounts) +
        if (slot accounts id).type ∈ types then delta else 0 := by
  have hshare : share (counted types) id (accounts.lookup id) =
      counted types id (slot accounts id) := by
    unfold slot
    cases accounts.lookup id with
    | none => exact (ite_self 0).symm
    | some info => rfl
  rw [sumOfTypes_stored, sumOfTypes_stored, addToBalance, total_insert, hshare]
  unfold counted
  split <;> ring

section CountsIn

variable {report : Accounts → Column → Int} {accounts : Accounts} {id : Bytes} {c : Column}

/-- An account counts in the column that has its type. -/
theorem countsIn_iff
    (hreport : ∀ accounts c, report accounts c = sumOfTypes c.types (stored accounts)) :
    CountsIn report accounts id c ↔ ∀ c', (slot accounts id).type ∈ c'.types ↔ c' = c := by
  unfold CountsIn
  constructor
  · intro h c'
    have hone := h 1 c'
    rw [hreport, hreport, sumOfTypes_addToBalance] at hone
    constructor
    · intro hin
      rw [if_pos hin] at hone
      by_contra hne
      rw [if_neg hne] at hone
      omega
    · intro heq
      rw [if_pos heq] at hone
      by_contra hout
      rw [if_neg hout] at hone
      omega
  · intro h delta c'
    rw [hreport, hreport, sumOfTypes_addToBalance, if_congr (h c') rfl rfl]

/-- A type with a name is in one column, a type without one in none. -/
theorem existsUnique_column (type : AccountType) :
    (∃ c : Column, ∀ c' : Column, type ∈ c'.types ↔ c' = c) ↔ type.named = true := by
  constructor
  · intro h
    obtain ⟨c, hc⟩ := h
    have hin := (hc c).mpr rfl
    cases type with
    | asset | liability | equity | revenue | expense => rfl
    | unnamed raw hraw => cases c <;> simp [Column.types, assetTypes, liabilityTypes, equityTypes]
        at hin
  · intro hnamed
    have hcolumn : ∀ c₀ : Column, (∀ c' : Column, type ∈ c'.types ↔ c' = c₀) →
        ∃ c : Column, ∀ c' : Column, type ∈ c'.types ↔ c' = c := fun c₀ h => ⟨c₀, h⟩
    cases type with
    | asset | expense =>
        refine hcolumn .assets ?_
        intro c'
        cases c' <;> decide
    | liability =>
        refine hcolumn .liabilities ?_
        intro c'
        cases c' <;> decide
    | equity | revenue =>
        refine hcolumn .equity ?_
        intro c'
        cases c' <;> decide
    | unnamed raw hraw => cases hnamed

/-- **An account is counted once exactly if its type has a name.** -/
theorem countsOnce_iff
    (hreport : ∀ accounts c, report accounts c = sumOfTypes c.types (stored accounts)) :
    (∃! c, CountsIn report accounts id c) ↔ (slot accounts id).type.named = true := by
  rw [← existsUnique_column]
  constructor
  · intro h
    obtain ⟨c, hc, -⟩ := h
    exact ⟨c, (countsIn_iff hreport).mp hc⟩
  · intro h
    obtain ⟨c, hc⟩ := h
    refine ⟨c, (countsIn_iff hreport).mpr hc, ?_⟩
    intro c' hc'
    exact (hc c').mp (((countsIn_iff hreport).mp hc' c').mpr rfl)

end CountsIn

/-- Every account that is stored has a type with a name. -/
def AllNamed (accounts : Accounts) : Prop :=
  ∀ id info, accounts.lookup id = some info → info.type.named = true

/-- **Every account is counted once exactly if every type has a name.** -/
theorem countedOnce_iff (accounts : Accounts) : CountedOnce accounts ↔ AllNamed accounts := by
  constructor
  · intro h id info hlookup
    have hmem : id ∈ accounts := AList.lookup_isSome.mp (by rw [hlookup]; rfl)
    have hone := (countsOnce_iff reported_eq).mp (h.snapshot id hmem)
    rwa [slot, hlookup] at hone
  · intro h
    have hslot : ∀ id ∈ accounts, (slot accounts id).type.named = true := by
      intro id hmem
      obtain ⟨info, hinfo⟩ := Option.isSome_iff_exists.mp (AList.lookup_isSome.mpr hmem)
      rw [slot, hinfo]
      exact h id info hinfo
    have hparts : sumOfTypes assetTypes (stored accounts) +
        sumOfTypes liabilityTypes (stored accounts) + sumOfTypes equityTypes (stored accounts) =
          ((stored accounts).map AccountInfo.balance).sum := by
      refine sumOfTypes_partition ?_
      intro info hinfo
      obtain ⟨id, hlookup⟩ := mem_stored hinfo
      exact h id info hlookup
    have hlisted : (getBalanceSnapshot accounts).accounts = stored accounts := by
      rw [getBalanceSnapshot_eq]
      rfl
    refine ⟨?_, ?_, ?_, ?_⟩
    · exact fun id hmem => (countsOnce_iff reported_eq).mpr (hslot id hmem)
    · exact fun id hmem => (countsOnce_iff summed_eq).mpr (hslot id hmem)
    · rw [reported_eq, reported_eq, reported_eq, hlisted]
      exact hparts
    · rw [summed_eq, summed_eq, summed_eq, hlisted]
      exact hparts

/-! ## §3. Every run. -/

/-- A transfer gives no account another type, and a new one that of the first. -/
theorem AllNamed.addToBalance {accounts : Accounts} (h : AllNamed accounts) (id : Bytes)
    (delta : Int) : AllNamed (addToBalance accounts id delta) := by
  intro id' info' hlookup
  rcases lookup_insert_iff.mp hlookup with ⟨rfl, rfl⟩ | ⟨-, hold⟩
  · show (slot accounts id').type.named = true
    unfold slot
    cases hfound : accounts.lookup id' with
    | none => rfl
    | some info => exact h id' info hfound
  · exact h id' info' hold

/-- The account that a call of `create_account` is about to store has a type
byte of four at most. -/
def StoresNamed (s : LedgerEngine) (i : Input) : Prop :=
  ∀ n req id, i = .inner (.commitAccount n) → s.creating[n]? = some (req, id) →
    nameTaken s.accounts req.name = false → typeByte req.type ≤ 4

section Steps

variable {s s' : LedgerEngine} {i : Input} {es : List Ledger.Event}

/-- **One step**: the accounts keep having types with names. -/
theorem AllNamed.step (h : AllNamed s.accounts) (hstores : StoresNamed s i)
    (hstep : receive s i = some (s', es)) : AllNamed s'.accounts := by
  rcases receive_engine hstep with ⟨rfl, -⟩ | ⟨a, ha, horigin⟩
  · exact h
  · cases Ledger.step_effect ha with
    | aside hside =>
        rw [hside.sameData.accounts]
        exact h
    | pop | hit | miss | replyCached | accept | reject | drawTxId | append | appendThrows | build
    | cache | noCache | reply | drawAccountId => exact h
    | apply => exact (h.addToBalance _ _).addToBalance _ _
    | @commitAccount n req id hn =>
        have hinner : i = .inner (.commitAccount n) := by
          rcases horigin with ⟨rfl, -⟩ | ⟨payload, -, hcall⟩
          · rfl
          · -- no message commits an account
            cases asksForMessage_of_engineCall hcall
        show AllNamed (commitAccount s.accounts req id).2
        unfold commitAccount
        split
        · exact h
        next hfree =>
          intro id' info hlookup
          rcases lookup_insert_iff.mp hlookup with ⟨rfl, rfl⟩ | ⟨-, hold⟩
          · exact (typeByte_le_iff _).mp (hstores n req id' hinner hn (by simpa using hfree))
          · exact h id' info hold

/-- A call of `create_account` that is under way was so before, or has just begun. -/
theorem creating_of_step {a : Ledger.Action} (he : Ledger.Effect s a s' es)
    {c : CreateAccountRequest × Bytes} (hc : c ∈ s'.creating) :
    c ∈ s.creating ∨ a = .drawAccountId c.1 := by
  cases he with
  | aside hside =>
      rw [hside.sameData.creating] at hc
      exact .inl hc
  | pop | hit | miss | replyCached | accept | reject | drawTxId | append | appendThrows | apply
  | build | cache | noCache | reply => exact .inl hc
  | drawAccountId =>
      rcases List.mem_append.mp hc with hold | hlast
      · exact .inl hold
      · rw [List.mem_singleton.mp hlast]
        exact .inr rfl
  | commitAccount => exact .inl (List.mem_of_mem_eraseIdx hc)

/-- An account that is stored under a type without a name shows. -/
theorem storesNamed_of_allNamed (h : AllNamed s'.accounts)
    (hstep : receive s i = some (s', es)) : StoresNamed s i := by
  rintro n req id rfl hn hfree
  change Option.map _ (s.creating[n]?) = some (s', es) at hstep
  rw [hn] at hstep
  cases hstep
  refine (typeByte_le_iff _).mpr (h id ⟨id, req.name, req.type, 0⟩ ?_)
  show (commitAccount s.accounts req id).2.lookup id = _
  unfold commitAccount
  rw [hfree]
  exact AList.lookup_insert s.accounts

end Steps

/-- If every type that is stored has a name, every account has one. -/
theorem run_allNamed {w : Wal.WriteAheadLog} {inputs : List Input}
    (h : ∀ u i u', Takes (traced receive) ⟨.init w, []⟩ inputs u i u' → StoresNamed u.state i)
    {u : Traced LedgerEngine Ledger.Event}
    (hvisit : Visits (traced receive) ⟨.init w, []⟩ inputs u) : AllNamed u.state.accounts := by
  refine traced_of_takes (fun s _ => AllNamed s.accounts) ?_ ?_ hvisit
  · intro id info hlookup
    cases hlookup
  · intro t i t' es htakes hes hnamed
    exact hnamed.step (h t i t' htakes) hes

/-- **EVERY ACCOUNT IS COUNTED ONCE EXACTLY IF EVERY TYPE THAT IS STORED HAS A
NAME.**  Over every sequence of messages, whatever the engine does between them. -/
theorem counted_once_iff (w : Wal.WriteAheadLog) (inputs : List Input) :
    (∀ u, Visits (traced receive) ⟨.init w, []⟩ inputs u → CountedOnce u.state.accounts) ↔
      ∀ u i u', Takes (traced receive) ⟨.init w, []⟩ inputs u i u' → StoresNamed u.state i := by
  constructor
  · intro h u i u' htakes
    obtain ⟨es, hes, -⟩ := htakes.shows
    exact storesNamed_of_allNamed ((countedOnce_iff _).mp (h u' htakes.target)) hes
  · intro h u hvisit
    exact (countedOnce_iff _).mpr (run_allNamed h hvisit)

/-- A message to create an account of that name with that type byte. -/
def createAccountMessage (name : String) (type : UInt8) : Bytes :=
  MSG_CREATE_ACCOUNT :: Uuid.zero.bytes ++ appendString (ascii name) ++ [type]

/-- A message to move `amount` between the first two accounts. -/
def transferMessage (amount : UInt64) : Bytes :=
  MSG_TX_REQUEST :: Uuid.zero.bytes ++ le64 amount ++ appendString (accountId 0) ++
    appendString (accountId 1) ++ appendString [] ++ appendString [] ++ appendString [] ++
    appendString []

/-- An account with type byte five pays 500 to an asset account. -/
def unnamedPays : List Input :=
  [.message (createAccountMessage "Misc" 5), .inner (.commitAccount 0),
    .message (createAccountMessage "Cash" 0), .inner (.commitAccount 0),
    .message (transferMessage 500)] ++ List.replicate 12 (.inner (.engine 1000 Wal.OsReply.ok))

/-- The balances add up to zero, the totals to 500. -/
theorem unnamedPays_miscounts :
    ∃ u, Visits (traced receive) ⟨.init newLog, []⟩ unnamedPays u ∧
      ((getBalanceSnapshot u.state.accounts).accounts.map AccountInfo.balance).sum = 0 ∧
      reported u.state.accounts .assets + reported u.state.accounts .liabilities +
        reported u.state.accounts .equity = 500 ∧
      ¬ CountedOnce u.state.accounts := by
  have hrun : (run (traced receive) ⟨.init newLog, []⟩ unnamedPays).map
      (fun u => (((getBalanceSnapshot u.state.accounts).accounts.map AccountInfo.balance).sum,
        reported u.state.accounts .assets + reported u.state.accounts .liabilities +
          reported u.state.accounts .equity)) = some (0, 500) := by
    decide +kernel
  obtain ⟨u, hu, heq⟩ := Option.map_eq_some_iff.mp hrun
  simp only [Prod.mk.injEq] at heq
  obtain ⟨hlisted, hreported⟩ := heq
  refine ⟨u, visits_end hu, hlisted, hreported, ?_⟩
  intro hcounted
  have hsum := hcounted.snapshotSum
  rw [hlisted, hreported] at hsum
  exact absurd hsum (by decide)

/-- **It is so if no message carries a type byte above four.** -/
theorem counted_once_of_types {w : Wal.WriteAheadLog} {inputs : List Input}
    (htypes : ∀ payload req, .message payload ∈ inputs →
      engineCall payload = some (.drawAccountId req) → ∀ b, sentType payload = some b → b ≤ 4) :
    ∀ u, Visits (traced receive) ⟨.init w, []⟩ inputs u → CountedOnce u.state.accounts := by
  intro u hvisit
  refine (countedOnce_iff _).mpr (run_allNamed ?_ hvisit)
  intro u i u' htakes n req id _ hn _
  -- every call that is under way was started by a message
  have hpending : ∀ c ∈ u.state.creating, typeByte c.1.type ≤ 4 := by
    refine visits_of_takes (fun t : Traced LedgerEngine Ledger.Event =>
      ∀ c ∈ t.state.creating, typeByte c.1.type ≤ 4) (fun c hc => by cases hc) ?_ htakes.source
    intro t j t' htakes' hbefore
    obtain ⟨before, after, hinputs, -, hstep⟩ := htakes'
    obtain ⟨es, hes, -⟩ := traced_eq_some.mp hstep
    rcases receive_engine hes with ⟨hsame, -⟩ | ⟨a, ha, horigin⟩
    · rw [hsame]
      exact hbefore
    · intro c hc
      rcases creating_of_step (Ledger.step_effect ha) hc with hold | rfl
      · exact hbefore c hold
      · rcases horigin with ⟨-, hinner⟩ | ⟨payload, rfl, hcall⟩
        · cases hinner
        · have hmem : .message payload ∈ inputs := by
            rw [hinputs]
            exact List.mem_append_right before List.mem_cons_self
          exact htypes payload c.1 hmem hcall _ (typeByte_of_sent hcall)
  exact hpending _ (List.mem_of_getElem? hn)

end ZeroLGR.Server
