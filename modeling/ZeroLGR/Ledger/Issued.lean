/-
  ZeroLGR.Ledger.Issued — identifiers that `create_account` can make.

  Every identifier in the map is the text `acc_` and the digits of a counter
  value, whatever names and types the accounts were created with.  A request
  that names another one is not validated OK, so it reaches neither the log nor
  the balances, and no wrap of the counter changes that.

    • `Issued`, `NamesOther` — identifiers of that form, and requests that name
      others,
    • `OnlyIssued`, `OnlyIssued.step` — the invariant,
    • `Excluded`, `run_excluded` — what becomes of a request that names others.
-/
import ZeroLGR.Ledger.Overdraft
import ZeroLGR.Ledger.Traffic

namespace ZeroLGR.Ledger

open Transition

/-! ## §1. Identifiers. -/

/-- `"acc_"` and the decimal digits of a counter value. -/
def Issued (id : Bytes) : Prop := ∃ k, id = accountId k

/-- One of the two accounts is named by another identifier. -/
def NamesOther (req : TransactionRequest) : Prop :=
  ¬ Issued req.debitAccountId ∨ ¬ Issued req.creditAccountId

/-- The bytes of the digits. -/
theorem digit_of_mem_toDecimal {n : Nat} {b : UInt8} (h : b ∈ toDecimal n) :
    48 ≤ b.toNat ∧ b.toNat ≤ 57 := by
  obtain ⟨c, hc, rfl⟩ := List.mem_map.mp h
  have hdigit : c.isDigit = true := Nat.isDigit_of_mem_toDigits (by decide) (by decide) hc
  have hrange := Char.isDigit_iff_toNat.mp hdigit
  simp only [show '0'.toNat = 48 from rfl, show '9'.toNat = 57 from rfl] at hrange
  have hlt : c.toNat < 256 := by omega
  rw [UInt8.toNat_ofNat_of_lt' hlt]
  exact hrange

/-- A text with a byte that is no digit behind `acc_` is no identifier. -/
theorem not_issued {rest : Bytes} {b : UInt8} (hb : b ∈ rest)
    (hother : b.toNat < 48 ∨ 57 < b.toNat) : ¬ Issued (ascii "acc_" ++ rest) := by
  intro h
  obtain ⟨k, hk⟩ := h
  unfold accountId at hk
  rw [List.append_cancel_left hk] at hb
  have hdigit := digit_of_mem_toDecimal hb
  omega

/-! ## §2. The invariant. -/

/-- Stored and pending identifiers are issued ones, and so are those of the
requests that were accepted. -/
structure OnlyIssued (s : LedgerEngine) (tr : List Event) : Prop where
  stored : ∀ id ∈ s.accounts, Issued id
  pending : ∀ c ∈ s.creating, Issued c.2
  accepted : ∀ req ∈ accepted tr, ¬ NamesOther req

section Steps

variable {s s' : LedgerEngine} {a : Action} {tr es : List Event}

/-- A request between stored accounts names no others. -/
theorem OnlyIssued.known (h : OnlyIssued s tr) {req : TransactionRequest}
    (hknown : Known s.accounts req) : ¬ NamesOther req := by
  rintro (hdebit | hcredit)
  · exact hdebit (h.stored _ hknown.1)
  · exact hcredit (h.stored _ hknown.2)

/-- A step that stores and accepts nothing. -/
theorem OnlyIssued.move (h : OnlyIssued s tr) (haccounts : s'.accounts = s.accounts)
    (hcreating : s'.creating = s.creating) (haccepted : Ledger.accepted es = []) :
    OnlyIssued s' (tr ++ es) := by
  constructor
  · rw [haccounts]
    exact h.stored
  · rw [hcreating]
    exact h.pending
  · rw [accepted_append, haccepted, List.append_nil]
    exact h.accepted

/-- **One step**, if the accounts of the request in hand exist. -/
theorem OnlyIssued.step (h : OnlyIssued s tr)
    (hknown : ∀ req ∈ s.pc.unlogged ++ s.pc.unapplied, Known s.accounts req)
    (he : Effect s a s' es) : OnlyIssued s' (tr ++ es) := by
  cases he with
  | aside hside =>
      obtain ⟨-, -, -, haccepted, -⟩ := hside.silent.lists
      exact h.move hside.sameData.accounts hside.sameData.creating haccepted
  | pop | hit | miss | replyCached | drawTxId | append | appendThrows | build | cache | noCache
  | reply => exact h.move rfl rfl rfl
  | @reject now os req status hpc _ hbad =>
      refine h.move rfl rfl ?_
      cases status with
      | ok => exact absurd rfl hbad
      | errInsufficientFunds | errAccountNotFound | errInvariantViolated | errInternal => rfl
  | @accept now os req hpc hok =>
      obtain ⟨-, hdebit, hcredit⟩ := validateTransaction_ok hok
      refine ⟨h.stored, h.pending, ?_⟩
      intro req' hreq'
      rw [accepted_append] at hreq'
      rcases List.mem_append.mp hreq' with hold | hlast
      · exact h.accepted req' hold
      · rw [List.mem_singleton.mp hlast]
        exact h.known ⟨hdebit, hcredit⟩
  | @apply now os req tStart txId hpc =>
      have hreq := hknown req (by rw [hpc]; exact List.mem_singleton_self req)
      refine ⟨?_, h.pending, ?_⟩
      · -- both accounts are there, so `operator[]` makes no new one
        intro id hid
        exact h.stored id ((mem_apply hreq.1 hreq.2 id).mp hid)
      · have hnone : Ledger.accepted [.applied req txId] = [] := rfl
        rw [accepted_append, hnone, List.append_nil]
        exact h.accepted
  | @drawAccountId req =>
      refine ⟨h.stored, ?_, by rw [List.append_nil]; exact h.accepted⟩
      intro c hc
      rcases List.mem_append.mp hc with hold | hlast
      · exact h.pending c hold
      · rw [List.mem_singleton.mp hlast]
        exact ⟨s.uuidCounter, rfl⟩
  | @commitAccount i req id hi =>
      refine ⟨?_, fun c hc => h.pending c (List.mem_of_mem_eraseIdx hc), ?_⟩
      · intro id' hid'
        change id' ∈ (Ledger.commitAccount s.accounts req id).2 at hid'
        unfold Ledger.commitAccount at hid'
        split at hid'
        · exact h.stored id' hid'
        · rcases (AList.mem_insert s.accounts).mp hid' with rfl | hold
          · exact h.pending _ (List.mem_of_getElem? hi)
          · exact h.stored id' hold
      · have hnone : Ledger.accepted
            [.accountCreated (Ledger.commitAccount s.accounts req id).1] = [] := rfl
        rw [accepted_append, hnone, List.append_nil]
        exact h.accepted

/-- The engine changes neither accounts nor log while it has a request in hand
that was not accepted. -/
theorem untouched_of_inHand {now : Int64} {os : Wal.OsReply} {req : TransactionRequest}
    (he : Effect s (.engine now os) s' es) (hreq : req ∈ s.pc.inHand)
    (hlogged : req ∉ s.pc.unlogged) (happlied : req ∉ s.pc.unapplied) :
    s'.accounts = s.accounts ∧ s'.wal = s.wal := by
  cases he with
  | aside hside => exact ⟨hside.sameData.accounts, hside.sameData.wal⟩
  | pop | hit | miss | replyCached | accept | reject | drawTxId | build | cache | noCache
  | reply => exact ⟨rfl, rfl⟩
  | append hpc | appendThrows hpc =>
      rw [hpc] at hreq hlogged
      exact absurd hreq hlogged
  | apply hpc =>
      rw [hpc] at hreq happlied
      exact absurd hreq happlied

end Steps

/-! ## §3. Every run. -/

/-- **What names another identifier is left out.** -/
structure Excluded (s : LedgerEngine) (tr : List Event) : Prop where
  /-- Every account has an identifier of the form that is issued. -/
  ids : ∀ id ∈ s.accounts, Issued id
  /-- A request that names others and is not found in the cache gets a status
  other than OK. -/
  answers : ∀ b ∈ answered tr, NamesOther b.1 → b.2 ≠ .ok
  /-- It gets no frame and moves no balance. -/
  logged : ∀ l ∈ logged tr, ¬ NamesOther l.req
  applied : ∀ req ∈ applied tr, ¬ NamesOther req
  /-- As long as it is in hand, accounts and log stay as they are. -/
  untouched : ∀ req ∈ s.pc.inHand, NamesOther req → ∀ now os s' es,
    step s (.engine now os) = some (s', es) → s'.accounts = s.accounts ∧ s'.wal = s.wal

/-- **In every reachable state.** -/
theorem run_excluded {w : Wal.WriteAheadLog} {acts : List Action} {t : Traced LedgerEngine Event}
    (h : runEngine (.init w) acts = some t) : Excluded t.state t.trace := by
  have hboth : (∀ req ∈ t.state.pc.unlogged ++ t.state.pc.unapplied, Known t.state.accounts req) ∧
      OnlyIssued t.state t.trace := by
    refine traced_invariant (fun s tr =>
      (∀ req ∈ s.pc.unlogged ++ s.pc.unapplied, Known s.accounts req) ∧ OnlyIssued s tr)
      ?_ ⟨?_, ?_⟩ h
    · intro s tr a s' es hs hstep
      obtain ⟨hknown, hissued⟩ := hs
      exact ⟨known_step hknown (step_effect hstep), hissued.step hknown (step_effect hstep)⟩
    · intro req hreq
      cases hreq
    · refine ⟨?_, ?_, ?_⟩
      · intro id hid
        exact absurd hid (AList.notMem_empty id)
      · intro c hc
        cases hc
      · intro req hreq
        cases hreq
  obtain ⟨hknown, hissued⟩ := hboth
  have hbooks := run_bookkeeping h
  have hlogged : ∀ l ∈ Ledger.logged t.trace, ¬ NamesOther l.req := by
    intro l hl
    refine hissued.accepted l.req ?_
    rw [hbooks.accepted_eq]
    exact List.mem_append_left _ (List.mem_map_of_mem hl)
  refine ⟨hissued.stored, ?_, hlogged, ?_, ?_⟩
  · rintro ⟨req, status⟩ hb hother rfl
    -- what is answered with OK was validated with it, and so accepted
    have hvalidated : (req, TxStatus.ok) ∈ validated t.trace := by
      rw [hbooks.answered_eq]
      exact List.mem_append_left _ hb
    obtain ⟨e, he, heq⟩ := List.mem_filterMap.mp hvalidated
    refine hissued.accepted req (List.mem_filterMap.mpr ⟨e, he, ?_⟩) hother
    cases e with
    | validated req' status' =>
        cases heq
        rfl
    | popped | cacheHit | appended | applied | responded | cached | replied | submitted | taken
    | accountCreated | snapshot | sampled => cases heq
  · intro req hreq
    have hin : req ∈ (Ledger.logged t.trace).map LogEntry.req := by
      rw [hbooks.logged_eq]
      exact List.mem_append_left _ hreq
    obtain ⟨l, hl, rfl⟩ := List.mem_map.mp hin
    exact hlogged l hl
  · intro req hreq hother now os s' es hstep
    refine untouched_of_inHand (step_effect hstep) hreq ?_ ?_
    · exact fun hmem => hissued.known (hknown req (List.mem_append_left _ hmem)) hother
    · exact fun hmem => hissued.known (hknown req (List.mem_append_right _ hmem)) hother

end ZeroLGR.Ledger
