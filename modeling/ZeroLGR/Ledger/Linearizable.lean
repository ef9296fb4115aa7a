/-
  ZeroLGR.Ledger.Linearizable — every run of the engine is a run of the bank.

  A request takes the engine many steps, in which accounts are created and
  snapshots are taken.  It counts at one of these steps: when it is found in the
  cache, when it is refused, or when it is applied.  The calls in the order of
  these steps are calls at the bank, one after the other, with the same answers.

    • `Event.asCall`, `history` — the calls, in the order in which they count,
    • `Pc.uncounted`, `Pc.unreturned` — the request in hand, before and after,
    • `Counted`, `run_counted` — each request popped counts once, before it is
      answered,
    • `Agrees`, `Agrees.step` — the simulation,
    • `engine_linearizable` — the statement for runs with single accesses under
      the lock,
    • `rejected_never_applied` — a key that was refused never moves money.
-/
import ZeroLGR.Ledger.Bank
import ZeroLGR.Ledger.Conservation
import ZeroLGR.Ledger.Idempotency

namespace ZeroLGR.Ledger

open Transition CriticalSection

/-! ## §1. The history. -/

/-- The answer in a response. -/
def TransactionResponse.verdict (resp : TransactionResponse) : Verdict :=
  ⟨resp.transactionId, resp.status⟩

/-- The call that counts at this step. -/
def Event.asCall : Event → Option Call
  | .cacheHit req resp => some (.answer req resp.verdict)
  | .validated req status => if status = .ok then none else some (.answer req ⟨Uuid.zero, status⟩)
  | .applied req txId => some (.answer req ⟨txId, .ok⟩)
  | .accountCreated resp => some (.other (.created resp))
  | .snapshot data => some (.other (.snapshot data))
  | .sampled sample => some (.other (.audited sample.invariantOk))
  | _ => none

/-- The calls of a run, in the order in which they count. -/
def history (tr : List Event) : List Call := tr.filterMap Event.asCall

@[simp] theorem history_append (tr es : List Event) :
    history (tr ++ es) = history tr ++ history es := List.filterMap_append

/-- A call that answers a request. -/
def asAnswer : Call → Option (TransactionRequest × Verdict)
  | .answer req v => some (req, v)
  | .other _ => none

/-- The requests that have counted, with their answers. -/
def counted (tr : List Event) : List (TransactionRequest × Verdict) :=
  (history tr).filterMap asAnswer

@[simp] theorem counted_append (tr es : List Event) :
    counted (tr ++ es) = counted tr ++ counted es := by
  unfold counted
  rw [history_append, List.filterMap_append]

theorem mem_counted {tr : List Event} {req : TransactionRequest} {v : Verdict} :
    (req, v) ∈ counted tr ↔ .answer req v ∈ history tr := by
  unfold counted
  rw [List.mem_filterMap]
  constructor
  · rintro ⟨c, hc, heq⟩
    cases c with
    | answer r w =>
        cases heq
        exact hc
    | other o => cases heq
  · intro h
    exact ⟨_, h, rfl⟩

/-! ## §2. Each request counts once. -/

/-- Popped, and not counted. -/
def Pc.uncounted : Pc → List TransactionRequest
  | .findCached req => [req]
  | .validate req => [req]
  | .generateUuid req _ => [req]
  | .appendWal req _ _ => [req]
  | .applyTransaction req _ _ => [req]
  | .terminated req => [req]
  | _ => []

/-- Counted, and without a response. -/
def Pc.unreturned : Pc → List (TransactionRequest × Verdict)
  | .buildResponse req _ txId status => [(req, ⟨txId, status⟩)]
  | _ => []

/-- Both at once. -/
def Pc.around (pc : Pc) : List TransactionRequest × List (TransactionRequest × Verdict) :=
  (pc.uncounted, pc.unreturned)

theorem Pc.around_idle {pc : Pc} (h : pc.idle = true) : pc.around = ([], []) := by
  cases pc <;> first | rfl | cases h

/-- **Each request counts once, while the engine has it in hand**: the requests
popped are those that have counted and the one that has not, and the responses
built are those of the requests that have counted, up to the last one. -/
structure Counted (pc : Pc) (tr : List Event) : Prop where
  invoked : popped tr = (counted tr).map Prod.fst ++ pc.uncounted
  returned : counted tr = (responses tr).map (fun r => (r.1, r.2.verdict)) ++ pc.unreturned

section Steps

variable {s s' : LedgerEngine} {a : Action} {tr es : List Event}

/-- Silent events answer no request. -/
theorem Silent.counted (h : Silent es) : counted es = [] := by
  unfold Ledger.counted history
  rw [List.filterMap_filterMap]
  apply h.filterMap
  intro e he
  cases e <;> first | rfl | cases he

/-- **One step.** -/
theorem Counted.step (h : Counted s.pc tr) (he : Effect s a s' es) :
    Counted s'.pc (tr ++ es) := by
  have hsilent : Silent es → s'.pc.around = s.pc.around → Counted s'.pc (tr ++ es) := by
    intro hes haround
    obtain ⟨hpopped, -, -, -, -, -, -, hresponses⟩ := hes.lists
    simp only [Pc.around, Prod.mk.injEq] at haround
    obtain ⟨huncounted, hunreturned⟩ := haround
    constructor
    · rw [popped_append, counted_append, hpopped, hes.counted, huncounted, List.append_nil,
        List.append_nil]
      exact h.invoked
    · rw [counted_append, responses_append, hes.counted, hresponses, hunreturned, List.append_nil,
        List.append_nil]
      exact h.returned
  cases he with
  | aside hside => exact hsilent hside.silent (hside.view (fun _ => Pc.around_idle))
  | drawAccountId => exact hsilent (by simp [Silent]) rfl
  | commitAccount _ => exact hsilent (by simp [Silent, Event.silent]) rfl
  | pop hpc _ | hit hpc _ | miss hpc _ | replyCached hpc | accept hpc _ | drawTxId hpc
  | append hpc _ | appendThrows hpc | apply hpc | cache hpc _ | noCache hpc _ | reply hpc =>
      -- the two equations, at this place and at the next
      rw [hpc] at h
      obtain ⟨hinvoked, hreturned⟩ := h
      simp only [Pc.uncounted, Pc.unreturned] at hinvoked hreturned
      constructor
      · simp [hinvoked]
        rfl
      · simp [hreturned]
        rfl
  | @reject now os req status hpc _ hbad =>
      rw [hpc] at h
      obtain ⟨hinvoked, hreturned⟩ := h
      simp only [Pc.uncounted, Pc.unreturned] at hinvoked hreturned
      -- a refusal counts at the validation
      have hcounted : counted [.validated req status] = [(req, ⟨Uuid.zero, status⟩)] := by
        simp [Ledger.counted, history, Event.asCall, hbad, asAnswer]
      constructor
      · simp [hinvoked, hcounted]
        rfl
      · simp [hreturned, hcounted]
        rfl
  | build hpc _ htx hstatus _ =>
      rw [hpc, ← htx, ← hstatus] at h
      obtain ⟨hinvoked, hreturned⟩ := h
      simp only [Pc.uncounted, Pc.unreturned] at hinvoked hreturned
      constructor
      · simp [hinvoked]
        rfl
      · simp [hreturned]
        rfl

end Steps

/-- **The books of the history are right at every point of every run.** -/
theorem run_counted {wal : Wal.WriteAheadLog} {acts : List Action} {t : Traced LedgerEngine Event}
    (h : runEngine (.init wal) acts = some t) : Counted t.state.pc t.trace := by
  refine traced_invariant (fun s tr => Counted s.pc tr) ?_ ⟨rfl, rfl⟩ h
  intro s tr a s' es hs hstep
  exact hs.step (step_effect hstep)

/-! ## §3. The simulation. -/

/-- The answer under the key that has counted and is not in the cache. -/
def Pc.deciding (key : Bytes) : Pc → Option Verdict
  | .buildResponse req _ txId status =>
      if req.idempotencyKey = key then some ⟨txId, status⟩ else none
  | .cacheResponse req resp => if req.idempotencyKey = key then some resp.verdict else none
  | _ => none

theorem Pc.deciding_idle {pc : Pc} (key : Bytes) (h : pc.idle = true) : pc.deciding key = none := by
  cases pc <;> first | rfl | cases h

/-- The answer that later requests with the key get. -/
def keptAnswer (s : LedgerEngine) (key : Bytes) : Option Verdict :=
  (s.pc.deciding key).or ((s.idempotencyCache.lookup key).map TransactionResponse.verdict)

/-- The request that was found valid, and is not applied. -/
def Pc.committed : Pc → Option TransactionRequest
  | .generateUuid req _ => some req
  | .appendWal req _ _ => some req
  | .applyTransaction req _ _ => some req
  | _ => none

theorem Pc.committed_idle {pc : Pc} (h : pc.idle = true) : pc.committed = none := by
  cases pc <;> first | rfl | cases h

/-- **The engine and the bank agree**: on the accounts, on the answers for each
key, and the request in hand is as valid as when it was validated. -/
structure Agrees (s : LedgerEngine) (b : Bank) : Prop where
  accounts : b.inner = s.accounts
  answers : ∀ key, key ≠ [] → b.answers key = keptAnswer s key
  valid : ∀ req, s.pc.committed = some req → validateTransaction s.accounts req = .ok

/-- A new account does not change what the validation of others says. -/
theorem validateTransaction_commitAccount {accounts : Accounts} {req : TransactionRequest}
    (hok : validateTransaction accounts req = .ok) (create : CreateAccountRequest) {id : Bytes}
    (hid : id ∉ accounts) :
    validateTransaction (commitAccount accounts create id).2 req = .ok := by
  obtain ⟨-, hdebit, hcredit⟩ := validateTransaction_ok hok
  have hlookup : ∀ id' ∈ accounts,
      (commitAccount accounts create id).2.lookup id' = accounts.lookup id' := by
    intro id' hmem
    have hne : id' ≠ id := by
      rintro rfl
      exact hid hmem
    unfold commitAccount
    split
    · rfl
    · exact AList.lookup_insert_ne hne
  unfold validateTransaction at hok ⊢
  rw [hlookup _ hdebit, hlookup _ hcredit]
  exact hok

section Steps

variable {s s' : LedgerEngine} {a : Action} {tr es : List Event} {b : Bank}

/-- A step that no call counts at. -/
theorem Agrees.move (h : Agrees s b) (haccounts : s'.accounts = s.accounts)
    (hanswers : ∀ key, key ≠ [] → keptAnswer s' key = keptAnswer s key)
    (hvalid : ∀ req, s'.pc.committed = some req → validateTransaction s.accounts req = .ok) :
    Agrees s' b := by
  refine ⟨?_, ?_, ?_⟩
  · rw [haccounts]
    exact h.accounts
  · intro key hkey
    rw [hanswers key hkey]
    exact h.answers key hkey
  · rw [haccounts]
    exact hvalid

/-- Nothing is kept for a request that missed the cache. -/
theorem Agrees.unknown (h : Agrees s b) (habsent : KeyAbsent s) {req : TransactionRequest}
    (hprocessing : s.pc.processing = some req)
    (hdeciding : ∀ key, s.pc.deciding key = none) : bank.known b.answers req = none := by
  show (idempotencyKeyOf req).bind b.answers = none
  unfold idempotencyKeyOf
  split
  next => rfl
  next hkey =>
      show b.answers req.idempotencyKey = none
      rw [h.answers _ hkey, keptAnswer, hdeciding, habsent.inHand req hprocessing]
      rfl

/-- A request that counts is kept under its key, and under no other. -/
theorem Agrees.kept (h : Agrees s b) {req : TransactionRequest} {v : Verdict}
    (hcache : s'.idempotencyCache = s.idempotencyCache) (hdeciding : ∀ key, s.pc.deciding key = none)
    (hdeciding' : ∀ key, s'.pc.deciding key = if req.idempotencyKey = key then some v else none)
    {key : Bytes} (hne : key ≠ []) : bank.keep b.answers req v key = keptAnswer s' key := by
  have hold := h.answers key hne
  unfold keptAnswer at hold ⊢
  rw [hdeciding, Option.none_or] at hold
  rw [hdeciding', hcache]
  by_cases hempty : req.idempotencyKey = []
  · -- an empty key keeps nothing, and is not the key asked for
    have hnokey : bank.key req = none := if_pos hempty
    have hother : req.idempotencyKey ≠ key := by
      rw [hempty]
      exact hne.symm
    rw [Memo.Service.keep_of_none hnokey, if_neg hother, Option.none_or]
    exact hold
  · rw [Memo.Service.keep_of_some (idempotencyKeyOf_of_ne hempty : bank.key req = _)]
    by_cases hsame : req.idempotencyKey = key
    · subst hsame
      rw [if_pos rfl]
      exact Function.update_self _ _ _
    · rw [if_neg hsame, Option.none_or]
      exact (Function.update_of_ne (Ne.symm hsame) _ _).trans hold

/-- **One step of the engine is at most one call at the bank.** -/
theorem Agrees.step (h : Agrees s b) (habsent : KeyAbsent s) (hids : Identifiers s)
    (he : Effect s a s' es) :
    ∃ b', Path (Memo.Step bank) b (history es) b' ∧ Agrees s' b' := by
  have hquiet : Agrees s' b → history es = [] → ∃ b', Path (Memo.Step bank) b (history es) b' ∧
      Agrees s' b' := by
    intro hs' hnone
    rw [hnone]
    exact ⟨b, .nil b, hs'⟩
  cases he with
  | aside hside =>
      have hsame := hside.sameData
      have hs' : Agrees s' b := by
        refine h.move hsame.accounts ?_ ?_
        · intro key _
          unfold keptAnswer
          rw [hside.view (fun _ => Pc.deciding_idle key), hsame.cache]
        · rw [hside.view (fun _ => Pc.committed_idle)]
          exact h.valid
      have hinner := h.accounts
      cases hside with
      | snapshot =>
          refine ⟨b, .single (.other ?_), hs'⟩
          show Other b.inner _ b.inner
          rw [hinner]
          exact .snapshot
      | sample =>
          refine ⟨b, .single (.other ?_), hs'⟩
          show Other b.inner _ b.inner
          rw [hinner]
          exact .audit
      | enterLoop | leaveLoop | queueEmpty | countTotal | countWindow | addLatency | submit
      | takeReply | getMetricsSample | loadWindow | loadLatency | resetMetricsWindow | storeLatency
      | shutdown => exact hquiet hs' rfl
  | pop hpc | miss hpc | replyCached hpc | appendThrows hpc | reply hpc =>
      refine hquiet (h.move rfl ?_ ?_) rfl
      · intro key _
        unfold keptAnswer
        rw [hpc]
        rfl
      · intro req hreq
        cases hreq
  | accept hpc hok =>
      refine hquiet (h.move rfl ?_ ?_) rfl
      · intro key _
        unfold keptAnswer
        rw [hpc]
        rfl
      · intro req hreq
        cases hreq
        exact hok
  | drawTxId hpc | append hpc _ =>
      refine hquiet (h.move rfl ?_ ?_) rfl
      · intro key _
        unfold keptAnswer
        rw [hpc]
        rfl
      · have hvalid := h.valid
        rw [hpc] at hvalid
        exact hvalid
  | @hit now os req resp hpc hlookup =>
      have hne : req.idempotencyKey ≠ [] := by
        intro hempty
        rw [hempty, habsent.empty] at hlookup
        cases hlookup
      have hknown : bank.known b.answers req = some resp.verdict := by
        show (idempotencyKeyOf req).bind b.answers = _
        rw [idempotencyKeyOf_of_ne hne, Option.bind_some, h.answers _ hne, keptAnswer, hpc, hlookup]
        rfl
      refine ⟨b, .single (.again hknown), h.move rfl ?_ ?_⟩
      · intro key _
        unfold keptAnswer
        rw [hpc]
        rfl
      · intro r hr
        cases hr
  | @reject now os req status hpc hstatus hbad =>
      have hnone : ∀ key, s.pc.deciding key = none := by
        rw [hpc]
        exact fun _ => rfl
      have hcall : history [.validated req status] = [.answer req ⟨Uuid.zero, status⟩] := by
        simp [history, Event.asCall, hbad]
      have hserves : Serves b.inner req ⟨Uuid.zero, status⟩ b.inner := by
        rw [h.accounts]
        exact .refuse hstatus hbad
      rw [hcall]
      refine ⟨_, .single (.first (h.unknown habsent (by rw [hpc]; rfl) hnone) hserves),
        h.accounts, ?_, ?_⟩
      · intro key hkey
        refine h.kept ?_ hnone ?_ hkey
        · rfl
        · exact fun _ => rfl
      · intro r hr
        cases hr
  | @apply now os req tStart txId hpc =>
      have hnone : ∀ key, s.pc.deciding key = none := by
        rw [hpc]
        exact fun _ => rfl
      -- the request is still valid, although accounts were created meanwhile
      have hok : validateTransaction s.accounts req = .ok := h.valid req (by rw [hpc]; rfl)
      have hserves : Serves b.inner req ⟨txId, .ok⟩ (applyTransaction s.accounts req) := by
        rw [h.accounts]
        exact .commit hok
      refine ⟨_, .single (.first (h.unknown habsent (by rw [hpc]; rfl) hnone) hserves), rfl, ?_, ?_⟩
      · intro key hkey
        refine h.kept ?_ hnone ?_ hkey
        · rfl
        · exact fun _ => rfl
      · intro r hr
        cases hr
  | @build now os req tStart txId status resp hpc _ htx hstatus _ =>
      refine hquiet (h.move rfl ?_ ?_) rfl
      · intro key _
        unfold keptAnswer
        rw [hpc, ← htx, ← hstatus]
        rfl
      · intro r hr
        cases hr
  | @cache now os req resp hpc hkey =>
      refine hquiet (h.move rfl ?_ ?_) rfl
      · intro key _
        unfold keptAnswer
        rw [hpc]
        show Option.map _ ((s.idempotencyCache.insert req.idempotencyKey resp).lookup key) =
          (if req.idempotencyKey = key then some resp.verdict else none).or _
        by_cases hsame : req.idempotencyKey = key
        · rw [if_pos hsame, ← hsame, AList.lookup_insert]
          rfl
        · rw [if_neg hsame, AList.lookup_insert_ne (Ne.symm hsame)]
          rfl
      · intro r hr
        cases hr
  | @noCache now os req resp hpc hempty =>
      refine hquiet (h.move rfl ?_ ?_) rfl
      · intro key hkey
        unfold keptAnswer
        rw [hpc]
        -- the answer about to be dropped has the empty key
        show Option.map _ (AList.lookup key s.idempotencyCache) =
          (if req.idempotencyKey = key then some resp.verdict else none).or _
        rw [if_neg (by rw [hempty]; exact hkey.symm)]
        rfl
      · intro r hr
        cases hr
  | drawAccountId => exact hquiet (h.move rfl (fun _ _ => rfl) h.valid) rfl
  | @commitAccount i req id hi =>
      have hfresh : id ∉ s.accounts := hids.unused (req, id) (List.mem_of_getElem? hi)
      refine ⟨_, .single (.other ?_), rfl, h.answers, ?_⟩
      · show Other b.inner _ _
        rw [h.accounts]
        exact .create hfresh
      · intro r hr
        exact validateTransaction_commitAccount (h.valid r hr) req hfresh

end Steps

/-- In every reachable state the bank agrees that got the calls in this order. -/
theorem run_agrees {wal : Wal.WriteAheadLog} {acts : List Action} {t : Traced LedgerEngine Event}
    (h : runEngine (.init wal) acts = some t) (hk : t.state.uuidCounter ≤ 2 ^ 64) :
    ∃ b, Sequential (history t.trace) b ∧ Agrees t.state b := by
  have hall : KeyAbsent t.state ∧ (t.state.uuidCounter ≤ 2 ^ 64 → Identifiers t.state ∧
      ∃ b, Sequential (history t.trace) b ∧ Agrees t.state b) := by
    refine traced_invariant (fun s tr => KeyAbsent s ∧ (s.uuidCounter ≤ 2 ^ 64 → Identifiers s ∧
      ∃ b, Sequential (history tr) b ∧ Agrees s b)) ?_ ?_ h
    · intro s tr a s' es hs hstep
      obtain ⟨habsent, hrest⟩ := hs
      have he := step_effect hstep
      refine ⟨habsent.step he, ?_⟩
      intro hk'
      obtain ⟨hids, b, hpath, hagrees⟩ := hrest (he.counter_le.trans hk')
      obtain ⟨b', hnext, hagrees'⟩ := hagrees.step habsent hids he
      refine ⟨hids.step he hk', b', ?_, hagrees'⟩
      rw [history_append]
      exact hpath.trans hnext
    · refine ⟨(once_init wal).absent, fun _ => ⟨identifiers_init wal, Bank.empty, .nil _, rfl, ?_, ?_⟩⟩
      · intro key _
        rfl
      · intro r hr
        cases hr
  exact (hall.2 hk).2

/-! ## §4. Linearizability. -/

/-- **Linearizable**, at one point of a run: the calls, each at the step at which
it counts, are calls at the bank one after the other. -/
structure Linearizable (s : LedgerEngine) (tr : List Event) : Prop where
  /-- The bank gives the same answers, and has the same accounts in the end. -/
  sequential : ∃ b, Sequential (history tr) b ∧ b.inner = s.accounts
  /-- A request counts after it is popped, in the order of the queue. -/
  invoked : popped tr = (counted tr).map Prod.fst ++ s.pc.uncounted
  /-- Its response is built after it has counted, and says what the bank said. -/
  returned : counted tr = (responses tr).map (fun r => (r.1, r.2.verdict)) ++ s.pc.unreturned
  /-- The response carries the correlation id of its own request. -/
  own : ∀ r ∈ responses tr, r.2.correlationId = r.1.correlationId

/-- **THE ENGINE IS LINEARIZABLE.**  For every interleaving of the engine thread
with calls from outside, in which the account map is read and written one
element at a time under the lock, and in every state it reaches, until the
counter wraps. -/
theorem engine_linearizable {wal : Wal.WriteAheadLog} {moves : List (Move Action)}
    {u : Traced (Locked LedgerEngine Action Accounts Section) Event}
    (h : runLocked (.init wal) moves = some u)
    (hk : (view engineSections u.state).uuidCounter ≤ 2 ^ 64) :
    Linearizable (view engineSections u.state) u.trace := by
  obtain ⟨-, acts, -, hrun⟩ := runLocked_atomic (fun _ => True) (fun _ _ _ _ => trivial) h
  obtain ⟨b, hpath, hagrees⟩ := run_agrees hrun hk
  obtain ⟨hinvoked, hreturned⟩ := run_counted hrun
  exact ⟨⟨b, hpath, hagrees.accounts⟩, hinvoked, hreturned, (run_once hrun).outcome.own⟩

/-- The sale of 500 counts although the snapshot after it is not complete. -/
theorem lockedSale_linearizable :
    ∃ u, runLocked (.init newLog) lockedSale = some u ∧
      Linearizable (view engineSections u.state) u.trace ∧ (history u.trace).length = 3 ∧
      (counted u.trace).map (fun c => c.2.status) = [.ok] := by
  have hrun : (runLocked (.init newLog) lockedSale).map (fun u =>
      ((view engineSections u.state).uuidCounter, (history u.trace).length,
        (counted u.trace).map (fun c => c.2.status))) = some (3, 3, [.ok]) := by
    decide +kernel
  obtain ⟨u, hu, heq⟩ := Option.map_eq_some_iff.mp hrun
  simp only [Prod.mk.injEq] at heq
  obtain ⟨hcounter, hcalls⟩ := heq
  exact ⟨u, hu, engine_linearizable hu (by rw [hcounter]; decide), hcalls⟩

/-! ## §5. Refusals are final. -/

/-- **A REFUSED KEY NEVER MOVES MONEY.**  When a request was answered with an
error, no request with its key is applied, before or after, whatever accounts
and funds there come to be. -/
theorem rejected_never_applied {wal : Wal.WriteAheadLog} {acts : List Action}
    {t : Traced LedgerEngine Event} (h : runEngine (.init wal) acts = some t)
    (hk : t.state.uuidCounter ≤ 2 ^ 64) {req : TransactionRequest} {resp : TransactionResponse}
    (hresp : (req, resp) ∈ responses t.trace) (hbad : resp.status ≠ .ok)
    (hkey : req.idempotencyKey ≠ []) :
    ∀ req' ∈ applied t.trace, req'.idempotencyKey ≠ req.idempotencyKey := by
  intro req' happlied hsame
  obtain ⟨b, hpath, -⟩ := run_agrees h hk
  -- the refusal is a call at the bank, and so is the transfer
  have hrefused : .answer req resp.verdict ∈ history t.trace := by
    rw [← mem_counted, (run_counted h).returned]
    exact List.mem_append_left _ (List.mem_map.mpr ⟨(req, resp), hresp, rfl⟩)
  obtain ⟨e, he, heq⟩ := List.mem_filterMap.mp happlied
  obtain ⟨txId, rfl⟩ : ∃ txId, e = .applied req' txId := by
    cases e with
    | applied r txId =>
        cases heq
        exact ⟨txId, rfl⟩
    | popped | cacheHit | validated | appended | responded | cached | replied | submitted | taken
    | accountCreated | snapshot | sampled => cases heq
  have hcommitted : .answer req' ⟨txId, .ok⟩ ∈ history t.trace :=
    List.mem_filterMap.mpr ⟨_, he, rfl⟩
  exact bank_burns hpath hkey hsame hrefused hcommitted hbad rfl

/-- The request that came before its accounts is refused for good; the two
without a key are applied. -/
theorem repeatedRequests_burnt :
    ∃ t, runEngine (.init newLog) repeatedRequests = some t ∧ (applied t.trace).length = 2 ∧
      ∀ req ∈ applied t.trace, req.idempotencyKey ≠ ascii "retry" := by
  have hrun : (runEngine (.init newLog) repeatedRequests).map (fun t =>
      (t.state.uuidCounter, (applied t.trace).length,
        (responses t.trace).head?.map (fun r => (r.1.idempotencyKey, r.2.status)))) =
      some (4, 2, some (ascii "retry", .errAccountNotFound)) := by
    decide +kernel
  obtain ⟨t, ht, heq⟩ := Option.map_eq_some_iff.mp hrun
  simp only [Prod.mk.injEq] at heq
  obtain ⟨hcounter, happlied, hfirst⟩ := heq
  obtain ⟨⟨req, resp⟩, hhead, hparts⟩ := Option.map_eq_some_iff.mp hfirst
  simp only [Prod.mk.injEq] at hparts
  obtain ⟨hkey, hstatus⟩ := hparts
  refine ⟨t, ht, happlied, ?_⟩
  rw [← hkey]
  exact rejected_never_applied ht (by rw [hcounter]; decide) (List.mem_of_head? hhead)
    (by rw [hstatus]; decide) (by rw [hkey]; decide)

end ZeroLGR.Ledger
