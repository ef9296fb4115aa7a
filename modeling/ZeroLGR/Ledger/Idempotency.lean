/-
  ZeroLGR.Ledger.Idempotency — one outcome for each idempotency key.

  A request that is not found in the cache is processed, and its response is
  stored under its key before the next request is popped.  So while a key is
  absent from the cache, nothing was decided for it yet, except for the request
  in hand; and once it is there it stays, with the response of the one request
  that was processed.

    • `KeyAbsent` — the key in hand is not in the cache, the empty key never is,
    • `OneFrame` — at most one frame for each key, none before it is settled,
    • `Effect.settled_stable` — what is settled for a key stays settled,
    • `OneOutcome` — all responses for a key agree with the settled one,
    • `run_once` — the three hold at every point of every run,
    • `idempotency` — what this says about the record.
-/
import ZeroLGR.Ledger.Record

namespace ZeroLGR.Ledger

open Transition

/-! ## §1. What is settled for a key. -/

/-- The request that missed the cache and is not yet cached. -/
def Pc.processing : Pc → Option TransactionRequest
  | .validate req => some req
  | .generateUuid req _ => some req
  | .appendWal req _ _ => some req
  | .applyTransaction req _ _ => some req
  | .buildResponse req _ _ _ => some req
  | .cacheResponse req _ => some req
  | _ => none

/-- The key of a request that may have its frame and is not yet cached. -/
def Pc.committing : Pc → Option Bytes
  | .applyTransaction req _ _ => some req.idempotencyKey
  | .buildResponse req _ _ _ => some req.idempotencyKey
  | .cacheResponse req _ => some req.idempotencyKey
  | _ => none

/-- The response that is about to be cached under the key. -/
def Pc.settling (key : Bytes) : Pc → Option TransactionResponse
  | .cacheResponse req resp => if req.idempotencyKey = key then some resp else none
  | _ => none

/-- The response that every later request with the key will get. -/
def settled (s : LedgerEngine) (key : Bytes) : Option TransactionResponse :=
  (s.idempotencyCache.lookup key).or (s.pc.settling key)

/-- The frames of requests with the key. -/
def framesOf (key : Bytes) (tr : List Event) : List LogEntry :=
  (logged tr).filter (fun l => l.req.idempotencyKey = key)

theorem framesOf_append (key : Bytes) (tr es : List Event) :
    framesOf key (tr ++ es) = framesOf key tr ++ framesOf key es := by
  unfold framesOf
  rw [logged_append, List.filter_append]

theorem framesOf_of_logged_nil (key : Bytes) {es : List Event} (h : logged es = []) :
    framesOf key es = [] := by
  unfold framesOf
  rw [h, List.filter_nil]

/-- One frame is a frame of its own key only. -/
theorem framesOf_appended (key : Bytes) (req : TransactionRequest) (txId : Uuid)
    (payload : Bytes) :
    framesOf key [.appended req txId payload] =
      if req.idempotencyKey = key then [⟨req, txId, payload⟩] else [] := by
  show List.filter _ [LogEntry.mk req txId payload] = _
  rw [List.filter_singleton]
  simp

/-- The responses differ at most in the request they answer. -/
structure SameOutcome (a b : TransactionResponse) : Prop where
  transactionId : a.transactionId = b.transactionId
  status : a.status = b.status
  message : a.message = b.message
  latencyUs : a.latencyUs = b.latencyUs

theorem SameOutcome.refl (a : TransactionResponse) : SameOutcome a a := ⟨rfl, rfl, rfl, rfl⟩

theorem SameOutcome.symm {a b : TransactionResponse} (h : SameOutcome a b) : SameOutcome b a :=
  ⟨h.transactionId.symm, h.status.symm, h.message.symm, h.latencyUs.symm⟩

theorem SameOutcome.trans {a b c : TransactionResponse} (hab : SameOutcome a b)
    (hbc : SameOutcome b c) : SameOutcome a c :=
  ⟨hab.transactionId.trans hbc.transactionId, hab.status.trans hbc.status,
    hab.message.trans hbc.message, hab.latencyUs.trans hbc.latencyUs⟩

/-! ## §2. The invariant. -/

/-- The key in hand is absent from the cache, and the empty key always is. -/
structure KeyAbsent (s : LedgerEngine) : Prop where
  empty : s.idempotencyCache.lookup [] = none
  inHand : ∀ req, s.pc.processing = some req →
    s.idempotencyCache.lookup req.idempotencyKey = none

/-- At most one frame for each key that is not empty, and none as long as the
key is neither cached nor being committed. -/
structure OneFrame (s : LedgerEngine) (tr : List Event) : Prop where
  atMost : ∀ key, key ≠ [] → (framesOf key tr).length ≤ 1
  before : ∀ key, key ≠ [] → s.idempotencyCache.lookup key = none →
    s.pc.committing ≠ some key → framesOf key tr = []

/-- Every response agrees with what is settled for its key, and answers the
request it was built for. -/
structure OneOutcome (s : LedgerEngine) (tr : List Event) : Prop where
  agrees : ∀ b ∈ responses tr, b.1.idempotencyKey ≠ [] →
    ∃ resp, settled s b.1.idempotencyKey = some resp ∧ SameOutcome b.2 resp
  own : ∀ b ∈ responses tr, b.2.correlationId = b.1.correlationId

theorem Pc.processing_idle {pc : Pc} (h : pc.idle = true) : pc.processing = none := by
  cases pc <;> first | rfl | cases h

theorem Pc.committing_idle {pc : Pc} (h : pc.idle = true) : pc.committing = none := by
  cases pc <;> first | rfl | cases h

theorem Pc.settling_idle {pc : Pc} (key : Bytes) (h : pc.idle = true) :
    pc.settling key = none := by
  cases pc <;> first | rfl | cases h

section Steps

variable {s s' : LedgerEngine} {a : Action} {tr es : List Event}

/-- **One step**: a key comes into hand by a miss, and leaves it when its
response is cached. -/
theorem KeyAbsent.step (h : KeyAbsent s) (he : Effect s a s' es) : KeyAbsent s' := by
  obtain ⟨hempty, hhand⟩ := h
  cases he with
  | aside hside =>
      have hcache := hside.sameData.cache
      constructor
      · rw [hcache]
        exact hempty
      · rw [hcache, hside.view (fun _ => Pc.processing_idle)]
        exact hhand
  | miss hpc hlookup =>
      refine ⟨hempty, ?_⟩
      intro r hr
      cases hr
      exact hlookup
  | accept hpc | reject hpc | drawTxId hpc | append hpc | apply hpc | build hpc =>
      rw [hpc] at hhand
      exact ⟨hempty, hhand⟩
  | @cache now os req resp hpc hkey =>
      constructor
      · -- only keys that are not empty are stored
        show (s.idempotencyCache.insert req.idempotencyKey resp).lookup [] = none
        rw [AList.lookup_insert_ne hkey.symm]
        exact hempty
      · intro r hr
        cases hr
  | pop | hit | replyCached | appendThrows | noCache | reply =>
      refine ⟨hempty, ?_⟩
      intro r hr
      cases hr
  | drawAccountId | commitAccount => exact ⟨hempty, hhand⟩

/-- A step without a frame, after which a key is committed if it was before. -/
theorem OneFrame.move (h : OneFrame s tr) (hlogged : logged es = [])
    (hcache : s'.idempotencyCache = s.idempotencyCache)
    (hcommit : ∀ key, key ≠ [] → s.pc.committing = some key → s'.pc.committing = some key) :
    OneFrame s' (tr ++ es) := by
  have hframes : ∀ key, framesOf key (tr ++ es) = framesOf key tr := by
    intro key
    rw [framesOf_append, framesOf_of_logged_nil key hlogged, List.append_nil]
  constructor
  · intro key hkey
    rw [hframes]
    exact h.atMost key hkey
  · intro key hkey hlookup hnot
    rw [hframes]
    rw [hcache] at hlookup
    exact h.before key hkey hlookup (fun hc => hnot (hcommit key hkey hc))

/-- **One step**: the only frame of a key is appended while the key is absent
from the cache and not being committed. -/
theorem OneFrame.step (h : OneFrame s tr) (habsent : KeyAbsent s) (he : Effect s a s' es) :
    OneFrame s' (tr ++ es) := by
  cases he with
  | aside hside =>
      obtain ⟨-, -, -, -, hlogged, -⟩ := hside.silent.lists
      refine h.move hlogged hside.sameData.cache ?_
      rw [hside.view (fun _ => Pc.committing_idle)]
      exact fun _ _ hc => hc
  | pop hpc | hit hpc | miss hpc | replyCached hpc | accept hpc | reject hpc | drawTxId hpc
  | appendThrows hpc | apply hpc | build hpc | reply hpc =>
      refine h.move rfl rfl ?_
      rw [hpc]
      intro key _ hc
      first | exact hc | cases hc
  | @append now os req tStart txId seq w hpc happ =>
      have hkey := habsent.inHand req (by rw [hpc]; rfl)
      constructor
      · intro key hne
        rw [framesOf_append, framesOf_appended]
        by_cases heq : req.idempotencyKey = key
        · -- the first frame of its key
          subst heq
          rw [h.before _ hne hkey (by rw [hpc]; simp [Pc.committing]), if_pos rfl]
          simp
        · rw [if_neg heq, List.append_nil]
          exact h.atMost key hne
      · intro key hne hlookup hnot
        have heq : req.idempotencyKey ≠ key := fun heq => hnot (congrArg some heq)
        rw [framesOf_append, framesOf_appended, if_neg heq, List.append_nil]
        exact h.before key hne hlookup (by rw [hpc]; simp [Pc.committing])
  | @cache now os req resp hpc hreq =>
      have hframes : ∀ key, framesOf key (tr ++ [.cached req resp]) = framesOf key tr := by
        intro key
        have hnone : framesOf key [.cached req resp] = [] := framesOf_of_logged_nil key rfl
        rw [framesOf_append, hnone, List.append_nil]
      constructor
      · intro key hne
        rw [hframes]
        exact h.atMost key hne
      · intro key hne hlookup hnot
        rw [hframes]
        -- a key that is still absent is not the one just cached
        have heq : key ≠ req.idempotencyKey := by
          rintro rfl
          rw [AList.lookup_insert] at hlookup
          cases hlookup
        rw [AList.lookup_insert_ne heq] at hlookup
        refine h.before key hne hlookup ?_
        rw [hpc]
        exact fun hc => heq (Option.some.inj hc).symm
  | noCache hpc hempty =>
      refine h.move rfl rfl ?_
      rw [hpc]
      intro key hne hc
      exact absurd ((Option.some.inj hc).symm.trans hempty) hne
  | drawAccountId | commitAccount => exact h.move rfl rfl (fun _ _ hc => hc)

/-- Without a response in hand, the cache alone says what is settled. -/
theorem settled_of_cache {s : LedgerEngine} {key : Bytes} (h : s.pc.settling key = none) :
    settled s key = s.idempotencyCache.lookup key := by
  unfold settled
  rw [h]
  cases s.idempotencyCache.lookup key <;> rfl

/-- **What is settled stays settled.** -/
theorem Effect.settled_stable (habsent : KeyAbsent s) (he : Effect s a s' es) {key : Bytes}
    {r : TransactionResponse} (hkey : key ≠ []) (hsettled : settled s key = some r) :
    settled s' key = some r := by
  cases he with
  | aside hside =>
      unfold settled at hsettled ⊢
      rw [hside.sameData.cache, hside.view (fun _ => Pc.settling_idle key)]
      exact hsettled
  | pop hpc | hit hpc | miss hpc | replyCached hpc | accept hpc | reject hpc | drawTxId hpc
  | append hpc | appendThrows hpc | apply hpc | reply hpc =>
      rw [settled_of_cache (by rw [hpc]; rfl)] at hsettled
      rw [settled_of_cache rfl]
      exact hsettled
  | build hpc _ _ _ _ =>
      rw [settled_of_cache (by rw [hpc]; rfl)] at hsettled
      unfold settled
      rw [hsettled]
      rfl
  | @cache now os req resp hpc hreq =>
      have hlookup := habsent.inHand req (by rw [hpc]; rfl)
      rw [settled_of_cache rfl]
      show (s.idempotencyCache.insert req.idempotencyKey resp).lookup key = some r
      unfold settled at hsettled
      -- the response in hand becomes the cached one; other keys keep theirs
      by_cases heq : key = req.idempotencyKey
      · subst heq
        rw [hlookup, hpc] at hsettled
        rw [AList.lookup_insert, ← hsettled]
        exact (if_pos rfl).symm
      · rw [AList.lookup_insert_ne heq]
        rw [hpc, Pc.settling, if_neg (Ne.symm heq), Option.or_none] at hsettled
        exact hsettled
  -- only the empty key skips the cache, and it settles nothing
  | noCache hpc hempty =>
      have hother : s.pc.settling key = none := by
        rw [hpc, Pc.settling, hempty, if_neg hkey.symm]
      rw [settled_of_cache hother] at hsettled
      rw [settled_of_cache rfl]
      exact hsettled
  | drawAccountId | commitAccount => exact hsettled

/-- A step that builds no response. -/
theorem OneOutcome.move (h : OneOutcome s tr) (habsent : KeyAbsent s) (he : Effect s a s' es)
    (hresponses : responses es = []) : OneOutcome s' (tr ++ es) := by
  have hsame : responses (tr ++ es) = responses tr := by
    rw [responses_append, hresponses, List.append_nil]
  constructor
  · rw [hsame]
    intro b hb hkey
    obtain ⟨resp, hresp, hout⟩ := h.agrees b hb hkey
    exact ⟨resp, he.settled_stable habsent hkey hresp, hout⟩
  · rw [hsame]
    exact h.own

/-- A step that builds one response, which agrees with what is settled. -/
theorem OneOutcome.build (h : OneOutcome s tr) (habsent : KeyAbsent s) (he : Effect s a s' es)
    {req : TransactionRequest} {resp : TransactionResponse} (settledResp : TransactionResponse)
    (hresponses : responses es = [(req, resp)])
    (hnew : req.idempotencyKey ≠ [] → settled s' req.idempotencyKey = some settledResp)
    (hout : SameOutcome resp settledResp) (hown : resp.correlationId = req.correlationId) :
    OneOutcome s' (tr ++ es) := by
  have hsame : responses (tr ++ es) = responses tr ++ [(req, resp)] := by
    rw [responses_append, hresponses]
  constructor
  · rw [hsame]
    intro b hb hkey
    rcases List.mem_append.mp hb with hb | hb
    · obtain ⟨r, hr, hagree⟩ := h.agrees b hb hkey
      exact ⟨r, he.settled_stable habsent hkey hr, hagree⟩
    · rw [List.mem_singleton.mp hb] at hkey ⊢
      exact ⟨settledResp, hnew hkey, hout⟩
  · rw [hsame]
    intro b hb
    rcases List.mem_append.mp hb with hb | hb
    · exact h.own b hb
    · rw [List.mem_singleton.mp hb]
      exact hown

/-- **One step**: a new response is either the settled one or settles its key. -/
theorem OneOutcome.step (h : OneOutcome s tr) (habsent : KeyAbsent s) (he : Effect s a s' es) :
    OneOutcome s' (tr ++ es) := by
  have he' := he
  cases he' with
  | aside hside =>
      obtain ⟨-, -, -, -, -, -, -, hresponses⟩ := hside.silent.lists
      exact h.move habsent he hresponses
  | pop | miss | replyCached | accept | reject | drawTxId | append | appendThrows | apply | cache
  | noCache | reply | drawAccountId | commitAccount => exact h.move habsent he rfl
  -- the cached response is the settled one, up to its correlation id
  | @hit now os req resp hpc hlookup =>
      refine h.build habsent he resp rfl ?_ ⟨rfl, rfl, rfl, rfl⟩ rfl
      intro _
      rw [settled_of_cache rfl]
      exact hlookup
  | @build now os req tStart txId status resp hpc hown _ _ _ =>
      have hlookup := habsent.inHand req (by rw [hpc]; rfl)
      refine h.build habsent he resp rfl ?_ (.refl resp) hown
      -- the key is not in the cache, so the response in hand settles it
      intro _
      unfold settled
      rw [hlookup]
      exact if_pos rfl

/-- The empty key is not found in the cache, and validation is against the
accounts at that time. -/
theorem Effect.decides (habsent : KeyAbsent s) (he : Effect s a s' es) :
    (∀ d ∈ decided es, d.1.idempotencyKey = [] → d.2 ≠ none) ∧
      ∀ v ∈ validated es, v.2 = validateTransaction s.accounts v.1 := by
  cases he with
  | aside hside =>
      obtain ⟨-, hdecided, hvalidated, -⟩ := hside.silent.lists
      rw [hdecided, hvalidated]
      simp
  | @hit now os req resp hpc hlookup =>
      -- a hit on the empty key is impossible: it is never cached
      constructor
      · intro d hd hkey
        rw [List.mem_singleton.mp hd] at hkey
        rw [show req.idempotencyKey = [] from hkey, habsent.empty] at hlookup
        cases hlookup
      · intro v hv
        cases hv
  | accept hpc hok =>
      constructor
      · intro d hd _
        rw [List.mem_singleton.mp hd]
        simp
      · intro v hv
        rw [List.mem_singleton.mp hv]
        exact hok.symm
  | reject hpc hstatus _ =>
      constructor
      · intro d hd _
        rw [List.mem_singleton.mp hd]
        simp
      · intro v hv
        rw [List.mem_singleton.mp hv]
        exact hstatus.symm
  | pop | miss | replyCached | drawTxId | append | appendThrows | apply | build | cache | noCache
  | reply | drawAccountId | commitAccount =>
      constructor
      · intro d hd
        cases hd
      · intro v hv
        cases hv

end Steps

/-! ## §3. Runs. -/

/-- The whole invariant. -/
structure Once (s : LedgerEngine) (tr : List Event) : Prop where
  absent : KeyAbsent s
  frame : OneFrame s tr
  outcome : OneOutcome s tr
  validated : ∀ d ∈ decided tr, d.1.idempotencyKey = [] → d.2 ≠ none

theorem once_init (w : Wal.WriteAheadLog) : Once (.init w) [] := by
  refine ⟨⟨rfl, ?_⟩, ⟨?_, ?_⟩, ⟨?_, ?_⟩, ?_⟩
  · intro req hreq
    cases hreq
  · intro key _
    exact Nat.zero_le 1
  · intro key _ _ _
    rfl
  · intro b hb
    cases hb
  · intro b hb
    cases hb
  · intro d hd
    cases hd

/-- **The invariant holds at every point of every run.** -/
theorem run_once {w : Wal.WriteAheadLog} {acts : List Action} {t : Traced LedgerEngine Event}
    (h : runEngine (.init w) acts = some t) : Once t.state t.trace := by
  refine traced_invariant Once ?_ (once_init w) h
  intro s tr a s' es hs hstep
  have he := step_effect hstep
  refine ⟨hs.absent.step he, hs.frame.step hs.absent he, hs.outcome.step hs.absent he, ?_⟩
  intro d hd
  rw [decided_append] at hd
  rcases List.mem_append.mp hd with hd | hd
  · exact hs.validated d hd
  · exact (he.decides hs.absent).1 d hd

/-! ## §4. What the record shows. -/

/-- **Idempotency**, at one point of a run. -/
structure Idempotent (s : LedgerEngine) (tr : List Event) : Prop where
  /-- At most one request with a key is in the log. -/
  one_frame : ∀ key, key ≠ [] → (framesOf key tr).length ≤ 1
  /-- At most one is applied to the balances. -/
  one_transfer : ∀ key, key ≠ [] →
    ((applied tr).filter (fun req => req.idempotencyKey = key)).length ≤ 1
  /-- All responses for a key agree but for the request they answer. -/
  one_outcome : ∀ a ∈ responses tr, ∀ b ∈ responses tr, a.1.idempotencyKey ≠ [] →
    a.1.idempotencyKey = b.1.idempotencyKey → SameOutcome a.2 b.2
  /-- Each answers its own request. -/
  own : ∀ a ∈ responses tr, a.2.correlationId = a.1.correlationId
  /-- A request with the empty key is never answered from the cache. -/
  empty_validated : ∀ d ∈ decided tr, d.1.idempotencyKey = [] → d.2 ≠ none
  /-- Every request is decided once; an accepted one is logged once and applied
  once; a validated one is answered once, with the status of its validation. -/
  each_once : Bookkeeping s.pc tr
  /-- Validation looks at the accounts at that time, and at nothing else. -/
  on_its_own : ∀ a s' es, step s a = some (s', es) →
    ∀ v ∈ validated es, v.2 = validateTransaction s.accounts v.1

/-- At most one request with a key is applied. -/
theorem applied_once {w : Wal.WriteAheadLog} {acts : List Action} {t : Traced LedgerEngine Event}
    (h : runEngine (.init w) acts = some t) {key : Bytes} (hkey : key ≠ []) :
    ((applied t.trace).filter (fun req => req.idempotencyKey = key)).length ≤ 1 := by
  -- what is applied was logged before
  have hlogged : ((applied t.trace).filter (fun req => req.idempotencyKey = key)).length ≤
      (((logged t.trace).map LogEntry.req).filter
        (fun req => req.idempotencyKey = key)).length := by
    rw [(run_bookkeeping h).logged_eq, List.filter_append, List.length_append]
    exact Nat.le_add_right _ _
  rw [List.filter_map, List.length_map] at hlogged
  exact hlogged.trans ((run_once h).frame.atMost key hkey)

/-- A request with a key that was applied is the only one. -/
theorem applied_only {w : Wal.WriteAheadLog} {acts : List Action} {t : Traced LedgerEngine Event}
    (h : runEngine (.init w) acts = some t) {req : TransactionRequest}
    (hreq : req ∈ applied t.trace) {key : Bytes} (hkey : req.idempotencyKey = key)
    (hne : key ≠ []) :
    (applied t.trace).filter (fun req => req.idempotencyKey = key) = [req] := by
  have hmem : req ∈ (applied t.trace).filter (fun req => req.idempotencyKey = key) :=
    List.mem_filter.mpr ⟨hreq, decide_eq_true hkey⟩
  obtain ⟨req', hreq'⟩ := List.length_eq_one_iff.mp
    (Nat.le_antisymm (applied_once h hne) (List.length_pos_of_mem hmem))
  rw [hreq', List.mem_singleton] at hmem
  rw [hreq', hmem]

/-- **IDEMPOTENCY OVER ONE ENGINE LIFETIME.** -/
theorem idempotency (w : Wal.WriteAheadLog) (acts : List Action) (t : Traced LedgerEngine Event)
    (hrun : runEngine (.init w) acts = some t) : Idempotent t.state t.trace := by
  have honce := run_once hrun
  have hbooks := run_bookkeeping hrun
  exact
    { one_frame := honce.frame.atMost
      one_transfer := fun key hkey => applied_once hrun hkey
      one_outcome := by
        intro a ha b hb hkey heq
        obtain ⟨ra, hra, hsa⟩ := honce.outcome.agrees a ha hkey
        obtain ⟨rb, hrb, hsb⟩ := honce.outcome.agrees b hb (heq ▸ hkey)
        rw [heq, hrb] at hra
        cases hra
        exact hsa.trans hsb.symm
      own := honce.outcome.own
      empty_validated := honce.validated
      each_once := hbooks
      on_its_own := fun a s' es hstep => ((step_effect hstep).decides honce.absent).2 }

/-- A request that fails because its accounts do not exist, the same request
once they do, and two requests without a key. -/
def repeatedRequests : List Action :=
  .submit (transferRequest "retry" 0 1 500) :: engineSteps 10 ++
    createAccountCall "Sales" .revenue ++ createAccountCall "Refunds" .equity ++
    [.submit (transferRequest "retry" 0 1 500), .submit (transferRequest "" 0 1 20),
      .submit (transferRequest "" 0 1 20)] ++
    engineSteps 30

/-- The repeated request keeps its first answer and is not logged; the two
without a key are logged both. -/
theorem repeatedRequests_idempotent :
    ∃ t, runEngine (.init newLog) repeatedRequests = some t ∧ Idempotent t.state t.trace ∧
      (framesOf (ascii "retry") t.trace).length = 0 ∧ (framesOf [] t.trace).length = 2 ∧
      (responses t.trace).length = 4 := by
  have hrun : (runEngine (.init newLog) repeatedRequests).map
      (fun t => ((framesOf (ascii "retry") t.trace).length, (framesOf [] t.trace).length,
        (responses t.trace).length)) = some (0, 2, 4) := by
    decide +kernel
  obtain ⟨t, ht, heq⟩ := Option.map_eq_some_iff.mp hrun
  simp only [Prod.mk.injEq] at heq
  exact ⟨t, ht, idempotency newLog repeatedRequests t ht, heq⟩

end ZeroLGR.Ledger
