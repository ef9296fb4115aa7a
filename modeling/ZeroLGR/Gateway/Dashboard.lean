/-
  ZeroLGR.Gateway.Dashboard — what the dashboard is told.

  The dashboard shows the samples that the metrics collector broadcasts and the
  balance sheets that `GET /ledger/balance-sheet` responds with.  Both come back
  to the call that asked for them, and both parsers read the correlation id where
  the figures should be.

    • `SampleOf`, `SheetOf` — what is left of a sample and of a snapshot,
    • `run_collects`, `run_responds` — where the figures come from,
    • `dashboard_shows_ids` — the statement for every run.
-/
import ZeroLGR.Gateway.Metrics
import ZeroLGR.Gateway.Remote

namespace ZeroLGR.Gateway

open Transition Ledger Server

/-! ## §1. What the parsers return. -/

/-- **What is left of a sample**: the rates are the halves of the correlation id,
the count is the first rate, and the flag a byte of the second. -/
structure SampleOf (corrId : Uuid) (sample : MetricsSampleData) (result : MetricsResult) :
    Prop where
  tps : result.tps = unsigned (slice corrId.bytes 0 8)
  avgLatencyUs : result.avgLatencyUs = unsigned (slice corrId.bytes 8 16)
  txCount : result.txCount = sample.tps
  invariantOk : result.invariantOk = decide (slice (le64 sample.avgLatencyUs) 0 1 ≠ [0])

theorem sampleOf_parse {corrId : Uuid} {sample : MetricsSampleData} {result : MetricsResult}
    (h : parseMetrics (serializeMetrics corrId sample) = .ok result) :
    SampleOf corrId sample result := by
  rw [parseMetrics_serialize] at h
  cases h
  exact ⟨rfl, rfl, rfl, rfl⟩

/-- **What is left of a snapshot**: the flag and the assets are bytes of the
correlation id, the liabilities too but for their highest byte, which is the flag;
the equity is the assets, and the lower half of the liabilities says how many
accounts there are. -/
structure SheetOf (corrId : Uuid) (data : BalanceSnapshotData) (result : SnapshotResult) :
    Prop where
  invariantOk : result.invariantOk = decide (slice corrId.bytes 0 1 ≠ [0])
  totalAssets : result.totalAssets = signed (slice corrId.bytes 1 9)
  totalLiabilities : result.totalLiabilities =
    signed (slice corrId.bytes 9 16 ++ [flagByte data.invariantOk])
  totalEquity : result.totalEquity = signed (int64Bytes data.totalAssets)
  accounts : result.accounts.length = Bytes.ofLE (slice (int64Bytes data.totalLiabilities) 0 4)

/-- A number as the 64 bits hold it. -/
theorem int64Bytes_wrapped (n : Int) : int64Bytes (signed (int64Bytes n)) = int64Bytes n :=
  int64Bytes_signed (length_int64Bytes n)

theorem fitsInt64_signed (bs : Bytes) : FitsInt64 (signed bs) := by
  unfold signed
  exact ⟨Int64.le_toInt _, Int64.toInt_lt _⟩

theorem sheetOf_parse {corrId : Uuid} {data : BalanceSnapshotData} {result : SnapshotResult}
    (h : parseBalanceSnapshot (serializeBalanceSnapshot corrId data) = .ok result) :
    SheetOf corrId data result := by
  -- the assets are sent as 64 bits, whatever they are
  obtain ⟨assets, hassets⟩ : ∃ n : Int, n = signed (int64Bytes data.totalAssets) := ⟨_, rfl⟩
  have hfits : FitsInt64 assets := by
    rw [hassets]
    exact fitsInt64_signed _
  have hsame : serializeBalanceSnapshot corrId data =
      serializeBalanceSnapshot corrId { data with totalAssets := assets } := by
    unfold serializeBalanceSnapshot
    dsimp only
    rw [hassets, int64Bytes_wrapped]
  obtain ⟨hearly, -, hparse⟩ :=
    @parseBalanceSnapshot_serialize { data with totalAssets := assets } corrId hfits
  rw [hsame, hparse] at h
  obtain ⟨accounts, hread, h⟩ := bind_eq_ok.mp h
  cases h
  exact ⟨rfl, rfl, rfl, hassets, (readAccounts_ok hread (Nat.le_of_add_right_le hearly.le)).1⟩

namespace Remote

/-! ## §2. Where the figures come from. -/

/-- `GET /ledger/balance-sheet`, whose call is number `i`, responds with the result;
`GET /accounts` with the accounts of the result. -/
def Responds (r : Remote) (i : Nat) (result : SnapshotResult) : Prop :=
  ∃ (call : Call) (q : Asked) (msg : Bytes), r.client.calls[i]? = some call ∧
    r.asked[i]? = some q ∧ q.query = .getBalanceSnapshot ∧ call.pc = .returned msg ∧
    parseBalanceSnapshot msg = .ok result

/-- A request for a sample is one of `get_metrics`. -/
theorem query_of_head {query : Query} {corrId : Uuid} {message : Bytes}
    (h : query.message corrId = .ok message)
    (hhead : message.head? = some Server.MSG_METRICS_REQUEST) : query = .getMetrics := by
  cases query with
  | sendTransaction args =>
      rw [Deployment.transferMessage_head h] at hhead
      cases hhead
  | createAccount name accountType =>
      change createAccountMessage corrId name accountType = .ok message at h
      unfold createAccountMessage at h
      obtain ⟨_, -, h⟩ := bind_eq_ok.mp h
      obtain ⟨_, -, h⟩ := bind_eq_ok.mp h
      cases h
      cases hhead
  | getMetrics => rfl
  | getBalanceSnapshot =>
      cases h
      cases hhead

section Answers

variable {gateway : Bytes} {t : Traced Remote Event} {q : Asked} {msg : Bytes}

/-- The sample in an answer is one that the engine has taken. -/
theorem OwnAnswer.sample (h : OwnAnswer gateway t q msg)
    (hwritten : q.query.message q.corrId = .ok q.message)
    (htype : msg.head? = some Server.MSG_METRICS_RESPONSE) :
    q.query = .getMetrics ∧ ∃ sample, msg = serializeMetrics q.corrId (sampleData sample) ∧
      .sampled sample ∈ Serving.lines (serverTrace t.trace) := by
  obtain ⟨b, hexchange, hreceived, hsent, hlines⟩ := h
  cases hexchange with
  | accepted | ignored => simp at hsent
  | refused | created | snapshot =>
      -- these answers begin with another byte
      simp only [List.mem_cons, reduceCtorEq, List.not_mem_nil, or_false, false_or] at hsent
      cases hsent
      cases htype
  | @sampled _ _ corrId sample hhead hread =>
      simp only [List.mem_cons, reduceCtorEq, List.not_mem_nil, or_false, false_or] at hsent
      simp only [List.mem_cons, reduceCtorEq, List.not_mem_nil, or_false] at hreceived
      cases hsent
      cases hreceived
      rw [readCorrelationId_message hwritten, Option.some.injEq] at hread
      refine ⟨query_of_head hwritten hhead, sample, by rw [hread], ?_⟩
      exact hlines _ (List.mem_cons_of_mem _ List.mem_cons_self)

/-- The snapshot in an answer is one that the engine has taken. -/
theorem OwnAnswer.snapshot (h : OwnAnswer gateway t q msg)
    (hwritten : q.query.message q.corrId = .ok q.message)
    (htype : msg.head? = some Server.MSG_BALANCE_RESPONSE) :
    ∃ data, msg = serializeBalanceSnapshot q.corrId data ∧
      .snapshot data ∈ Serving.lines (serverTrace t.trace) := by
  obtain ⟨b, hexchange, hreceived, hsent, hlines⟩ := h
  cases hexchange with
  | accepted | ignored => simp at hsent
  | refused | created | sampled =>
      simp only [List.mem_cons, reduceCtorEq, List.not_mem_nil, or_false, false_or] at hsent
      cases hsent
      cases htype
  | @snapshot _ _ corrId data hhead hread =>
      simp only [List.mem_cons, reduceCtorEq, List.not_mem_nil, or_false, false_or] at hsent
      simp only [List.mem_cons, reduceCtorEq, List.not_mem_nil, or_false] at hreceived
      cases hsent
      cases hreceived
      rw [readCorrelationId_message hwritten, Option.some.injEq] at hread
      refine ⟨data, by rw [hread], ?_⟩
      exact hlines _ (List.mem_cons_of_mem _ List.mem_cons_self)

end Answers

section Runs

variable {gateway : Bytes} {wal : Wal.WriteAheadLog} {acts : List Action}
  {t : Traced Remote Event}

/-- **A sample that the collector gets** is left of one the engine has taken. -/
theorem run_collects (h : runRemote gateway wal acts = some t) {result : MetricsResult}
    (hcollects : t.state.Collects result) :
    ∃ q ∈ t.state.asked, q.query = .getMetrics ∧
      ∃ sample, .sampled sample ∈ Serving.lines (serverTrace t.trace) ∧
        SampleOf q.corrId (sampleData sample) result := by
  obtain ⟨i, call, msg, hcall, hpc, hparse⟩ := hcollects
  obtain ⟨q, hq, hown, -, -⟩ := run_returned h hcall hpc
  have hin := List.mem_of_getElem? hq
  have htype : msg.head? = some Server.MSG_METRICS_RESPONSE := by
    obtain ⟨type, hindex, hrest⟩ := bind_eq_ok.mp hparse
    split at hrest
    next => cases hrest
    next hsame =>
      rw [Deployment.head_of_index hindex, not_not.mp hsame]
      rfl
  obtain ⟨hquery, sample, rfl, hline⟩ := hown.sample ((run_accounted h).written q hin) htype
  exact ⟨q, hin, hquery, sample, hline, sampleOf_parse hparse⟩

/-- **A balance sheet** is left of a snapshot the engine has taken. -/
theorem run_responds (h : runRemote gateway wal acts = some t) {i : Nat} {result : SnapshotResult}
    (hresponds : t.state.Responds i result) :
    ∃ q, t.state.asked[i]? = some q ∧
      ∃ data, .snapshot data ∈ Serving.lines (serverTrace t.trace) ∧
        SheetOf q.corrId data result := by
  obtain ⟨call, -, msg, hcall, -, -, hpc, hparse⟩ := hresponds
  obtain ⟨q, hq, hown, -, -⟩ := run_returned h hcall hpc
  have htype : msg.head? = some Server.MSG_BALANCE_RESPONSE := by
    obtain ⟨type, hindex, hrest⟩ := bind_eq_ok.mp hparse
    split at hrest
    next => cases hrest
    next hsame =>
      rw [Deployment.head_of_index hindex, not_not.mp hsame]
      rfl
  obtain ⟨data, rfl, hline⟩ :=
    hown.snapshot ((run_accounted h).written q (List.mem_of_getElem? hq)) htype
  exact ⟨q, hq, data, hline, sheetOf_parse hparse⟩

/-- What is known of the samples that were broadcast. -/
def SamplesKnown (r : Remote) (tr : List Event) : Prop :=
  ∀ result, .metrics result ∈ tr → ∃ q ∈ r.asked, q.query = .getMetrics ∧
    ∃ sample, .sampled sample ∈ Serving.lines (serverTrace tr) ∧
      SampleOf q.corrId (sampleData sample) result

/-- Only what the collector collects is broadcast. -/
theorem Effect.metrics {r r' : Remote} {es : List Event} (h : Effect gateway r r' es)
    {result : MetricsResult} (hmem : .metrics result ∈ es) : r.Collects result := by
  cases h with
  | collects hcollects =>
      cases List.mem_singleton.mp hmem
      exact hcollects
  | asks | moves | receives | loses | delivers | arrives | serves | goesOn => simp at hmem

theorem run_samplesKnown (h : runRemote gateway wal acts = some t) :
    SamplesKnown t.state t.trace := by
  refine traced_of_takes SamplesKnown ?_ ?_ (visits_end h)
  · intro result hmem
    cases hmem
  · intro u a u' es htakes hstep hu
    obtain ⟨before, -, -, hbefore⟩ := htakes.source
    have heffect := step_effect hstep
    have hkept : ∀ result, (∃ q ∈ u.state.asked, q.query = .getMetrics ∧
        ∃ sample, .sampled sample ∈ Serving.lines (serverTrace u.trace) ∧
          SampleOf q.corrId (sampleData sample) result) →
        ∃ q ∈ u'.state.asked, q.query = .getMetrics ∧
          ∃ sample, .sampled sample ∈ Serving.lines (serverTrace (u.trace ++ es)) ∧
            SampleOf q.corrId (sampleData sample) result := by
      intro result hknown
      obtain ⟨q, hq, hquery, sample, hline, hleft⟩ := hknown
      refine ⟨q, heffect.asked.subset hq, hquery, sample, ?_, hleft⟩
      rw [serverTrace_append, Serving.lines_append]
      exact List.mem_append_left _ hline
    intro result hmem
    rcases List.mem_append.mp hmem with hold | hnew
    · exact hkept result (hu result hold)
    · exact hkept result (run_collects hbefore (heffect.metrics hnew))

/-! ## §3. Every run. -/

/-- **What the dashboard shows.** -/
structure ShowsIds (t : Traced Remote Event) : Prop where
  /-- The rate and the latency of a sample are the halves of a correlation id; its
  count and its flag are bits of the rate and of the latency. -/
  samples : ∀ result, .metrics result ∈ t.trace → ∃ q ∈ t.state.asked, q.query = .getMetrics ∧
    ∃ sample, .sampled sample ∈ Serving.lines (serverTrace t.trace) ∧
      SampleOf q.corrId (sampleData sample) result
  /-- The flag and the assets of a balance sheet are bytes of a correlation id. -/
  sheets : ∀ i result, t.state.Responds i result → ∃ q, t.state.asked[i]? = some q ∧
    ∃ data, .snapshot data ∈ Serving.lines (serverTrace t.trace) ∧ SheetOf q.corrId data result

/-- **THE DASHBOARD SHOWS CORRELATION IDS.**  In every run, whatever the state of
the ledger: the alarm of a broken invariant, the rates and the totals that it is
told are not those of the engine. -/
theorem dashboard_shows_ids (h : runRemote gateway wal acts = some t) : ShowsIds t :=
  ⟨run_samplesKnown h, fun _ _ hresponds => run_responds h hresponds⟩

end Runs

/-- The samples that were broadcast. -/
def Event.asMetrics : Event → Option MetricsResult
  | .client _ => none
  | .server _ => none
  | .metrics sample => some sample

/-- A sample is broadcast; then a balance sheet is asked for. -/
def sampleThenSheet : List Action :=
  [.poll (repeatedId 9), .call (.sent 0), .deliver 0] ++ ioWorks 12 ++
    [.receive 0, .call (.resume 0), .collect, .broadcastEnds,
      .ask .getBalanceSnapshot (repeatedId 5), .call (.sent 1), .deliver 0] ++ ioWorks 9 ++
    [.receive 0, .call (.resume 1)]

/-- The ledger is empty.  The rate and the assets are made of the ids. -/
theorem sampleThenSheet_shows :
    ∃ t sheet, runRemote [7] newLog sampleThenSheet = some t ∧ ShowsIds t ∧
      (t.trace.filterMap Event.asMetrics).map MetricsResult.tps = [0x0909090909090909] ∧
      t.state.Responds 1 sheet ∧ sheet.totalAssets = 0x0505050505050505 := by
  have hrun : (runRemote [7] newLog sampleThenSheet).map (fun t =>
      ((t.trace.filterMap Event.asMetrics).map MetricsResult.tps,
        (t.state.client.calls[1]?).map Call.pc, (t.state.asked[1]?).map Asked.query)) =
      some ([0x0909090909090909], some (.returned (serializeBalanceSnapshot (repeatedId 5)
        ⟨[], 0, 0, 0, true⟩)), some .getBalanceSnapshot) := by
    decide +kernel
  obtain ⟨t, ht, heq⟩ := Option.map_eq_some_iff.mp hrun
  simp only [Prod.mk.injEq, Option.map_eq_some_iff] at heq
  obtain ⟨htps, ⟨call, hcall, hpc⟩, q, hq, hquery⟩ := heq
  have hparse : parseBalanceSnapshot (serializeBalanceSnapshot (repeatedId 5)
      ⟨[], 0, 0, 0, true⟩) = .ok ⟨true, 0x0505050505050505, 0x0105050505050505, 0, []⟩ := by
    decide +kernel
  exact ⟨t, _, ht, dashboard_shows_ids ht, htps, ⟨call, q, _, hcall, hq, hquery, hpc, hparse⟩, rfl⟩

end Remote

end ZeroLGR.Gateway
