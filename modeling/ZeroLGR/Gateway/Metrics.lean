/-
  ZeroLGR.Gateway.Metrics — when a metrics sample arrives.

  `serialize_metrics` writes the correlation id behind the type; the parser of
  `get_metrics` reads all four fields from offset 1 on, where the id stands.
  The two rates are then the id, the count is the first rate, and the flag is a
  byte of the second.

    • `parseMetrics_serialize` — what the parser makes of any message,
    • `SampleCoincides` — what the fields have to be for it to be right,
    • `metrics_iff` — the sample arrives exactly then.
-/
import ZeroLGR.Gateway.Snapshot

namespace ZeroLGR.Gateway

open Span Ledger Server

/-! ## §1. Words. -/

theorem unsigned_le64 (v : UInt64) : unsigned (le64 v) = v := by
  rw [unsigned, ofLE_le64, UInt64.ofNat_toNat]

/-- Eight bytes are those of the word they are read as. -/
theorem le64_unsigned {bs : Bytes} (h : bs.length = 8) : le64 (unsigned bs) = bs :=
  le64_ofLE h

theorem unsigned_eq_iff {bs : Bytes} (h : bs.length = 8) {v : UInt64} :
    unsigned bs = v ↔ bs = le64 v := by
  constructor
  · intro hread
    rw [← hread, le64_unsigned h]
  · intro hbytes
    rw [hbytes, unsigned_le64]

/-! ## §2. The sample. -/

/-- The sample a result stands for. -/
def MetricsResult.data (result : MetricsResult) : MetricsSampleData :=
  ⟨result.tps, result.avgLatencyUs, result.txCount, result.invariantOk⟩

/-- **The sample arrives**: the parser returns it, every field as it was sent. -/
def SampleArrives (corrId : Uuid) (sample : MetricsSampleData) : Prop :=
  ∃ result, parseMetrics (serializeMetrics corrId sample) = .ok result ∧ result.data = sample

/-- **What the fields have to be.**  The correlation id consists of the two rates,
the count has the bits of the first, and the flag says whether the lowest byte of
the second is not zero. -/
structure SampleCoincides (corrId : Uuid) (sample : MetricsSampleData) : Prop where
  tps : slice corrId.bytes 0 8 = le64 sample.tps
  avgLatencyUs : slice corrId.bytes 8 16 = le64 sample.avgLatencyUs
  txCount : sample.txCount = sample.tps
  invariantOk : sample.invariantOk = decide (slice (le64 sample.avgLatencyUs) 0 1 ≠ [0])

section Parser

variable (corrId : Uuid) (sample : MetricsSampleData)

/-- The message, cut where the parser cuts it. -/
theorem serializeMetrics_eq :
    serializeMetrics corrId sample =
      [MSG_METRICS_RESPONSE] ++ ((slice corrId.bytes 0 8 ++ (slice corrId.bytes 8 16 ++
        (le64 sample.tps ++ slice (le64 sample.avgLatencyUs) 0 1))) ++
          (slice (le64 sample.avgLatencyUs) 1 8 ++
            (le64 sample.txCount ++ [flagByte sample.invariantOk]))) := by
  have hid : corrId.bytes = slice corrId.bytes 0 8 ++ slice corrId.bytes 8 16 := by
    rw [slice_append _ (by decide) (by decide)]
    conv_lhs => rw [← slice_all corrId.bytes, corrId.length_eq]
  have hlatency : le64 sample.avgLatencyUs =
      slice (le64 sample.avgLatencyUs) 0 1 ++ slice (le64 sample.avgLatencyUs) 1 8 := by
    rw [slice_append _ (by decide) (by decide)]
    conv_lhs => rw [← slice_all (le64 sample.avgLatencyUs), length_le64]
  have hmsg : serializeMetrics corrId sample = [MSG_METRICS_RESPONSE] ++ (corrId.bytes ++
      (le64 sample.tps ++ (le64 sample.avgLatencyUs ++
        (le64 sample.txCount ++ [flagByte sample.invariantOk])))) := by
    simp only [serializeMetrics, List.append_assoc]
    rfl
  rw [hmsg]
  conv_lhs => rw [hid, hlatency]
  simp only [List.append_assoc]

/-- **What the parser makes of the message**, whatever is in it. -/
theorem parseMetrics_serialize :
    parseMetrics (serializeMetrics corrId sample) =
      .ok ⟨unsigned (slice corrId.bytes 0 8), unsigned (slice corrId.bytes 8 16), sample.tps,
        decide (slice (le64 sample.avgLatencyUs) 0 1 ≠ [0])⟩ := by
  have hfirst : (slice corrId.bytes 0 8).length = 8 :=
    length_slice (by rw [corrId.length_eq]; decide)
  have hsecond : (slice corrId.bytes 8 16).length = 8 :=
    length_slice (by rw [corrId.length_eq])
  have hbyte : (slice (le64 sample.avgLatencyUs) 0 1).length = 1 :=
    length_slice (by rw [length_le64]; decide)
  obtain ⟨htype, hwhole⟩ := at_append.mp (at_of_eq (serializeMetrics_eq corrId sample))
  obtain ⟨hwords, -⟩ := at_append.mp hwhole
  have hread := unpackFrom_at hwords
  simp only [List.length_append, hfirst, hsecond, hbyte, length_le64, Nat.reduceAdd, Nat.zero_add,
    List.length_singleton] at hread
  obtain ⟨hw₁, hw₂, hw₃, hw₄⟩ := slice_words hfirst hsecond (length_le64 sample.tps) hbyte
  unfold parseMetrics
  simp only [index_at htype, ok_bind, ne_eq, not_true_eq_false, if_false, hread, hw₁, hw₂, hw₃,
    hw₄, unsigned_le64]
  rfl

end Parser

/-- **WHEN A METRICS SAMPLE ARRIVES.**  For every correlation id and every sample:
exactly if the correlation id, the count and the flag coincide with what the
parser takes for them. -/
theorem metrics_iff (corrId : Uuid) (sample : MetricsSampleData) :
    SampleArrives corrId sample ↔ SampleCoincides corrId sample := by
  have hfirst : (slice corrId.bytes 0 8).length = 8 :=
    length_slice (by rw [corrId.length_eq]; decide)
  have hsecond : (slice corrId.bytes 8 16).length = 8 :=
    length_slice (by rw [corrId.length_eq])
  constructor
  · intro harrives
    obtain ⟨result, hresult, hdata⟩ := harrives
    rw [parseMetrics_serialize] at hresult
    cases hresult
    obtain ⟨tps, avgLatencyUs, txCount, invariantOk⟩ := sample
    simp only [MetricsResult.data, MetricsSampleData.mk.injEq] at hdata
    obtain ⟨htps, hlatency, hcount, hflag⟩ := hdata
    exact ⟨(unsigned_eq_iff hfirst).mp htps, (unsigned_eq_iff hsecond).mp hlatency, hcount.symm,
      hflag.symm⟩
  · intro h
    refine ⟨_, parseMetrics_serialize corrId sample, ?_⟩
    have htps := (unsigned_eq_iff hfirst).mpr h.tps
    have hlatency := (unsigned_eq_iff hsecond).mpr h.avgLatencyUs
    have hcount := h.txCount
    have hflag := h.invariantOk
    obtain ⟨tps, avgLatencyUs, txCount, invariantOk⟩ := sample
    simp only [MetricsResult.data, MetricsSampleData.mk.injEq]
    exact ⟨htps, hlatency, hcount.symm, hflag.symm⟩

/-- The first sample of an engine that has done nothing. -/
def idleSample : MetricsSampleData := ⟨0, 0, 0, true⟩

/-- **It does not arrive**, under any correlation id: the flag is read off the
latency.  Here the rates are those of the correlation id. -/
theorem idleSample_lost :
    (∀ corrId, ¬ SampleArrives corrId idleSample) ∧
      parseMetrics (serializeMetrics (repeatedId 1) idleSample) =
        .ok ⟨0x0101010101010101, 0x0101010101010101, 0, false⟩ := by
  refine ⟨?_, by decide +kernel⟩
  intro corrId harrives
  obtain ⟨result, hresult, hdata⟩ := harrives
  rw [parseMetrics_serialize] at hresult
  cases hresult
  have hflag : decide (slice (le64 0) 0 1 ≠ [0]) = true :=
    congrArg MetricsSampleData.invariantOk hdata
  exact absurd hflag (by decide)

end ZeroLGR.Gateway
