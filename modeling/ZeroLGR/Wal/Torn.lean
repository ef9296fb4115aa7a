/-
  ZeroLGR.Wal.Torn — a crash in the middle of an append.

  The crash leaves the first `k` bytes of the new frame in the file, and zeros
  behind them.  The checksum covers the data only, and the checksum of no data
  is zero, so zeros behind a magic number are an empty frame.

    • `tornFile` — the file the crash leaves,
    • `torn_cases` — by the cut: nothing stands at the offset of the new frame,
      or the new frame, or a frame that was never written,
    • `torn_replay_iff` — torn writes stay hidden exactly outside the two kinds
      of cuts that make such a frame,
    • `torn_after_magic` — the shortest of them.
-/
import ZeroLGR.Wal.Reopen

namespace ZeroLGR.Wal

open Bytes Emit Transition

/-! ## §1. The torn frame. -/

/-- The file after a crash during the append that takes `w` to `w'`, of whose
frame the first `k` bytes were written. -/
def tornFile (w w' : WriteAheadLog) (k : Nat) : FileImage :=
  (w'.file.resize (w.writeOffset + k)).resize w'.file.size

/-- The data of the frame of `q` when `k` bytes of the frame were written. -/
def tornData (q : Bytes) (k : Nat) : Bytes :=
  q.take (k - 8) ++ List.replicate (q.length - (k - 8)) 0

/-- The cut leaves the magic number and a size field that reads zero. -/
def SpuriousEmpty (q : Bytes) (k : Nat) : Prop :=
  4 ≤ k ∧ k < 8 ∧ q ≠ [] ∧ q.length % 256 ^ (k - 4) = 0

/-- The cut leaves other data than the payload, and their checksum is zero. -/
def SpuriousZeroCrc (q : Bytes) (k : Nat) : Prop :=
  8 ≤ k ∧ tornData q k ≠ q ∧ computeCrc32 (tornData q k) = 0

instance (q : Bytes) (k : Nat) : Decidable (SpuriousEmpty q k) :=
  inferInstanceAs (Decidable (_ ∧ _ ∧ _ ∧ _))

instance (q : Bytes) (k : Nat) : Decidable (SpuriousZeroCrc q k) :=
  inferInstanceAs (Decidable (_ ∧ _ ∧ _))

theorem length_tornData (q : Bytes) (k : Nat) : (tornData q k).length = q.length := by
  rw [tornData, List.length_append, List.length_take, List.length_replicate]
  omega

section Cut

/-- What a memory holds that is `m` below `L + k` and zero from there on, where
`m` has the frame of `q` at `L`. -/
structure CutFrame (m : Nat → UInt8) (L : Nat) (q : Bytes) (k : Nat) (c : Nat → UInt8) : Prop where
  frame : FrameAt m L q
  cut : c = fun i => if i < L + k then m i else 0

variable {m c : Nat → UInt8} {L k : Nat} {q : Bytes}

/-- A span of the torn frame: the part below the cut, then zeros. -/
theorem CutFrame.read (h : CutFrame m L q k c) (a n : Nat) :
    readAt c (L + a) n =
      (readAt m (L + a) n).take (k - a) ++ List.replicate (n - (k - a)) 0 := by
  rw [h.cut, readAt_cut, show L + k - (L + a) = k - a by omega]

theorem CutFrame.zero (h : CutFrame m L q k c) {i : Nat} (hi : L + k ≤ i) : c i = 0 := by
  rw [h.cut]
  exact if_neg (by omega)

/-- Cut inside the magic number: no header. -/
theorem CutFrame.no_header (h : CutFrame m L q k c) (hk : k < 4) (size : UInt32) :
    ¬ HeaderAt c L size := by
  intro hh
  have hread := h.read 0 4
  rw [Nat.add_zero, wordAt_eq_iff.mp hh.magic, wordAt_eq_iff.mp h.frame.header.magic,
      Nat.sub_zero] at hread
  have hall : ∀ j : Fin 4,
      le32 WAL_MAGIC ≠ (le32 WAL_MAGIC).take j ++ List.replicate (4 - j.val) 0 := by decide
  exact hall ⟨k, hk⟩ hread

/-- Cut behind the magic number: a header with what is left of the size. -/
theorem CutFrame.header (h : CutFrame m L q k c) (hk : 4 ≤ k) (hk' : k < 8) :
    HeaderAt c L (UInt32.ofNat (q.length % 256 ^ (k - 4))) := by
  have hlt := h.frame.size_lt
  have hmod : q.length % 256 ^ (k - 4) ≤ q.length := Nat.mod_le _ _
  refine ⟨?_, ?_⟩
  · have hread := h.read 0 4
    rw [Nat.add_zero, wordAt_eq_iff.mp h.frame.header.magic, Nat.sub_zero,
        List.take_of_length_le (by rw [length_le32]; exact hk), Nat.sub_eq_zero_of_le hk] at hread
    exact wordAt_eq_iff.mpr (hread.trans (List.append_nil _))
  · have hread := h.read 4 4
    rw [wordAt_eq_iff.mp h.frame.header.size, le32, toNat_ofNat_length hlt,
        take_toLE (by omega)] at hread
    rw [wordAt_eq_iff, hread, le32, toNat_ofNat32 (by omega)]

/-- Cut behind the size: the whole header. -/
theorem CutFrame.header_whole (h : CutFrame m L q k c) (hk : 8 ≤ k) :
    HeaderAt c L (UInt32.ofNat q.length) :=
  h.frame.header.congr (fun i hi hlt => by rw [h.cut]; exact (if_pos (by omega)).symm)

theorem CutFrame.data (h : CutFrame m L q k c) : readAt c (L + 8) q.length = tornData q k := by
  rw [h.read, h.frame.payload, tornData]

/-- Cut inside the data: the checksum reads zero. -/
theorem CutFrame.crc_zero (h : CutFrame m L q k c) (hk : k ≤ 8 + q.length) :
    wordAt c (L + 8 + q.length) = 0 := by
  rw [wordAt_eq_iff, readAt_zero (fun i hi _ => h.zero (by omega))]
  rfl

/-- Data that are not the payload were cut. -/
theorem tornData_ne (hne : tornData q k ≠ q) : k < 8 + q.length := by
  by_contra hge
  refine hne ?_
  rw [tornData, List.take_of_length_le (by omega), Nat.sub_eq_zero_of_le (by omega)]
  exact List.append_nil q

/-! ## §2. What stands at the offset of the torn frame. -/

/-- **By the cut**: at the offset of the torn frame stands nothing that `replay`
goes on with, or the new frame, or a frame that was never written; the last
exactly for the two spurious kinds of cuts. -/
theorem torn_cases (h : CutFrame m L q k c) (hq : Small q) (M : Nat) :
    (Quiet c M L ∧ ¬ FrameAt c L q ∧ ¬ SpuriousEmpty q k ∧ ¬ SpuriousZeroCrc q k) ∨
      (FrameAt c L q ∧ ¬ SpuriousEmpty q k ∧ ¬ SpuriousZeroCrc q k) ∨
      ∃ d, d ≠ q ∧ FrameAt c L d ∧ d.length ≤ q.length ∧
        (∀ i, L + (12 + d.length) ≤ i → c i = 0) ∧ (SpuriousEmpty q k ∨ SpuriousZeroCrc q k) := by
  unfold Small at hq
  by_cases hmagic : k < 4
  · -- cut inside the magic number
    have hno := h.no_header hmagic
    exact .inl ⟨quiet_of_no_header hno M,
      fun hf => hno _ hf.header, fun hs => by have := hs.1; omega, fun hs => by have := hs.1; omega⟩
  by_cases hsize : k < 8
  · -- cut inside the size field: the data and the checksum are zeros
    have hzcrc : ¬ SpuriousZeroCrc q k := fun hs => by have := hs.1; omega
    have hh := h.header (by omega) hsize
    have hmod : q.length % 256 ^ (k - 4) ≤ q.length := Nat.mod_le _ _
    have hframe : ∀ d, FrameAt c L d → d = [] ∧ q.length % 256 ^ (k - 4) = 0 := by
      intro d hd
      have hlen := length_of_header (by omega) hh hd
      have hzero : d = List.replicate d.length 0 := by
        conv_lhs => rw [← hd.payload]
        exact readAt_zero (fun i hi _ => h.zero (by omega))
      have hcrc : computeCrc32 d = 0 := by
        rw [← hd.crc, wordAt_eq_iff, readAt_zero (fun i hi _ => h.zero (by omega))]
        rfl
      rw [hzero, computeCrc32_zeros (by omega)] at hcrc
      exact ⟨List.length_eq_zero_iff.mp hcrc, by omega⟩
    by_cases hz : q.length % 256 ^ (k - 4) = 0
    · have hempty : FrameAt c L [] := by
        rw [hz] at hh
        refine ⟨by decide, hh, rfl, ?_⟩
        rw [wordAt_eq_iff, readAt_zero (fun i hi _ => h.zero (by
          rw [List.length_nil] at hi
          omega))]
        rfl
      by_cases hq0 : q = []
      · subst hq0
        exact .inr (.inl ⟨hempty, fun hs => hs.2.2.1 rfl, hzcrc⟩)
      · refine .inr (.inr ⟨[], fun heq => hq0 heq.symm, hempty, Nat.zero_le _, ?_,
          .inl ⟨by omega, hsize, hq0, hz⟩⟩)
        intro i hi
        exact h.zero (by rw [List.length_nil] at hi; omega)
    · have hno : ∀ d, ¬ FrameAt c L d := fun d hd => hz (hframe d hd).2
      exact .inl ⟨quiet_of_no_frame (by omega) hh hno, hno q, fun hs => hz hs.2.2.2, hzcrc⟩
  · -- cut behind the size field: the data are those of the payload, as far as they go
    have hsemp : ¬ SpuriousEmpty q k := fun hs => by have := hs.2.1; omega
    have hh := h.header_whole (by omega)
    have hframe : ∀ d, FrameAt c L d → d = tornData q k := by
      intro d hd
      have hlen := length_of_header (by omega) hh hd
      rw [← hd.payload, hlen, h.data]
    by_cases hdata : tornData q k = q
    · have hzcrc : ¬ SpuriousZeroCrc q k := fun hs => hs.2.1 hdata
      by_cases hf : FrameAt c L q
      · exact .inr (.inl ⟨hf, hsemp, hzcrc⟩)
      · have hno : ∀ d, ¬ FrameAt c L d := by
          intro d hd
          rw [hframe d hd, hdata] at hd
          exact hf hd
        exact .inl ⟨quiet_of_no_frame (by omega) hh hno, hf, hsemp, hzcrc⟩
    · have hcut := tornData_ne hdata
      have hlen := length_tornData q k
      by_cases hcrc : computeCrc32 (tornData q k) = 0
      · refine .inr (.inr ⟨tornData q k, hdata, ⟨?_, ?_, ?_, ?_⟩, Nat.le_of_eq hlen, ?_,
          .inr ⟨by omega, hdata, hcrc⟩⟩)
        · rw [hlen]
          omega
        · rw [hlen]
          exact hh
        · rw [hlen, h.data]
        · rw [hlen, hcrc, h.crc_zero (by omega)]
        · intro i hi
          exact h.zero (by rw [hlen] at hi; omega)
      · have hno : ∀ d, ¬ FrameAt c L d := by
          intro d hd
          have heq := hframe d hd
          have hdcrc := hd.crc
          rw [heq, hlen, h.crc_zero (by omega)] at hdcrc
          exact hcrc hdcrc.symm
        exact .inl ⟨quiet_of_no_frame (by omega) hh hno, hno q, hsemp, fun hs => hcrc hs.2.2⟩

end Cut

/-! ## §3. Replay after the crash. -/

section Crash

variable {w w' w'' : WriteAheadLog} {ps : List Bytes} {q : Bytes} {k : Nat}
  {pageSize : PageSize} {os : OsReply} {path : String} {initialSize : Nat}

/-- The reopened file: the frames before the torn one, the torn frame behind
them, zeros from there on. -/
theorem reopened_torn (h : Represents w ps) (happ : Appended w q w') (hq : Small q)
    (hk : k ≤ 12 + q.length)
    (hsame : initialSizeAligned pageSize initialSize = w'.mappedSize)
    (hopen : (construct pageSize os path (tornFile w w' k) initialSize).1 = .returned w'') :
    w''.WellMapped ∧ w''.mappedSize = w'.mappedSize ∧ FramesAt w''.file.byte 0 ps ∧
      CutFrame w'.file.byte (framesLength ps) q k w''.file.byte := by
  obtain ⟨hw'', hwell⟩ := construct_returned_inv hopen
  have hrep := h.append hq happ
  obtain ⟨hold, hnew⟩ := FramesAt.append_iff.mp hrep.frames
  rw [Nat.zero_add] at hnew
  have hend : framesLength ps + (12 + q.length) ≤ w'.mappedSize := by
    have hoff := happ.wellMapped.offset_le
    rwa [happ.writeOffset, h.writeOffset] at hoff
  -- two cuts, of the crash and of `ftruncate`, the second at the end of the file
  have hcut : w''.file.byte = fun i => if i < framesLength ps + k then w'.file.byte i else 0 := by
    have hcovers := happ.wellMapped.covers
    funext i
    rw [hw'']
    show (if i < _ then (if i < w'.file.size then
      (if i < w.writeOffset + k then w'.file.byte i else 0) else 0) else 0) = _
    rw [hsame, hcovers, h.writeOffset]
    by_cases hi : i < framesLength ps + k
    · rw [if_pos hi, if_pos (by omega), if_pos (by omega)]
    · rw [if_neg hi, ite_self, ite_self]
  refine ⟨hwell, by rw [hw'']; exact hsame, ?_, (FramesAt.singleton_iff.mp hnew).2, hcut⟩
  refine hold.congr ?_
  intro i _ hi
  rw [hcut]
  exact (if_pos (by omega)).symm

/-- Whether the bytes of the whole frame are in the file. -/
def WholeFrame (w'' : WriteAheadLog) (off : Nat) (q : Bytes) : Prop :=
  readAt w''.file.byte off (12 + q.length) = encodeFrame q

instance (w'' : WriteAheadLog) (off : Nat) (q : Bytes) : Decidable (WholeFrame w'' off q) :=
  inferInstanceAs (Decidable (_ = _))

/-- What a replay has to deliver: the earlier payloads, and the new one exactly
if the bytes of its whole frame are in the file. -/
def expectedAfterCrash (w'' : WriteAheadLog) (ps : List Bytes) (q : Bytes) : List (Nat × Bytes) :=
  if WholeFrame w'' (framesLength ps) q then numbered 0 (ps ++ [q]) else numbered 0 ps

/-- **The replay of a torn log**, for any log before the crash. -/
theorem replay_torn (h : Represents w ps) (happ : Appended w q w') (hq : Small q)
    (hk : k ≤ 12 + q.length)
    (hsame : initialSizeAligned pageSize initialSize = w'.mappedSize)
    (hopen : (construct pageSize os path (tornFile w w' k) initialSize).1 = .returned w'') :
    w''.replay.delivered = expectedAfterCrash w'' ps q ↔
      ¬ SpuriousEmpty q k ∧ ¬ SpuriousZeroCrc q k := by
  obtain ⟨hwell, hsize, hold, hcut⟩ := reopened_torn h happ hq hk hsame hopen
  have hend : framesLength ps + (12 + q.length) ≤ w''.mappedSize := by
    have hoff := happ.wellMapped.offset_le
    rw [happ.writeOffset, h.writeOffset] at hoff
    omega
  have hwhole : WholeFrame w'' (framesLength ps) q ↔ FrameAt w''.file.byte (framesLength ps) q := by
    rw [frameAt_iff_read]
    exact ⟨fun hr => ⟨by unfold Small at hq; omega, hr⟩, fun hr => hr.2⟩
  -- a frame at the offset, zeros behind it
  have hone : ∀ d, FrameAt w''.file.byte (framesLength ps) d → d.length ≤ q.length →
      (∀ i, framesLength ps + (12 + d.length) ≤ i → w''.file.byte i = 0) →
        w''.replay.delivered = numbered 0 (ps ++ [d]) := by
    intro d hd hlen hzero
    have hdsmall : Small d := by
      unfold Small at hq ⊢
      omega
    have hchain : FramesAt w''.file.byte 0 (ps ++ [d]) := by
      refine FramesAt.append_iff.mpr ⟨hold, FramesAt.singleton_iff.mpr ⟨hdsmall, ?_⟩⟩
      rw [Nat.zero_add]
      exact hd
    rw [← framesLength_snoc] at hzero
    have hfit : framesLength (ps ++ [d]) ≤ w''.mappedSize := by
      rw [framesLength_snoc]
      omega
    rw [replay_frames hwell.toLive hchain hfit (quiet_of_zero hzero _)]
  rcases torn_cases hcut hq w''.mappedSize with
    ⟨hquiet, hno, hbenign⟩ | ⟨hf, hbenign⟩ | ⟨d, hne, hd, hlen, hzero, hbad⟩
  · -- nothing of the torn frame is delivered
    rw [expectedAfterCrash, if_neg (fun hr => hno (hwhole.mp hr)),
        replay_frames hwell.toLive hold (by omega) hquiet]
    exact ⟨fun _ => hbenign, fun _ => rfl⟩
  · -- the whole frame is there
    rw [expectedAfterCrash, if_pos (hwhole.mpr hf), hone q hf (Nat.le_refl _) ?_]
    · exact ⟨fun _ => hbenign, fun _ => rfl⟩
    · intro i hi
      exact hcut.zero (by omega)
  · -- another frame is there
    have hnot : ¬ FrameAt w''.file.byte (framesLength ps) q := fun hf => hne (hd.unique hf)
    rw [expectedAfterCrash, if_neg (fun hr => hnot (hwhole.mp hr)), hone d hd hlen hzero]
    constructor
    · intro heq
      have hlens := congrArg List.length (numbered_inj heq)
      rw [List.length_append, List.length_singleton] at hlens
      omega
    · intro hbenign
      obtain ⟨h₁, h₂⟩ := hbenign
      rcases hbad with hbad | hbad
      · exact absurd hbad h₁
      · exact absurd hbad h₂

/-- **TORN WRITES STAY HIDDEN EXACTLY OUTSIDE THE SPURIOUS CUTS.**  After any
appends to a fresh log and a crash inside the next one, a replay of the file
reopened at the same size delivers the earlier payloads, and the new one exactly
if the bytes of its whole frame are there, if and only if the cut is neither
behind the magic number with a size field that reads zero, nor inside data whose
remaining bytes, followed by zeros, have the checksum zero. -/
theorem torn_replay_iff {os₀ os₁ os₂ : OsReply} {disk : FileImage} {s₁ s₂ seq : Nat}
    {w₀ : WriteAheadLog} (hzero : ∀ i, disk.byte i = 0)
    (hopen : (construct pageSize os₀ path disk s₁).1 = .returned w₀)
    {appends : List (OsReply × Bytes)} (hsmall : ∀ a ∈ appends, Small a.2)
    {t : Traced WriteAheadLog Result}
    (hrun : run (traced callStep) ⟨w₀, []⟩ (appendCalls appends) = some t)
    (hq : Small q) (happ : t.state.append os₁ q = (.returned seq, w'))
    (hk : k ≤ 12 + q.length) (hsame : initialSizeAligned pageSize s₂ = w'.mappedSize)
    (hreopen : (construct pageSize os₂ path (tornFile t.state w' k) s₂).1 = .returned w'') :
    w''.replay.delivered = expectedAfterCrash w'' (appends.map Prod.snd) q ↔
      ¬ SpuriousEmpty q k ∧ ¬ SpuriousZeroCrc q k := by
  obtain ⟨hrep, -⟩ := run_represents _ (represents_fresh hzero hopen)
    (small_appendCalls hsmall) hrun
  rw [List.nil_append, payloads_appendCalls] at hrep
  exact replay_torn hrep (append_returned_inv hrep.toWellMapped happ) hq hk hsame hreopen

end Crash

/-! ## §4. Cuts of one frame. -/

/-- A new log of one page. -/
def onePageLog : WriteAheadLog := freshLog page4096 "ledger.wal" FileImage.empty 4096

theorem onePageLog_opens :
    (construct page4096 OsReply.ok "ledger.wal" FileImage.empty 4096).1 = .returned onePageLog :=
  rfl

theorem onePageLog_append :
    onePageLog.append OsReply.ok [1, 2, 3] =
      (.returned 1, (onePageLog.append OsReply.ok [1, 2, 3]).2) :=
  Prod.ext (by decide +kernel) rfl

/-- **Four bytes of a frame are an empty frame.** -/
theorem torn_after_magic :
    ∃ w' w'', onePageLog.append OsReply.ok [1, 2, 3] = (.returned 1, w') ∧
      (construct page4096 OsReply.ok "ledger.wal" (tornFile onePageLog w' 4) 4096).1 =
        .returned w'' ∧
      w''.replay.delivered = [(1, [])] ∧
      w''.replay.delivered ≠ expectedAfterCrash w'' [] [1, 2, 3] := by
  refine ⟨_, freshLog page4096 "ledger.wal" (tornFile onePageLog _ 4) 4096, onePageLog_append,
    rfl, ?_, ?_⟩
  · decide +kernel
  · decide +kernel

/-- A cut inside the data of the same frame stays hidden. -/
theorem torn_inside_data :
    ∃ w' w'', onePageLog.append OsReply.ok [1, 2, 3] = (.returned 1, w') ∧
      (construct page4096 OsReply.ok "ledger.wal" (tornFile onePageLog w' 10) 4096).1 =
        .returned w'' ∧
      w''.replay.delivered = expectedAfterCrash w'' [] [1, 2, 3] := by
  have hreopen : (construct page4096 OsReply.ok "ledger.wal"
      (tornFile onePageLog (onePageLog.append OsReply.ok [1, 2, 3]).2 10) 4096).1 =
        .returned (freshLog page4096 "ledger.wal"
          (tornFile onePageLog (onePageLog.append OsReply.ok [1, 2, 3]).2 10) 4096) := rfl
  have hsmall : ∀ a ∈ ([] : List (OsReply × Bytes)), Small a.2 := fun _ h => absurd h List.not_mem_nil
  have hrun : run (traced callStep) ⟨onePageLog, []⟩ (appendCalls []) = some ⟨onePageLog, []⟩ := rfl
  exact ⟨_, _, onePageLog_append, hreopen,
    (torn_replay_iff (fun _ => rfl) onePageLog_opens hsmall hrun (by simp [Small])
      onePageLog_append (by decide) (by decide +kernel) hreopen).mpr
        ⟨by decide, by decide +kernel⟩⟩

end ZeroLGR.Wal
