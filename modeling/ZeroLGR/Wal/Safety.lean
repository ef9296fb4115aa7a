/-
  ZeroLGR.Wal.Safety — memory safety and progress of `replay` on any file.

  The frame size of `replay` is a 32-bit sum: from a data size of `2 ^ 32 - 12`
  on it wraps to less than twelve.  The bounds check then passes wherever the
  header itself fits, while the checksum and the data are read at their full
  64-bit offsets.

    • `tame_of_rejected` — oversize headers that are rejected inside the mapping
      do no harm,
    • `replay_safe_iff` — `replay` is safe exactly on these files,
    • `overrunLog_not_safe` — eight bytes of a file are enough to break it.
-/
import ZeroLGR.Wal.Replay

namespace ZeroLGR.Wal

open Bytes Emit

/-! ## §1. Safety. -/

/-- `replay` is safe: its loop ends without an access outside the mapping, and
an iteration that goes on moves the offset by at least twelve and hands out a
span inside the mapping. -/
def WriteAheadLog.ReplaySafe (w : WriteAheadLog) : Prop :=
  (∃ fuel, (scan w.replayNext fuel ⟨0, 0⟩).status = .stopped) ∧
    ∀ items pos item pos', Emits w.replayNext ⟨0, 0⟩ items pos →
      w.replayNext pos = .emit item pos' →
        pos.offset + 12 ≤ pos'.offset ∧ pos.offset + 8 + item.2.length ≤ w.mappedSize

/-- Every header with a size of `2 ^ 32 - 12` or more that follows a chain of
frames announces a frame that lies inside the mapping and has a wrong checksum. -/
def WriteAheadLog.OversizeRejected (w : WriteAheadLog) : Prop :=
  ∀ ps size, FramesAt w.file.byte 0 ps → framesLength ps + 12 ≤ w.mappedSize →
    HeaderAt w.file.byte (framesLength ps) size → 2 ^ 32 - 12 ≤ size.toNat →
      framesLength ps + (12 + size.toNat) ≤ w.mappedSize ∧
        wordAt w.file.byte (framesLength ps + 8 + size.toNat) ≠
          computeCrc32 (readAt w.file.byte (framesLength ps + 8) size.toNat)

section Safety

variable {w : WriteAheadLog}

/-- The frame a header announces, when it has the right checksum. -/
theorem HeaderAt.frame {m : Nat → UInt8} {off : Nat} {size : UInt32} (h : HeaderAt m off size)
    (hcrc : wordAt m (off + 8 + size.toNat) = computeCrc32 (readAt m (off + 8) size.toNat)) :
    FrameAt m off (readAt m (off + 8) size.toNat) := by
  have hlen : (readAt m (off + 8) size.toNat).length = size.toNat := length_readAt _ _ _
  refine ⟨?_, ?_, ?_, ?_⟩
  · rw [hlen]
    exact size.toNat_lt
  · rw [hlen, UInt32.ofNat_toNat]
    exact h
  · rw [hlen]
  · rw [hlen]
    exact hcrc

/-- A frame behind a chain is small: its header would be rejected. -/
theorem small_of_rejected (hrej : w.OversizeRejected) {ps : List Bytes}
    (hps : FramesAt w.file.byte 0 ps) {data : Bytes}
    (hframe : FrameIn w.file.byte w.mappedSize (framesLength ps) data) : Small data := by
  obtain ⟨hf, hfit⟩ := hframe
  unfold Fits at hfit
  by_contra hbig
  have hlen := toNat_ofNat_length hf.size_lt
  unfold Small at hbig
  obtain ⟨-, hcrc⟩ := hrej ps _ hps (by omega) hf.header (by omega)
  rw [hlen, hf.payload] at hcrc
  exact hcrc hf.crc

/-- Rejected oversize headers keep the loop on chains of small frames. -/
theorem tame_of_rejected (hw : w.Live) (hrej : w.OversizeRejected) : w.Tame := by
  -- every position is the end of a chain of small frames
  have hchain : ∀ items pos, Emits w.replayNext ⟨0, 0⟩ items pos →
      ∃ ps, FramesAt w.file.byte 0 ps ∧ pos.offset = framesLength ps := by
    intro items pos h
    refine h.invariant (fun pos => ∃ ps, FramesAt w.file.byte 0 ps ∧ pos.offset = framesLength ps)
      ?_ ⟨[], FramesAt.nil _ _, rfl⟩
    intro pos item pos' hpos hstep
    obtain ⟨ps, hps, hoff⟩ := hpos
    obtain ⟨⟨hf, hfit⟩, -, rfl⟩ := replayNext_emit_inv hw hstep
    rw [hoff] at hf hfit
    have hsmall : Small item.2 := small_of_rejected hrej hps ⟨hf, hfit⟩
    refine ⟨ps ++ [item.2], FramesAt.append_iff.mpr ⟨hps, FramesAt.singleton_iff.mpr ?_⟩, ?_⟩
    · rw [Nat.zero_add]
      exact ⟨hsmall, hf⟩
    · rw [framesLength_snoc, ← hoff, ← advance_of_small hsmall]
  intro items pos h
  obtain ⟨ps, hps, hoff⟩ := hchain items pos h
  rw [hoff]
  constructor
  · intro hover
    obtain ⟨hroom, size, hh, hbig, hout⟩ := hover
    have hin := (hrej ps size hps hroom hh hbig).1
    omega
  · intro data hframe
    exact small_of_rejected hrej hps hframe

/-- A tame log is replayed safely. -/
theorem safe_of_tame (hw : w.Live) (htame : w.Tame) : w.ReplaySafe := by
  refine ⟨⟨_, stops_of_tame hw htame⟩, ?_⟩
  intro items pos item pos' h hstep
  obtain ⟨⟨hf, hfit⟩, -, rfl⟩ := replayNext_emit_inv hw hstep
  have hadv := advance_of_small ((htame items pos h).2 item.2 ⟨hf, hfit⟩)
  unfold Fits at hfit
  show pos.offset + 12 ≤ pos.offset + advance item.2 ∧ _
  omega

/-- A loop that is run to its end faults nowhere on its way. -/
theorem not_fault_of_safe (hsafe : w.ReplaySafe) {items : List (Nat × Bytes)} {pos : ReplayPos}
    (h : Emits w.replayNext ⟨0, 0⟩ items pos) : w.replayNext pos ≠ .fault := by
  obtain ⟨⟨fuel, hfuel⟩, -⟩ := hsafe
  have hend := emits_scan w.replayNext fuel ⟨0, 0⟩
  have hstop := stop_of_scan w.replayNext fuel ⟨0, 0⟩ hfuel
  obtain ⟨rest, -, hrest⟩ := hend.prefix_of_stop hstop h
  intro hfault
  cases hrest with
  | nil => rw [hfault] at hstop; cases hstop
  | cons hstep _ => rw [hfault] at hstep; cases hstep

theorem rejected_of_safe (hw : w.Live) (hsafe : w.ReplaySafe) : w.OversizeRejected := by
  intro ps size hps hroom hh hbig
  have hreach := emits_from_start hw hps (by omega)
  have hin : framesLength ps + (12 + size.toNat) ≤ w.mappedSize := by
    by_contra hout
    have hov : Overrun w.file.byte w.mappedSize (framesLength ps) :=
      ⟨hroom, size, hh, hbig, by omega⟩
    exact not_fault_of_safe hsafe hreach (replayNext_overrun hw hov)
  refine ⟨hin, ?_⟩
  intro hcrc
  -- a valid oversize frame moves the offset by less than twelve
  have hlen : (readAt w.file.byte (framesLength ps + 8) size.toNat).length = size.toNat :=
    length_readAt _ _ _
  have hfit : Fits w.mappedSize (framesLength ps)
      (readAt w.file.byte (framesLength ps + 8) size.toNat) := by
    rw [Fits, hlen]
    exact hin
  have hstep : w.replayNext ⟨framesLength ps, ps.length⟩ = _ :=
    replayNext_frame hw (hh.frame hcrc) hfit
  have hmove : framesLength ps + 12 ≤ framesLength ps +
      advance (readAt w.file.byte (framesLength ps + 8) size.toNat) :=
    (hsafe.2 _ _ _ _ hreach hstep).1
  have hlt := size.toNat_lt
  rw [advance, hlen] at hmove
  omega

/-- **REPLAY IS SAFE EXACTLY ON FILES WHOSE OVERSIZE HEADERS ARE REJECTED.** -/
theorem replay_safe_iff (hw : w.Live) : w.ReplaySafe ↔ w.OversizeRejected :=
  ⟨rejected_of_safe hw, fun hrej => safe_of_tame hw (tame_of_rejected hw hrej)⟩

end Safety

/-! ## §2. Files. -/

/-- A file of one page: a header that announces `2 ^ 32 - 12` bytes, and zeros. -/
def overrunImage : FileImage :=
  (FileImage.empty.resize 4096).overwrite 0 [0x7C, 0x1E, 0xAD, 0xDE, 0xF4, 0xFF, 0xFF, 0xFF]
    (by decide)

/-- The log the constructor makes of that file. -/
def overrunLog : WriteAheadLog where
  pageSize := page4096
  path := "ledger.wal"
  file := overrunImage.resize 4096
  mapped := true
  mappedSize := 4096
  writeOffset := 0
  sequence := 0
  msyncs := []

theorem overrunLog_live : overrunLog.Live := ⟨rfl, rfl⟩

/-- **A file of one page makes `replay` read outside the mapping**: the checksum
of the frame is looked up four gigabytes behind the header. -/
theorem overrunLog_not_safe :
    (construct page4096 OsReply.ok "ledger.wal" overrunImage 4096).1 = .returned overrunLog ∧
      overrunLog.replayNext ⟨0, 0⟩ = .fault ∧ ¬ overrunLog.ReplaySafe := by
  have hheader : HeaderAt overrunLog.file.byte 0 0xFFFFFFF4 := ⟨by decide, by decide⟩
  have hfault : overrunLog.replayNext ⟨0, 0⟩ = .fault :=
    replayNext_overrun overrunLog_live ⟨by decide, 0xFFFFFFF4, hheader, by decide, by decide⟩
  exact ⟨rfl, hfault, fun hsafe => not_fault_of_safe hsafe (.nil _) hfault⟩

/-- The zero file of one page has no header at all. -/
theorem replay_safe_zeroPage :
    (WriteAheadLog.mk page4096 "ledger.wal" (FileImage.empty.resize 4096) true 4096 0 0
      []).ReplaySafe := by
  refine (replay_safe_iff ⟨rfl, rfl⟩).mpr ?_
  intro ps size _ _ hh _
  refine absurd hh (not_headerAt_of_zero (fun i _ _ => ?_) size)
  show (if i < 4096 then FileImage.empty.byte i else 0) = 0
  split <;> rfl

end ZeroLGR.Wal
