/-
  ZeroLGR.Wal.Grammar — replay as a parser of the frame grammar.

  A log is a chain of frames.  `replay` accepts the longest chain from the start
  of the mapping: what it skips over is the encoding of what it delivers, and
  where it stops the frame of no payload stands.  The size field has 32 bits,
  so for a payload of `2 ^ 32` bytes or more `append` writes a header that
  announces less, and `replay` looks for the checksum too early.

    • `Stands` — what `append` writes for a payload stands at an offset,
    • `Accepts` — a replay has accepted exactly a list of payloads,
    • `replay_accepts` — every replay that meets no oversize field has,
    • `oversizeLog_not_accepted` — a log of more than four gigabytes on which the
      frame of an oversize payload stands where `replay` stops.
-/
import ZeroLGR.Wal.Resume

namespace ZeroLGR.Wal

open Bytes Emit

/-! ## §1. What `append` writes. -/

/-- The bytes `append` writes for `p` stand at the offset, and lie inside the
first `M` bytes. -/
structure Stands (m : Nat → UInt8) (M off : Nat) (p : Bytes) : Prop where
  fits : Fits M off p
  read : readAt m off (12 + p.length) = encodeFrame p

/-- For a payload whose size fits into the size field this is a frame. -/
theorem stands_iff_frameIn {m : Nat → UInt8} {M off : Nat} {p : Bytes} (hp : p.length < 2 ^ 32) :
    Stands m M off p ↔ FrameIn m M off p := by
  constructor
  · intro h
    exact ⟨frameAt_iff_read.mpr ⟨hp, h.read⟩, h.fits⟩
  · intro h
    exact ⟨h.2, h.1.read⟩

/-! ## §2. Acceptance. -/

/-- A replay of `w` accepts exactly the payloads `ps`: it delivers them, stops
inside the mapping behind their frames, where no payload of the kind `Payload`
stands, and would do the same again. -/
structure WriteAheadLog.Accepts (w : WriteAheadLog) (Payload : Bytes → Prop) (ps : List Bytes) :
    Prop where
  returned : w.replay.outcome = .returned ps.length
  delivered : w.replay.delivered = numbered 0 ps
  offset_le : w.replay.log.writeOffset ≤ w.mappedSize
  read : readAt w.file.byte 0 w.replay.log.writeOffset = encodeFrames ps
  maximal : ∀ p, Payload p → ¬ Stands w.file.byte w.mappedSize w.replay.log.writeOffset p
  sequence : w.replay.log.sequence = ps.length
  again : w.replay.log.replay = w.replay

section Accepting

variable {w : WriteAheadLog}

/-- Offset and sequence are not read by `replay`. -/
theorem replay_resumeAt (hw : w.Live) {ps : List Bytes} (hps : FramesAt w.file.byte 0 ps)
    (hfit : framesLength ps ≤ w.mappedSize)
    (hquiet : Quiet w.file.byte w.mappedSize (framesLength ps)) (pos : ReplayPos) :
    (w.resumeAt pos).replay = w.replay := by
  have hlive : (w.resumeAt pos).Live := ⟨hw.mapped, hw.covers⟩
  have hagain : (w.resumeAt pos).replay =
      ⟨.returned ps.length, numbered 0 ps,
        (w.resumeAt pos).resumeAt ⟨framesLength ps, ps.length⟩⟩ :=
    replay_frames hlive hps hfit hquiet
  rw [hagain, replay_frames hw hps hfit hquiet]
  rfl

/-- Nothing whose size fits into the size field stands at a quiet offset. -/
theorem Quiet.not_stands {m : Nat → UInt8} {M off : Nat} (h : Quiet m M off) {p : Bytes}
    (hp : p.length < 2 ^ 32) : ¬ Stands m M off p :=
  fun hstands => h.1 p ((stands_iff_frameIn hp).mp hstands)

/-- **REPLAY ACCEPTS EXACTLY THE FRAME GRAMMAR.**  Whatever the mapping holds, as
long as no size field met is `2 ^ 32 - 12` or more: `replay` returns, what it
delivers are the payloads of the chain of frames below its write offset, and no
payload of less than `2 ^ 32` bytes stands behind it. -/
theorem replay_accepts (hw : w.Live) (hsizes : w.SizesSmall) :
    ∃ ps, w.Accepts (fun p => p.length < 2 ^ 32) ps := by
  obtain ⟨ps, hps, hfit, hquiet, hreplay⟩ := replay_tame hw hsizes.tame
  have hlog : w.replay.log = w.resumeAt ⟨framesLength ps, ps.length⟩ := by rw [hreplay]
  have hoff : w.replay.log.writeOffset = framesLength ps := by
    rw [hlog]
    rfl
  refine ⟨ps, ?_⟩
  exact
    { returned := by rw [hreplay]
      delivered := by rw [hreplay]
      offset_le := by rwa [hoff]
      read := by rw [hoff, hps.read]
      maximal := by
        intro p hp
        rw [hoff]
        exact hquiet.not_stands hp
      sequence := by
        rw [hlog]
        rfl
      again := by
        rw [hlog]
        exact replay_resumeAt hw hps hfit hquiet _ }

/-- The list is the only one. -/
theorem WriteAheadLog.Accepts.unique {P Q : Bytes → Prop} {ps qs : List Bytes}
    (hps : w.Accepts P ps) (hqs : w.Accepts Q qs) : ps = qs :=
  numbered_inj (hps.delivered.symm.trans hqs.delivered)

end Accepting

/-- On the file of a frame, zeros and another frame, the first frame is all
that is accepted. -/
theorem staleLog_accepts :
    staleLog.Accepts (fun p => p.length < 2 ^ 32) [[1]] := by
  obtain ⟨ps, hps⟩ := replay_accepts staleLog_wellMapped.toLive staleLog_sizesSmall
  have hdel : staleLog.replay.delivered = numbered 0 [[1]] := by decide +kernel
  have heq : ps = [[1]] := numbered_inj (hps.delivered.symm.trans hdel)
  rwa [heq] at hps

/-! ## §3. An oversize payload. -/

/-- A payload whose size reads zero in 32 bits. -/
def oversizePayload : Bytes := List.replicate (2 ^ 32) 1

theorem length_oversizePayload : oversizePayload.length = 2 ^ 32 := List.length_replicate

/-- A file that holds the frame `append` writes for it. -/
def oversizeImage : FileImage :=
  (FileImage.empty.resize (2 ^ 32 + 4096)).overwrite 0 (encodeFrame oversizePayload) (by
    rw [length_encodeFrame, length_oversizePayload]
    show 0 + (12 + 2 ^ 32) ≤ 2 ^ 32 + 4096
    omega)

/-- The log the constructor makes of that file. -/
def oversizeLog : WriteAheadLog :=
  freshLog page4096 "ledger.wal" oversizeImage (2 ^ 32 + 4096)

theorem oversizeLog_live : oversizeLog.Live := ⟨rfl, rfl⟩

theorem oversizeLog_byte :
    oversizeLog.file.byte =
      writeAt (FileImage.empty.resize (2 ^ 32 + 4096)).byte 0 (encodeFrame oversizePayload) :=
  FileImage.byte_resize oversizeImage (Nat.le_refl (2 ^ 32 + 4096))

theorem oversizeLog_stands :
    Stands oversizeLog.file.byte oversizeLog.mappedSize 0 oversizePayload := by
  refine ⟨?_, ?_⟩
  · show 0 + (12 + oversizePayload.length) ≤ 2 ^ 32 + 4096
    rw [length_oversizePayload]
    omega
  · rw [oversizeLog_byte, ← length_encodeFrame]
    exact readAt_writeAt _ _ _

/-- Its header announces no data, and the word behind the header is not zero. -/
theorem oversizeLog_head :
    HeaderAt oversizeLog.file.byte 0 0 ∧ wordAt oversizeLog.file.byte 8 = 0x01010101 := by
  have hread := oversizeLog_stands.read
  have hlen : 12 + oversizePayload.length = 4 + (4 + (4 + 2 ^ 32)) := by
    rw [length_oversizePayload]
    omega
  have hsize : UInt32.ofNat oversizePayload.length = 0 := by
    rw [length_oversizePayload]
    rfl
  have hdata : oversizePayload = List.replicate 4 1 ++ List.replicate (2 ^ 32 - 4) 1 := by
    rw [← List.replicate_add]
    rfl
  rw [hlen, readAt_append, readAt_append, readAt_append, encodeFrame, hsize] at hread
  obtain ⟨hmagic, hread⟩ := List.append_inj hread (by simp)
  obtain ⟨hzero, hread⟩ := List.append_inj hread (by simp)
  rw [hdata, List.append_assoc] at hread
  obtain ⟨hword, -⟩ := List.append_inj hread (by simp)
  refine ⟨⟨wordAt_eq_iff.mpr hmagic, wordAt_eq_iff.mpr hzero⟩, wordAt_eq_iff.mpr ?_⟩
  exact hword.trans (by decide)

/-- The checksum of no data is zero, so no frame stands there. -/
theorem oversizeLog_not_frameAt (d : Bytes) : ¬ FrameAt oversizeLog.file.byte 0 d := by
  intro hd
  obtain ⟨hheader, hword⟩ := oversizeLog_head
  have hlen : d.length = 0 := length_of_header (n := 0) (by omega) hheader hd
  have hempty : d = [] := List.length_eq_zero_iff.mp hlen
  subst hempty
  have hcrc : wordAt oversizeLog.file.byte 8 = computeCrc32 [] := hd.crc
  rw [hword] at hcrc
  exact absurd hcrc (by decide)

theorem oversizeLog_quiet : Quiet oversizeLog.file.byte oversizeLog.mappedSize (framesLength []) :=
  quiet_of_no_frame (n := 0) (by omega) oversizeLog_head.1 oversizeLog_not_frameAt

/-- **The frame of a payload of `2 ^ 32` bytes stands where `replay` stops.**  Its
size field reads zero, and the first four bytes of the data are not the checksum
of no data. -/
theorem oversizeLog_not_accepted :
    oversizeLog.Live ∧ oversizeLog.SizesSmall ∧ oversizeLog.replay.delivered = [] ∧
      Stands oversizeLog.file.byte oversizeLog.mappedSize oversizeLog.replay.log.writeOffset
        oversizePayload ∧
      ¬ ∃ ps, oversizeLog.Accepts (fun _ => True) ps := by
  have hnil : FramesAt oversizeLog.file.byte 0 [] := FramesAt.nil _ _
  have hfit : framesLength [] ≤ oversizeLog.mappedSize := Nat.zero_le _
  have hreplay := replay_frames oversizeLog_live hnil hfit oversizeLog_quiet
  have hsizes : oversizeLog.SizesSmall := by
    refine sizesSmall_of_frames oversizeLog_live hnil hfit oversizeLog_quiet ?_
    intro size hh
    have hzero : size = 0 := hh.size.symm.trans oversizeLog_head.1.size
    rw [hzero]
    decide
  have hstands : Stands oversizeLog.file.byte oversizeLog.mappedSize
      oversizeLog.replay.log.writeOffset oversizePayload := by
    rw [hreplay]
    exact oversizeLog_stands
  refine ⟨oversizeLog_live, hsizes, by rw [hreplay]; rfl, hstands, ?_⟩
  intro haccepts
  obtain ⟨ps, hps⟩ := haccepts
  exact hps.maximal oversizePayload trivial hstands

end ZeroLGR.Wal
