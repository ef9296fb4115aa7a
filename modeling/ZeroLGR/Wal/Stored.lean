/-
  ZeroLGR.Wal.Stored — what a file holds from one opening to the next.

  Between two openings there is no offset and no sequence number, only the
  bytes.  They are the frames of some payloads, and zeros behind them; this is
  left by a log that recorded the payloads, and also by one whose growth failed.

    • `Stored` — a chain of frames, and zeros,
    • `Represents.stored_of_threw` — an append that throws leaves them,
    • `Stored.reopened` — frames that fit into the new size are all replayed,
    • `delivered_fits` — and no more than fits is replayed,
    • `fitting`, `Stored.cut` — of frames that do not all fit, exactly those that
      do are replayed.
-/
import ZeroLGR.Wal.FailedAppend

namespace ZeroLGR.Wal

open Bytes

section Storing

variable {w w' : WriteAheadLog} {ps : List Bytes}

/-! ## §1. The bytes that a log leaves. -/

/-- The file holds the frames of `ps` and zeros behind them. -/
structure Stored (file : FileImage) (ps : List Bytes) : Prop where
  read : readAt file.byte 0 (framesLength ps) = encodeFrames ps
  zero : ∀ i, framesLength ps ≤ i → file.byte i = 0

theorem stored_zero {file : FileImage} (hzero : ∀ i, file.byte i = 0) : Stored file [] :=
  ⟨rfl, fun i _ => hzero i⟩

theorem Recorded.stored (h : Recorded w ps) : Stored w.file ps := by
  refine ⟨h.read, ?_⟩
  rw [← h.writeOffset]
  exact h.zero

/-! ## §2. A growth that fails. -/

/-- **An append that throws leaves what is stored.** -/
theorem Represents.stored_of_threw (h : Represents w ps) {os : OsReply} {data : Bytes}
    {what : String} (hlen : data.length < 2 ^ 62)
    (hthrew : w.append os data = (.threw what, w')) : Stored w'.file ps := by
  have hbyte := h.toWellMapped.byte_of_threw hlen hthrew
  have hstored := h.toRecorded.stored
  refine ⟨?_, ?_⟩
  · rw [hbyte]
    exact hstored.read
  · rw [hbyte]
    exact hstored.zero

/-! ## §3. The next opening. -/

/-- Payloads whose frames take less than 4 GiB are small. -/
theorem small_of_framesLength : ∀ {ps : List Bytes}, framesLength ps < 2 ^ 32 → ∀ p ∈ ps, Small p
  | q :: ps, h, p, hp => by
      rw [framesLength_cons] at h
      rcases List.mem_cons.mp hp with rfl | hrest
      · show p.length + 12 < 2 ^ 32
        omega
      · exact small_of_framesLength (by omega) p hrest

/-- **Frames that fit into the new size are all replayed**, and the log goes on
behind them. -/
theorem Stored.reopened {file : FileImage} (h : Stored file ps) {pageSize : PageSize}
    {os : OsReply} {path : String} {initialSize : Nat}
    (hopen : (construct pageSize os path file initialSize).1 = .returned w')
    (hlt : initialSizeAligned pageSize initialSize < 2 ^ 32)
    (hfit : framesLength ps ≤ initialSizeAligned pageSize initialSize) :
    w'.replay.outcome = .returned ps.length ∧ w'.replay.delivered = numbered 0 ps ∧
      Represents w'.replay.log ps := by
  have hsmall := small_of_framesLength (lt_of_le_of_lt hfit hlt)
  exact replay_of_content ⟨hsmall, h.read⟩ h.zero hopen hfit

/-- **What is replayed fits into the mapping**, whatever the file holds. -/
theorem delivered_fits (hw : w.WellMapped) (hlt : w.mappedSize < 2 ^ 32) {n : Nat}
    (hret : w.replay.outcome = .returned n) (hdel : w.replay.delivered = numbered 0 ps) :
    framesLength ps ≤ w.mappedSize := by
  obtain ⟨pos, hemits, -, -, -⟩ := replay_returned_inv hw.toLive hret
  have hitems : ∀ item ∈ w.replay.delivered, Small item.2 := by
    intro item hitem
    obtain ⟨before, after, hsplit⟩ := List.append_of_mem hitem
    have hthere := hemits
    rw [hsplit] at hthere
    -- the iteration that delivered it has seen a frame inside the mapping
    obtain ⟨mid, -, hrest⟩ := Emit.Emits.split before (item :: after) hthere
    cases hrest with
    | cons hstep _ =>
        obtain ⟨⟨-, hfits⟩, -, -⟩ := replayNext_emit_inv hw.toLive hstep
        unfold Fits at hfits
        show item.2.length + 12 < 2 ^ 32
        omega
  obtain ⟨qs, hqs, hend, -, hle⟩ := frames_of_emits hw.toLive hemits hitems (Nat.zero_le _)
  have heq : ps = qs := numbered_inj (hdel.symm.trans hqs)
  rw [hend, ReplayPos.after_start, ← heq] at hle
  exact hle

/-! ## §4. A file that is cut. -/

/-- The payloads whose frames fit into the first `size` bytes. -/
def fitting : Nat → List Bytes → List Bytes
  | _, [] => []
  | size, p :: ps =>
      if 12 + p.length ≤ size then p :: fitting (size - (12 + p.length)) ps else []

theorem framesLength_fitting_le (ps : List Bytes) :
    ∀ size, framesLength (fitting size ps) ≤ size := by
  induction ps with
  | nil => exact fun _ => Nat.zero_le _
  | cons p ps ih =>
      intro size
      unfold fitting
      split
      · have hrest := ih (size - (12 + p.length))
        rw [framesLength_cons]
        omega
      · exact Nat.zero_le _

/-- They are all payloads, or they are followed by one that does not fit. -/
theorem fitting_split (ps : List Bytes) : ∀ size, fitting size ps = ps ∨
    ∃ p rest, ps = fitting size ps ++ p :: rest ∧
      size < framesLength (fitting size ps) + (12 + p.length) := by
  induction ps with
  | nil => exact fun _ => .inl rfl
  | cons p ps ih =>
      intro size
      unfold fitting
      split
      · next hroom =>
          rcases ih (size - (12 + p.length)) with hall | ⟨q, rest, hsplit, hcut⟩
          · left
            rw [hall]
          · right
            refine ⟨q, rest, ?_, ?_⟩
            · rw [List.cons_append, ← hsplit]
            · rw [framesLength_cons]
              omega
      · next hfull =>
          right
          refine ⟨p, ps, rfl, ?_⟩
          rw [framesLength_nil]
          omega

/-- A frame that the end of the mapping cuts off is not taken for another one. -/
theorem quiet_of_cut {m : Nat → UInt8} {M off : Nat} {p : Bytes} (hsmall : Small p)
    (hheader : off + 12 ≤ M → HeaderAt m off (UInt32.ofNat p.length))
    (hcut : M < off + (12 + p.length)) : Quiet m M off := by
  have hlt : p.length < 2 ^ 32 := by
    unfold Small at hsmall
    omega
  constructor
  · intro data hframe
    obtain ⟨hf, hfits⟩ := hframe
    unfold Fits at hfits
    -- a frame that stands there has the size that the header says
    have hlen := length_of_header hlt (hheader (by omega)) hf
    omega
  · intro hover
    obtain ⟨hroom, size, hh, hbig, -⟩ := hover
    have hsize : size = UInt32.ofNat p.length := hh.size.symm.trans (hheader hroom).size
    rw [hsize, toNat_ofNat_length hlt] at hbig
    unfold Small at hsmall
    omega

/-- **Exactly the frames that fit are replayed.** -/
theorem Stored.cut {file : FileImage} (h : Stored file ps) (hsmall : ∀ p ∈ ps, Small p)
    {pageSize : PageSize} {os : OsReply} {path : String} {initialSize : Nat}
    (hopen : (construct pageSize os path file initialSize).1 = .returned w') :
    w'.replay.outcome =
        .returned (fitting (initialSizeAligned pageSize initialSize) ps).length ∧
      w'.replay.delivered =
        numbered 0 (fitting (initialSizeAligned pageSize initialSize) ps) := by
  obtain ⟨hw', hwell⟩ := construct_returned_inv hopen
  have hsize : w'.mappedSize = initialSizeAligned pageSize initialSize := by
    rw [hw']
    rfl
  have hbyte : ∀ i, i < w'.mappedSize → file.byte i = w'.file.byte i := by
    intro i hi
    rw [hsize] at hi
    rw [hw']
    exact (file.byte_resize_of_lt hi).symm
  rw [← hsize]
  have hroom := framesLength_fitting_le ps w'.mappedSize
  have hframes : FramesAt file.byte 0 ps := ⟨hsmall, h.read⟩
  rcases fitting_split ps w'.mappedSize with hall | ⟨p, rest, hsplit, hcut⟩
  · -- nothing is cut off, and zeros follow
    rw [hall] at hroom ⊢
    rw [hsize] at hroom
    obtain ⟨hret, hdel, -⟩ := replay_of_content hframes h.zero hopen hroom
    exact ⟨hret, hdel⟩
  · generalize fitting w'.mappedSize ps = kept at hroom hsplit hcut ⊢
    rw [hsplit, FramesAt.append_iff, FramesAt.cons_iff, Nat.zero_add] at hframes
    obtain ⟨hkept, ⟨hp, hframe⟩, -⟩ := hframes
    have hkept' : FramesAt w'.file.byte 0 kept :=
      hkept.congr (fun i _ hi => hbyte i (by omega))
    have hquiet : Quiet w'.file.byte w'.mappedSize (framesLength kept) := by
      refine quiet_of_cut hp ?_ hcut
      intro hinside
      exact hframe.header.congr (fun i _ hi => hbyte i (by omega))
    rw [replay_frames hwell.toLive hkept' hroom hquiet]
    exact ⟨rfl, rfl⟩

end Storing

end ZeroLGR.Wal
