/-
  ZeroLGR.Wal.BitFlip — one inverted bit in the written frames.

  The checksum covers the data, and detects every inverted bit there and in
  itself; a magic number with an inverted bit is none.  Nothing covers the size
  field: with a bit of it inverted, `replay` takes another span for the data and
  other bytes for the checksum, and these may agree.

    • `flipAt`, `WriteAheadLog.flip` — the inverted bit,
    • `no_frame_outside_size`, `frame_in_size` — what stands at the offset of the
      frame with the inverted bit,
    • `FlippedFrame.prefix_iff`, `FlippedFrame.returns_iff` — what `replay` does,
    • `bitFlip_replay_iff` — the appended payloads survive as a prefix exactly if
      no altered size field announces bytes that check,
    • `flippedSize_delivers` — one that does.
-/
import ZeroLGR.Wal.Reopen

namespace ZeroLGR.Wal

open Bytes Emit Transition

/-! ## §1. Inverted bits. -/

/-- The byte with bit `b` inverted. -/
def flipBit (x : UInt8) (b : Fin 8) : UInt8 := x ^^^ (1 <<< UInt8.ofNat b)

theorem flipBit_ne (x : UInt8) (b : Fin 8) : flipBit x b ≠ x := by
  have hmask : ∀ b : Fin 8, (1 : UInt8) <<< UInt8.ofNat b ≠ 0 := by decide
  intro h
  refine hmask b ((UInt8.xor_right_inj x).mp ?_)
  rw [UInt8.xor_zero]
  exact h

/-- The memory with bit `b` of the byte at `i` inverted. -/
def flipAt (m : Nat → UInt8) (i : Nat) (b : Fin 8) : Nat → UInt8 :=
  fun j => if j = i then flipBit (m j) b else m j

/-- The file with one bit inverted. -/
def FileImage.flip (f : FileImage) (i : Nat) (b : Fin 8) : FileImage where
  size := f.size
  byte := fun j => if j < f.size then flipAt f.byte i b j else f.byte j
  zero_beyond := by
    intro j hj
    rw [if_neg (by omega)]
    exact f.zero_beyond j hj

/-- The log whose file has one bit inverted. -/
def WriteAheadLog.flip (w : WriteAheadLog) (i : Nat) (b : Fin 8) : WriteAheadLog :=
  { w with file := w.file.flip i b }

section Memory

variable {m : Nat → UInt8} {i off n : Nat} {b : Fin 8}

theorem flipAt_same (m : Nat → UInt8) (i : Nat) (b : Fin 8) : flipAt m i b i = flipBit (m i) b :=
  if_pos rfl

theorem flipAt_of_ne {j : Nat} (h : j ≠ i) : flipAt m i b j = m j := if_neg h

theorem FileImage.byte_flip (f : FileImage) (hi : i < f.size) :
    (f.flip i b).byte = flipAt f.byte i b := by
  funext j
  show (if j < f.size then flipAt f.byte i b j else f.byte j) = _
  by_cases hj : j < f.size
  · rw [if_pos hj]
  · rw [if_neg hj, flipAt_of_ne (by omega)]

/-- A span without the bit reads as before. -/
theorem readAt_flipAt_outside (h : i < off ∨ off + n ≤ i) :
    readAt (flipAt m i b) off n = readAt m off n :=
  readAt_congr (fun j hj hlt => flipAt_of_ne (by omega))

/-- A span with the bit has it inverted. -/
theorem readAt_flipAt_inside (hle : off ≤ i) :
    readAt (flipAt m i b) off n = (readAt m off n).modify (i - off) (fun x => flipBit x b) := by
  refine List.ext_getElem? ?_
  intro j
  rw [List.getElem?_modify, readAt_getElem?, readAt_getElem?]
  by_cases hn : j < n
  · rw [if_pos hn, if_pos hn]
    by_cases hj : i - off = j
    · simp [hj, show off + j = i by omega, flipAt_same]
    · simp [hj, flipAt_of_ne (show off + j ≠ i by omega)]
  · rw [if_neg hn, if_neg hn]
    rfl

/-- So it does not read as before. -/
theorem readAt_flipAt_ne (hle : off ≤ i) (hlt : i < off + n) :
    readAt (flipAt m i b) off n ≠ readAt m off n := by
  intro h
  have hbyte := congrArg (fun bs => bs[i - off]?) h
  simp only [readAt_getElem?, if_pos (show i - off < n by omega), Option.some.injEq,
    show off + (i - off) = i by omega, flipAt_same] at hbyte
  exact flipBit_ne _ _ hbyte

theorem wordAt_flipAt_outside (h : i < off ∨ off + 4 ≤ i) :
    wordAt (flipAt m i b) off = wordAt m off := by
  rw [wordAt, wordAt, readAt_flipAt_outside h]

theorem wordAt_flipAt_ne (hle : off ≤ i) (hlt : i < off + 4) :
    wordAt (flipAt m i b) off ≠ wordAt m off := by
  intro h
  refine readAt_flipAt_ne hle hlt (m := m) (b := b) ?_
  rw [readAt_eq_le32, readAt_eq_le32, h]

end Memory

/-! ## §2. What stands at the offset of the frame. -/

/-- The size field of `n`, read with bit `b` of its byte `j` inverted. -/
def flippedSize (n j : Nat) (b : Fin 8) : Nat :=
  ofLE ((toLE 4 n).modify j (fun x => flipBit x b))

/-- A header that announces `n` bytes passes for a frame: they lie inside the
mapping, and the checksum behind them is theirs. -/
def PassesAs (m : Nat → UInt8) (M off n : Nat) : Prop :=
  off + (12 + n) ≤ M ∧ wordAt m (off + 8 + n) = computeCrc32 (readAt m (off + 8) n)

instance (m : Nat → UInt8) (M off n : Nat) : Decidable (PassesAs m M off n) :=
  inferInstanceAs (Decidable (_ ∧ _))

/-- It announces so many bytes that the bounds check is passed, although they
do not lie inside the mapping. -/
def OverrunsAs (M off n : Nat) : Prop := 2 ^ 32 - 12 ≤ n ∧ M < off + (12 + n)

instance (M off n : Nat) : Decidable (OverrunsAs M off n) :=
  inferInstanceAs (Decidable (_ ∧ _))

theorem flippedSize_lt (n j : Nat) (b : Fin 8) : flippedSize n j b < 2 ^ 32 := by
  have h := ofLE_lt ((toLE 4 n).modify j (fun x => flipBit x b))
  rwa [List.length_modify, length_toLE] at h

section Frame

variable {m : Nat → UInt8} {M off i j : Nat} {b : Fin 8} {p : Bytes}

/-- The frame itself is no longer there. -/
theorem not_frameAt_flipAt (hf : FrameAt m off p) (hle : off ≤ i)
    (hlt : i < off + (12 + p.length)) : ¬ FrameAt (flipAt m i b) off p := by
  intro h
  refine readAt_flipAt_ne hle hlt (m := m) (b := b) ?_
  rw [h.read, hf.read]

/-- Data with one bit inverted have another checksum. -/
theorem computeCrc32_modify {k : Nat} (hk : k < p.length) :
    computeCrc32 (p.modify k (fun x => flipBit x b)) ≠ computeCrc32 p := by
  rw [List.modify_eq_take_cons_drop hk]
  have hp : p = p.take k ++ p[k] :: p.drop (k + 1) := by simp
  conv_rhs => rw [hp]
  exact computeCrc32_ne _ _ (flipBit_ne _ _)

/-- **Outside the size field an inverted bit is detected**: nothing stands there
that `replay` goes on with. -/
theorem quiet_outside_size (hf : FrameAt m off p) (hsmall : Small p) (hle : off ≤ i)
    (hlt : i < off + (12 + p.length)) (hout : i < off + 4 ∨ off + 8 ≤ i) :
    Quiet (flipAt m i b) M off := by
  unfold Small at hsmall
  by_cases hmagic : i < off + 4
  · -- the magic number is another
    have hno : ∀ size, ¬ HeaderAt (flipAt m i b) off size := by
      intro size hh
      exact wordAt_flipAt_ne hle hmagic (hh.magic.trans hf.header.magic.symm)
    exact quiet_of_no_header hno M
  · have hh : HeaderAt (flipAt m i b) off (UInt32.ofNat p.length) :=
      hf.header.congr (fun k _ hk => (flipAt_of_ne (by omega)).symm)
    refine quiet_of_no_frame hsmall hh ?_
    intro d hd
    have hlen := length_of_header (by omega) hh hd
    have hpayload := hd.payload
    have hcrc := hd.crc
    rw [hlen] at hpayload hcrc
    by_cases hdata : i < off + 8 + p.length
    · -- the data are others, their checksum is the old one
      rw [readAt_flipAt_inside (by omega), hf.payload] at hpayload
      rw [wordAt_flipAt_outside (.inl hdata), hf.crc, ← hpayload] at hcrc
      exact computeCrc32_modify (by omega) hcrc.symm
    · -- the data are the old ones, their checksum is another
      rw [readAt_flipAt_outside (.inr (by omega)), hf.payload] at hpayload
      rw [← hpayload, ← hf.crc] at hcrc
      exact wordAt_flipAt_ne (by omega) (by omega) hcrc

/-- An altered size field is a size field. -/
theorem header_in_size (hf : FrameAt m off p) (hj : j < 4) :
    HeaderAt (flipAt m (off + 4 + j) b) off (UInt32.ofNat (flippedSize p.length j b)) := by
  constructor
  · rw [wordAt_flipAt_outside (.inr (by omega)), hf.header.magic]
  · have hread := wordAt_eq_iff.mp hf.header.size
    rw [le32, toNat_ofNat_length hf.size_lt] at hread
    rw [wordAt, readAt_flipAt_inside (by omega), hread, Nat.add_sub_cancel_left]
    rfl

/-- **In the size field it depends on the bytes that are announced now.** -/
theorem frame_in_size (hf : FrameAt m off p) (hj : j < 4) :
    (∃ d, FrameIn (flipAt m (off + 4 + j) b) M off d) ↔
      PassesAs m M off (flippedSize p.length j b) := by
  have hh := header_in_size (b := b) hf hj
  have hlt := flippedSize_lt p.length j b
  generalize flippedSize p.length j b = n at hh hlt
  -- behind the size field everything is as it was
  have hdata : readAt (flipAt m (off + 4 + j) b) (off + 8) n = readAt m (off + 8) n :=
    readAt_flipAt_outside (.inl (by omega))
  have hcrc : wordAt (flipAt m (off + 4 + j) b) (off + 8 + n) = wordAt m (off + 8 + n) :=
    wordAt_flipAt_outside (.inl (by omega))
  constructor
  · intro h
    obtain ⟨d, hd, hfit⟩ := h
    have hlen := length_of_header hlt hh hd
    have hpayload := hd.payload
    have hword := hd.crc
    rw [hlen] at hpayload hword
    unfold Fits at hfit
    rw [hlen] at hfit
    rw [hdata] at hpayload
    rw [hcrc, ← hpayload] at hword
    exact ⟨hfit, hword⟩
  · intro h
    obtain ⟨hfit, hword⟩ := h
    have hlen : (readAt m (off + 8) n).length = n := length_readAt _ _ _
    refine ⟨readAt m (off + 8) n, ⟨?_, ?_, ?_, ?_⟩, ?_⟩
    · rw [hlen]
      exact hlt
    · rw [hlen]
      exact hh
    · rw [hlen, hdata]
    · rw [hlen, hcrc, hword]
    · unfold Fits
      rw [hlen]
      exact hfit

theorem overrun_in_size (hf : FrameAt m off p) (hj : j < 4)
    (hfit : off + (12 + p.length) ≤ M) :
    Overrun (flipAt m (off + 4 + j) b) M off ↔ OverrunsAs M off (flippedSize p.length j b) := by
  have hh := header_in_size (b := b) hf hj
  have hlt := flippedSize_lt p.length j b
  constructor
  · intro h
    obtain ⟨-, size, hsize, hbig, hout⟩ := h
    have heq : size = UInt32.ofNat (flippedSize p.length j b) := hsize.size.symm.trans hh.size
    rw [heq, toNat_ofNat32 hlt] at hbig hout
    exact ⟨hbig, hout⟩
  · intro h
    obtain ⟨hbig, hout⟩ := h
    refine ⟨by omega, _, hh, ?_, ?_⟩
    · rw [toNat_ofNat32 hlt]
      exact hbig
    · rw [toNat_ofNat32 hlt]
      exact hout

end Frame

/-! ## §3. Replay. -/

/-- The file of the log has the frames of `before`, `p` and `after`, with one bit
of that of `p` inverted. -/
structure FlippedFrame (w : WriteAheadLog) (m : Nat → UInt8) (before : List Bytes) (p : Bytes)
    (after : List Bytes) (i : Nat) (b : Fin 8) : Prop where
  live : w.Live
  byte : w.file.byte = flipAt m i b
  frames : FramesAt m 0 (before ++ p :: after)
  fit : framesLength (before ++ p :: after) ≤ w.mappedSize
  ge : framesLength before ≤ i
  lt : i < framesLength before + (12 + p.length)

section Replay

variable {w : WriteAheadLog} {m : Nat → UInt8} {before after : List Bytes} {p : Bytes} {i : Nat}
  {b : Fin 8}

theorem FlippedFrame.frame (h : FlippedFrame w m before p after i b) :
    Small p ∧ FrameAt m (framesLength before) p := by
  have hrest := (FramesAt.append_iff.mp h.frames).2
  rw [Nat.zero_add] at hrest
  exact (FramesAt.cons_iff.mp hrest).1

theorem FlippedFrame.room (h : FlippedFrame w m before p after i b) :
    framesLength before + (12 + p.length) ≤ w.mappedSize := by
  have hfit := h.fit
  rw [framesLength_append, framesLength_cons] at hfit
  omega

/-- The frames before it are still there. -/
theorem FlippedFrame.chain (h : FlippedFrame w m before p after i b) :
    FramesAt w.file.byte 0 before := by
  have hge := h.ge
  rw [h.byte]
  exact (FramesAt.append_iff.mp h.frames).1.congr
    (fun j _ hj => (flipAt_of_ne (by omega)).symm)

theorem FlippedFrame.emits (h : FlippedFrame w m before p after i b) :
    Emits w.replayNext ⟨0, 0⟩ (numbered 0 before) ⟨framesLength before, before.length⟩ :=
  emits_from_start h.live h.chain (by have := h.room; omega)

theorem length_le_framesLength (ps : List Bytes) : ps.length ≤ framesLength ps := by
  induction ps with
  | nil => exact Nat.le_refl _
  | cons p ps ih =>
      rw [framesLength_cons, List.length_cons]
      omega

/-- What is delivered does not depend on how the loop ends. -/
theorem replay_delivered (hw : w.Live) :
    w.replay.delivered = (scan w.replayNext (w.mappedSize + 1) ⟨0, 0⟩).emitted := by
  unfold WriteAheadLog.replay
  rw [if_pos hw.mapped]
  dsimp only
  split <;> rfl

/-- Without a frame there, the payloads before it are delivered. -/
theorem FlippedFrame.delivered (h : FlippedFrame w m before p after i b)
    (hno : ∀ d, ¬ FrameIn w.file.byte w.mappedSize (framesLength before) d) :
    w.replay.delivered = numbered 0 before := by
  have hroom := h.room
  have hlen := length_le_framesLength before
  rw [replay_delivered h.live]
  refine emitted_of_end h.emits ?_ (by rw [length_numbered]; omega)
  intro item pos hnext
  exact hno _ (replayNext_emit_inv h.live hnext).1

/-- With a frame there, its data are delivered too. -/
theorem FlippedFrame.delivers (h : FlippedFrame w m before p after i b) {d : Bytes}
    (hd : FrameIn w.file.byte w.mappedSize (framesLength before) d) :
    before ++ [d] <+: w.replay.delivered.map Prod.snd := by
  have hroom := h.room
  have hlen := length_le_framesLength before
  have hmore := h.emits.trans (.single (replayNext_frame h.live hd.1 hd.2))
  have hprefix : numbered 0 before ++ [(before.length + 1, d)] <+: w.replay.delivered := by
    rw [replay_delivered h.live]
    refine prefix_of_scan hmore ?_
    rw [List.length_append, length_numbered, List.length_singleton]
    omega
  have hdata := hprefix.map Prod.snd
  rwa [List.map_append, map_snd_numbered] at hdata

/-- A frame that stands there now is not the one that was written. -/
theorem FlippedFrame.ne (h : FlippedFrame w m before p after i b) {d : Bytes}
    (hd : FrameAt w.file.byte (framesLength before) d) : d ≠ p := by
  rintro rfl
  rw [h.byte] at hd
  exact not_frameAt_flipAt h.frame.2 h.ge h.lt hd

/-- **Replay delivers a first part of the payloads exactly if no frame stands
there.** -/
theorem FlippedFrame.prefix_iff (h : FlippedFrame w m before p after i b) :
    (∃ k, w.replay.delivered = numbered 0 ((before ++ p :: after).take k)) ↔
      ∀ d, ¬ FrameIn w.file.byte w.mappedSize (framesLength before) d := by
  constructor
  · intro hprefix d hd
    obtain ⟨k, hk⟩ := hprefix
    have hdata := h.delivers hd
    rw [hk, map_snd_numbered] at hdata
    have hall := hdata.trans (List.take_prefix k _)
    have hhead := (List.prefix_append_right_inj before).mp hall
    exact h.ne hd.1 (List.cons_prefix_cons.mp hhead).1
  · intro hno
    refine ⟨before.length, ?_⟩
    rw [h.delivered hno, List.take_left]

/-- **It returns with them exactly if moreover it is not led out of the mapping.** -/
theorem FlippedFrame.returns_iff (h : FlippedFrame w m before p after i b) :
    (∃ k, w.replay.outcome = .returned k ∧
        w.replay.delivered = numbered 0 ((before ++ p :: after).take k)) ↔
      Quiet w.file.byte w.mappedSize (framesLength before) := by
  have hroom := h.room
  constructor
  · intro hreturns
    obtain ⟨k, hk, hdelivered⟩ := hreturns
    refine ⟨h.prefix_iff.mp ⟨k, hdelivered⟩, ?_⟩
    intro hover
    -- the loop gets there and faults, so it does not stop
    obtain ⟨pos, hemits, hstop, -, -⟩ := replay_returned_inv h.live hk
    have hfault : w.replayNext ⟨framesLength before, before.length⟩ = .fault :=
      replayNext_overrun h.live hover
    obtain ⟨cs, -, hcs⟩ := hemits.prefix_of_stop hstop h.emits
    cases hcs with
    | nil =>
        rw [hfault] at hstop
        cases hstop
    | cons hstep _ =>
        rw [hfault] at hstep
        cases hstep
  · intro hquiet
    refine ⟨before.length, ?_⟩
    rw [replay_frames h.live h.chain (by omega) hquiet, List.take_left]
    exact ⟨rfl, rfl⟩

end Replay

/-! ## §4. Any log, any bit. -/

/-- The bytes of a log with these payloads: their frames, then zeros. -/
def image (ps : List Bytes) : Nat → UInt8 := fun i => (encodeFrames ps).getD i 0

theorem Represents.byte_eq {w : WriteAheadLog} {ps : List Bytes} (h : Represents w ps) :
    w.file.byte = image ps := by
  funext i
  unfold image
  by_cases hi : i < framesLength ps
  · have hread := readAt_getElem? w.file.byte 0 (framesLength ps) i
    rw [h.read, if_pos hi, Nat.zero_add] at hread
    rw [List.getD_eq_getElem?_getD, hread]
    rfl
  · have hend : (encodeFrames ps).length ≤ i := Nat.not_lt.mp hi
    rw [List.getD_eq_default _ _ hend]
    exact h.zero i (by rw [h.writeOffset]; omega)

/-- The bit lies in the size field of a frame, and `P` holds of the offset of the
frame and of the size that is announced now. -/
def SizeAltered (ps : List Bytes) (i : Nat) (b : Fin 8) (P : Nat → Nat → Prop) : Prop :=
  ∃ k, k < ps.length ∧ ∃ j, j < 4 ∧ i = framesLength (ps.take k) + 4 + j ∧
    P (framesLength (ps.take k)) (flippedSize (ps.getD k []).length j b)

instance (ps : List Bytes) (i : Nat) (b : Fin 8) (P : Nat → Nat → Prop)
    [∀ off n, Decidable (P off n)] : Decidable (SizeAltered ps i b P) :=
  inferInstanceAs (Decidable (∃ k, k < ps.length ∧ ∃ j, j < 4 ∧ _))

/-- Every byte of the frames lies in one of them. -/
theorem exists_frame : ∀ {ps : List Bytes} {i : Nat}, i < framesLength ps →
    ∃ k, ∃ hk : k < ps.length, framesLength (ps.take k) ≤ i ∧
      i < framesLength (ps.take k) + (12 + ps[k].length) := by
  intro ps
  induction ps with
  | nil =>
      intro i hi
      rw [framesLength_nil] at hi
      omega
  | cons p ps ih =>
      intro i hi
      rw [framesLength_cons] at hi
      by_cases hfirst : i < 12 + p.length
      · refine ⟨0, Nat.succ_pos _, Nat.zero_le _, ?_⟩
        show i < 0 + (12 + p.length)
        omega
      · obtain ⟨k, hk, hge, hlt⟩ := ih (i := i - (12 + p.length)) (by omega)
        refine ⟨k + 1, Nat.succ_lt_succ hk, ?_, ?_⟩
        · rw [List.take_succ_cons, framesLength_cons]
          omega
        · rw [List.take_succ_cons, framesLength_cons, List.getElem_cons_succ]
          omega

section Logs

variable {w : WriteAheadLog} {ps : List Bytes} {i k : Nat} {b : Fin 8}

theorem Represents.flipped (h : Represents w ps) (hk : k < ps.length)
    (hge : framesLength (ps.take k) ≤ i)
    (hlt : i < framesLength (ps.take k) + (12 + ps[k].length)) :
    FlippedFrame (w.flip i b) (image ps) (ps.take k) ps[k] (ps.drop (k + 1)) i b := by
  have hps : ps.take k ++ ps[k] :: ps.drop (k + 1) = ps := by simp
  have hfit : framesLength ps ≤ w.mappedSize := by
    rw [← h.writeOffset]
    exact h.offset_le
  have hsum := congrArg framesLength hps
  rw [framesLength_append, framesLength_cons] at hsum
  constructor
  · exact ⟨h.mapped, h.covers⟩
  · have hi : i < w.file.size := by
      rw [h.covers]
      omega
    show (w.file.flip i b).byte = _
    rw [w.file.byte_flip hi, h.byte_eq]
  · rw [hps, ← h.byte_eq]
    exact h.frames
  · rw [hps]
    exact hfit
  · exact hge
  · exact hlt

/-- A frame with the bit outside its size field is noticed. -/
theorem FlippedFrame.in_size_or_quiet {m : Nat → UInt8} {before after : List Bytes} {p : Bytes}
    (h : FlippedFrame w m before p after i b) :
    (∃ j, j < 4 ∧ i = framesLength before + 4 + j) ∨
      Quiet w.file.byte w.mappedSize (framesLength before) := by
  by_cases hsize : framesLength before + 4 ≤ i ∧ i < framesLength before + 8
  · obtain ⟨j, hj⟩ := Nat.exists_eq_add_of_le hsize.1
    exact .inl ⟨j, by omega, hj⟩
  · rw [h.byte]
    exact .inr (quiet_outside_size h.frame.2 h.frame.1 h.ge h.lt (by omega))

/-- What is found at the frame with the bit comes from its size field. -/
theorem Represents.altered_of_found (h : Represents w ps) (hk : k < ps.length)
    (hge : framesLength (ps.take k) ≤ i)
    (hlt : i < framesLength (ps.take k) + (12 + ps[k].length)) :
    ((∃ d, FrameIn (w.flip i b).file.byte w.mappedSize (framesLength (ps.take k)) d) →
      SizeAltered ps i b (PassesAs (image ps) w.mappedSize)) ∧
    (Overrun (w.flip i b).file.byte w.mappedSize (framesLength (ps.take k)) →
      SizeAltered ps i b (OverrunsAs w.mappedSize)) := by
  have hflip := h.flipped (b := b) hk hge hlt
  have hget : ps.getD k [] = ps[k] := List.getD_eq_getElem _ _ hk
  rcases hflip.in_size_or_quiet with ⟨j, hj, hij⟩ | hquiet
  · constructor
    · intro hfound
      refine ⟨k, hk, j, hj, hij, ?_⟩
      rw [hflip.byte, hij] at hfound
      rw [hget]
      exact (frame_in_size hflip.frame.2 hj).mp hfound
    · intro hover
      refine ⟨k, hk, j, hj, hij, ?_⟩
      rw [hflip.byte, hij] at hover
      rw [hget]
      exact (overrun_in_size hflip.frame.2 hj hflip.room).mp hover
  · constructor
    · intro hfound
      obtain ⟨d, hd⟩ := hfound
      exact absurd hd (hquiet.1 d)
    · intro hover
      exact absurd hover hquiet.2

/-- An altered size field belongs to a frame, where it is found. -/
theorem Represents.found_of_altered (h : Represents w ps) {P : Nat → Nat → Prop}
    (haltered : SizeAltered ps i b P) :
    ∃ k, ∃ hk : k < ps.length, ∃ j, j < 4 ∧ i = framesLength (ps.take k) + 4 + j ∧
      P (framesLength (ps.take k)) (flippedSize ps[k].length j b) ∧
      FlippedFrame (w.flip i b) (image ps) (ps.take k) ps[k] (ps.drop (k + 1)) i b := by
  obtain ⟨k, hk, j, hj, hij, hp⟩ := haltered
  rw [List.getD_eq_getElem _ _ hk] at hp
  exact ⟨k, hk, j, hj, hij, hp, h.flipped hk (by omega) (by omega)⟩

/-- **Replay of a log with one bit inverted.** -/
theorem Represents.replay_flip (h : Represents w ps) (hi : i < framesLength ps) (b : Fin 8) :
    ((∃ n, (w.flip i b).replay.delivered = numbered 0 (ps.take n)) ↔
      ¬ SizeAltered ps i b (PassesAs (image ps) w.mappedSize)) ∧
    ((∃ n, (w.flip i b).replay.outcome = .returned n ∧
        (w.flip i b).replay.delivered = numbered 0 (ps.take n)) ↔
      ¬ SizeAltered ps i b (PassesAs (image ps) w.mappedSize) ∧
        ¬ SizeAltered ps i b (OverrunsAs w.mappedSize)) := by
  have hps : ∀ {k : Nat} (hk : k < ps.length), ps.take k ++ ps[k] :: ps.drop (k + 1) = ps := by
    intro k hk
    simp
  -- a frame whose altered size field passes is delivered
  have hpasses : (∃ n, (w.flip i b).replay.delivered = numbered 0 (ps.take n)) →
      ¬ SizeAltered ps i b (PassesAs (image ps) w.mappedSize) := by
    intro hprefix haltered
    obtain ⟨k, hk, j, hj, hij, hp, hflip⟩ := h.found_of_altered haltered
    have hno := hflip.prefix_iff.mp (by rw [hps hk]; exact hprefix)
    obtain ⟨d, hd⟩ := (frame_in_size hflip.frame.2 hj).mpr hp
    rw [← hij, ← hflip.byte] at hd
    exact hno d hd
  -- and one that leads out of the mapping does
  have hoverruns : (∃ n, (w.flip i b).replay.outcome = .returned n ∧
      (w.flip i b).replay.delivered = numbered 0 (ps.take n)) →
        ¬ SizeAltered ps i b (OverrunsAs w.mappedSize) := by
    intro hreturns haltered
    obtain ⟨k, hk, j, hj, hij, hp, hflip⟩ := h.found_of_altered haltered
    have hquiet := hflip.returns_iff.mp (by rw [hps hk]; exact hreturns)
    have hover := (overrun_in_size hflip.frame.2 hj hflip.room).mpr hp
    rw [← hij, ← hflip.byte] at hover
    exact hquiet.2 hover
  obtain ⟨k, hk, hge, hlt⟩ := exists_frame hi
  obtain ⟨hframe, hover⟩ := h.altered_of_found (b := b) hk hge hlt
  have hflip := h.flipped (b := b) hk hge hlt
  have hprefix := hflip.prefix_iff
  have hreturns := hflip.returns_iff
  rw [hps hk] at hprefix hreturns
  refine ⟨⟨hpasses, ?_⟩, ?_, ?_⟩
  · intro hnot
    exact hprefix.mpr (fun d hd => hnot (hframe ⟨d, hd⟩))
  · intro hboth
    obtain ⟨n, hn, hdelivered⟩ := hboth
    exact ⟨hpasses ⟨n, hdelivered⟩, hoverruns ⟨n, hn, hdelivered⟩⟩
  · intro hnot
    exact hreturns.mpr ⟨fun d hd => hnot.1 (hframe ⟨d, hd⟩), fun ho => hnot.2 (hover ho)⟩

end Logs

/-- **ONE INVERTED BIT IS HARMLESS EXACTLY OUTSIDE SIZE FIELDS THAT LIE WELL.**
After any appends to a fresh log and the inversion of any bit of their frames, a
replay delivers the payloads of a first part of them if and only if the bit is
not in a size field whose new value announces bytes inside the mapping with the
checksum behind them.  It returns with them if and only if the new value moreover
does not lead it out of the mapping. -/
theorem bitFlip_replay_iff {pageSize : PageSize} {os : OsReply} {path : String}
    {disk : FileImage} {initialSize : Nat} {w : WriteAheadLog} (hzero : ∀ i, disk.byte i = 0)
    (hopen : (construct pageSize os path disk initialSize).1 = .returned w)
    {appends : List (OsReply × Bytes)} (hsmall : ∀ a ∈ appends, Small a.2)
    {t : Traced WriteAheadLog Result}
    (hrun : run (traced callStep) ⟨w, []⟩ (appendCalls appends) = some t) {i : Nat}
    (hi : i < framesLength (appends.map Prod.snd)) (b : Fin 8) :
    ((∃ n, (t.state.flip i b).replay.delivered = numbered 0 ((appends.map Prod.snd).take n)) ↔
      ¬ SizeAltered (appends.map Prod.snd) i b
        (PassesAs (image (appends.map Prod.snd)) t.state.mappedSize)) ∧
    ((∃ n, (t.state.flip i b).replay.outcome = .returned n ∧
        (t.state.flip i b).replay.delivered = numbered 0 ((appends.map Prod.snd).take n)) ↔
      ¬ SizeAltered (appends.map Prod.snd) i b
          (PassesAs (image (appends.map Prod.snd)) t.state.mappedSize) ∧
        ¬ SizeAltered (appends.map Prod.snd) i b (OverrunsAs t.state.mappedSize)) := by
  obtain ⟨hrep, -⟩ := run_represents _ (represents_fresh hzero hopen)
    (small_appendCalls hsmall) hrun
  rw [List.nil_append, payloads_appendCalls] at hrep
  exact hrep.replay_flip hi b

/-- A bit of the data of the first of two payloads is inverted, and nothing is
delivered. -/
theorem flippedData_detected :
    ∃ t, run (traced callStep) ⟨freshLog page4096 "ledger.wal" FileImage.empty 4096, []⟩
        (appendCalls [(OsReply.ok, [1, 2, 3]), (OsReply.ok, [4])]) = some t ∧
      ∃ n, (t.state.flip 9 0).replay.outcome = .returned n ∧
        (t.state.flip 9 0).replay.delivered = numbered 0 ([[1, 2, 3], [4]].take n) := by
  have hruns : (run (traced callStep) ⟨freshLog page4096 "ledger.wal" FileImage.empty 4096, []⟩
      (appendCalls [(OsReply.ok, [1, 2, 3]), (OsReply.ok, [4])])).map
        (fun t => t.state.mappedSize) = some 4096 := by
    decide +kernel
  obtain ⟨t, ht, hsize⟩ := Option.map_eq_some_iff.mp hruns
  have hopen : (construct page4096 OsReply.ok "ledger.wal" FileImage.empty 4096).1 =
      .returned (freshLog page4096 "ledger.wal" FileImage.empty 4096) := rfl
  have hsmall : ∀ a ∈ [(OsReply.ok, ([1, 2, 3] : Bytes)), (OsReply.ok, [4])], Small a.2 := by
    simp [Small]
  have hiff := bitFlip_replay_iff (fun _ => rfl) hopen hsmall ht (i := 9) (by decide) 0
  rw [hsize] at hiff
  exact ⟨t, ht, hiff.2.mpr ⟨by decide +kernel, by decide +kernel⟩⟩

/-- **A payload that was never appended.**  With bit 2 of the size of four zero
bytes inverted, the size is zero, and the data are its checksum. -/
theorem flippedSize_delivers :
    ∃ t, run (traced callStep) ⟨freshLog page4096 "ledger.wal" FileImage.empty 4096, []⟩
        (appendCalls [(OsReply.ok, [0, 0, 0, 0])]) = some t ∧
      (t.state.flip 4 2).replay.delivered = [(1, [])] ∧
      ∀ n, (t.state.flip 4 2).replay.delivered ≠ numbered 0 ([[0, 0, 0, 0]].take n) := by
  have hruns : (run (traced callStep) ⟨freshLog page4096 "ledger.wal" FileImage.empty 4096, []⟩
      (appendCalls [(OsReply.ok, [0, 0, 0, 0])])).map
        (fun t => (t.state.flip 4 2).replay.delivered) = some [(1, [])] := by
    decide +kernel
  obtain ⟨t, ht, hdelivered⟩ := Option.map_eq_some_iff.mp hruns
  refine ⟨t, ht, hdelivered, ?_⟩
  rw [hdelivered]
  intro n hn
  cases n with
  | zero => cases hn
  | succ n => simp [numbered] at hn

end ZeroLGR.Wal
