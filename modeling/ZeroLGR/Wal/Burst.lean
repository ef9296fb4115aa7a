/-
  ZeroLGR.Wal.Burst — bursts of altered bits, and the checksum.

  The bits of a payload are numbered least significant first, byte after byte.
  That is the order in which the shift register behind the table takes them in,
  so a window of at most 32 bits goes into it as one word, wherever it begins.

    • `foldl_crc32Update_eq_feeds` — the table-driven update takes in bit by bit,
    • `bitAt`, `Burst` — the bits of a payload; payloads that differ in a window
      of 32 bits only,
    • `computeCrc32_burst` — such payloads have different checksums,
    • `burst_not_delivered` — a frame altered in this way is not delivered.
-/
import ZeroLGR.Wal.Replay

namespace ZeroLGR.Wal

open Bytes Emit

/-! ## §1. Bit by bit. -/

/-- The bits of a byte, least significant first. -/
def byteBits (b : UInt8) : List Bool := (List.range 8).map b.toBitVec.getLsbD

/-- The bits of a payload. -/
def payloadBits (data : Bytes) : List Bool := data.flatMap byteBits

@[simp] theorem length_byteBits (b : UInt8) : (byteBits b).length = 8 := by
  simp [byteBits]

theorem payloadBits_cons (b : UInt8) (data : Bytes) :
    payloadBits (b :: data) = byteBits b ++ payloadBits data := List.flatMap_cons

@[simp] theorem length_payloadBits (data : Bytes) :
    (payloadBits data).length = 8 * data.length := by
  induction data with
  | nil => rfl
  | cons b data ih =>
      rw [payloadBits_cons, List.length_append, length_byteBits, ih, List.length_cons]
      omega

theorem word_byteBits (b : UInt8) : Lfsr.word 32 (byteBits b) = b.toBitVec.setWidth 32 := by
  refine BitVec.eq_of_getLsbD_eq ?_
  intro i hi
  rw [Lfsr.getLsbD_word _ hi, BitVec.getLsbD_setWidth]
  by_cases h8 : i < 8
  · rw [List.getD_eq_getElem _ _ (by rw [length_byteBits]; exact h8)]
    simp [byteBits, hi]
  · rw [List.getD_eq_default _ _ (by rw [length_byteBits]; omega),
        BitVec.getLsbD_of_ge _ _ (by omega)]
    simp

/-- One look-up in the table takes in the eight bits of the byte. -/
theorem crc32Update_eq_feeds (crc : UInt32) (b : UInt8) :
    (crc32Update crc b).toBitVec = Lfsr.feeds crc32Poly crc.toBitVec (byteBits b) := by
  rw [crc32Update_eq_steps, Lfsr.feeds_eq_steps crc32Poly _ _ (by rw [length_byteBits]; omega),
      length_byteBits, word_byteBits]

/-- **The update takes in the bits of the payload one by one.** -/
theorem foldl_crc32Update_eq_feeds (data : Bytes) (crc : UInt32) :
    (data.foldl crc32Update crc).toBitVec =
      Lfsr.feeds crc32Poly crc.toBitVec (payloadBits data) := by
  induction data generalizing crc with
  | nil => rfl
  | cons b data ih =>
      rw [List.foldl_cons, ih, crc32Update_eq_feeds, payloadBits_cons, Lfsr.feeds_append]

/-! ## §2. Bursts. -/

/-- Bit `k` of a payload: bit `k % 8`, least significant first, of byte `k / 8`. -/
def bitAt (data : Bytes) (k : Nat) : Bool := (data.getD (k / 8) 0).toBitVec.getLsbD (k % 8)

/-- Two payloads of one length that differ in a window of 32 bits only. -/
structure Burst (p q : Bytes) : Prop where
  length : p.length = q.length
  window : ∃ start, ∀ k, k < start ∨ start + 32 ≤ k → bitAt p k = bitAt q k

theorem payloadBits_getElem : ∀ (data : Bytes) {k : Nat} (h : k < (payloadBits data).length),
    (payloadBits data)[k] = bitAt data k
  | [], k, h => by simp at h
  | b :: data, k, h => by
      have hlen : k < 8 * (data.length + 1) := by
        rw [length_payloadBits, List.length_cons] at h
        exact h
      by_cases h8 : k < 8
      · have hk : k < (byteBits b).length := by
          rw [length_byteBits]
          exact h8
        have hbyte : (byteBits b)[k] = b.toBitVec.getLsbD k := by
          simp [byteBits]
        rw [List.getElem_of_eq (payloadBits_cons b data), List.getElem_append_left hk, hbyte, bitAt,
            Nat.div_eq_of_lt h8, Nat.mod_eq_of_lt h8]
        rfl
      · have hrest := payloadBits_getElem data (k := k - 8) (by rw [length_payloadBits]; omega)
        have hdiv : k / 8 = (k - 8) / 8 + 1 := by omega
        have hmod : k % 8 = (k - 8) % 8 := by omega
        rw [List.getElem_of_eq (payloadBits_cons b data),
            List.getElem_append_right (by rw [length_byteBits]; omega), bitAt, hdiv, hmod]
        simp only [length_byteBits, hrest, bitAt, List.getD_cons_succ]

/-- The bits determine the payload. -/
theorem payloadBits_injective : ∀ {p q : Bytes}, p.length = q.length →
    payloadBits p = payloadBits q → p = q
  | [], [], _, _ => rfl
  | b :: p, c :: q, hlen, h => by
      rw [payloadBits_cons, payloadBits_cons] at h
      obtain ⟨hhead, hrest⟩ := List.append_inj h (by simp)
      have hwords := congrArg (Lfsr.word 32) hhead
      rw [word_byteBits, word_byteBits] at hwords
      have hbyte : b = c := by
        refine UInt8.toBitVec_inj.mp (BitVec.eq_of_getLsbD_eq ?_)
        intro i hi
        have hbit := congrArg (fun v => v.getLsbD i) hwords
        simpa [show i < 32 by omega] using hbit
      rw [hbyte, payloadBits_injective (Nat.succ.inj hlen) hrest]

/-- **The bits of a burst**: equal before and after a window of at most 32. -/
theorem Burst.bits {p q : Bytes} (h : Burst p q) :
    ∃ before after bs cs, payloadBits p = before ++ (bs ++ after) ∧
      payloadBits q = before ++ (cs ++ after) ∧ bs.length = cs.length ∧ bs.length ≤ 32 := by
  obtain ⟨hlen, start, hwindow⟩ := h
  have hbits : (payloadBits p).length = (payloadBits q).length := by
    rw [length_payloadBits, length_payloadBits, hlen]
  have hsplit : ∀ l : List Bool,
      l = l.take start ++ ((l.drop start).take 32 ++ (l.drop start).drop 32) := by
    intro l
    rw [List.take_append_drop, List.take_append_drop]
  have hbefore : (payloadBits p).take start = (payloadBits q).take start := by
    refine List.ext_getElem (by simp [hbits]) ?_
    intro k hp hq
    rw [List.length_take] at hp
    rw [List.getElem_take, List.getElem_take, payloadBits_getElem, payloadBits_getElem]
    exact hwindow k (.inl (by omega))
  have hafter : ((payloadBits p).drop start).drop 32 = ((payloadBits q).drop start).drop 32 := by
    rw [List.drop_drop, List.drop_drop]
    refine List.ext_getElem (by simp [hbits]) ?_
    intro k hp hq
    rw [List.getElem_drop, List.getElem_drop, payloadBits_getElem, payloadBits_getElem]
    exact hwindow (start + 32 + k) (.inr (by omega))
  refine ⟨(payloadBits p).take start, ((payloadBits p).drop start).drop 32,
    ((payloadBits p).drop start).take 32, ((payloadBits q).drop start).take 32,
    hsplit _, ?_, ?_, ?_⟩
  · rw [hbefore, hafter]
    exact hsplit _
  · simp [hbits]
  · rw [List.length_take]
    omega

/-- **The checksum detects every burst of at most 32 bits.** -/
theorem computeCrc32_burst {p q : Bytes} (h : Burst p q) (hne : p ≠ q) :
    computeCrc32 p ≠ computeCrc32 q := by
  intro hcrc
  have hregisters := congrArg UInt32.toBitVec ((UInt32.xor_left_inj _).mp hcrc)
  rw [foldl_crc32Update_eq_feeds, foldl_crc32Update_eq_feeds] at hregisters
  obtain ⟨before, after, bs, cs, hp, hq, hlen, hw⟩ := h.bits
  have hwindow : bs ≠ cs := by
    intro heq
    exact hne (payloadBits_injective h.length (by rw [hp, hq, heq]))
  rw [hp, hq] at hregisters
  exact Lfsr.feeds_burst crc32Poly_top _ before after hlen hw hwindow hregisters

/-! ## §3. Altered frames. -/

section Altered

variable {w : WriteAheadLog}

/-- Every item handed out was a frame inside the mapping, at the place the
frames before it lead to. -/
theorem delivered_frame (hw : w.Live) {before after : List (Nat × Bytes)} {item : Nat × Bytes}
    (h : w.replay.delivered = before ++ item :: after) :
    ∃ pos, Emits w.replayNext ⟨0, 0⟩ before pos ∧
      FrameIn w.file.byte w.mappedSize pos.offset item.2 := by
  have hemitted : w.replay.delivered = (scan w.replayNext (w.mappedSize + 1) ⟨0, 0⟩).emitted := by
    rw [WriteAheadLog.replay, if_pos hw.mapped]
    cases hst : (scan w.replayNext (w.mappedSize + 1) ⟨0, 0⟩).status <;> simp [hst]
  have hemits := emits_scan w.replayNext (w.mappedSize + 1) ⟨0, 0⟩
  rw [← hemitted, h] at hemits
  obtain ⟨pos, hbefore, hrest⟩ := hemits.split
  cases hrest with
  | cons hstep _ => exact ⟨pos, hbefore, (replayNext_emit_inv hw hstep).1⟩

/-- The header and the checksum of the frame of `p` stand at the offset, around
other data. -/
structure AlteredAt (m : Nat → UInt8) (off : Nat) (p q : Bytes) : Prop where
  size_lt : p.length < 2 ^ 32
  header : HeaderAt m off (UInt32.ofNat p.length)
  payload : readAt m (off + 8) p.length = q
  crc : wordAt m (off + 8 + p.length) = computeCrc32 p

/-- No frame stands where one was altered in a burst. -/
theorem AlteredAt.not_frameAt {m : Nat → UInt8} {off : Nat} {p q : Bytes}
    (h : AlteredAt m off p q) (hburst : Burst p q) (hne : p ≠ q) (d : Bytes) :
    ¬ FrameAt m off d := by
  intro hd
  have hlen : d.length = p.length := length_of_header h.size_lt h.header hd
  have hdq : d = q := by
    rw [← hd.payload, hlen]
    exact h.payload
  have hcrc := hd.crc
  rw [hlen, h.crc, hdq] at hcrc
  exact computeCrc32_burst hburst hne hcrc

end Altered

/-- **BURSTS OF AT MOST 32 BITS ARE DETECTED.**  Distinct payloads of one length
that differ in such a window only have different checksums.  So no iteration of
`replay` goes on at a frame whose data was altered like that, and behind the data
of a frame that was delivered the checksum of no such payload stands. -/
theorem burst_detected :
    (∀ p q, Burst p q → p ≠ q → computeCrc32 p ≠ computeCrc32 q) ∧
      (∀ w : WriteAheadLog, w.Live → ∀ pos p q, AlteredAt w.file.byte pos.offset p q →
        Burst p q → p ≠ q → ∀ item pos', w.replayNext pos ≠ .emit item pos') ∧
      ∀ w : WriteAheadLog, w.Live → ∀ before item after,
        w.replay.delivered = before ++ item :: after →
          ∃ pos, Emits w.replayNext ⟨0, 0⟩ before pos ∧
            FrameIn w.file.byte w.mappedSize pos.offset item.2 ∧
            ∀ p, Burst p item.2 → p ≠ item.2 →
              wordAt w.file.byte (pos.offset + 8 + item.2.length) ≠ computeCrc32 p := by
  refine ⟨fun p q => computeCrc32_burst, ?_, ?_⟩
  · intro w hw pos p q haltered hburst hne item pos' hstep
    exact haltered.not_frameAt hburst hne item.2 (replayNext_emit_inv hw hstep).1.1
  · intro w hw before item after hdel
    obtain ⟨pos, hemits, hframe⟩ := delivered_frame hw hdel
    refine ⟨pos, hemits, hframe, ?_⟩
    intro p hburst hne
    rw [hframe.1.crc]
    exact (computeCrc32_burst hburst hne).symm

/-! ## §4. One altered frame. -/

/-- A frame, and the frame of six zero bytes with two of their bits altered, in
a window that begins at bit 4 and reaches into the fifth byte. -/
def burstImage : FileImage :=
  (FileImage.empty.resize 4096).overwrite 0
    (encodeFrame [1] ++ (le32 WAL_MAGIC ++ (le32 6 ++ ([0x10, 0, 0, 0, 0x08, 0] ++
      le32 (computeCrc32 [0, 0, 0, 0, 0, 0]))))) (by decide)

/-- A log that maps that file. -/
def burstLog : WriteAheadLog where
  pageSize := page4096
  path := "ledger.wal"
  file := burstImage
  mapped := true
  mappedSize := 4096
  writeOffset := 0
  sequence := 0
  msyncs := []

theorem sixZeros_burst : Burst [0, 0, 0, 0, 0, 0] [0x10, 0, 0, 0, 0x08, 0] := by
  refine ⟨rfl, 4, ?_⟩
  intro k hk
  have hbits : ∀ k, k < 48 → k < 4 ∨ 4 + 32 ≤ k →
      bitAt [0, 0, 0, 0, 0, 0] k = bitAt [0x10, 0, 0, 0, 0x08, 0] k := by
    decide
  by_cases hlt : k < 48
  · exact hbits k hlt hk
  · have hout : 6 ≤ k / 8 := by omega
    rw [bitAt, bitAt, List.getD_eq_default _ _ hout, List.getD_eq_default _ _ hout]

/-- The altered frame is not delivered; the one before it is. -/
theorem burstLog_detected :
    computeCrc32 [0, 0, 0, 0, 0, 0] ≠ computeCrc32 [0x10, 0, 0, 0, 0x08, 0] ∧
      (∀ item pos', burstLog.replayNext ⟨13, 1⟩ ≠ .emit item pos') ∧
      burstLog.replay.delivered = [] ++ (1, [1]) :: [] ∧
      ∃ pos, Emits burstLog.replayNext ⟨0, 0⟩ [] pos ∧
        FrameIn burstLog.file.byte burstLog.mappedSize pos.offset [1] ∧
        ∀ p, Burst p [1] → p ≠ [1] →
          wordAt burstLog.file.byte (pos.offset + 8 + 1) ≠ computeCrc32 p := by
  have hlive : burstLog.Live := ⟨rfl, rfl⟩
  have haltered : AlteredAt burstLog.file.byte 13 [0, 0, 0, 0, 0, 0] [0x10, 0, 0, 0, 0x08, 0] :=
    ⟨by decide, ⟨by decide, by decide⟩, by decide, by decide +kernel⟩
  have hdel : burstLog.replay.delivered = [] ++ (1, [1]) :: [] := by decide +kernel
  obtain ⟨hcrc, hstep, hdelivered⟩ := burst_detected
  exact ⟨hcrc _ _ sixZeros_burst (by decide),
    hstep burstLog hlive ⟨13, 1⟩ _ _ haltered sixZeros_burst (by decide), hdel,
    hdelivered burstLog hlive _ _ _ hdel⟩

end ZeroLGR.Wal
