/-
  ZeroLGR.Wal.Frame — what a frame is, and what one iteration of `replay` sees.

  A frame is magic, data size, data and checksum.  `FrameAt` says that the bytes
  at an offset are a frame; it does not mention `replay`, `append` or the end of
  the mapping.

    • `frameAt_iff_read` — a frame at an offset is the encoding of its data,
    • `FrameAt.unique` — at most one frame stands at an offset,
    • `replayNext_frame`, `replayNext_overrun`, `replayNext_stop` — the three
      things an iteration of `replay` can do, each from what stands at the offset,
    • `replayNext_emit_inv` — an iteration that goes on has seen a frame.
-/
import ZeroLGR.Wal.Log

namespace ZeroLGR.Wal

open Bytes Emit

/-! ## §1. 32-bit words in memory. -/

@[simp] theorem length_le32 (v : UInt32) : (le32 v).length = 4 := length_toLE 4 v.toNat

theorem le32_inj {u v : UInt32} (h : le32 u = le32 v) : u = v :=
  UInt32.toNat_inj.mp (toLE_inj u.toNat_lt v.toNat_lt h)

theorem toNat_ofNat32 {n : Nat} (h : n < 2 ^ 32) : (UInt32.ofNat n).toNat = n :=
  UInt32.toNat_ofNat_of_lt' h

/-- A number that fits 32 bits is the one it was written from. -/
theorem ofLE_le32 {n : Nat} (h : n < 2 ^ 32) : ofLE (le32 (UInt32.ofNat n)) = n := by
  unfold le32
  rw [toNat_ofNat32 h]
  exact ofLE_toLE_of_lt h

theorem ofLE_lt_of_four {bs : Bytes} (h : bs.length = 4) : ofLE bs < 2 ^ 32 := by
  have hlt := ofLE_lt bs
  rwa [h] at hlt

/-- Four bytes are those of the number they are read as. -/
theorem le32_ofLE {bs : Bytes} (h : bs.length = 4) : le32 (UInt32.ofNat (ofLE bs)) = bs := by
  unfold le32
  rw [toNat_ofNat32 (ofLE_lt_of_four h), ← h, toLE_ofLE]

/-- The `uint32_t` at an offset. -/
def wordAt (m : Nat → UInt8) (off : Nat) : UInt32 := UInt32.ofNat (ofLE (readAt m off 4))

theorem readAt_eq_le32 (m : Nat → UInt8) (off : Nat) : readAt m off 4 = le32 (wordAt m off) :=
  (le32_ofLE (length_readAt m off 4)).symm

theorem wordAt_eq_iff {m : Nat → UInt8} {off : Nat} {v : UInt32} :
    wordAt m off = v ↔ readAt m off 4 = le32 v := by
  rw [readAt_eq_le32]
  exact ⟨fun h => by rw [h], le32_inj⟩

/-! ## §2. Frames. -/

/-- The frame that carries `data`: `[magic(4B)][size(4B)][data][crc32(4B)]`. -/
def encodeFrame (data : Bytes) : Bytes :=
  le32 WAL_MAGIC ++ (le32 (UInt32.ofNat data.length) ++ (data ++ le32 (computeCrc32 data)))

@[simp] theorem length_encodeFrame (data : Bytes) :
    (encodeFrame data).length = 12 + data.length := by
  simp only [encodeFrame, List.length_append, length_le32]
  omega

/-- The frames of several payloads, one after the other. -/
def encodeFrames (ps : List Bytes) : Bytes := ps.flatMap encodeFrame

@[simp] theorem encodeFrames_nil : encodeFrames [] = [] := rfl

theorem encodeFrames_cons (p : Bytes) (ps : List Bytes) :
    encodeFrames (p :: ps) = encodeFrame p ++ encodeFrames ps := List.flatMap_cons

theorem encodeFrames_append (ps qs : List Bytes) :
    encodeFrames (ps ++ qs) = encodeFrames ps ++ encodeFrames qs := List.flatMap_append

theorem encodeFrames_singleton (p : Bytes) : encodeFrames [p] = encodeFrame p := by
  rw [encodeFrames_cons, encodeFrames_nil, List.append_nil]

/-- Magic and data size stand at the offset. -/
structure HeaderAt (m : Nat → UInt8) (off : Nat) (size : UInt32) : Prop where
  magic : wordAt m off = WAL_MAGIC
  size : wordAt m (off + 4) = size

/-- A frame with this data stands at the offset. -/
structure FrameAt (m : Nat → UInt8) (off : Nat) (data : Bytes) : Prop where
  size_lt : data.length < 2 ^ 32
  header : HeaderAt m off (UInt32.ofNat data.length)
  payload : readAt m (off + 8) data.length = data
  crc : wordAt m (off + 8 + data.length) = computeCrc32 data

theorem toNat_ofNat_length {data : Bytes} (h : data.length < 2 ^ 32) :
    (UInt32.ofNat data.length).toNat = data.length :=
  toNat_ofNat32 h

/-- **A frame is the encoding of its data.** -/
theorem frameAt_iff_read {m : Nat → UInt8} {off : Nat} {data : Bytes} :
    FrameAt m off data ↔
      data.length < 2 ^ 32 ∧ readAt m off (12 + data.length) = encodeFrame data := by
  have hlen : 12 + data.length = 4 + (4 + (data.length + 4)) := by omega
  have hread : readAt m off (12 + data.length) =
      readAt m off 4 ++ (readAt m (off + 4) 4 ++
        (readAt m (off + 8) data.length ++ readAt m (off + 8 + data.length) 4)) := by
    rw [hlen, readAt_append, readAt_append, readAt_append]
  constructor
  · intro h
    refine ⟨h.size_lt, ?_⟩
    rw [hread, wordAt_eq_iff.mp h.header.magic, wordAt_eq_iff.mp h.header.size, h.payload,
        wordAt_eq_iff.mp h.crc, encodeFrame]
  · intro hread
    obtain ⟨hlt, h⟩ := hread
    rw [hread, encodeFrame] at h
    -- the parts have fixed lengths, so they are equal one by one
    obtain ⟨hmagic, h⟩ := List.append_inj h (by simp)
    obtain ⟨hsize, h⟩ := List.append_inj h (by simp)
    obtain ⟨hdata, hcrc⟩ := List.append_inj h (by simp)
    exact ⟨hlt, ⟨wordAt_eq_iff.mpr hmagic, wordAt_eq_iff.mpr hsize⟩, hdata,
      wordAt_eq_iff.mpr hcrc⟩

theorem FrameAt.read {m : Nat → UInt8} {off : Nat} {data : Bytes} (h : FrameAt m off data) :
    readAt m off (12 + data.length) = encodeFrame data :=
  (frameAt_iff_read.mp h).2

/-- At most one frame stands at an offset. -/
theorem FrameAt.unique {m : Nat → UInt8} {off : Nat} {p q : Bytes}
    (hp : FrameAt m off p) (hq : FrameAt m off q) : p = q := by
  have hsize : UInt32.ofNat p.length = UInt32.ofNat q.length := by
    rw [← hp.header.size, hq.header.size]
  have hlen : p.length = q.length := by
    rw [← toNat_ofNat_length hp.size_lt, hsize, toNat_ofNat_length hq.size_lt]
  rw [← hp.payload, ← hq.payload, hlen]

/-- Where a header stands, a frame has its size. -/
theorem length_of_header {m : Nat → UInt8} {off n : Nat} {d : Bytes} (hn : n < 2 ^ 32)
    (hh : HeaderAt m off (UInt32.ofNat n)) (hd : FrameAt m off d) : d.length = n := by
  have hsize : UInt32.ofNat d.length = UInt32.ofNat n := hd.header.size.symm.trans hh.size
  have h := congrArg UInt32.toNat hsize
  rwa [toNat_ofNat_length hd.size_lt, toNat_ofNat32 hn] at h

/-- A frame depends on the bytes of its span only. -/
theorem FrameAt.congr {m m' : Nat → UInt8} {off : Nat} {data : Bytes} (h : FrameAt m off data)
    (heq : ∀ i, off ≤ i → i < off + (12 + data.length) → m i = m' i) : FrameAt m' off data :=
  frameAt_iff_read.mpr ⟨h.size_lt, by rw [← readAt_congr heq, h.read]⟩

theorem wordAt_congr {m m' : Nat → UInt8} {off : Nat}
    (h : ∀ i, off ≤ i → i < off + 4 → m i = m' i) : wordAt m off = wordAt m' off := by
  rw [wordAt, wordAt, readAt_congr h]

theorem HeaderAt.congr {m m' : Nat → UInt8} {off : Nat} {size : UInt32} (h : HeaderAt m off size)
    (heq : ∀ i, off ≤ i → i < off + 8 → m i = m' i) : HeaderAt m' off size := by
  refine ⟨?_, ?_⟩
  · rw [← h.magic]
    exact (wordAt_congr (fun i hi hlt => heq i hi (by omega))).symm
  · rw [← h.size]
    exact (wordAt_congr (fun i hi hlt => heq i (by omega) (by omega))).symm

/-- The magic number is not zero: no frame stands where four zero bytes are. -/
theorem not_headerAt_of_zero {m : Nat → UInt8} {off : Nat}
    (h : ∀ i, off ≤ i → i < off + 4 → m i = 0) (size : UInt32) : ¬ HeaderAt m off size := by
  intro hh
  have hread : readAt m off 4 = le32 WAL_MAGIC := wordAt_eq_iff.mp hh.magic
  rw [readAt_zero h] at hread
  exact absurd hread (by decide)

/-! ## §3. One iteration of `replay`.

    `M` is the size of the mapping.  A size field of `2 ^ 32 - 12` or more
    wraps the 32-bit frame size; `Overrun` is the case in which such a frame
    does not lie inside the mapping. -/

/-- The log has a live mapping that covers its file. -/
structure WriteAheadLog.Live (w : WriteAheadLog) : Prop where
  mapped : w.mapped = true
  covers : w.file.size = w.mappedSize

/-- The frame lies inside the first `M` bytes. -/
def Fits (M off : Nat) (data : Bytes) : Prop := off + (12 + data.length) ≤ M

/-- A header inside the mapping announces `2 ^ 32 - 12` bytes or more, and they
are not all inside the mapping. -/
def Overrun (m : Nat → UInt8) (M off : Nat) : Prop :=
  off + 12 ≤ M ∧ ∃ size, HeaderAt m off size ∧ 2 ^ 32 - 12 ≤ size.toNat ∧
    M < off + (12 + size.toNat)

/-- How far an iteration moves the offset over a frame: the 32-bit frame size. -/
def advance (data : Bytes) : Nat := (12 + data.length) % 2 ^ 32

theorem toNat_replayFrameSize (size : UInt32) :
    (replayFrameSize size).toNat = (12 + size.toNat) % 2 ^ 32 := by
  rw [replayFrameSize, UInt32.toNat_add, UInt32.toNat_add]
  show ((8 + size.toNat) % 2 ^ 32 + 4) % 2 ^ 32 = _
  omega

theorem advance_of_small {data : Bytes} (h : data.length + 12 < 2 ^ 32) :
    advance data = 12 + data.length :=
  Nat.mod_eq_of_lt (by omega)

section Iteration

variable {w : WriteAheadLog}

theorem WriteAheadLog.Live.load (hw : w.Live) {off n : Nat} (h : off + n ≤ w.mappedSize) :
    w.load off n = some (readAt w.file.byte off n) :=
  if_pos ⟨hw.mapped, h, by rw [hw.covers]; exact h⟩

theorem load_none {off n : Nat} (h : w.mappedSize < off + n) : w.load off n = none :=
  if_neg (fun hacc => Nat.not_le.mpr h hacc.2.1)

theorem WriteAheadLog.Live.loadU32 (hw : w.Live) {off : Nat} (h : off + 4 ≤ w.mappedSize) :
    w.loadU32 off = some (wordAt w.file.byte off) := by
  rw [WriteAheadLog.loadU32, hw.load h]
  rfl

theorem loadU32_none {off : Nat} (h : w.mappedSize < off + 4) : w.loadU32 off = none := by
  rw [WriteAheadLog.loadU32, load_none h]
  rfl

/-- An iteration that finds a header goes on with its data size. -/
theorem replayNext_header (hw : w.Live) {pos : ReplayPos} {size : UInt32}
    (hroom : pos.offset + 12 ≤ w.mappedSize) (hh : HeaderAt w.file.byte pos.offset size) :
    w.replayNext pos = w.replayFrame pos size := by
  have hmagic : w.loadU32 pos.offset = some WAL_MAGIC := by
    rw [hw.loadU32 (by omega), hh.magic]
  have hsize : w.loadU32 (pos.offset + 4) = some size := by
    rw [hw.loadU32 (by omega), hh.size]
  simp only [WriteAheadLog.replayNext, hroom, hmagic, hsize, if_true, ne_eq, not_true_eq_false,
    if_false]

/-- **A frame inside the mapping is delivered.** -/
theorem replayNext_frame (hw : w.Live) {pos : ReplayPos} {data : Bytes}
    (hf : FrameAt w.file.byte pos.offset data) (hfit : Fits w.mappedSize pos.offset data) :
    w.replayNext pos =
      .emit (pos.replayed + 1, data) ⟨pos.offset + advance data, pos.replayed + 1⟩ := by
  have hfit' : pos.offset + (12 + data.length) ≤ w.mappedSize := hfit
  have hsize := toNat_ofNat_length hf.size_lt
  have hstep : (replayFrameSize (UInt32.ofNat data.length)).toNat = advance data := by
    rw [toNat_replayFrameSize, hsize, advance]
  have hle : advance data ≤ 12 + data.length := Nat.mod_le _ _
  rw [replayNext_header hw (by omega) hf.header, WriteAheadLog.replayFrame, hstep, hsize, if_neg (by omega),
      hw.loadU32 (by omega), hw.load (by omega), hf.crc, hf.payload]
  exact if_neg (not_not_intro rfl)

/-- **An oversize frame that does not lie inside the mapping is read outside it.** -/
theorem replayNext_overrun (hw : w.Live) {pos : ReplayPos}
    (h : Overrun w.file.byte w.mappedSize pos.offset) : w.replayNext pos = .fault := by
  obtain ⟨hroom, size, hh, hbig, hout⟩ := h
  have hlt := size.toNat_lt
  have hstep : (replayFrameSize size).toNat = 12 + size.toNat - 2 ^ 32 := by
    rw [toNat_replayFrameSize]
    omega
  rw [replayNext_header hw hroom hh, WriteAheadLog.replayFrame, if_neg (by omega), loadU32_none (by omega)]

/-- **In every other case the loop ends.** -/
theorem replayNext_stop (hw : w.Live) {pos : ReplayPos}
    (hno : ∀ data, FrameAt w.file.byte pos.offset data → ¬ Fits w.mappedSize pos.offset data)
    (hov : ¬ Overrun w.file.byte w.mappedSize pos.offset) : w.replayNext pos = .stop := by
  by_cases hroom : pos.offset + 12 ≤ w.mappedSize
  · by_cases hmagic : wordAt w.file.byte pos.offset = WAL_MAGIC
    · have hh : HeaderAt w.file.byte pos.offset (wordAt w.file.byte (pos.offset + 4)) :=
        ⟨hmagic, rfl⟩
      generalize wordAt w.file.byte (pos.offset + 4) = size at hh
      have hlt := size.toNat_lt
      have hstep := toNat_replayFrameSize size
      rw [replayNext_header hw hroom hh, WriteAheadLog.replayFrame]
      by_cases hin : pos.offset + (12 + size.toNat) ≤ w.mappedSize
      · -- the announced frame is inside the mapping, so its checksum is wrong
        have hlen : (readAt w.file.byte (pos.offset + 8) size.toNat).length = size.toNat :=
          length_readAt _ _ _
        rw [if_neg (by omega), hw.loadU32 (by omega), hw.load (by omega)]
        refine if_pos ?_
        intro hcrc
        refine hno _ ⟨by rw [hlen]; exact hlt, ?_, ?_, ?_⟩ (by rw [Fits, hlen]; exact hin)
        · rw [hlen, UInt32.ofNat_toNat]
          exact hh
        · rw [hlen]
        · rw [hlen]
          exact hcrc
      · -- it is not, and since it does not overrun the bounds check sees it
        have hsmall : size.toNat < 2 ^ 32 - 12 := by
          by_contra hbig
          exact hov ⟨hroom, size, hh, by omega, by omega⟩
        rw [if_pos (by omega)]
    -- another magic number
    · rw [WriteAheadLog.replayNext, if_pos hroom, hw.loadU32 (by omega)]
      exact if_pos hmagic
  -- fewer than twelve bytes are left
  · exact if_neg hroom

/-- Whether a frame inside the mapping stands at the offset. -/
def FrameIn (m : Nat → UInt8) (M off : Nat) (data : Bytes) : Prop :=
  FrameAt m off data ∧ Fits M off data

/-- **An iteration that goes on has seen a frame.** -/
theorem replayNext_emit_inv (hw : w.Live) {pos pos' : ReplayPos} {item : Nat × Bytes}
    (h : w.replayNext pos = .emit item pos') :
    FrameIn w.file.byte w.mappedSize pos.offset item.2 ∧
      item.1 = pos.replayed + 1 ∧ pos' = ⟨pos.offset + advance item.2, pos.replayed + 1⟩ := by
  by_cases hf : ∃ data, FrameIn w.file.byte w.mappedSize pos.offset data
  · obtain ⟨data, hdata⟩ := hf
    rw [replayNext_frame hw hdata.1 hdata.2] at h
    cases h
    exact ⟨hdata, rfl, rfl⟩
  · by_cases hov : Overrun w.file.byte w.mappedSize pos.offset
    · rw [replayNext_overrun hw hov] at h
      cases h
    · rw [replayNext_stop hw (fun data h₁ h₂ => hf ⟨data, h₁, h₂⟩) hov] at h
      cases h

/-- A loop that ended has seen neither a frame nor an overrun. -/
theorem replayNext_stop_iff (hw : w.Live) {pos : ReplayPos} :
    w.replayNext pos = .stop ↔
      (∀ data, ¬ FrameIn w.file.byte w.mappedSize pos.offset data) ∧
        ¬ Overrun w.file.byte w.mappedSize pos.offset := by
  constructor
  · intro h
    constructor
    · intro data hf
      rw [replayNext_frame hw hf.1 hf.2] at h
      cases h
    · intro hov
      rw [replayNext_overrun hw hov] at h
      cases h
  · intro hquiet
    obtain ⟨hno, hov⟩ := hquiet
    exact replayNext_stop hw (fun data h₁ h₂ => hno data ⟨h₁, h₂⟩) hov

theorem replayNext_fault_iff (hw : w.Live) {pos : ReplayPos} :
    w.replayNext pos = .fault ↔ Overrun w.file.byte w.mappedSize pos.offset := by
  refine ⟨fun h => ?_, replayNext_overrun hw⟩
  by_contra hov
  by_cases hf : ∃ data, FrameIn w.file.byte w.mappedSize pos.offset data
  · obtain ⟨data, hdata⟩ := hf
    rw [replayNext_frame hw hdata.1 hdata.2] at h
    cases h
  · rw [replayNext_stop hw (fun data h₁ h₂ => hf ⟨data, h₁, h₂⟩) hov] at h
    cases h

end Iteration

end ZeroLGR.Wal
