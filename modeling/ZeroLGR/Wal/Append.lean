/-
  ZeroLGR.Wal.Append — what the constructor and `append` do to the log.

    • `alignToPage_eq`, `le_alignToPage` — rounding up to a page, and why a
      wrapped rounding is never mapped,
    • `construct_returned_inv` — the log a constructor returns,
    • `reserve_spec`, `writeFrame_spec` — the parts of `append`,
    • `append_spec` — `append` throws, or it has written one frame at the write
      offset and nothing else; it never leaves the mapping,
    • `append_returned_inv` — what it has done when it returns, for data of any size,
    • `append_granted` — it returns when the growth is granted,
    • `append_fits` — it returns whenever the frame fits.
-/
import ZeroLGR.Wal.Replay

namespace ZeroLGR.Wal

open Bytes

/-! ## §1. Rounding up to a page. -/

theorem wrap64_of_lt {n : Nat} (h : n < 2 ^ 64) : wrap64 n = n := Nat.mod_eq_of_lt h

theorem PageSize.pos (ps : PageSize) : 0 < ps.bytes := by
  obtain ⟨k, -, hk⟩ := ps.pow_two
  rw [hk]
  exact Nat.two_pow_pos k

theorem PageSize.lt (ps : PageSize) : ps.bytes < 2 ^ 32 := by
  obtain ⟨k, hlt, hk⟩ := ps.pow_two
  rw [hk]
  exact Nat.pow_lt_pow_right (by omega) hlt

/-- Masking out the low `k` bits of a 64-bit word. -/
theorem and_not64_mask {x k : Nat} (hx : x < 2 ^ 64) (hk : k < 64) :
    x &&& not64 (2 ^ k - 1) = x / 2 ^ k * 2 ^ k := by
  have hpow : 2 ^ k - 1 < 2 ^ 64 := by
    have h := Nat.pow_lt_pow_right (show 1 < 2 by omega) hk
    omega
  have hmask : not64 (2 ^ k - 1) = 2 ^ 64 - (2 ^ k - 1 + 1) := by
    unfold not64
    omega
  refine Nat.eq_of_testBit_eq ?_
  intro i
  rw [Nat.testBit_and, hmask, Nat.testBit_two_pow_sub_succ hpow, Nat.testBit_two_pow_sub_one,
      Nat.testBit_mul_two_pow, Nat.testBit_div_two_pow]
  -- low bits are cleared, the others kept, and none beyond the word
  by_cases hi : i < k
  · simp [hi, show ¬ k ≤ i by omega]
  · rw [Nat.sub_add_cancel (by omega)]
    by_cases h64 : i < 64
    · simp [hi, h64, show k ≤ i by omega]
    · have hbit : x.testBit i = false :=
        Nat.testBit_lt_two_pow (lt_of_lt_of_le hx (Nat.pow_le_pow_right (by omega) (by omega)))
      simp [hbit]

/-- `align_to_page` drops the remainder of the wrapped sum. -/
theorem alignToPage_eq_div (ps : PageSize) (size : Nat) :
    alignToPage ps size = wrap64 (size + ps.bytes - 1) / ps.bytes * ps.bytes := by
  obtain ⟨k, hlt, hk⟩ := ps.pow_two
  rw [alignToPage, hk]
  exact and_not64_mask (Nat.mod_lt _ (by omega)) (by omega)

theorem dvd_alignToPage (ps : PageSize) (size : Nat) : ps.bytes ∣ alignToPage ps size := by
  rw [alignToPage_eq_div]
  exact Dvd.intro_left _ rfl

/-- A rounding that does not wrap is rounding up. -/
theorem le_alignToPage_of_no_wrap (ps : PageSize) {size : Nat}
    (h : size + ps.bytes - 1 < 2 ^ 64) : size ≤ alignToPage ps size := by
  have hps := ps.pos
  rw [alignToPage_eq_div, wrap64_of_lt h]
  have hdiv := Nat.div_add_mod (size + ps.bytes - 1) ps.bytes
  have hmod := Nat.mod_lt (size + ps.bytes - 1) hps
  rw [Nat.mul_comm] at hdiv
  omega

/-- Rounding adds less than a page. -/
theorem alignToPage_lt (ps : PageSize) {size : Nat} (h : size + ps.bytes ≤ 2 ^ 63) :
    alignToPage ps size < 2 ^ 63 := by
  have hps := ps.pos
  rw [alignToPage_eq_div, wrap64_of_lt (by omega)]
  have hle := Nat.div_mul_le_self (size + ps.bytes - 1) ps.bytes
  omega

/-- **Rounding that is not zero is rounding up.**  A sum that wraps is less than
a page, and rounds to zero. -/
theorem le_alignToPage (ps : PageSize) {size : Nat} (hsize : size < 2 ^ 64)
    (hpos : 0 < alignToPage ps size) : size ≤ alignToPage ps size := by
  have hps32 := ps.lt
  by_cases hwrap : size + ps.bytes - 1 < 2 ^ 64
  · exact le_alignToPage_of_no_wrap ps hwrap
  · exfalso
    have hlow : wrap64 (size + ps.bytes - 1) < ps.bytes := by
      unfold wrap64
      omega
    rw [alignToPage_eq_div, Nat.div_eq_of_lt hlow] at hpos
    omega

/-! ## §2. Logs as the constructor makes them. -/

/-- A live mapping of at least one page, and the write offset inside it. -/
structure WriteAheadLog.WellMapped (w : WriteAheadLog) : Prop extends w.Live where
  pos : 0 < w.mappedSize
  lt : w.mappedSize < 2 ^ 63
  page : w.pageSize.bytes ∣ w.mappedSize
  offset_le : w.writeOffset ≤ w.mappedSize

theorem ftruncate_eq_some {os : OsReply} {f file : FileImage} {size : Nat}
    (h : ftruncate os f size = some file) : size < 2 ^ 63 ∧ file = f.resize size := by
  unfold ftruncate at h
  split at h
  next hok => exact ⟨hok.2, (Option.some.inj h).symm⟩
  next => cases h

theorem mmap_pos {os : OsReply} {size : Nat} (h : mmap os size = true) : 0 < size := by
  unfold mmap at h
  simp only [Bool.and_eq_true, decide_eq_true_eq] at h
  exact h.2

/-- Making a file longer does not change what its bytes are. -/
theorem FileImage.byte_resize (f : FileImage) {n : Nat} (h : f.size ≤ n) :
    (f.resize n).byte = f.byte := by
  funext i
  show (if i < n then f.byte i else 0) = f.byte i
  split
  next => rfl
  next hi => exact (f.zero_beyond i (by omega)).symm

theorem FileImage.byte_resize_of_lt (f : FileImage) {n i : Nat} (h : i < n) :
    (f.resize n).byte i = f.byte i := if_pos h

/-- The log a constructor leaves on the file `disk`. -/
def freshLog (ps : PageSize) (path : String) (disk : FileImage) (size : Nat) : WriteAheadLog where
  pageSize := ps
  path := path
  file := disk.resize size
  mapped := true
  mappedSize := size
  writeOffset := 0
  sequence := 0
  msyncs := []

/-- **What a constructor that returns has made.** -/
theorem construct_returned_inv {ps : PageSize} {os : OsReply} {path : String} {disk : FileImage}
    {initialSize : Nat} {w : WriteAheadLog}
    (h : (construct ps os path disk initialSize).1 = .returned w) :
    w = freshLog ps path disk (initialSizeAligned ps initialSize) ∧ w.WellMapped := by
  have hsize : ∃ file, ftruncate os disk (initialSizeAligned ps initialSize) = some file ∧
      mmap os (initialSizeAligned ps initialSize) = true ∧
      w = freshLog ps path disk (initialSizeAligned ps initialSize) := by
    -- `open`, `ftruncate` and `mmap`, each of which throws when it fails
    unfold construct openAndMap at h
    by_cases hopen : os.openOk = true
    · rw [if_pos hopen] at h
      cases hft : ftruncate os disk (initialSizeAligned ps initialSize) with
      | none => simp [hft] at h
      | some file =>
          simp only [hft] at h
          by_cases hmm : mmap os (initialSizeAligned ps initialSize) = true
          · rw [if_pos hmm] at h
            obtain ⟨-, rfl⟩ := ftruncate_eq_some hft
            exact ⟨_, rfl, hmm, (Outcome.returned.inj h).symm⟩
          · simp [hmm] at h
    · simp [hopen] at h
  obtain ⟨file, hft, hmm, hw⟩ := hsize
  refine ⟨hw, ?_⟩
  obtain ⟨hlt, -⟩ := ftruncate_eq_some hft
  subst hw
  exact { mapped := rfl, covers := rfl, pos := mmap_pos hmm, lt := hlt
          page := dvd_alignToPage _ _, offset_le := Nat.zero_le _ }

/-! ## §3. The parts of `append`. -/

section Parts

variable {w : WriteAheadLog}

theorem WriteAheadLog.Live.store (hw : w.Live) (off : Nat) (bs : Bytes)
    (h : off + bs.length ≤ w.mappedSize) :
    ∃ f, w.store off bs = some { w with file := f } ∧ f.size = w.file.size ∧
      f.byte = writeAt w.file.byte off bs := by
  have hacc : w.accessible off bs.length := ⟨hw.mapped, h, by rw [hw.covers]; exact h⟩
  exact ⟨w.file.overwrite off bs hacc.2.2, dif_pos hacc, rfl, rfl⟩

/-- **The four copies write one frame.** -/
theorem writeFrame_spec (hw : w.Live) {data : Bytes}
    (h : w.writeOffset + (12 + data.length) ≤ w.mappedSize) :
    ∃ f, w.writeFrame data = some { w with file := f } ∧ f.size = w.file.size ∧
      f.byte = writeAt w.file.byte w.writeOffset (encodeFrame data) := by
  obtain ⟨f₁, h₁, hs₁, hb₁⟩ := hw.store w.writeOffset (le32 WAL_MAGIC)
    (by rw [length_le32]; omega)
  have hw₁ : WriteAheadLog.Live { w with file := f₁ } := ⟨hw.mapped, hs₁.trans hw.covers⟩
  obtain ⟨f₂, h₂, hs₂, hb₂⟩ := hw₁.store (w.writeOffset + 4)
    (le32 (UInt32.ofNat data.length))
    (by rw [length_le32]; show _ ≤ w.mappedSize; omega)
  have hw₂ : WriteAheadLog.Live { w with file := f₂ } := ⟨hw.mapped, hs₂.trans hw₁.covers⟩
  obtain ⟨f₃, h₃, hs₃, hb₃⟩ := hw₂.store (w.writeOffset + 8) data
    (show _ ≤ w.mappedSize by omega)
  have hw₃ : WriteAheadLog.Live { w with file := f₃ } := ⟨hw.mapped, hs₃.trans hw₂.covers⟩
  obtain ⟨f₄, h₄, hs₄, hb₄⟩ := hw₃.store (w.writeOffset + 8 + data.length)
    (le32 (computeCrc32 data))
    (by rw [length_le32]; show _ ≤ w.mappedSize; omega)
  refine ⟨f₄, ?_, ?_, ?_⟩
  · rw [WriteAheadLog.writeFrame, h₁]
    show (WriteAheadLog.store _ _ _).bind _ = _
    rw [h₂]
    show (WriteAheadLog.store _ _ _).bind _ = _
    rw [h₃]
    exact h₄
  · exact hs₄.trans (hs₃.trans (hs₂.trans hs₁))
  · -- the four spans are adjacent
    rw [hb₄, hb₃, hb₂, hb₁]
    show writeAt (writeAt (writeAt (writeAt w.file.byte w.writeOffset (le32 WAL_MAGIC))
      (w.writeOffset + 4) _) (w.writeOffset + 8) data) (w.writeOffset + 8 + data.length) _ = _
    have hjoin := writeAt_append w.file.byte w.writeOffset
    rw [show w.writeOffset + 4 = w.writeOffset + (le32 WAL_MAGIC).length by rw [length_le32],
        hjoin,
        show w.writeOffset + 8 = w.writeOffset +
          (le32 WAL_MAGIC ++ le32 (UInt32.ofNat data.length)).length by
            rw [List.length_append, length_le32, length_le32],
        hjoin, Nat.add_assoc, ← List.length_append, hjoin, encodeFrame, List.append_assoc,
        List.append_assoc]

theorem store_some {w w' : WriteAheadLog} {off : Nat} {bs : Bytes}
    (h : w.store off bs = some w') :
    off + bs.length ≤ w.mappedSize ∧ w'.mappedSize = w.mappedSize := by
  unfold WriteAheadLog.store at h
  split at h
  next hacc =>
    cases h
    exact ⟨hacc.2.1, rfl⟩
  next => cases h

/-- The last of the four copies is made only inside the mapping. -/
theorem writeFrame_room {w' : WriteAheadLog} {data : Bytes} (h : w.writeFrame data = some w') :
    w.writeOffset + (12 + data.length) ≤ w.mappedSize := by
  unfold WriteAheadLog.writeFrame at h
  obtain ⟨w₁, h₁, h⟩ := Option.bind_eq_some_iff.mp h
  obtain ⟨w₂, h₂, h⟩ := Option.bind_eq_some_iff.mp h
  obtain ⟨w₃, h₃, h₄⟩ := Option.bind_eq_some_iff.mp h
  obtain ⟨-, hs₁⟩ := store_some h₁
  obtain ⟨-, hs₂⟩ := store_some h₂
  obtain ⟨-, hs₃⟩ := store_some h₃
  obtain ⟨hlast, -⟩ := store_some h₄
  rw [length_le32] at hlast
  omega

/-- `sync_range` only calls `msync`. -/
theorem syncRange_eq (os : OsReply) (w : WriteAheadLog) (off len : Nat) (blocking : Bool) :
    ∃ ms, w.syncRange os off len blocking = { w with msyncs := ms } := by
  unfold WriteAheadLog.syncRange
  split
  · exact ⟨_, rfl⟩
  · exact ⟨w.msyncs, rfl⟩

/-- The log has only grown: what its bytes are and where it stands is the same. -/
structure Grown (w w' : WriteAheadLog) : Prop where
  wellMapped : w'.WellMapped
  byte : w'.file.byte = w.file.byte
  mapped_le : w.mappedSize ≤ w'.mappedSize
  writeOffset : w'.writeOffset = w.writeOffset
  sequence : w'.sequence = w.sequence
  pageSize : w'.pageSize = w.pageSize

theorem Grown.refl (hw : w.WellMapped) : Grown w w :=
  ⟨hw, rfl, Nat.le_refl _, rfl, rfl, rfl⟩

/-- Growing to a size that is at least the mapped one. -/
theorem grow_spec (hw : w.WellMapped) (os : OsReply) {newSize : Nat}
    (hle : w.mappedSize ≤ newSize) (hlt : newSize < 2 ^ 64) :
    (∃ what w', w.grow os newSize = (.error what, w')) ∨
      ∃ w', w.grow os newSize = (.ok (), w') ∧ Grown w w' ∧ newSize ≤ w'.mappedSize := by
  dsimp only [WriteAheadLog.grow]
  cases hft : ftruncate os w.file (alignToPage w.pageSize newSize) with
  | none => exact .inl ⟨_, _, rfl⟩
  | some file =>
      dsimp only
      by_cases hmm : mmap os (alignToPage w.pageSize newSize) = true
      -- a mapping of size zero is refused, so the rounding did not wrap
      · obtain ⟨hlt63, rfl⟩ := ftruncate_eq_some hft
        have hround := le_alignToPage w.pageSize hlt (mmap_pos hmm)
        have hfile : w.file.size ≤ alignToPage w.pageSize newSize := by
          rw [hw.covers]
          omega
        have hoff := hw.offset_le
        rw [if_pos hmm]
        refine .inr ⟨_, rfl, ?_, hround⟩
        exact
          { wellMapped :=
              { mapped := rfl, covers := rfl, pos := mmap_pos hmm, lt := hlt63
                page := dvd_alignToPage _ _
                offset_le := show w.writeOffset ≤ alignToPage w.pageSize newSize by omega }
            byte := FileImage.byte_resize _ hfile
            mapped_le := show w.mappedSize ≤ alignToPage w.pageSize newSize by omega
            writeOffset := rfl, sequence := rfl, pageSize := rfl }
      · rw [if_neg hmm]
        exact .inl ⟨_, _, rfl⟩

/-- **A growth that the operating system grants succeeds**, as long as a file can
have the new size. -/
theorem grow_granted (hw : w.WellMapped) {os : OsReply} (hft : os.ftruncateOk = true)
    (hmm : os.mmapOk = true) {newSize : Nat} (hle : w.mappedSize ≤ newSize)
    (hroom : newSize + w.pageSize.bytes ≤ 2 ^ 63) :
    (w.grow os newSize).1 = .ok () := by
  have hps := w.pageSize.pos
  have hpos : 0 < alignToPage w.pageSize newSize :=
    lt_of_lt_of_le hw.pos (hle.trans (le_alignToPage_of_no_wrap w.pageSize (by omega)))
  have hmap : mmap os (alignToPage w.pageSize newSize) = true := by
    unfold mmap
    rw [hmm, decide_eq_true hpos]
    rfl
  dsimp only [WriteAheadLog.grow]
  unfold ftruncate
  rw [if_pos ⟨hft, alignToPage_lt w.pageSize hroom⟩]
  dsimp only
  rw [if_pos hmap]

/-- **Making room**: the growth fails, or the frame fits afterwards. -/
theorem reserve_spec (hw : w.WellMapped) (os : OsReply) {size : Nat} (hsize : size < 2 ^ 63 - 2 ^ 32) :
    (∃ what w', w.reserve os size = (.error what, w')) ∨
      ∃ w', w.reserve os size = (.ok (), w') ∧ Grown w w' ∧
        w.writeOffset + size ≤ w'.mappedSize := by
  have hlt := hw.lt
  have hoff := hw.offset_le
  have hps := w.pageSize.lt
  unfold WriteAheadLog.reserve
  rw [wrap64_of_lt (n := w.writeOffset + size) (by omega)]
  by_cases hfull : w.writeOffset + size > w.mappedSize
  · rw [if_pos hfull, wrap64_of_lt (by omega), wrap64_of_lt (by omega)]
    -- doubling alone never shrinks the mapping
    have hle : w.mappedSize ≤
        max (w.mappedSize * 2) (w.writeOffset + size + w.pageSize.bytes) := by omega
    rcases grow_spec hw os hle (by omega) with h | ⟨w', h, hg, hround⟩
    · exact .inl h
    · exact .inr ⟨w', h, hg, by omega⟩
  · rw [if_neg hfull]
    exact .inr ⟨w, rfl, Grown.refl hw, by omega⟩

/-- Whatever size is asked for, the growth fails or the log has only grown. -/
theorem reserve_grown (hw : w.WellMapped) (os : OsReply) (size : Nat) :
    (∃ what w', w.reserve os size = (.error what, w')) ∨
      ∃ w', w.reserve os size = (.ok (), w') ∧ Grown w w' := by
  have hlt := hw.lt
  unfold WriteAheadLog.reserve
  by_cases hfull : wrap64 (w.writeOffset + size) > w.mappedSize
  · rw [if_pos hfull, wrap64_of_lt (n := w.mappedSize * 2) (by omega)]
    have hwrap : wrap64 (w.writeOffset + size + w.pageSize.bytes) < 2 ^ 64 :=
      Nat.mod_lt _ (by omega)
    have hle : w.mappedSize ≤
        max (w.mappedSize * 2) (wrap64 (w.writeOffset + size + w.pageSize.bytes)) := by omega
    rcases grow_spec hw os hle (by omega) with h | ⟨w', h, hg, -⟩
    · exact .inl h
    · exact .inr ⟨w', h, hg⟩
  · rw [if_neg hfull]
    exact .inr ⟨w, rfl, Grown.refl hw⟩

/-- A frame that fits needs no growth. -/
theorem reserve_fits (hw : w.WellMapped) (os : OsReply) {size : Nat}
    (h : w.writeOffset + size ≤ w.mappedSize) : w.reserve os size = (.ok (), w) := by
  have hlt := hw.lt
  rw [WriteAheadLog.reserve, wrap64_of_lt (by omega)]
  exact if_neg (by omega)

/-! ## §4. `append`. -/

/-- One frame was written at the write offset, and nothing else. -/
structure Appended (w : WriteAheadLog) (data : Bytes) (w' : WriteAheadLog) : Prop where
  wellMapped : w'.WellMapped
  byte : w'.file.byte = writeAt w.file.byte w.writeOffset (encodeFrame data)
  mapped_le : w.mappedSize ≤ w'.mappedSize
  writeOffset : w'.writeOffset = w.writeOffset + (12 + data.length)
  sequence : w'.sequence = w.sequence + 1
  pageSize : w'.pageSize = w.pageSize

theorem frameSize_eq {data : Bytes} (h : 12 + data.length < 2 ^ 64) :
    frameSize data = 12 + data.length := by
  unfold frameSize
  rw [wrap64_of_lt (by omega)]
  omega

theorem Small.lt {data : Bytes} (h : Small data) : data.length < 2 ^ 62 := by
  unfold Small at h
  omega

/-- The part of `append` after the growth. -/
theorem append_of_reserve (os : OsReply) {w₁ : WriteAheadLog} {data : Bytes}
    (hres : w.reserve os (frameSize data) = (.ok (), w₁)) (hg : Grown w w₁)
    (hroom : w.writeOffset + (12 + data.length) ≤ w₁.mappedSize) :
    (w.append os data).1 = .returned (w.sequence + 1) ∧ Appended w data (w.append os data).2 := by
  have hw₁ := hg.wellMapped
  have hlt := hw₁.lt
  have hsize : frameSize data = 12 + data.length := frameSize_eq (by omega)
  -- the four stores, then the synchronisation, then offset and sequence
  rw [← hg.writeOffset] at hroom
  obtain ⟨f, hf, hfsize, hfbyte⟩ := writeFrame_spec hw₁.toLive hroom
  obtain ⟨ms, hms⟩ := syncRange_eq os { w₁ with file := f } w₁.writeOffset (12 + data.length) true
  have hcommit : WriteAheadLog.commitFrame os { w₁ with file := f } (frameSize data) =
      { w₁ with
        file := f, msyncs := ms
        writeOffset := w₁.writeOffset + (12 + data.length), sequence := w₁.sequence + 1 } := by
    rw [hsize, WriteAheadLog.commitFrame]
    simp only [hms]
    rw [wrap64_of_lt (by omega)]
  have happ : w.append os data =
      (.returned (w₁.sequence + 1),
        { w₁ with
          file := f, msyncs := ms
          writeOffset := w₁.writeOffset + (12 + data.length), sequence := w₁.sequence + 1 }) := by
    simp only [WriteAheadLog.append, hres, hf, hcommit]
  rw [happ]
  refine ⟨by rw [hg.sequence], ?_⟩
  exact
    { wellMapped :=
        { mapped := hw₁.mapped, covers := hfsize.trans hw₁.covers, pos := hw₁.pos, lt := hw₁.lt
          page := hw₁.page, offset_le := hroom }
      byte := by
        show f.byte = _
        rw [hfbyte, hg.byte, hg.writeOffset]
      mapped_le := hg.mapped_le
      writeOffset := by
        show w₁.writeOffset + _ = _
        rw [hg.writeOffset]
      sequence := by
        show w₁.sequence + 1 = _
        rw [hg.sequence]
      pageSize := hg.pageSize }

/-- **What `append` does**: it throws, or it has appended one frame.  It never
accesses memory outside the mapping. -/
theorem append_spec (hw : w.WellMapped) (os : OsReply) {data : Bytes}
    (hlen : data.length < 2 ^ 62) :
    (∃ what, (w.append os data).1 = .threw what) ∨
      ((w.append os data).1 = .returned (w.sequence + 1) ∧
        Appended w data (w.append os data).2) := by
  have hsize : frameSize data < 2 ^ 63 - 2 ^ 32 := by
    rw [frameSize_eq (by omega)]
    omega
  rcases reserve_spec hw os hsize with ⟨what, w₁, hres⟩ | ⟨w₁, hres, hg, hroom⟩
  · refine .inl ⟨what, ?_⟩
    rw [WriteAheadLog.append, hres]
  · rw [frameSize_eq (by omega)] at hroom
    exact .inr (append_of_reserve os hres hg hroom)

/-- The operating system grants what an append asks for, and no size gets too
large for a file. -/
structure Granted (w : WriteAheadLog) (os : OsReply) (data : Bytes) : Prop where
  ftruncateOk : os.ftruncateOk = true
  mmapOk : os.mmapOk = true
  room : max (w.mappedSize * 2) (w.writeOffset + (12 + data.length) + w.pageSize.bytes) +
    w.pageSize.bytes ≤ 2 ^ 63

/-- **`append` returns when the growth is granted.** -/
theorem append_granted (hw : w.WellMapped) {os : OsReply} {data : Bytes}
    (hlen : data.length < 2 ^ 62) (h : Granted w os data) :
    (w.append os data).1 = .returned (w.sequence + 1) ∧ Appended w data (w.append os data).2 := by
  have hroom := h.room
  have hsize : frameSize data = 12 + data.length := frameSize_eq (by omega)
  have hok : (w.reserve os (12 + data.length)).1 = .ok () := by
    unfold WriteAheadLog.reserve
    rw [wrap64_of_lt (n := w.mappedSize * 2) (by omega), wrap64_of_lt (by omega),
      wrap64_of_lt (by omega)]
    split
    · exact grow_granted hw h.ftruncateOk h.mmapOk (by omega) hroom
    · rfl
  rcases append_spec hw os hlen with ⟨what, hthrew⟩ | hret
  · -- only a growth that fails throws
    have hres : w.reserve os (frameSize data) = (.ok (), (w.reserve os (frameSize data)).2) := by
      rw [hsize]
      exact Prod.ext hok rfl
    unfold WriteAheadLog.append at hthrew
    rw [hres] at hthrew
    dsimp only at hthrew
    split at hthrew <;> cases hthrew
  · exact hret

/-- The parts of an `append` that returned. -/
theorem append_returned_parts (hw : w.WellMapped) {os : OsReply} {data : Bytes} {seq : Nat}
    {w' : WriteAheadLog} (h : w.append os data = (.returned seq, w')) :
    ∃ w₁ w₂, w.reserve os (frameSize data) = (.ok (), w₁) ∧ Grown w w₁ ∧
      w₁.writeFrame data = some w₂ ∧ w' = w₂.commitFrame os (frameSize data) := by
  rcases reserve_grown hw os (frameSize data) with ⟨what, w₁, hres⟩ | ⟨w₁, hres, hg⟩
  · simp only [WriteAheadLog.append, hres] at h
    cases h
  · cases hwrite : w₁.writeFrame data with
    | none =>
        simp only [WriteAheadLog.append, hres, hwrite] at h
        cases h
    | some w₂ =>
        simp only [WriteAheadLog.append, hres, hwrite] at h
        cases h
        exact ⟨w₁, w₂, hres, hg, hwrite, rfl⟩

/-- **What an `append` that returns has done**, whatever the size of the data. -/
theorem append_returned_inv (hw : w.WellMapped) {os : OsReply} {data : Bytes} {seq : Nat}
    {w' : WriteAheadLog} (h : w.append os data = (.returned seq, w')) : Appended w data w' := by
  obtain ⟨w₁, w₂, hres, hg, hwrite, -⟩ := append_returned_parts hw h
  have hroom := writeFrame_room hwrite
  rw [hg.writeOffset] at hroom
  obtain ⟨-, happ⟩ := append_of_reserve os hres hg hroom
  rwa [h] at happ

/-- `append` returns whenever the frame fits into the mapping. -/
theorem append_fits (hw : w.WellMapped) (os : OsReply) {data : Bytes}
    (hlen : data.length < 2 ^ 62)
    (h : w.writeOffset + (12 + data.length) ≤ w.mappedSize) :
    (w.append os data).1 = .returned (w.sequence + 1) ∧ Appended w data (w.append os data).2 := by
  have hfit : w.writeOffset + frameSize data ≤ w.mappedSize := by
    rw [frameSize_eq (by omega)]
    exact h
  exact append_of_reserve os (reserve_fits hw os hfit) (Grown.refl hw) h

end Parts

end ZeroLGR.Wal
