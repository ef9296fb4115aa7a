/-
  ZeroLGR.Wal.Synced — which bytes were synchronised.

  `append` synchronises its frame before it advances the offset, and `sync_range`
  rounds the start of the frame down to a page.  Neither looks at what `msync`
  reports.

    • `Msync.Covers`, `Synced` — a synchronisation that has succeeded,
    • `append_keeps` — `append` adds to the calls of `msync`, however it ends,
    • `append_synced` — a frame is synchronised whole if its `msync` succeeds,
    • `Written`, `Written.append` — the frames behind a given offset,
    • `readAt_frame` — each of them stands behind those before it.
-/
import ZeroLGR.Wal.Append

namespace ZeroLGR.Wal

open Bytes

/-! ## §1. Synchronised bytes. -/

/-- The call starts at a page, and reaches over the bytes `[off, off + n)`. -/
structure Msync.Covers (ps : PageSize) (m : Msync) (off n : Nat) : Prop where
  page : ps.bytes ∣ m.offset
  start : m.offset ≤ off
  reaches : off + n ≤ m.offset + m.length

instance (ps : PageSize) (m : Msync) (off n : Nat) : Decidable (m.Covers ps off n) :=
  decidable_of_iff (ps.bytes ∣ m.offset ∧ m.offset ≤ off ∧ off + n ≤ m.offset + m.length)
    ⟨fun h => ⟨h.1, h.2.1, h.2.2⟩, fun h => ⟨h.page, h.start, h.reaches⟩⟩

/-- A blocking `msync` over the bytes has reported success. -/
def Synced (w : WriteAheadLog) (off n : Nat) : Prop :=
  ∃ m ∈ w.msyncs, m.blocking = true ∧ m.ok = true ∧ m.Covers w.pageSize off n

instance (w : WriteAheadLog) (off n : Nat) : Decidable (Synced w off n) :=
  inferInstanceAs (Decidable (∃ m ∈ w.msyncs, _))

/-- The calls of `msync` so far are still on record. -/
structure Keeps (w w' : WriteAheadLog) : Prop where
  pageSize : w'.pageSize = w.pageSize
  msyncs : w.msyncs ⊆ w'.msyncs

theorem Keeps.refl (w : WriteAheadLog) : Keeps w w := ⟨rfl, List.Subset.refl _⟩

theorem Keeps.trans {w w' w'' : WriteAheadLog} (h : Keeps w w') (h' : Keeps w' w'') :
    Keeps w w'' :=
  ⟨h'.pageSize.trans h.pageSize, List.Subset.trans h.msyncs h'.msyncs⟩

/-- What was synchronised once was synchronised. -/
theorem Synced.keep {w w' : WriteAheadLog} {off n : Nat} (h : Synced w off n) (hk : Keeps w w') :
    Synced w' off n := by
  obtain ⟨m, hm, hblocking, hok, hcovers⟩ := h
  refine ⟨m, hk.msyncs hm, hblocking, hok, ?_⟩
  rw [hk.pageSize]
  exact hcovers

section Parts

variable {w w' : WriteAheadLog}

theorem reserve_keeps (os : OsReply) (w : WriteAheadLog) (size : Nat) :
    Keeps w (w.reserve os size).2 := by
  unfold WriteAheadLog.reserve WriteAheadLog.grow
  split
  · dsimp only
    split
    · exact ⟨rfl, List.Subset.refl _⟩
    · split
      · exact ⟨rfl, List.Subset.refl _⟩
      · exact ⟨rfl, List.Subset.refl _⟩
  · exact Keeps.refl w

theorem store_keeps {off : Nat} {bs : Bytes} (h : w.store off bs = some w') : Keeps w w' := by
  unfold WriteAheadLog.store at h
  split at h
  · cases h
    exact ⟨rfl, List.Subset.refl _⟩
  · cases h

theorem writeFrame_keeps {data : Bytes} (h : w.writeFrame data = some w') : Keeps w w' := by
  unfold WriteAheadLog.writeFrame at h
  obtain ⟨w₁, h₁, h⟩ := Option.bind_eq_some_iff.mp h
  obtain ⟨w₂, h₂, h⟩ := Option.bind_eq_some_iff.mp h
  obtain ⟨w₃, h₃, h₄⟩ := Option.bind_eq_some_iff.mp h
  exact (store_keeps h₁).trans ((store_keeps h₂).trans ((store_keeps h₃).trans (store_keeps h₄)))

theorem commitFrame_keeps (os : OsReply) (w : WriteAheadLog) (size : Nat) :
    Keeps w (w.commitFrame os size) := by
  unfold WriteAheadLog.commitFrame WriteAheadLog.syncRange
  split
  · exact ⟨rfl, List.subset_append_left _ _⟩
  · exact ⟨rfl, List.Subset.refl _⟩

/-- **`append` forgets no call**, however it ends. -/
theorem append_keeps (os : OsReply) (w : WriteAheadLog) (data : Bytes) :
    Keeps w (w.append os data).2 := by
  have hres := reserve_keeps os w (frameSize data)
  unfold WriteAheadLog.append
  split
  next what w₁ heq =>
    rw [heq] at hres
    exact hres
  next w₁ heq =>
    rw [heq] at hres
    split
    next => exact hres
    next w₂ hwrite =>
      exact hres.trans ((writeFrame_keeps hwrite).trans (commitFrame_keeps os w₂ _))

/-! ## §2. The frame of an `append`. -/

/-- Rounding down to a page. -/
theorem alignDown (ps : PageSize) {off : Nat} (h : off < 2 ^ 64) :
    ps.bytes ∣ (off &&& not64 (ps.bytes - 1)) ∧ off &&& not64 (ps.bytes - 1) ≤ off := by
  obtain ⟨k, hlt, hk⟩ := ps.pow_two
  rw [hk, and_not64_mask h (by omega)]
  exact ⟨Dvd.intro_left _ rfl, Nat.div_mul_le_self _ _⟩

/-- **`sync_range` reaches over the whole range**, wherever it starts. -/
theorem syncRange_synced {os : OsReply} (hmapped : w.mapped = true) (hos : os.msyncOk = true)
    {off : Nat} (hoff : off < 2 ^ 64) (n : Nat) : Synced (w.syncRange os off n true) off n := by
  obtain ⟨hpage, hle⟩ := alignDown w.pageSize hoff
  rw [WriteAheadLog.syncRange, if_pos hmapped]
  refine ⟨⟨off &&& not64 (w.pageSize.bytes - 1), _, true, os.msyncOk⟩,
    List.mem_append_right _ (List.mem_singleton_self _), rfl, hos, hpage, hle, ?_⟩
  show off + n ≤ (off &&& not64 (w.pageSize.bytes - 1)) +
    (n + (off - (off &&& not64 (w.pageSize.bytes - 1))))
  omega

/-- **An `append` that returns has synchronised its frame** if `msync` reports
success, also when it had to grow the file. -/
theorem append_synced (hw : w.WellMapped) {os : OsReply} (hos : os.msyncOk = true) {data : Bytes}
    {seq : Nat} (h : w.append os data = (.returned seq, w')) :
    Synced w' w.writeOffset (12 + data.length) := by
  obtain ⟨w₁, w₂, -, hg, hwrite, rfl⟩ := append_returned_parts hw h
  have hlt := hg.wellMapped.lt
  have hroom := writeFrame_room hwrite
  obtain ⟨f, hf, -, -⟩ := writeFrame_spec hg.wellMapped.toLive hroom
  rw [hwrite, Option.some.injEq] at hf
  have hoff : w₂.writeOffset = w.writeOffset := by rw [hf, ← hg.writeOffset]
  have hmapped : w₂.mapped = true := by rw [hf]; exact hg.wellMapped.mapped
  rw [hg.writeOffset] at hroom
  rw [frameSize_eq (by omega), WriteAheadLog.commitFrame, hoff]
  exact syncRange_synced hmapped hos (by omega) _

end Parts

/-! ## §3. The frames behind an offset. -/

/-- The frames of `ps` stand one after the other from `base` on, up to the write
offset. -/
structure Written (w : WriteAheadLog) (base : Nat) (ps : List Bytes) : Prop
    extends w.WellMapped where
  read : readAt w.file.byte base (framesLength ps) = encodeFrames ps
  writeOffset : w.writeOffset = base + framesLength ps

theorem written_nil {w : WriteAheadLog} (hw : w.WellMapped) : Written w w.writeOffset [] :=
  ⟨hw, rfl, rfl⟩

theorem Written.append {w w' : WriteAheadLog} {base : Nat} {ps : List Bytes} (h : Written w base ps)
    {data : Bytes} (happ : Appended w data w') : Written w' base (ps ++ [data]) := by
  refine ⟨happ.wellMapped, ?_, ?_⟩
  · have hold : readAt w'.file.byte base (framesLength ps) = encodeFrames ps := by
      rw [happ.byte, readAt_writeAt_before _ _ (by rw [h.writeOffset]), h.read]
    have hnew : readAt w'.file.byte (base + framesLength ps) (12 + data.length) =
        encodeFrame data := by
      rw [happ.byte, h.writeOffset, ← length_encodeFrame]
      exact readAt_writeAt _ _ _
    rw [framesLength_snoc, readAt_append, hold, hnew, encodeFrames_append, encodeFrames_singleton]
  · rw [happ.writeOffset, h.writeOffset, framesLength_snoc]
    omega

/-- Each frame of a chain stands behind the frames before it. -/
theorem readAt_frame {m : Nat → UInt8} {base k : Nat} {ps : List Bytes} {p : Bytes}
    (h : readAt m base (framesLength ps) = encodeFrames ps) (hk : ps[k]? = some p) :
    readAt m (base + framesLength (ps.take k)) (12 + p.length) = encodeFrame p := by
  obtain ⟨hlt, hget⟩ := List.getElem?_eq_some_iff.mp hk
  have hsplit : ps = ps.take k ++ p :: ps.drop (k + 1) := by
    rw [← hget, List.getElem_cons_drop, List.take_append_drop]
  rw [hsplit, framesLength_append, framesLength_cons, encodeFrames_append, encodeFrames_cons,
    readAt_append, readAt_append] at h
  have hrest := (List.append_inj h (by rw [length_readAt, framesLength])).2
  exact (List.append_inj hrest (by rw [length_readAt, length_encodeFrame])).1

end ZeroLGR.Wal
