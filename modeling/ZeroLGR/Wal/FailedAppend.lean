/-
  ZeroLGR.Wal.FailedAppend — what an append that throws leaves behind.

  `grow` unmaps the file before it resizes and maps it again.  If either call
  fails, `append` throws, and the object keeps its sizes and its offset while
  the mapping is gone: `replay` returns at once and delivers nothing, and an
  append that needs no growth writes through a null pointer.

    • `WriteAheadLog.WellMapped.byte_of_threw` — an `append` that throws changes
      no byte of the file,
    • `append_threw_inv` — the object it leaves,
    • `append_unmapped` — an append that fits writes outside every mapping then,
    • `Holding`, `Reachable` — what holds of a log across failures, and the logs
      that any calls, failures and restarts lead to,
    • `failed_append_iff` — the log is usable afterwards only if nothing was
      appended before and the mapping is too small for any frame,
    • `refusedGrowth_loses` — one refused `ftruncate`.
-/
import ZeroLGR.Wal.Reopen

namespace ZeroLGR.Wal

open Bytes Emit Transition

/-! ## §1. The object after a failure. -/

section Failing

variable {w w' : WriteAheadLog} {ps : List Bytes}

/-- The log has lost its mapping, and otherwise only the length of its file has
changed. -/
structure Detached (w w' : WriteAheadLog) : Prop where
  unmapped : w'.mapped = false
  mappedSize : w'.mappedSize = w.mappedSize
  writeOffset : w'.writeOffset = w.writeOffset
  sequence : w'.sequence = w.sequence
  pageSize : w'.pageSize = w.pageSize

theorem grow_error_inv {os : OsReply} {newSize : Nat} {what : String}
    (h : w.grow os newSize = (.error what, w')) :
    Detached w w' ∧
      (w'.file = w.file ∨ w'.file = w.file.resize (alignToPage w.pageSize newSize)) := by
  dsimp only [WriteAheadLog.grow] at h
  cases hft : ftruncate os w.file (alignToPage w.pageSize newSize) with
  | none =>
      simp only [hft] at h
      cases h
      exact ⟨⟨rfl, rfl, rfl, rfl, rfl⟩, .inl rfl⟩
  | some file =>
      obtain ⟨-, rfl⟩ := ftruncate_eq_some hft
      by_cases hmm : mmap os (alignToPage w.pageSize newSize) = true
      · simp only [hft, if_pos hmm] at h
        cases h
      · simp only [hft, if_neg hmm] at h
        cases h
        exact ⟨⟨rfl, rfl, rfl, rfl, rfl⟩, .inr rfl⟩

theorem grow_ok_inv {os : OsReply} {newSize : Nat} {u : Unit}
    (h : w.grow os newSize = (.ok u, w')) :
    alignToPage w.pageSize newSize < 2 ^ 63 ∧
      w' = { w with
        file := w.file.resize (alignToPage w.pageSize newSize), mapped := true
        mappedSize := alignToPage w.pageSize newSize } := by
  dsimp only [WriteAheadLog.grow] at h
  cases hft : ftruncate os w.file (alignToPage w.pageSize newSize) with
  | none =>
      simp only [hft] at h
      cases h
  | some file =>
      obtain ⟨hlt, rfl⟩ := ftruncate_eq_some hft
      by_cases hmm : mmap os (alignToPage w.pageSize newSize) = true
      · simp only [hft, if_pos hmm] at h
        cases h
        exact ⟨hlt, rfl⟩
      · simp only [hft, if_neg hmm] at h
        cases h

/-- The size `append` asks `grow` for. -/
def WriteAheadLog.growthFor (w : WriteAheadLog) (size : Nat) : Nat :=
  max (wrap64 (w.mappedSize * 2)) (wrap64 (w.writeOffset + size + w.pageSize.bytes))

/-- An `append` that throws has tried to grow. -/
theorem append_threw_grow {os : OsReply} {data : Bytes} {what : String}
    (h : w.append os data = (.threw what, w')) :
    w.grow os (w.growthFor (frameSize data)) = (.error what, w') := by
  have hreserve : w.reserve os (frameSize data) = (.error what, w') := by
    unfold WriteAheadLog.append at h
    cases hres : w.reserve os (frameSize data) with
    | mk outcome w₁ =>
        cases outcome with
        | error what₁ =>
            simp only [hres] at h
            cases h
            rfl
        | ok u =>
            simp only [hres] at h
            cases hwrite : w₁.writeFrame data with
            | none => simp [hwrite] at h
            | some w₂ => simp [hwrite] at h
  unfold WriteAheadLog.reserve at hreserve
  split at hreserve
  · exact hreserve
  · cases hreserve

/-- A mapped size is a whole number of pages below `2 ^ 63`, so doubling it does
not wrap when it is rounded. -/
theorem double_le (hpage : w.pageSize.bytes ∣ w.mappedSize) (hlt : w.mappedSize < 2 ^ 63) :
    w.mappedSize * 2 + 2 * w.pageSize.bytes ≤ 2 ^ 64 := by
  obtain ⟨k, hk, hbytes⟩ := w.pageSize.pow_two
  obtain ⟨n, hn⟩ := hpage
  have hpages : 2 ^ 63 = w.pageSize.bytes * 2 ^ (63 - k) := by
    rw [hbytes, ← Nat.pow_add]
    congr 1
    omega
  have hcount : n < 2 ^ (63 - k) := by
    rw [hn, hpages] at hlt
    exact Nat.lt_of_mul_lt_mul_left hlt
  have hstep : w.pageSize.bytes * (n + 1) ≤ w.pageSize.bytes * 2 ^ (63 - k) :=
    Nat.mul_le_mul_left _ hcount
  rw [Nat.mul_succ, ← hn, ← hpages] at hstep
  omega

/-- **The size that growing leads to** covers the mapping and the frame, for data
of any size that memory holds. -/
theorem growth_le (hpage : w.pageSize.bytes ∣ w.mappedSize) (hlt : w.mappedSize < 2 ^ 63)
    (hoff : w.writeOffset ≤ w.mappedSize) {data : Bytes} (hlen : data.length < 2 ^ 62) :
    w.writeOffset + (12 + data.length) ≤
        alignToPage w.pageSize (w.growthFor (frameSize data)) ∧
      w.mappedSize ≤ alignToPage w.pageSize (w.growthFor (frameSize data)) := by
  have hdouble := double_le hpage hlt
  have hps := w.pageSize.lt
  have hpos := w.pageSize.pos
  have hgrowth : w.growthFor (frameSize data) =
      max (w.mappedSize * 2) (w.writeOffset + (12 + data.length) + w.pageSize.bytes) := by
    rw [WriteAheadLog.growthFor, frameSize_eq (by omega), wrap64_of_lt (by omega),
        wrap64_of_lt (by omega)]
  have hround : w.growthFor (frameSize data) ≤
      alignToPage w.pageSize (w.growthFor (frameSize data)) := by
    refine le_alignToPage_of_no_wrap w.pageSize ?_
    rw [hgrowth]
    omega
  omega

/-- **An append that throws changes no byte**, even if it has made the file longer. -/
theorem WriteAheadLog.WellMapped.byte_of_threw (hw : w.WellMapped) {os : OsReply} {data : Bytes}
    {what : String} (hlen : data.length < 2 ^ 62)
    (hthrew : w.append os data = (.threw what, w')) : w'.file.byte = w.file.byte := by
  obtain ⟨-, hfile⟩ := grow_error_inv (append_threw_grow hthrew)
  rcases hfile with hsame | hlonger
  · rw [hsame]
  · -- the file was made longer, and could not be mapped
    obtain ⟨-, hcovers⟩ := growth_le hw.page hw.lt hw.offset_le hlen
    rw [hlonger]
    refine w.file.byte_resize ?_
    rw [hw.covers]
    exact hcovers

/-- **What an `append` that throws leaves behind.** -/
theorem append_threw_inv {os : OsReply} {data : Bytes} {what : String}
    (h : w.append os data = (.threw what, w')) : Detached w w' :=
  (grow_error_inv (append_threw_grow h)).1

/-- Without a mapping nothing is stored. -/
theorem store_unmapped (hw : w.mapped = false) (off : Nat) (bs : Bytes) :
    w.store off bs = none := by
  refine dif_neg ?_
  intro hacc
  have hmapped : w.mapped = true := hacc.1
  rw [hw] at hmapped
  cases hmapped

/-- **An append that fits is written through a null pointer.** -/
theorem append_unmapped (hw : w.mapped = false) (hlt : w.mappedSize < 2 ^ 63) (os : OsReply)
    {data : Bytes} (h : w.writeOffset + (12 + data.length) ≤ w.mappedSize) :
    w.append os data = (.crashed, w) := by
  have hreserve : w.reserve os (frameSize data) = (.ok (), w) := by
    rw [WriteAheadLog.reserve, frameSize_eq (by omega), wrap64_of_lt (by omega)]
    exact if_neg (by omega)
  have hwrite : w.writeFrame data = none := by
    rw [WriteAheadLog.writeFrame, store_unmapped hw]
    rfl
  rw [WriteAheadLog.append, hreserve]
  simp only [hwrite]

/-- **A replay without a mapping delivers nothing.** -/
theorem replay_unmapped (hw : w.mapped = false) : w.replay = ⟨.returned 0, [], w⟩ := by
  refine if_neg ?_
  rw [hw]
  decide

/-! ## §2. Logs across failures. -/

/-- The file holds the frames of `ps` and zeros, and the object knows where they
end; there may be a mapping or not. -/
structure Holding (w : WriteAheadLog) (ps : List Bytes) : Prop where
  pos : 0 < w.mappedSize
  lt : w.mappedSize < 2 ^ 63
  page : w.pageSize.bytes ∣ w.mappedSize
  offset_le : w.writeOffset ≤ w.mappedSize
  frames : FramesAt w.file.byte 0 ps
  writeOffset : w.writeOffset = framesLength ps
  zero : ∀ i, w.writeOffset ≤ i → w.file.byte i = 0
  sequence : w.sequence = ps.length

theorem Represents.holding (h : Represents w ps) : Holding w ps :=
  ⟨h.pos, h.lt, h.page, h.offset_le, h.frames, h.writeOffset, h.zero, h.sequence⟩

/-- Holding with a mapping of the whole file is representing. -/
theorem Holding.represents (h : Holding w ps) (hw : w.Live) : Represents w ps :=
  { mapped := hw.mapped, covers := hw.covers, pos := h.pos, lt := h.lt, page := h.page
    offset_le := h.offset_le, read := h.frames.read, writeOffset := h.writeOffset
    zero := h.zero, sequence := h.sequence, small := h.frames.small }

/-- Resizing the file to a size behind the frames changes no byte. -/
theorem Holding.byte_resize (h : Holding w ps) {n : Nat} (hn : w.writeOffset ≤ n) :
    (w.file.resize n).byte = w.file.byte := by
  funext i
  show (if i < n then w.file.byte i else 0) = w.file.byte i
  split
  next => rfl
  next hi => exact (h.zero i (by omega)).symm

/-- A growth for `append` that fails leaves what the log holds. -/
theorem Holding.grow_error (h : Holding w ps) {os : OsReply} {data : Bytes} {what : String}
    (hsmall : Small data)
    (hgrow : w.grow os (w.growthFor (frameSize data)) = (.error what, w')) :
    Holding w' ps := by
  obtain ⟨hdet, hfile⟩ := grow_error_inv hgrow
  obtain ⟨-, hle⟩ := growth_le h.page h.lt h.offset_le hsmall.lt
  have hbyte : w'.file.byte = w.file.byte := by
    rcases hfile with hfile | hfile <;> rw [hfile]
    exact h.byte_resize (h.offset_le.trans hle)
  exact
    { pos := by rw [hdet.mappedSize]; exact h.pos
      lt := by rw [hdet.mappedSize]; exact h.lt
      page := by rw [hdet.mappedSize, hdet.pageSize]; exact h.page
      offset_le := by rw [hdet.mappedSize, hdet.writeOffset]; exact h.offset_le
      frames := by rw [hbyte]; exact h.frames
      writeOffset := hdet.writeOffset.trans h.writeOffset
      zero := by rw [hdet.writeOffset, hbyte]; exact h.zero
      sequence := hdet.sequence.trans h.sequence }

/-- **One that succeeds maps the log again**, with room for the frame. -/
theorem Holding.grow_ok (h : Holding w ps) {os : OsReply} {data : Bytes} {u : Unit}
    (hsmall : Small data)
    (hgrow : w.grow os (w.growthFor (frameSize data)) = (.ok u, w')) :
    Represents w' ps ∧ w'.writeOffset + (12 + data.length) ≤ w'.mappedSize := by
  obtain ⟨hfits, hle⟩ := growth_le h.page h.lt h.offset_le hsmall.lt
  obtain ⟨hlt, hw'⟩ := grow_ok_inv hgrow
  have hbyte := h.byte_resize (h.offset_le.trans hle)
  subst hw'
  refine ⟨?_, hfits⟩
  exact
    { mapped := rfl, covers := rfl
      pos := lt_of_lt_of_le h.pos hle
      lt := hlt
      page := dvd_alignToPage _ _
      offset_le := h.offset_le.trans hle
      read := by rw [← h.frames.read]; exact readAt_congr (fun i _ _ => congrFun hbyte i)
      writeOffset := h.writeOffset
      zero := fun i hi => (congrFun hbyte i).trans (h.zero i hi)
      sequence := h.sequence, small := h.frames.small }

/-- What a log holds, and that a mapping it has is one of the whole file. -/
structure Tracked (w : WriteAheadLog) (ps : List Bytes) : Prop extends Holding w ps where
  live : w.mapped = true → w.Live

theorem Represents.tracked (h : Represents w ps) : Tracked w ps := ⟨h.holding, fun _ => h.toLive⟩

theorem append_fits_eq (os : OsReply) {data : Bytes} {w₁ : WriteAheadLog}
    (hres : w.reserve os (frameSize data) = (.ok (), w₁))
    (hres₁ : w₁.reserve os (frameSize data) = (.ok (), w₁)) :
    w.append os data = w₁.append os data := by
  simp only [WriteAheadLog.append, hres, hres₁]

/-- A frame that does not fit makes `append` grow the file. -/
theorem Holding.reserve_grows (h : Holding w ps) (os : OsReply) {data : Bytes}
    (hsmall : Small data) (hfull : w.mappedSize < w.writeOffset + (12 + data.length)) :
    w.reserve os (frameSize data) = w.grow os (w.growthFor (frameSize data)) := by
  have hlt := h.lt
  have hoff := h.offset_le
  have hlen : data.length + 12 < 2 ^ 32 := hsmall
  refine if_pos ?_
  rw [frameSize_eq (by omega), wrap64_of_lt (by omega)]
  exact hfull

/-- **An append keeps track.**  If it returns, the log has its mapping and one
more frame; if it throws, the log holds what it held. -/
theorem Tracked.append (h : Tracked w ps) (os : OsReply) {data : Bytes} (hsmall : Small data) :
    (∀ seq, w.append os data = (.returned seq, w') → Represents w' (ps ++ [data])) ∧
      ∀ what, w.append os data = (.threw what, w') → Tracked w' ps := by
  constructor
  · intro seq hret
    -- the append of the log that `reserve` leaves, which represents `ps`
    have hreserved : ∃ w₁, w.append os data = w₁.append os data ∧ Represents w₁ ps := by
      have hlt := h.lt
      have hoff := h.offset_le
      have hlen : data.length + 12 < 2 ^ 32 := hsmall
      by_cases hfit : w.writeOffset + (12 + data.length) ≤ w.mappedSize
      · cases hm : w.mapped with
        | true => exact ⟨w, rfl, h.represents (h.live hm)⟩
        | false =>
            rw [append_unmapped hm hlt os hfit] at hret
            cases hret
      · have hgrows := h.reserve_grows os hsmall (Nat.lt_of_not_le hfit)
        cases hgrow : w.grow os (w.growthFor (frameSize data)) with
        | mk outcome w₁ =>
            rw [hgrow] at hgrows
            cases outcome with
            | error what =>
                rw [WriteAheadLog.append, hgrows] at hret
                cases hret
            | ok u =>
                obtain ⟨hrep, hroom⟩ := h.grow_ok hsmall hgrow
                rw [← frameSize_eq (by omega)] at hroom
                have hfits := reserve_fits hrep.toWellMapped os hroom
                exact ⟨w₁, append_fits_eq os hgrows hfits, hrep⟩
    obtain ⟨w₁, happ, hrep⟩ := hreserved
    rw [happ] at hret
    exact hrep.append hsmall (append_returned_inv hrep.toWellMapped hret)
  · intro what hthrew
    have hmapped := (append_threw_inv hthrew).unmapped
    refine ⟨h.grow_error hsmall (append_threw_grow hthrew), ?_⟩
    intro hm
    rw [hmapped] at hm
    cases hm

/-- **A call keeps track**, whether it returns or throws. -/
theorem Tracked.exec (h : Tracked w ps) {c : Call} (hc : c.Small) :
    (∀ r, w.exec c = (.returned r, w') → Tracked w' (ps ++ c.payloads)) ∧
      ∀ what, w.exec c = (.threw what, w') → Tracked w' ps := by
  cases c with
  | append os data =>
      have hsmall : Small data := hc data List.mem_cons_self
      have happ := @Tracked.append w (w.append os data).2 ps h os data hsmall
      constructor
      · intro r hret
        obtain ⟨hfst, rfl⟩ := Prod.mk.inj hret
        cases hout : (w.append os data).1 with
        | returned seq => exact (happ.1 seq (Prod.ext hout rfl)).tracked
        | threw | crashed | hung => rw [hout] at hfst; cases hfst
      · intro what hthrew
        obtain ⟨hfst, rfl⟩ := Prod.mk.inj hthrew
        cases hout : (w.append os data).1 with
        | threw what₁ => exact happ.2 what₁ (Prod.ext hout rfl)
        | returned | crashed | hung => rw [hout] at hfst; cases hfst
  | flushAsync os =>
      refine ⟨?_, fun what hthrew => by cases hthrew⟩
      intro r hret
      obtain ⟨-, rfl⟩ := Prod.mk.inj hret
      show Tracked (w.flushAsync os) (ps ++ [])
      rw [List.append_nil]
      cases hm : w.mapped with
      | true => exact ((h.represents (h.live hm)).flushAsync os).tracked
      | false =>
          have hsame : w.flushAsync os = w := by
            simp [WriteAheadLog.flushAsync, WriteAheadLog.syncRange, hm]
          rwa [hsame]
  | replay =>
      have hsame : w.replay.log = w ∧ ∃ n, w.replay.outcome = .returned n := by
        cases hm : w.mapped with
        | true =>
            rw [(h.represents (h.live hm)).replay]
            exact ⟨rfl, _, rfl⟩
        | false =>
            rw [replay_unmapped hm]
            exact ⟨rfl, _, rfl⟩
      obtain ⟨hlog, n, hout⟩ := hsame
      constructor
      · intro r hret
        obtain ⟨-, rfl⟩ := Prod.mk.inj hret
        show Tracked w.replay.log (ps ++ [])
        rwa [hlog, List.append_nil]
      · intro what hthrew
        have hfst : w.replay.outcome.map _ = .threw what := (Prod.mk.inj hthrew).1
        rw [hout] at hfst
        cases hfst

/-! ## §3. Reachable logs. -/

/-- `Reachable w ps`: calls, some of which may have thrown, have led to the log
`w`, and the payloads `ps` are the ones whose append returned.  A log constructed
again on the file, at a size that cuts no frame off, is replayed first. -/
inductive Reachable : WriteAheadLog → List Bytes → Prop
  | constructed {pageSize : PageSize} {os : OsReply} {path : String} {disk : FileImage}
      {initialSize : Nat} {w : WriteAheadLog} :
      (∀ i, disk.byte i = 0) → (construct pageSize os path disk initialSize).1 = .returned w →
        Reachable w []
  | returned {w w' : WriteAheadLog} {ps : List Bytes} {c : Call} {r : Result} :
      Reachable w ps → c.Small → w.exec c = (.returned r, w') → Reachable w' (ps ++ c.payloads)
  | threw {w w' : WriteAheadLog} {ps : List Bytes} {c : Call} {what : String} :
      Reachable w ps → c.Small → w.exec c = (.threw what, w') → Reachable w' ps
  | restarted {pageSize : PageSize} {os : OsReply} {path : String} {initialSize : Nat}
      {w w' : WriteAheadLog} {ps : List Bytes} :
      Reachable w ps → (construct pageSize os path w.close initialSize).1 = .returned w' →
        framesLength ps ≤ initialSizeAligned pageSize initialSize → Reachable w'.replay.log ps

/-- **Every reachable log is tracked.** -/
theorem Reachable.tracked (h : Reachable w ps) : Tracked w ps := by
  induction h with
  | constructed hzero hopen => exact (represents_fresh hzero hopen).tracked
  | returned _ hc hret ih => exact (ih.exec hc).1 _ hret
  | threw _ hc hthrew ih => exact (ih.exec hc).2 _ hthrew
  | restarted _ hopen hfit ih =>
      have hzero := ih.zero
      rw [ih.writeOffset] at hzero
      exact (replay_of_content ih.frames hzero hopen hfit).2.2.tracked

/-! ## §4. After a failed append. -/

/-- `w'` is as usable as `w`, which holds the frames of `ps`. -/
structure StillUsable (w : WriteAheadLog) (ps : List Bytes) (w' : WriteAheadLog) : Prop where
  writeOffset : w'.writeOffset = w.writeOffset
  sequence : w'.sequence = w.sequence
  mappedSize : w'.mappedSize = w.mappedSize
  replays : w'.replay.outcome = .returned ps.length ∧ w'.replay.delivered = numbered 0 ps
  appends : ∀ os data, w'.writeOffset + (12 + data.length) ≤ w'.mappedSize →
    ∃ seq, (w'.append os data).1 = .returned seq

/-- **A FAILED APPEND DOES NOT LEAVE THE LOG USABLE**, unless nothing was appended
before and the mapping is smaller than the twelve bytes of an empty frame. -/
theorem failed_append_iff (h : Reachable w ps) {os : OsReply} {data : Bytes} {what : String}
    (hthrew : w.append os data = (.threw what, w')) :
    StillUsable w ps w' ↔ ps = [] ∧ w.mappedSize < 12 := by
  have htracked := h.tracked
  obtain ⟨hunmapped, hsize, hoffset, hseq, -⟩ := append_threw_inv hthrew
  have hlt : w'.mappedSize < 2 ^ 63 := by
    rw [hsize]
    exact htracked.lt
  have hreplay := replay_unmapped hunmapped
  constructor
  · intro husable
    have hnil : ps = [] := by
      have hdel := husable.replays.2
      rw [hreplay] at hdel
      have hnone : numbered 0 [] = numbered 0 ps := hdel
      exact (numbered_inj hnone).symm
    refine ⟨hnil, ?_⟩
    by_contra hroom
    -- the empty payload fits, and is written through the null pointer
    have hstart : w'.writeOffset = 0 := by
      rw [hoffset, htracked.writeOffset, hnil, framesLength_nil]
    have hfit : w'.writeOffset + (12 + ([] : Bytes).length) ≤ w'.mappedSize := by
      rw [hstart, hsize, List.length_nil]
      omega
    obtain ⟨seq, hret⟩ := husable.appends OsReply.ok [] hfit
    rw [append_unmapped hunmapped hlt OsReply.ok hfit] at hret
    cases hret
  · intro hempty
    obtain ⟨hnil, hsmall⟩ := hempty
    refine ⟨hoffset, hseq, hsize, ?_, ?_⟩
    · rw [hreplay, hnil]
      exact ⟨rfl, rfl⟩
    · intro os' data' hfit
      rw [hsize] at hfit
      omega

end Failing

/-! ## §5. One refused growth. -/

/-- The operating system refuses to make the file longer. -/
def OsReply.refused : OsReply := ⟨true, false, true, true⟩

theorem append_refused {w : WriteAheadLog} {ps : List Bytes} (h : Holding w ps) {data : Bytes}
    (hsmall : Small data) (hfull : w.mappedSize < w.writeOffset + (12 + data.length)) :
    w.append OsReply.refused data =
      (.threw "WriteAheadLog: ftruncate() failed during grow", { w with mapped := false }) := by
  have hgrow : w.grow OsReply.refused (w.growthFor (frameSize data)) =
      (.error "WriteAheadLog: ftruncate() failed during grow", { w with mapped := false }) := by
    have hft : ∀ size, ftruncate OsReply.refused w.file size = none :=
      fun size => if_neg (fun hok => absurd hok.1 (by decide))
    simp only [WriteAheadLog.grow, hft]
  rw [WriteAheadLog.append, h.reserve_grows OsReply.refused hsmall hfull, hgrow]

/-- A log of one page with one frame. -/
def oneFrameLog : WriteAheadLog :=
  ((freshLog page4096 "ledger.wal" FileImage.empty 4096).append OsReply.ok [1, 2, 3]).2

theorem oneFrameLog_reachable : Reachable oneFrameLog [[1, 2, 3]] := by
  have hopen : (construct page4096 OsReply.ok "ledger.wal" FileImage.empty 4096).1 =
      .returned (freshLog page4096 "ledger.wal" FileImage.empty 4096) := rfl
  have hfresh := Reachable.constructed (fun _ => rfl) hopen
  have hsmall : Call.Small (.append OsReply.ok [1, 2, 3]) := by
    simp [Call.Small, Call.payloads, Small]
  exact hfresh.returned (c := .append OsReply.ok [1, 2, 3]) hsmall
    (r := .appended 1) (Prod.ext (by decide +kernel) rfl)

/-- The append of 5000 bytes needs a second page. -/
theorem oneFrameLog_append :
    oneFrameLog.append OsReply.refused (List.replicate 5000 0xAB) =
      (.threw "WriteAheadLog: ftruncate() failed during grow",
        { oneFrameLog with mapped := false }) := by
  have hsize : oneFrameLog.mappedSize = 4096 := by decide +kernel
  refine append_refused oneFrameLog_reachable.tracked.toHolding ?_ ?_
  · unfold Small
    rw [List.length_replicate]
    omega
  · rw [List.length_replicate, hsize]
    omega

/-- **One refused `ftruncate` loses the mapping**: nothing is replayed, and the
append of one byte, for which there is room, writes through a null pointer. -/
theorem refusedGrowth_loses :
    Reachable oneFrameLog [[1, 2, 3]] ∧
      ∃ w', oneFrameLog.append OsReply.refused (List.replicate 5000 0xAB) =
          (.threw "WriteAheadLog: ftruncate() failed during grow", w') ∧
        w'.replay.delivered = [] ∧ w'.writeOffset + 13 ≤ w'.mappedSize ∧
        (w'.append OsReply.ok [7]).1 = .crashed ∧ ¬ StillUsable oneFrameLog [[1, 2, 3]] w' := by
  refine ⟨oneFrameLog_reachable, _, oneFrameLog_append, rfl, by decide +kernel,
    by decide +kernel, ?_⟩
  intro husable
  have hdel := husable.replays.2
  cases hdel

/-- A log of one page on which nothing was appended is not usable either. -/
theorem emptyLog_not_usable :
    ∃ w', (freshLog page4096 "ledger.wal" FileImage.empty 4096).append OsReply.refused
          (List.replicate 5000 0xAB) =
        (.threw "WriteAheadLog: ftruncate() failed during grow", w') ∧
      ¬ StillUsable (freshLog page4096 "ledger.wal" FileImage.empty 4096) [] w' := by
  have hopen : (construct page4096 OsReply.ok "ledger.wal" FileImage.empty 4096).1 =
      .returned (freshLog page4096 "ledger.wal" FileImage.empty 4096) := rfl
  have hfresh := Reachable.constructed (fun _ => rfl) hopen
  have hsize : (freshLog page4096 "ledger.wal" FileImage.empty 4096).mappedSize = 4096 := rfl
  have hsmall : Small (List.replicate 5000 (0xAB : UInt8)) := by
    unfold Small
    rw [List.length_replicate]
    omega
  have happ := append_refused hfresh.tracked.toHolding hsmall
    (by rw [List.length_replicate, hsize]; omega)
  refine ⟨_, happ, ?_⟩
  rw [failed_append_iff hfresh happ]
  rintro ⟨-, hsmall⟩
  rw [hsize] at hsmall
  omega

end ZeroLGR.Wal
