/-
  ZeroLGR.Wal.Reopen — closing a log and constructing it again.

  The constructor sets the file to the page-rounded initial size, whatever its
  length was.  Frames behind that size are cut off.

    • `Represents.replay_reopened` — if the frames fit, reopening and replaying
      gives back the log that was closed,
    • `Represents.replay_truncated` — if they do not, the payloads do not come
      back,
    • `reopen_replays_all_iff` — the two together,
    • `reopen_smaller_loses` — one frame that is lost.
-/
import ZeroLGR.Wal.Session

namespace ZeroLGR.Wal

open Bytes Emit Transition

/-! ## §1. Reopening a log. -/

section Reopening

variable {w w' : WriteAheadLog} {ps : List Bytes} {pageSize : PageSize} {os : OsReply}
  {path : String} {initialSize : Nat}

/-- A file that holds a chain of frames and zeros is replayed to the chain, if the
frames fit into the new size. -/
theorem replay_of_content {disk : FileImage} (hframes : FramesAt disk.byte 0 ps)
    (hzero : ∀ i, framesLength ps ≤ i → disk.byte i = 0)
    (hopen : (construct pageSize os path disk initialSize).1 = .returned w')
    (hfit : framesLength ps ≤ initialSizeAligned pageSize initialSize) :
    w'.replay.outcome = .returned ps.length ∧ w'.replay.delivered = numbered 0 ps ∧
      Represents w'.replay.log ps := by
  obtain ⟨hw', hwell⟩ := construct_returned_inv hopen
  have hsize : w'.mappedSize = initialSizeAligned pageSize initialSize := by rw [hw']; rfl
  have hbyte : ∀ i, i < w'.mappedSize → w'.file.byte i = disk.byte i := by
    intro i hi
    rw [hsize] at hi
    rw [hw']
    exact disk.byte_resize_of_lt hi
  have hframes' : FramesAt w'.file.byte 0 ps :=
    hframes.congr (fun i _ hi => (hbyte i (by omega)).symm)
  have hzero' : ∀ i, framesLength ps ≤ i → w'.file.byte i = 0 := by
    intro i hi
    -- inside the new size the old zeros, beyond it the zeros of the file's end
    by_cases hin : i < w'.mappedSize
    · rw [hbyte i hin, hzero i hi]
    · exact w'.file.zero_beyond i (by rw [hwell.covers]; omega)
  rw [← hsize] at hfit
  rw [replay_frames hwell.toLive hframes' hfit (quiet_of_zero hzero' _)]
  refine ⟨rfl, rfl, ?_⟩
  exact
    { mapped := hwell.mapped, covers := hwell.covers, pos := hwell.pos, lt := hwell.lt
      page := hwell.page, offset_le := hfit, read := hframes'.read, writeOffset := rfl
      zero := hzero', sequence := rfl, small := hframes.small }

/-- **Frames that fit survive**: the reopened log replays them all, and then
represents them. -/
theorem Represents.replay_reopened (h : Represents w ps)
    (hopen : (construct pageSize os path w.close initialSize).1 = .returned w')
    (hfit : framesLength ps ≤ initialSizeAligned pageSize initialSize) :
    w'.replay.outcome = .returned ps.length ∧ w'.replay.delivered = numbered 0 ps ∧
      Represents w'.replay.log ps := by
  have hzero : ∀ i, framesLength ps ≤ i → w.close.byte i = 0 := by
    rw [← h.writeOffset]
    exact h.zero
  exact replay_of_content h.frames hzero hopen hfit

/-- **Frames that were cut off do not come back.** -/
theorem replay_truncated (hw : w'.WellMapped) (hsmall : ∀ p ∈ ps, Small p)
    (hcut : w'.mappedSize < framesLength ps) :
    ¬ (w'.replay.outcome = .returned ps.length ∧ w'.replay.delivered = numbered 0 ps) := by
  intro hreplay
  obtain ⟨hret, hdel⟩ := hreplay
  obtain ⟨pos, hemits, -, -, -⟩ := replay_returned_inv hw.toLive hret
  have hitems : ∀ it ∈ w'.replay.delivered, Small it.2 := by
    intro it hit
    rw [hdel] at hit
    have hmem : it.2 ∈ (numbered 0 ps).map Prod.snd := List.mem_map_of_mem hit
    rw [map_snd_numbered] at hmem
    exact hsmall it.2 hmem
  -- what is delivered lies inside the mapping, and the frames do not
  obtain ⟨qs, hqs, hend, -, hle⟩ := frames_of_emits hw.toLive hemits hitems (Nat.zero_le _)
  have heq : ps = qs := numbered_inj (hdel.symm.trans hqs)
  rw [hend, ReplayPos.after_start, ← heq] at hle
  exact absurd hle (Nat.not_le.mpr hcut)

end Reopening

/-! ## §2. A session, and the next one. -/

/-- The calls that append these payloads. -/
def appendCalls (appends : List (OsReply × Bytes)) : List Call :=
  appends.map (fun a => .append a.1 a.2)

theorem payloads_appendCalls (appends : List (OsReply × Bytes)) :
    (appendCalls appends).flatMap Call.payloads = appends.map Prod.snd := by
  induction appends with
  | nil => rfl
  | cons a appends ih =>
      show a.2 :: (appendCalls appends).flatMap Call.payloads = _
      rw [ih]
      rfl

theorem small_appendCalls {appends : List (OsReply × Bytes)} (h : ∀ a ∈ appends, Small a.2) :
    ∀ c ∈ appendCalls appends, c.Small := by
  intro c hc
  obtain ⟨a, ha, rfl⟩ := List.mem_map.mp hc
  intro p hp
  rw [List.mem_singleton.mp hp]
  exact h a ha

/-- **REOPENING LOSES NOTHING EXACTLY IF ALL FRAMES FIT INTO THE NEW SIZE.** -/
theorem reopen_replays_all_iff {pageSize : PageSize} {os os' : OsReply} {path : String}
    {disk : FileImage} {s₁ s₂ : Nat} {w w' : WriteAheadLog} (hzero : ∀ i, disk.byte i = 0)
    (hopen : (construct pageSize os path disk s₁).1 = .returned w)
    {appends : List (OsReply × Bytes)} (hsmall : ∀ a ∈ appends, Small a.2)
    {t : Traced WriteAheadLog Result}
    (hrun : run (traced callStep) ⟨w, []⟩ (appendCalls appends) = some t)
    (hreopen : (construct pageSize os' path t.state.close s₂).1 = .returned w') :
    (w'.replay.outcome = .returned appends.length ∧
        w'.replay.delivered = numbered 0 (appends.map Prod.snd)) ↔
      framesLength (appends.map Prod.snd) ≤ initialSizeAligned pageSize s₂ := by
  obtain ⟨hrep, -⟩ := run_represents _ (represents_fresh hzero hopen)
    (small_appendCalls hsmall) hrun
  rw [List.nil_append, payloads_appendCalls] at hrep
  have hcount : (appends.map Prod.snd).length = appends.length := List.length_map Prod.snd
  rw [← hcount]
  constructor
  · intro hall
    by_contra hcut
    obtain ⟨hw', hwell⟩ := construct_returned_inv hreopen
    refine replay_truncated hwell hrep.frames.small ?_ hall
    rw [hw']
    exact Nat.not_le.mp hcut
  · intro hfit
    obtain ⟨hret, hdel, -⟩ := hrep.replay_reopened hreopen hfit
    exact ⟨hret, hdel⟩

/-- Two small payloads survive a reopening with half the size. -/
theorem two_payloads_survive :
    ∃ t w', run (traced callStep) ⟨freshLog page4096 "ledger.wal" FileImage.empty 8192, []⟩
        (appendCalls [(OsReply.ok, [1, 2, 3]), (OsReply.ok, [])]) = some t ∧
      (construct page4096 OsReply.ok "ledger.wal" t.state.close 4096).1 = .returned w' ∧
      w'.replay.outcome = .returned 2 ∧ w'.replay.delivered = [(1, [1, 2, 3]), (2, [])] := by
  have hruns : (run (traced callStep)
      ⟨freshLog page4096 "ledger.wal" FileImage.empty 8192, []⟩
      (appendCalls [(OsReply.ok, [1, 2, 3]), (OsReply.ok, [])])).isSome = true := by
    decide +kernel
  obtain ⟨t, ht⟩ := Option.isSome_iff_exists.mp hruns
  have hopen : (construct page4096 OsReply.ok "ledger.wal" FileImage.empty 8192).1 =
      .returned (freshLog page4096 "ledger.wal" FileImage.empty 8192) := rfl
  have hreopen : (construct page4096 OsReply.ok "ledger.wal" t.state.close 4096).1 =
      .returned (freshLog page4096 "ledger.wal" t.state.close 4096) := rfl
  have hsmall : ∀ a ∈ [(OsReply.ok, ([1, 2, 3] : Bytes)), (OsReply.ok, [])], Small a.2 := by
    simp [Small]
  have hall := (reopen_replays_all_iff (fun _ => rfl) hopen hsmall ht hreopen).mpr
    (by decide +kernel)
  exact ⟨t, _, ht, hreopen, hall⟩

/-- A frame of more than one page and at most two is lost when the log is made
with two pages and reopened with one. -/
theorem two_pages_then_one {p : Bytes} (hone : 4084 < p.length) (htwo : p.length ≤ 8180) :
    ∃ w t w', (construct page4096 OsReply.ok "ledger.wal" FileImage.empty 8192).1 = .returned w ∧
      run (traced callStep) ⟨w, []⟩ (appendCalls [(OsReply.ok, p)]) = some t ∧
      (construct page4096 OsReply.ok "ledger.wal" t.state.close 4096).1 = .returned w' ∧
      ¬ (w'.replay.outcome = .returned 1 ∧ w'.replay.delivered = numbered 0 [p]) := by
  have hsmall : Small p := by
    unfold Small
    omega
  have hopen : (construct page4096 OsReply.ok "ledger.wal" FileImage.empty 8192).1 =
      .returned (freshLog page4096 "ledger.wal" FileImage.empty 8192) := rfl
  obtain ⟨-, hwell⟩ := construct_returned_inv hopen
  have hfits : (freshLog page4096 "ledger.wal" FileImage.empty 8192).writeOffset +
      (12 + p.length) ≤ (freshLog page4096 "ledger.wal" FileImage.empty 8192).mappedSize :=
    show 0 + (12 + p.length) ≤ 8192 by omega
  generalize freshLog page4096 "ledger.wal" FileImage.empty 8192 = w at hopen hwell hfits
  obtain ⟨hret, -⟩ := append_fits hwell OsReply.ok hsmall.lt hfits
  have hstep : callStep w (.append OsReply.ok p) =
      some ((w.append OsReply.ok p).2, [.appended (w.sequence + 1)]) := by
    unfold callStep
    rw [show w.exec (.append OsReply.ok p) =
      (.returned (.appended (w.sequence + 1)), (w.append OsReply.ok p).2) from
        Prod.ext (congrArg (Outcome.map Result.appended) hret) rfl]
  have hrun : run (traced callStep) ⟨w, []⟩ (appendCalls [(OsReply.ok, p)]) =
      some ⟨(w.append OsReply.ok p).2, [.appended (w.sequence + 1)]⟩ := by
    show ((callStep w (.append OsReply.ok p)).map _).bind _ = _
    rw [hstep]
    rfl
  have hreopen : (construct page4096 OsReply.ok "ledger.wal" (w.append OsReply.ok p).2.close
      4096).1 = .returned (freshLog page4096 "ledger.wal" (w.append OsReply.ok p).2.close 4096) := rfl
  have hall : ∀ q ∈ [p], Small q := by
    intro q hq
    rwa [List.mem_singleton.mp hq]
  have hcut : 4096 < framesLength [p] := by
    rw [framesLength_cons, framesLength_nil]
    omega
  exact ⟨w, _, _, hopen, hrun, hreopen,
    replay_truncated (construct_returned_inv hreopen).2 hall hcut⟩

/-- **One page less is one frame less.** -/
theorem reopen_smaller_loses :
    ∃ w t w', (construct page4096 OsReply.ok "ledger.wal" FileImage.empty 8192).1 = .returned w ∧
      run (traced callStep) ⟨w, []⟩ (appendCalls [(OsReply.ok, List.replicate 5000 0xAB)]) =
        some t ∧
      (construct page4096 OsReply.ok "ledger.wal" t.state.close 4096).1 = .returned w' ∧
      ¬ (w'.replay.outcome = .returned 1 ∧
        w'.replay.delivered = numbered 0 [List.replicate 5000 0xAB]) :=
  two_pages_then_one (by rw [List.length_replicate]; omega) (by rw [List.length_replicate]; omega)

end ZeroLGR.Wal
