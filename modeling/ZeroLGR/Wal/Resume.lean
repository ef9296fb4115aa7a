/-
  ZeroLGR.Wal.Resume — appending after a recovery.

  `replay` sets the write offset behind the last valid frame and leaves the
  bytes from there on as they are.  New frames overwrite some of them; what
  stands behind the new frames is still the old content.

    • `run_appends` — a run of appends writes the frames, one after the other,
    • `replay_eq_iff_quiet` — a chain of frames is delivered exactly, if and only
      if nothing valid follows it,
    • `resume_replays_iff` — recovery followed by appends delivers the recovered
      and the new payloads if and only if no old frame stands behind the new ones,
    • `staleLog_resurrected` — an old frame that comes back.
-/
import ZeroLGR.Wal.Reopen

namespace ZeroLGR.Wal

open Bytes Emit Transition

section Resuming

variable {w : WriteAheadLog}

/-! ## §1. Runs of appends. -/

/-- The state of a log after the payloads `qs` were appended, whatever its
content was. -/
structure AppendedAll (w : WriteAheadLog) (qs : List Bytes) (w' : WriteAheadLog) : Prop where
  wellMapped : w'.WellMapped
  byte : w'.file.byte = writeAt w.file.byte w.writeOffset (encodeFrames qs)
  mapped_le : w.mappedSize ≤ w'.mappedSize
  writeOffset : w'.writeOffset = w.writeOffset + framesLength qs

theorem writeAt_nil (m : Nat → UInt8) (off : Nat) : writeAt m off [] = m := by
  funext i
  by_cases h : off ≤ i
  · exact writeAt_of_ge m h
  · exact writeAt_of_lt m [] (by omega)

/-- **A run of appends writes the frames one after the other.** -/
theorem run_appends : ∀ (appends : List (OsReply × Bytes)) {w : WriteAheadLog} {tr : List Result}
    {t : Traced WriteAheadLog Result}, w.WellMapped → (∀ a ∈ appends, Small a.2) →
      run (traced callStep) ⟨w, tr⟩ (appendCalls appends) = some t →
        AppendedAll w (appends.map Prod.snd) t.state
  | [], w, tr, t, hw, _, hrun => by
      cases hrun
      exact ⟨hw, (writeAt_nil _ _).symm, Nat.le_refl _, rfl⟩
  | a :: appends, w, tr, t, hw, hsmall, hrun => by
      have ha : Small a.2 := hsmall a List.mem_cons_self
      obtain ⟨mid, hmid, hrest⟩ := Option.bind_eq_some_iff.mp hrun
      obtain ⟨rs, hstep, -⟩ := traced_eq_some.mp hmid
      have happ : Appended w a.2 mid.state := by
        -- an append that throws ends the run, so this one returned
        rcases append_spec hw a.1 ha.lt with ⟨what, hthrew⟩ | ⟨hret, happ⟩
        · unfold callStep WriteAheadLog.exec at hstep
          simp only [hthrew, Outcome.map] at hstep
          cases hstep
        · unfold callStep WriteAheadLog.exec at hstep
          simp only [hret, Outcome.map] at hstep
          rw [← (Prod.mk.inj (Option.some.inj hstep)).1]
          exact happ
      have hall := run_appends appends happ.wellMapped
        (fun b hb => hsmall b (List.mem_cons_of_mem a hb)) hrest
      refine ⟨hall.wellMapped, ?_, happ.mapped_le.trans hall.mapped_le, ?_⟩
      · have hjoin := writeAt_append w.file.byte w.writeOffset (encodeFrame a.2)
          (encodeFrames (appends.map Prod.snd))
        rw [length_encodeFrame] at hjoin
        rw [hall.byte, happ.byte, happ.writeOffset, hjoin, List.map_cons, encodeFrames_cons]
      · rw [hall.writeOffset, happ.writeOffset, List.map_cons, framesLength_cons, Nat.add_assoc]

/-! ## §2. When a chain of frames is all that is delivered. -/

/-- **A chain of frames is delivered exactly, if and only if nothing valid
follows it.** -/
theorem replay_eq_iff_quiet (hw : w.Live) {rs : List Bytes} (hrs : FramesAt w.file.byte 0 rs)
    (hfit : framesLength rs ≤ w.mappedSize) :
    (w.replay.outcome = .returned rs.length ∧ w.replay.delivered = numbered 0 rs) ↔
      Quiet w.file.byte w.mappedSize (framesLength rs) := by
  constructor
  · intro hreplay
    obtain ⟨hret, hdel⟩ := hreplay
    obtain ⟨pos, hemits, hstop, -, -⟩ := replay_returned_inv hw hret
    -- the loop passes the end of the chain, and delivers nothing after it
    obtain ⟨rest, hrest, htail⟩ := hemits.prefix_of_stop hstop (emits_from_start hw hrs hfit)
    have hnil : rest = [] := by
      rw [hdel] at hrest
      exact List.append_cancel_left (hrest.symm.trans (List.append_nil _).symm)
    rw [hnil] at htail
    cases htail
    exact (replayNext_stop_iff hw).mp hstop
  · intro hquiet
    rw [replay_frames hw hrs hfit hquiet]
    exact ⟨rfl, rfl⟩

/-- A header is small wherever the loop gets, if it is where the loop stops. -/
theorem sizesSmall_of_frames (hw : w.Live) {ps : List Bytes} (hps : FramesAt w.file.byte 0 ps)
    (hfit : framesLength ps ≤ w.mappedSize)
    (hquiet : Quiet w.file.byte w.mappedSize (framesLength ps))
    (hend : ∀ size, HeaderAt w.file.byte (framesLength ps) size → size.toNat + 12 < 2 ^ 32) :
    w.SizesSmall := by
  intro items pos size h _ hh
  have hchain := emits_from_start hw hps hfit
  have hstop : w.replayNext ⟨framesLength ps, ps.length⟩ = .stop :=
    (replayNext_stop_iff hw).mpr hquiet
  obtain ⟨rest, hitems, htail⟩ := hchain.prefix_of_stop hstop h
  -- the loop is at the end of the chain, or at one of its frames
  cases htail with
  | nil => exact hend size hh
  | @cons _ _ _ item rest hstep _ =>
      obtain ⟨⟨hf, -⟩, -, -⟩ := replayNext_emit_inv hw hstep
      have hmem : item ∈ numbered 0 ps := by
        rw [hitems]
        exact List.mem_append_right _ List.mem_cons_self
      have hp : item.2 ∈ ps := by
        rw [← map_snd_numbered 0 ps]
        exact List.mem_map_of_mem hmem
      have hlen := toNat_ofNat_length hf.size_lt
      rw [hf.header.size.symm.trans hh.size] at hlen
      rw [hlen]
      exact hps.small item.2 hp

/-! ## §3. Recovery, then appends. -/

/-- `w'` maps the file of `w`, at the same or a larger size. -/
structure MapsFileOf (w' w : WriteAheadLog) : Prop where
  live : w'.Live
  byte : w'.file.byte = w.file.byte
  size : w.mappedSize ≤ w'.mappedSize

theorem mapsFileOf_self (hw : w.Live) : MapsFileOf w w := ⟨hw, rfl, Nat.le_refl _⟩

/-- The log after a replay that returned. -/
theorem replay_wellMapped (hw : w.WellMapped) (hsizes : w.SizesSmall) :
    ∃ ps, FramesAt w.file.byte 0 ps ∧ framesLength ps ≤ w.mappedSize ∧
      w.replay.delivered = numbered 0 ps ∧
      w.replay.log = w.resumeAt ⟨framesLength ps, ps.length⟩ ∧ w.replay.log.WellMapped := by
  obtain ⟨ps, hps, hfit, -, hreplay⟩ := replay_tame hw.toLive hsizes.tame
  refine ⟨ps, hps, hfit, by rw [hreplay], by rw [hreplay], ?_⟩
  rw [hreplay]
  exact { mapped := hw.mapped, covers := hw.covers, pos := hw.pos, lt := hw.lt
          page := hw.page, offset_le := hfit }

/-- **RECOVERY FOLLOWED BY APPENDS.**  On a file whose size fields are small,
replay, then append `qs`; a replay of the resulting file delivers what was
recovered and then `qs`, and nothing more, if and only if behind the new frames
the old content, extended with zeros, has no frame inside the mapping and no
oversize header that overruns it. -/
theorem resume_replays_iff (hw : w.WellMapped) (hsizes : w.SizesSmall)
    {appends : List (OsReply × Bytes)} (hsmall : ∀ a ∈ appends, Small a.2)
    {t : Traced WriteAheadLog Result}
    (hrun : run (traced callStep) ⟨w.replay.log, []⟩ (appendCalls appends) = some t)
    {w' : WriteAheadLog} (hmaps : MapsFileOf w' t.state) :
    (w'.replay.outcome = .returned (w.replay.delivered.length + appends.length) ∧
        w'.replay.delivered =
          numbered 0 (w.replay.delivered.map Prod.snd ++ appends.map Prod.snd)) ↔
      Quiet w.file.byte w'.mappedSize
        (framesLength (w.replay.delivered.map Prod.snd) + framesLength (appends.map Prod.snd)) := by
  obtain ⟨ps, hps, hfit, hdel, hlog, hwell⟩ := replay_wellMapped hw hsizes
  have hall := run_appends appends hwell hsmall hrun
  rw [hlog] at hall
  have hbyte : w'.file.byte = writeAt w.file.byte (framesLength ps)
      (encodeFrames (appends.map Prod.snd)) := hmaps.byte.trans hall.byte
  have hend : t.state.writeOffset = framesLength ps + framesLength (appends.map Prod.snd) :=
    hall.writeOffset
  have hoff := hall.wellMapped.offset_le
  have hsize := hmaps.size
  -- the recovered frames are below the new ones, the new ones are there
  have hold : FramesAt w'.file.byte 0 ps := by
    refine hps.congr ?_
    intro i _ hi
    rw [hbyte, writeAt_of_lt _ _ (by omega)]
  have hnew : FramesAt w'.file.byte (0 + framesLength ps) (appends.map Prod.snd) := by
    refine ⟨?_, ?_⟩
    · intro q hq
      obtain ⟨a, ha, rfl⟩ := List.mem_map.mp hq
      exact hsmall a ha
    · rw [Nat.zero_add, hbyte]
      exact readAt_writeAt _ _ _
  have hchain := FramesAt.append_iff.mpr ⟨hold, hnew⟩
  have hlen := framesLength_append ps (appends.map Prod.snd)
  have hcount : (appends.map Prod.snd).length = appends.length := List.length_map Prod.snd
  rw [hdel, map_snd_numbered, length_numbered, ← hcount, ← List.length_append,
      replay_eq_iff_quiet hmaps.live hchain (by rw [hlen, ← hend]; omega), hlen]
  -- behind the new frames the file still is the old one
  have hsame : ∀ i, framesLength ps + framesLength (appends.map Prod.snd) ≤ i →
      w'.file.byte i = w.file.byte i := by
    intro i hi
    rw [hbyte]
    exact writeAt_of_ge _ hi
  exact ⟨fun h => h.congr hsame, fun h => h.congr (fun i hi => (hsame i hi).symm)⟩

end Resuming

/-! ## §4. Files. -/

/-- Two frames of which the second has not reached the disk, and a third one
that has. -/
def staleImage : FileImage :=
  (FileImage.empty.resize 4096).overwrite 0
    (encodeFrame [1] ++ (List.replicate 13 0 ++ encodeFrame [3])) (by decide)

/-- The log the constructor makes of that file. -/
def staleLog : WriteAheadLog := freshLog page4096 "ledger.wal" staleImage 4096

theorem staleLog_opens :
    (construct page4096 OsReply.ok "ledger.wal" staleImage 4096).1 = .returned staleLog := rfl

theorem staleLog_wellMapped : staleLog.WellMapped := (construct_returned_inv staleLog_opens).2

theorem staleLog_quiet (size : UInt32) : ¬ HeaderAt staleLog.file.byte 13 size :=
  fun hh => absurd hh.magic (by decide +kernel)

theorem staleLog_sizesSmall : staleLog.SizesSmall := by
  have hframes : FramesAt staleLog.file.byte 0 [[1]] := by
    refine ⟨?_, by decide +kernel⟩
    simp [Small]
  refine sizesSmall_of_frames staleLog_wellMapped.toLive hframes (by decide) ?_ ?_
  · exact quiet_of_no_header staleLog_quiet _
  · exact fun size hh => absurd hh (staleLog_quiet size)

/-- **An old frame comes back**: the replay delivers one frame and the append adds
one of the length of the missing second, after which three are delivered. -/
theorem staleLog_resurrected :
    ∃ t, (construct page4096 OsReply.ok "ledger.wal" staleImage 4096).1 = .returned staleLog ∧
      staleLog.WellMapped ∧ staleLog.SizesSmall ∧ staleLog.replay.delivered = [(1, [1])] ∧
      run (traced callStep) ⟨staleLog.replay.log, []⟩ (appendCalls [(OsReply.ok, [9])]) = some t ∧
      t.state.replay.delivered = [(1, [1]), (2, [9]), (3, [3])] := by
  have hrun : ((run (traced callStep) ⟨staleLog.replay.log, []⟩
      (appendCalls [(OsReply.ok, [9])])).map fun t => t.state.replay.delivered) =
        some [(1, [1]), (2, [9]), (3, [3])] := by
    decide +kernel
  obtain ⟨t, ht, hdel⟩ := Option.map_eq_some_iff.mp hrun
  exact ⟨t, staleLog_opens, staleLog_wellMapped, staleLog_sizesSmall, by decide +kernel, ht, hdel⟩

/-- An append of another length does not bring it back. -/
theorem staleLog_other_length :
    ∃ t, run (traced callStep) ⟨staleLog.replay.log, []⟩ (appendCalls [(OsReply.ok, [9, 9])]) =
        some t ∧
      t.state.replay.delivered = [(1, [1]), (2, [9, 9])] := by
  have hruns : (run (traced callStep) ⟨staleLog.replay.log, []⟩
      (appendCalls [(OsReply.ok, [9, 9])])).isSome = true := by
    decide +kernel
  obtain ⟨t, ht⟩ := Option.isSome_iff_exists.mp hruns
  have hsmall : ∀ a ∈ [(OsReply.ok, ([9, 9] : Bytes))], Small a.2 := by
    simp [Small]
  have hdel : staleLog.replay.delivered = [(1, [1])] := by decide +kernel
  obtain ⟨-, -, -, -, -, hwell⟩ := replay_wellMapped staleLog_wellMapped staleLog_sizesSmall
  have hlive := (run_appends _ hwell hsmall ht).wellMapped.toLive
  have hquiet : ∀ size, ¬ HeaderAt staleLog.file.byte 27 size := by
    intro size hh
    exact absurd hh.magic (by decide +kernel)
  have hall := (resume_replays_iff staleLog_wellMapped staleLog_sizesSmall hsmall ht
    (mapsFileOf_self hlive)).mpr (by
      rw [hdel]
      exact quiet_of_no_header hquiet _)
  rw [hdel] at hall
  exact ⟨t, ht, hall.2⟩

end ZeroLGR.Wal
