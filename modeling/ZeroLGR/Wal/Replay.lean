/-
  ZeroLGR.Wal.Replay — whole runs of the replay loop.

  `FramesAt` is the frame grammar: the encodings of a list of payloads stand
  one after the other from an offset on.  The loop follows exactly such chains
  as long as no size field reaches `2 ^ 32 - 12`.

    • `numbered` — the items the callback gets for a list of payloads,
    • `emits_of_frames`, `frames_of_emits` — iterations of the loop and chains
      of frames are the same thing,
    • `replay_eq_of_stop` — the loop is run to its end by the fuel `replay` has,
    • `replay_frames` — a chain of frames that nothing follows is delivered,
    • `replay_sizesSmall` — what any replay that meets no oversize field does.
-/
import ZeroLGR.Wal.Frame

namespace ZeroLGR.Wal

open Bytes Emit

/-! ## §1. Chains of frames. -/

/-- A payload whose frame size fits into 32 bits. -/
def Small (p : Bytes) : Prop := p.length + 12 < 2 ^ 32

/-- How many bytes the frames of these payloads take. -/
def framesLength (ps : List Bytes) : Nat := (encodeFrames ps).length

@[simp] theorem framesLength_nil : framesLength [] = 0 := rfl

theorem framesLength_cons (p : Bytes) (ps : List Bytes) :
    framesLength (p :: ps) = 12 + p.length + framesLength ps := by
  rw [framesLength, encodeFrames_cons, List.length_append, length_encodeFrame]
  rfl

theorem framesLength_append (ps qs : List Bytes) :
    framesLength (ps ++ qs) = framesLength ps + framesLength qs := by
  rw [framesLength, encodeFrames_append, List.length_append]
  rfl

theorem framesLength_snoc (ps : List Bytes) (p : Bytes) :
    framesLength (ps ++ [p]) = framesLength ps + (12 + p.length) := by
  rw [framesLength_append, framesLength_cons, framesLength_nil, Nat.add_zero]

/-- The frames of `ps` stand one after the other from `off` on. -/
structure FramesAt (m : Nat → UInt8) (off : Nat) (ps : List Bytes) : Prop where
  small : ∀ p ∈ ps, Small p
  read : readAt m off (framesLength ps) = encodeFrames ps

theorem FramesAt.nil (m : Nat → UInt8) (off : Nat) : FramesAt m off [] :=
  ⟨fun _ h => absurd h List.not_mem_nil, rfl⟩

theorem FramesAt.append_iff {m : Nat → UInt8} {off : Nat} {ps qs : List Bytes} :
    FramesAt m off (ps ++ qs) ↔ FramesAt m off ps ∧ FramesAt m (off + framesLength ps) qs := by
  constructor
  · intro hframes
    obtain ⟨hsmall, hread⟩ := hframes
    rw [framesLength_append, readAt_append, encodeFrames_append] at hread
    obtain ⟨hps, hqs⟩ := List.append_inj hread (by rw [length_readAt]; rfl)
    exact ⟨⟨fun p hp => hsmall p (List.mem_append_left _ hp), hps⟩,
      ⟨fun p hp => hsmall p (List.mem_append_right _ hp), hqs⟩⟩
  · intro hparts
    obtain ⟨⟨hsp, hps⟩, ⟨hsq, hqs⟩⟩ := hparts
    refine ⟨?_, ?_⟩
    · intro p hp
      rcases List.mem_append.mp hp with hp | hp
      · exact hsp p hp
      · exact hsq p hp
    · rw [framesLength_append, readAt_append, hps, hqs, encodeFrames_append]

theorem FramesAt.singleton_iff {m : Nat → UInt8} {off : Nat} {p : Bytes} :
    FramesAt m off [p] ↔ Small p ∧ FrameAt m off p := by
  have hlen : framesLength [p] = 12 + p.length := by
    rw [framesLength_cons, framesLength_nil, Nat.add_zero]
  constructor
  · intro hframes
    obtain ⟨hsmall, hread⟩ := hframes
    have hp : Small p := hsmall p List.mem_cons_self
    rw [hlen, encodeFrames_singleton] at hread
    exact ⟨hp, frameAt_iff_read.mpr ⟨by unfold Small at hp; omega, hread⟩⟩
  · intro hparts
    obtain ⟨hp, hf⟩ := hparts
    refine ⟨?_, ?_⟩
    · intro q hq
      rwa [List.mem_singleton.mp hq]
    · rw [hlen, encodeFrames_singleton, hf.read]

theorem FramesAt.cons_iff {m : Nat → UInt8} {off : Nat} {p : Bytes} {ps : List Bytes} :
    FramesAt m off (p :: ps) ↔
      (Small p ∧ FrameAt m off p) ∧ FramesAt m (off + (12 + p.length)) ps := by
  rw [← List.singleton_append, FramesAt.append_iff, FramesAt.singleton_iff, framesLength_cons,
      framesLength_nil, Nat.add_zero]

/-- A chain depends on the bytes of its span only. -/
theorem FramesAt.congr {m m' : Nat → UInt8} {off : Nat} {ps : List Bytes} (h : FramesAt m off ps)
    (heq : ∀ i, off ≤ i → i < off + framesLength ps → m i = m' i) : FramesAt m' off ps :=
  ⟨h.small, by rw [← readAt_congr heq, h.read]⟩

/-! ## §2. Iterations of the loop. -/

/-- What the callback is called with for the payloads `ps`, when `k` frames
were delivered before. -/
def numbered : Nat → List Bytes → List (Nat × Bytes)
  | _, [] => []
  | k, p :: ps => (k + 1, p) :: numbered (k + 1) ps

@[simp] theorem length_numbered : ∀ (k : Nat) (ps : List Bytes),
    (numbered k ps).length = ps.length
  | _, [] => rfl
  | k, p :: ps => by rw [numbered, List.length_cons, List.length_cons, length_numbered]

theorem map_snd_numbered : ∀ (k : Nat) (ps : List Bytes), (numbered k ps).map Prod.snd = ps
  | _, [] => rfl
  | k, p :: ps => by rw [numbered, List.map_cons, map_snd_numbered]

/-- The payloads can be read off what was delivered. -/
theorem numbered_inj {k : Nat} {ps qs : List Bytes} (h : numbered k ps = numbered k qs) :
    ps = qs := by
  rw [← map_snd_numbered k ps, h, map_snd_numbered]

/-- The position after the frames `ps`. -/
def ReplayPos.after (pos : ReplayPos) (ps : List Bytes) : ReplayPos :=
  ⟨pos.offset + framesLength ps, pos.replayed + ps.length⟩

theorem ReplayPos.after_cons (pos : ReplayPos) (p : Bytes) (ps : List Bytes) :
    pos.after (p :: ps) =
      ReplayPos.after ⟨pos.offset + (12 + p.length), pos.replayed + 1⟩ ps := by
  simp only [ReplayPos.after, framesLength_cons, List.length_cons, ReplayPos.mk.injEq]
  omega

@[simp] theorem ReplayPos.after_start (ps : List Bytes) :
    ReplayPos.after ⟨0, 0⟩ ps = ⟨framesLength ps, ps.length⟩ := by
  simp [ReplayPos.after]

section Loop

variable {w : WriteAheadLog}

/-- **The loop follows a chain of frames.** -/
theorem emits_of_frames (hw : w.Live) : ∀ (ps : List Bytes) (pos : ReplayPos),
    FramesAt w.file.byte pos.offset ps → pos.offset + framesLength ps ≤ w.mappedSize →
      Emits w.replayNext pos (numbered pos.replayed ps) (pos.after ps)
  | [], pos, _, _ => .nil pos
  | p :: ps, pos, h, hfit => by
      obtain ⟨⟨hsmall, hp⟩, hps⟩ := FramesAt.cons_iff.mp h
      rw [framesLength_cons] at hfit
      have hfirst := replayNext_frame hw hp (show Fits w.mappedSize pos.offset p by
        unfold Fits; omega)
      rw [advance_of_small hsmall] at hfirst
      have hrest := emits_of_frames hw ps ⟨pos.offset + (12 + p.length), pos.replayed + 1⟩ hps
        (show pos.offset + (12 + p.length) + framesLength ps ≤ w.mappedSize by omega)
      rw [ReplayPos.after_cons]
      exact .cons hfirst hrest

theorem emits_from_start (hw : w.Live) {ps : List Bytes} (h : FramesAt w.file.byte 0 ps)
    (hfit : framesLength ps ≤ w.mappedSize) :
    Emits w.replayNext ⟨0, 0⟩ (numbered 0 ps) ⟨framesLength ps, ps.length⟩ := by
  rw [← ReplayPos.after_start]
  exact emits_of_frames hw ps ⟨0, 0⟩ h (by rw [Nat.zero_add]; exact hfit)

/-- **The loop follows nothing else**, as long as what it delivers is small. -/
theorem frames_of_emits (hw : w.Live) {pos pos' : ReplayPos} {items : List (Nat × Bytes)}
    (h : Emits w.replayNext pos items pos') (hsmall : ∀ it ∈ items, Small it.2)
    (hpos : pos.offset ≤ w.mappedSize) :
    ∃ ps, items = numbered pos.replayed ps ∧ pos' = pos.after ps ∧
      FramesAt w.file.byte pos.offset ps ∧ pos'.offset ≤ w.mappedSize := by
  induction h with
  | nil pos => exact ⟨[], rfl, rfl, FramesAt.nil _ _, hpos⟩
  | @cons pos mid pos' item items hstep _ ih =>
      have hitem : Small item.2 := hsmall item List.mem_cons_self
      obtain ⟨⟨hf, hfit⟩, hnum, rfl⟩ := replayNext_emit_inv hw hstep
      have hadv := advance_of_small hitem
      obtain ⟨ps, hitems, hend, hps, hle⟩ := ih
        (fun it hit => hsmall it (List.mem_cons_of_mem _ hit))
        (show pos.offset + advance item.2 ≤ w.mappedSize by
          unfold Fits at hfit
          omega)
      refine ⟨item.2 :: ps, ?_, ?_, ?_, hle⟩
      · rw [numbered, hitems, ← hnum]
      · rw [hend, ReplayPos.after_cons, hadv]
      · refine FramesAt.cons_iff.mpr ⟨⟨hitem, hf⟩, ?_⟩
        rw [← hadv]
        exact hps

/-! ## §3. The end of the loop. -/

/-- A frame that does not move the offset is delivered forever. -/
theorem offset_stuck (hw : w.Live) {pos pos' : ReplayPos} {data : Bytes}
    {items : List (Nat × Bytes)} (hf : FrameIn w.file.byte w.mappedSize pos.offset data)
    (hadv : advance data = 0) (h : Emits w.replayNext pos items pos') :
    pos'.offset = pos.offset := by
  induction h with
  | nil => rfl
  | cons hstep _ ih =>
      rw [replayNext_frame hw hf.1 hf.2, hadv] at hstep
      cases hstep
      exact ih hf

/-- On the way to its end the loop moves the offset in every iteration. -/
theorem offset_grows_of_stop (hw : w.Live) {pos pos' : ReplayPos} {items : List (Nat × Bytes)}
    (h : Emits w.replayNext pos items pos') (hstop : w.replayNext pos' = .stop)
    (hpos : pos.offset ≤ w.mappedSize) :
    pos.offset + items.length ≤ pos'.offset ∧ pos'.offset ≤ w.mappedSize := by
  induction h with
  | nil => exact ⟨Nat.le_refl _, hpos⟩
  | @cons pos mid pos' item items hstep hrest ih =>
      obtain ⟨hf, -, rfl⟩ := replayNext_emit_inv hw hstep
      have hfit : pos.offset + (12 + item.2.length) ≤ w.mappedSize := hf.2
      have hle : advance item.2 ≤ 12 + item.2.length := Nat.mod_le _ _
      -- were it stuck, the frame would stand where the loop stopped
      have hmove : advance item.2 ≠ 0 := by
        intro hzero
        have hstuck := offset_stuck hw hf hzero (.cons hstep hrest)
        refine (replayNext_stop_iff hw).mp hstop |>.1 item.2 ?_
        rw [hstuck]
        exact hf
      obtain ⟨hgrow, hend⟩ := ih hstop
        (show pos.offset + advance item.2 ≤ w.mappedSize by omega)
      have hgrow' : pos.offset + advance item.2 + items.length ≤ pos'.offset := hgrow
      refine ⟨?_, hend⟩
      rw [List.length_cons]
      omega

/-- The state `replay` leaves when its loop ends at `pos`. -/
def WriteAheadLog.resumeAt (w : WriteAheadLog) (pos : ReplayPos) : WriteAheadLog :=
  { w with writeOffset := pos.offset, sequence := pos.replayed }

/-- **`replay` runs its loop to the end** wherever that is. -/
theorem replay_eq_of_stop (hw : w.Live) {items : List (Nat × Bytes)} {pos : ReplayPos}
    (h : Emits w.replayNext ⟨0, 0⟩ items pos) (hstop : w.replayNext pos = .stop) :
    w.replay = ⟨.returned pos.replayed, items, w.resumeAt pos⟩ := by
  obtain ⟨hgrow, hend⟩ := offset_grows_of_stop hw h hstop (Nat.zero_le _)
  -- one iteration for each byte of the mapping is enough fuel
  have hfuel : items.length < w.mappedSize + 1 := by omega
  rw [WriteAheadLog.replay, if_pos hw.mapped, scan_eq_stopped h hstop hfuel]
  rfl

/-- A `replay` that returned has run its loop to the end. -/
theorem replay_returned_inv (hw : w.Live) {n : Nat} (h : w.replay.outcome = .returned n) :
    ∃ pos, Emits w.replayNext ⟨0, 0⟩ w.replay.delivered pos ∧ w.replayNext pos = .stop ∧
      n = pos.replayed ∧ w.replay.log = w.resumeAt pos := by
  have hstatus : (scan w.replayNext (w.mappedSize + 1) ⟨0, 0⟩).status = .stopped := by
    rw [WriteAheadLog.replay, if_pos hw.mapped] at h
    cases hst : (scan w.replayNext (w.mappedSize + 1) ⟨0, 0⟩).status with
    | stopped => rfl
    | faulted => simp [hst] at h
    | running => simp [hst] at h
  have hemits := emits_scan w.replayNext (w.mappedSize + 1) ⟨0, 0⟩
  have hstop := stop_of_scan w.replayNext (w.mappedSize + 1) ⟨0, 0⟩ hstatus
  have heq := replay_eq_of_stop hw hemits hstop
  rw [heq] at h ⊢
  exact ⟨_, hemits, hstop, (Outcome.returned.inj h).symm, rfl⟩

/-! ## §4. What `replay` delivers. -/

/-- Nothing `replay` goes on with stands at the offset. -/
def Quiet (m : Nat → UInt8) (M off : Nat) : Prop :=
  (∀ data, ¬ FrameIn m M off data) ∧ ¬ Overrun m M off

/-- **A chain of frames that nothing follows is delivered.** -/
theorem replay_frames (hw : w.Live) {ps : List Bytes} (hps : FramesAt w.file.byte 0 ps)
    (hfit : framesLength ps ≤ w.mappedSize)
    (hquiet : Quiet w.file.byte w.mappedSize (framesLength ps)) :
    w.replay = ⟨.returned ps.length, numbered 0 ps, w.resumeAt ⟨framesLength ps, ps.length⟩⟩ :=
  replay_eq_of_stop hw (emits_from_start hw hps hfit) ((replayNext_stop_iff hw).mpr hquiet)

/-- Whether an offset is quiet depends on the bytes from there on only. -/
theorem Quiet.congr {m m' : Nat → UInt8} {M off : Nat} (h : Quiet m M off)
    (heq : ∀ i, off ≤ i → m i = m' i) : Quiet m' M off := by
  constructor
  · intro data hframe
    obtain ⟨hf, hfit⟩ := hframe
    exact h.1 data ⟨hf.congr (fun i hi _ => (heq i hi).symm), hfit⟩
  · intro hover
    obtain ⟨hroom, size, hh, hbig⟩ := hover
    exact h.2 ⟨hroom, size, hh.congr (fun i hi _ => (heq i hi).symm), hbig⟩

/-- Where no header stands it is quiet. -/
theorem quiet_of_no_header {m : Nat → UInt8} {off : Nat} (h : ∀ size, ¬ HeaderAt m off size)
    (M : Nat) : Quiet m M off := by
  constructor
  · intro data hframe
    obtain ⟨hf, -⟩ := hframe
    exact h _ hf.header
  · intro hover
    obtain ⟨-, size, hh, -⟩ := hover
    exact h size hh

/-- A small header without a frame is quiet. -/
theorem quiet_of_no_frame {m : Nat → UInt8} {M off n : Nat} (hn : n + 12 < 2 ^ 32)
    (hh : HeaderAt m off (UInt32.ofNat n)) (hno : ∀ d, ¬ FrameAt m off d) : Quiet m M off := by
  refine ⟨fun d hd => hno d hd.1, ?_⟩
  intro hover
  obtain ⟨-, size, hsize, hbig, -⟩ := hover
  have heq : size = UInt32.ofNat n := hsize.size.symm.trans hh.size
  rw [heq, toNat_ofNat32 (by omega)] at hbig
  omega

/-- Zero bytes up to the end of the file are quiet. -/
theorem quiet_of_zero {m : Nat → UInt8} {off : Nat} (h : ∀ i, off ≤ i → m i = 0) (M : Nat) :
    Quiet m M off :=
  quiet_of_no_header (not_headerAt_of_zero (fun i hi _ => h i hi)) M

/-- Wherever the loop gets, no oversize frame lies outside the mapping, and the
frames inside it are small. -/
def WriteAheadLog.Tame (w : WriteAheadLog) : Prop :=
  ∀ items pos, Emits w.replayNext ⟨0, 0⟩ items pos →
    ¬ Overrun w.file.byte w.mappedSize pos.offset ∧
      ∀ data, FrameIn w.file.byte w.mappedSize pos.offset data → Small data

/-- What the loop delivers from a tame log is small. -/
theorem emits_small (hw : w.Live) (htame : w.Tame) {items : List (Nat × Bytes)}
    {pos : ReplayPos} (h : Emits w.replayNext ⟨0, 0⟩ items pos) : ∀ it ∈ items, Small it.2 := by
  intro it hit
  obtain ⟨before, after, rfl⟩ := List.append_of_mem hit
  obtain ⟨mid, hbefore, hrest⟩ := Emits.split before (it :: after) h
  cases hrest with
  | cons hstep _ =>
      obtain ⟨hframe, -, -⟩ := replayNext_emit_inv hw hstep
      exact (htame before mid hbefore).2 it.2 hframe

/-- On a tame log the loop ends: every iteration moves the offset. -/
theorem stops_of_tame (hw : w.Live) (htame : w.Tame) :
    (scan w.replayNext (w.mappedSize + 1) ⟨0, 0⟩).status = .stopped := by
  have hemits := emits_scan w.replayNext (w.mappedSize + 1) ⟨0, 0⟩
  cases hst : (scan w.replayNext (w.mappedSize + 1) ⟨0, 0⟩).status with
  | stopped => rfl
  | faulted =>
      -- a fault is an overrun
      have hfault := fault_of_scan w.replayNext _ _ hst
      exact absurd ((replayNext_fault_iff hw).mp hfault) (htame _ _ hemits).1
  | running =>
      refine absurd hst (scan_terminates ReplayPos.offset
        (fun pos => (∃ items, Emits w.replayNext ⟨0, 0⟩ items pos) ∧ pos.offset ≤ w.mappedSize)
        ?_ ?_ (fun _ h => h.2) ⟨⟨[], .nil _⟩, Nat.zero_le _⟩ (Nat.lt_succ_self _))
      -- the offset stays inside the mapping
      · intro pos item pos' hpos hstep
        obtain ⟨⟨items, h⟩, -⟩ := hpos
        obtain ⟨⟨hf, hfit⟩, -, rfl⟩ := replayNext_emit_inv hw hstep
        have hle : advance item.2 ≤ 12 + item.2.length := Nat.mod_le _ _
        refine ⟨⟨items ++ [item], h.trans (.single hstep)⟩, ?_⟩
        show pos.offset + advance item.2 ≤ w.mappedSize
        unfold Fits at hfit
        omega
      -- and grows with every frame, which is small
      · intro pos item pos' hpos hstep
        obtain ⟨⟨items, h⟩, -⟩ := hpos
        obtain ⟨hf, -, rfl⟩ := replayNext_emit_inv hw hstep
        have hadv := advance_of_small ((htame items pos h).2 item.2 hf)
        show pos.offset + 1 ≤ pos.offset + advance item.2
        omega

/-- **What `replay` does on a tame log**: it delivers a chain of frames from
the start of the file, and stops where no frame follows. -/
theorem replay_tame (hw : w.Live) (htame : w.Tame) :
    ∃ ps, FramesAt w.file.byte 0 ps ∧ framesLength ps ≤ w.mappedSize ∧
      Quiet w.file.byte w.mappedSize (framesLength ps) ∧
      w.replay =
        ⟨.returned ps.length, numbered 0 ps, w.resumeAt ⟨framesLength ps, ps.length⟩⟩ := by
  have hemits := emits_scan w.replayNext (w.mappedSize + 1) ⟨0, 0⟩
  have hstop := stop_of_scan w.replayNext _ _ (stops_of_tame hw htame)
  obtain ⟨ps, -, hend, hps, hle⟩ := frames_of_emits hw hemits (emits_small hw htame hemits)
    (Nat.zero_le _)
  have hoff : framesLength ps ≤ w.mappedSize := by
    rwa [hend, ReplayPos.after_start] at hle
  have hquiet : Quiet w.file.byte w.mappedSize (framesLength ps) := by
    have h := (replayNext_stop_iff hw).mp hstop
    rwa [hend, ReplayPos.after_start] at h
  exact ⟨ps, hps, hoff, hquiet, replay_frames hw hps hoff hquiet⟩

/-- No size field `replay` meets is `2 ^ 32 - 12` or more. -/
def WriteAheadLog.SizesSmall (w : WriteAheadLog) : Prop :=
  ∀ items pos size, Emits w.replayNext ⟨0, 0⟩ items pos → pos.offset + 12 ≤ w.mappedSize →
    HeaderAt w.file.byte pos.offset size → size.toNat + 12 < 2 ^ 32

theorem WriteAheadLog.SizesSmall.tame (hsizes : w.SizesSmall) : w.Tame := by
  intro items pos h
  constructor
  · intro hover
    obtain ⟨hroom, size, hh, hbig, -⟩ := hover
    have hlt := hsizes items pos size h hroom hh
    omega
  · intro data hframe
    obtain ⟨hf, hfit⟩ := hframe
    have hlt := hsizes items pos _ h (by unfold Fits at hfit; omega) hf.header
    rwa [toNat_ofNat_length hf.size_lt] at hlt

end Loop

end ZeroLGR.Wal
