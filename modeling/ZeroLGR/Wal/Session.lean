/-
  ZeroLGR.Wal.Session — one object of `WriteAheadLog`, from its constructor on.

  The abstract log is the list of the payloads appended so far.  `Represents`
  ties it to the object: the frames of the payloads are the bytes below the
  write offset, and all later bytes are zero.

    • `Call`, `exec`, `callStep` — the public member functions as steps,
    • `exec_spec` — one call refines the abstract log: it throws because the file
      cannot grow, or returns what the list of payloads says,
    • `run_represents` — the same for any sequence of calls,
    • `session_represents` — from a fresh file on.
-/
import ZeroLGR.Lib.Transition
import ZeroLGR.Wal.Append

namespace ZeroLGR.Wal

open Bytes Emit Transition

/-! ## §1. Calls. -/

/-- A call of a member function, with the answers of the operating system. -/
inductive Call where
  | append (os : OsReply) (data : Bytes)
  | flushAsync (os : OsReply)
  | replay

/-- What a call that returns gives to its caller: the sequence number of an
append; the count of a replay and what its callback was called with. -/
inductive Result where
  | appended (seq : Nat)
  | flushed
  | replayed (count : Nat) (delivered : List (Nat × Bytes))
  deriving Repr, DecidableEq

def Outcome.map {α β : Type*} (f : α → β) : Outcome α → Outcome β
  | .returned a => .returned (f a)
  | .threw what => .threw what
  | .crashed => .crashed
  | .hung => .hung

/-- Carry out a call. -/
def WriteAheadLog.exec (w : WriteAheadLog) : Call → Outcome Result × WriteAheadLog
  | .append os data => ((w.append os data).1.map .appended, (w.append os data).2)
  | .flushAsync os => (.returned .flushed, w.flushAsync os)
  | .replay => (w.replay.outcome.map (fun n => .replayed n w.replay.delivered), w.replay.log)

/-- A call as a step: it is taken if the call returns. -/
def callStep (w : WriteAheadLog) (c : Call) : Option (WriteAheadLog × List Result) :=
  match w.exec c with
  | (.returned r, w') => some (w', [r])
  | _ => none

/-! ## §2. The abstract log. -/

/-- The payloads a call adds. -/
def Call.payloads : Call → List Bytes
  | .append _ data => [data]
  | .flushAsync _ => []
  | .replay => []

/-- What a call has to return when the payloads `ps` were appended before. -/
def Call.result (ps : List Bytes) : Call → Result
  | .append _ _ => .appended (ps.length + 1)
  | .flushAsync _ => .flushed
  | .replay => .replayed ps.length (numbered 0 ps)

/-- Appended payloads are small. -/
def Call.Small (c : Call) : Prop := ∀ p ∈ c.payloads, Wal.Small p

/-- The operating system grants what the call asks for. -/
def Call.Granted (w : WriteAheadLog) : Call → Prop
  | .append os data => Wal.Granted w os data
  | .flushAsync _ => True
  | .replay => True

/-- What the calls have to return, one after the other. -/
def results : List Bytes → List Call → List Result
  | _, [] => []
  | ps, c :: cs => c.result ps :: results (ps ++ c.payloads) cs

/-- **The representation invariant.**  The frames of `ps` are the bytes below the
write offset, the bytes from there on are zero. -/
structure Recorded (w : WriteAheadLog) (ps : List Bytes) : Prop extends w.WellMapped where
  read : readAt w.file.byte 0 (framesLength ps) = encodeFrames ps
  writeOffset : w.writeOffset = framesLength ps
  zero : ∀ i, w.writeOffset ≤ i → w.file.byte i = 0
  sequence : w.sequence = ps.length

/-- The invariant together with payloads whose size fields are exact. -/
structure Represents (w : WriteAheadLog) (ps : List Bytes) : Prop extends Recorded w ps where
  small : ∀ p ∈ ps, Wal.Small p

theorem Represents.frames {w : WriteAheadLog} {ps : List Bytes} (h : Represents w ps) :
    FramesAt w.file.byte 0 ps := ⟨h.small, h.read⟩

/-- A log freshly constructed on zero bytes is empty. -/
theorem recorded_fresh {ps : PageSize} {os : OsReply} {path : String} {disk : FileImage}
    {initialSize : Nat} {w : WriteAheadLog} (hzero : ∀ i, disk.byte i = 0)
    (h : (construct ps os path disk initialSize).1 = .returned w) : Recorded w [] := by
  obtain ⟨hw, hwell⟩ := construct_returned_inv h
  refine ⟨hwell, rfl, ?_, ?_, ?_⟩
  · rw [hw]
    rfl
  · intro i _
    rw [hw]
    show (if i < _ then disk.byte i else 0) = 0
    split
    · exact hzero i
    · rfl
  · rw [hw]
    rfl

theorem represents_fresh {ps : PageSize} {os : OsReply} {path : String} {disk : FileImage}
    {initialSize : Nat} {w : WriteAheadLog} (hzero : ∀ i, disk.byte i = 0)
    (h : (construct ps os path disk initialSize).1 = .returned w) : Represents w [] :=
  ⟨recorded_fresh hzero h, fun _ hp => absurd hp List.not_mem_nil⟩

/-! ## §3. One call. -/

section Calls

variable {w : WriteAheadLog} {ps : List Bytes}

/-- **An append adds its payload to the abstract log.** -/
theorem Recorded.append (h : Recorded w ps) {data : Bytes} {w' : WriteAheadLog}
    (happ : Appended w data w') : Recorded w' (ps ++ [data]) := by
  have hend : w'.writeOffset = framesLength (ps ++ [data]) := by
    rw [happ.writeOffset, h.writeOffset, framesLength_snoc]
  refine ⟨happ.wellMapped, ?_, hend, ?_, ?_⟩
  · -- the old frames are below the write offset, the new one starts there
    have hold : readAt w'.file.byte 0 (framesLength ps) = encodeFrames ps := by
      rw [happ.byte, readAt_writeAt_before _ _ (by rw [h.writeOffset]; omega), h.read]
    have hnew : readAt w'.file.byte (framesLength ps) (12 + data.length) = encodeFrame data := by
      rw [happ.byte, h.writeOffset, ← length_encodeFrame]
      exact readAt_writeAt _ _ _
    rw [framesLength_snoc, readAt_append, Nat.zero_add, hold, hnew, encodeFrames_append,
        encodeFrames_singleton]
  · intro i hi
    have hlen : w.writeOffset + (encodeFrame data).length ≤ i := by
      rw [length_encodeFrame, ← happ.writeOffset]
      exact hi
    rw [happ.byte, writeAt_of_ge _ hlen]
    exact h.zero i (by omega)
  · rw [happ.sequence, h.sequence, List.length_append]
    rfl

theorem Represents.append (h : Represents w ps) {data : Bytes} {w' : WriteAheadLog}
    (hsmall : Small data) (happ : Appended w data w') : Represents w' (ps ++ [data]) := by
  refine ⟨h.toRecorded.append happ, ?_⟩
  intro p hp
  rcases List.mem_append.mp hp with hp | hp
  · exact h.small p hp
  · rwa [List.mem_singleton.mp hp]

/-- **A replay delivers the abstract log and changes nothing.** -/
theorem Represents.replay (h : Represents w ps) :
    w.replay = ⟨.returned ps.length, numbered 0 ps, w⟩ := by
  have hfit : framesLength ps ≤ w.mappedSize := by
    rw [← h.writeOffset]
    exact h.offset_le
  have hquiet : Quiet w.file.byte w.mappedSize (framesLength ps) :=
    quiet_of_zero (by rw [← h.writeOffset]; exact h.zero) _
  have hresume : w.resumeAt ⟨framesLength ps, ps.length⟩ = w := by
    rw [← h.writeOffset, ← h.sequence]
    rfl
  rw [replay_frames h.toLive h.frames hfit hquiet, hresume]

theorem Represents.flushAsync (h : Represents w ps) (os : OsReply) :
    Represents (w.flushAsync os) ps := by
  have heq : ∃ ms, w.flushAsync os = { w with msyncs := ms } := by
    unfold WriteAheadLog.flushAsync
    split
    · exact syncRange_eq os w 0 w.writeOffset false
    · exact ⟨w.msyncs, rfl⟩
  obtain ⟨ms, hms⟩ := heq
  rw [hms]
  exact
    { mapped := h.mapped, covers := h.covers, pos := h.pos, lt := h.lt, page := h.page
      offset_le := h.offset_le, read := h.read, writeOffset := h.writeOffset, zero := h.zero
      sequence := h.sequence, small := h.small }

/-- **One call refines the abstract log**: it throws, which only an append can,
or it returns what the list of payloads says. -/
theorem exec_spec (h : Represents w ps) {c : Call} (hc : c.Small) :
    (∃ what, (w.exec c).1 = .threw what) ∨
      ((w.exec c).1 = .returned (c.result ps) ∧ Represents (w.exec c).2 (ps ++ c.payloads)) := by
  cases c with
  | append os data =>
      have hsmall : Small data := hc data List.mem_cons_self
      rcases append_spec h.toWellMapped os hsmall.lt with ⟨what, hthrew⟩ | ⟨hret, happ⟩
      -- the growth was refused
      · refine .inl ⟨what, ?_⟩
        show (w.append os data).1.map _ = _
        rw [hthrew]
        rfl
      · refine .inr ⟨?_, h.append hsmall happ⟩
        show (w.append os data).1.map _ = _
        rw [hret, h.sequence]
        rfl
  | flushAsync os =>
      refine .inr ⟨rfl, ?_⟩
      show Represents (w.flushAsync os) (ps ++ [])
      rw [List.append_nil]
      exact h.flushAsync os
  -- a replay sets offset and sequence to what they are
  | replay =>
      refine .inr ⟨?_, ?_⟩
      · show w.replay.outcome.map _ = _
        rw [h.replay]
        rfl
      · show Represents w.replay.log (ps ++ [])
        rw [h.replay, List.append_nil]
        exact h

/-- **A call returns when the operating system grants it.** -/
theorem exec_granted (h : Represents w ps) {c : Call} (hc : c.Small) (hgranted : c.Granted w) :
    (w.exec c).1 = .returned (c.result ps) ∧ Represents (w.exec c).2 (ps ++ c.payloads) := by
  rcases exec_spec h hc with ⟨what, hthrew⟩ | hret
  · cases c with
    | append os data =>
        have hsmall : Small data := hc data List.mem_cons_self
        obtain ⟨hret, -⟩ := append_granted h.toWellMapped hsmall.lt hgranted
        have hexec : (w.append os data).1.map Result.appended = .threw what := hthrew
        rw [hret] at hexec
        cases hexec
    | flushAsync os => cases hthrew
    | replay =>
        have hexec : w.replay.outcome.map _ = .threw what := hthrew
        rw [h.replay] at hexec
        cases hexec
  · exact hret

/-- The step of a call that returned. -/
theorem callStep_represents (h : Represents w ps) {c : Call} (hc : c.Small) {w' : WriteAheadLog}
    {rs : List Result} (hstep : callStep w c = some (w', rs)) :
    rs = [c.result ps] ∧ Represents w' (ps ++ c.payloads) := by
  unfold callStep at hstep
  rcases exec_spec h hc with ⟨what, hthrew⟩ | ⟨hret, hrep⟩
  · rw [show w.exec c = (.threw what, (w.exec c).2) from Prod.ext hthrew rfl] at hstep
    cases hstep
  · rw [show w.exec c = (.returned (c.result ps), (w.exec c).2) from Prod.ext hret rfl] at hstep
    cases hstep
    exact ⟨rfl, hrep⟩

theorem callStep_granted (h : Represents w ps) {c : Call} (hc : c.Small)
    (hgranted : c.Granted w) :
    ∃ w', callStep w c = some (w', [c.result ps]) ∧ Represents w' (ps ++ c.payloads) := by
  obtain ⟨hret, hrep⟩ := exec_granted h hc hgranted
  refine ⟨(w.exec c).2, ?_, hrep⟩
  unfold callStep
  rw [show w.exec c = (.returned (c.result ps), (w.exec c).2) from Prod.ext hret rfl]

/-! ## §4. Any sequence of calls. -/

/-- **A run of calls refines the abstract log.** -/
theorem run_represents : ∀ (calls : List Call) {w : WriteAheadLog} {ps : List Bytes}
    {tr : List Result} {t : Traced WriteAheadLog Result}, Represents w ps →
      (∀ c ∈ calls, c.Small) → run (traced callStep) ⟨w, tr⟩ calls = some t →
        Represents t.state (ps ++ calls.flatMap Call.payloads) ∧ t.trace = tr ++ results ps calls
  | [], w, ps, tr, t, h, _, hrun => by
      cases hrun
      rw [List.flatMap_nil, List.append_nil]
      exact ⟨h, (List.append_nil _).symm⟩
  | c :: calls, w, ps, tr, t, h, hsmall, hrun => by
      obtain ⟨mid, hmid, hrest⟩ := Option.bind_eq_some_iff.mp hrun
      obtain ⟨rs, hstep, htrace⟩ := traced_eq_some.mp hmid
      obtain ⟨rfl, hrep⟩ := callStep_represents h (hsmall c List.mem_cons_self) hstep
      obtain ⟨hstate, hall⟩ := run_represents calls hrep
        (fun d hd => hsmall d (List.mem_cons_of_mem c hd)) hrest
      rw [List.flatMap_cons, ← List.append_assoc]
      refine ⟨hstate, ?_⟩
      rw [hall, htrace, List.append_assoc]
      rfl

/-- **THE LOG REPRESENTS WHAT WAS APPENDED.**  After any calls on a log
constructed on a zero file, the object represents the payloads appended so far,
every call has returned what they say, a replay delivers exactly them and leaves
the object as it is, and no further call can leave the mapping or run forever:
one that the operating system grants returns. -/
theorem session_represents {pageSize : PageSize} {os : OsReply} {path : String}
    {disk : FileImage} {initialSize : Nat} {w : WriteAheadLog} (hzero : ∀ i, disk.byte i = 0)
    (hopen : (construct pageSize os path disk initialSize).1 = .returned w)
    {calls : List Call} (hsmall : ∀ c ∈ calls, c.Small) {t : Traced WriteAheadLog Result}
    (hrun : run (traced callStep) ⟨w, []⟩ calls = some t) :
    Represents t.state (calls.flatMap Call.payloads) ∧ t.trace = results [] calls ∧
      t.state.replay = ⟨.returned (calls.flatMap Call.payloads).length,
        numbered 0 (calls.flatMap Call.payloads), t.state⟩ ∧
      ∀ c : Call, c.Small →
        (t.state.exec c).1 ≠ .crashed ∧ (t.state.exec c).1 ≠ .hung ∧
          (c.Granted t.state →
            (t.state.exec c).1 = .returned (c.result (calls.flatMap Call.payloads))) := by
  obtain ⟨hrep, htrace⟩ := run_represents calls (represents_fresh hzero hopen) hsmall hrun
  rw [List.nil_append] at hrep htrace
  refine ⟨hrep, htrace, hrep.replay, ?_⟩
  intro c hc
  refine ⟨?_, ?_, fun hgranted => (exec_granted hrep hc hgranted).1⟩
  all_goals rcases exec_spec hrep hc with ⟨what, h⟩ | ⟨h, -⟩ <;> rw [h] <;> simp

end Calls

/-- Two appends, one of them empty, with a flush and a replay. -/
def shortSession : List Call :=
  [.append OsReply.ok [1, 2, 3], .flushAsync OsReply.ok, .replay, .append OsReply.ok []]

/-- A payload as large as the page that the file begins with. -/
def largePayload : Bytes := List.replicate 4096 7

theorem length_largePayload : largePayload.length = 4096 := List.length_replicate

/-- One append more, for which the file has to grow. -/
def growingSession : List Call :=
  shortSession ++ [.append OsReply.ok largePayload, .replay]

/-- On a new file of one page the session runs, and the log, which has grown,
represents its three payloads. -/
theorem growingSession_represents :
    ∃ t, run (traced callStep) ⟨freshLog page4096 "ledger.wal" FileImage.empty 4096, []⟩
        growingSession = some t ∧
      Represents t.state [[1, 2, 3], [], largePayload] ∧ 4096 < t.state.mappedSize ∧
      t.trace = [.appended 1, .flushed, .replayed 1 [(1, [1, 2, 3])], .appended 2, .appended 3,
        .replayed 3 [(1, [1, 2, 3]), (2, []), (3, largePayload)]] := by
  have hopen : (construct page4096 OsReply.ok "ledger.wal" FileImage.empty 4096).1 =
      .returned (freshLog page4096 "ledger.wal" FileImage.empty 4096) := rfl
  have hruns : (run (traced callStep)
      ⟨freshLog page4096 "ledger.wal" FileImage.empty 4096, []⟩ shortSession).map
        (fun t => (t.state.mappedSize, t.state.writeOffset, t.state.pageSize.bytes)) =
      some (4096, 27, 4096) := by
    decide +kernel
  obtain ⟨t₀, ht₀, heq⟩ := Option.map_eq_some_iff.mp hruns
  simp only [Prod.mk.injEq] at heq
  obtain ⟨hsize, hoffset, hpage⟩ := heq
  have hall : ∀ c ∈ growingSession, c.Small := by
    simp [growingSession, shortSession, Call.Small, Call.payloads, Small, length_largePayload]
  obtain ⟨hrep₀, -⟩ := run_represents shortSession (represents_fresh (fun _ => rfl) hopen)
    (fun c hc => hall c (List.mem_append_left _ hc)) ht₀
  -- the frame does not fit, and the operating system grants the growth
  have hgranted : Call.Granted t₀.state (.append OsReply.ok largePayload) := by
    refine ⟨rfl, rfl, ?_⟩
    rw [hsize, hoffset, hpage, length_largePayload]
    decide
  obtain ⟨w₁, hstep₁, hrep₁⟩ := callStep_granted hrep₀ (hall _ (by simp [growingSession])) hgranted
  obtain ⟨w₂, hstep₂, -⟩ :=
    callStep_granted hrep₁ (c := .replay) (hall _ (by simp [growingSession])) trivial
  have hgoes : (run (traced callStep)
      ⟨freshLog page4096 "ledger.wal" FileImage.empty 4096, []⟩ growingSession).isSome = true := by
    unfold growingSession
    rw [run_append, ht₀, Option.bind_some, run_traced_cons hstep₁, run_traced_cons hstep₂]
    rfl
  obtain ⟨t, hrun⟩ := Option.isSome_iff_exists.mp hgoes
  obtain ⟨hrep, htrace, -, -⟩ := session_represents (fun _ => rfl) hopen hall hrun
  refine ⟨_, hrun, hrep, ?_, htrace⟩
  have hle := hrep.offset_le
  rw [hrep.writeOffset] at hle
  refine lt_of_lt_of_le ?_ hle
  simp [growingSession, shortSession, Call.payloads, framesLength_cons, length_largePayload]

end ZeroLGR.Wal
