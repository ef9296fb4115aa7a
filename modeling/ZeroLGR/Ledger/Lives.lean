/-
  ZeroLGR.Ledger.Lives — the log over any number of lives of the process.

  `main` opens the log, replays it and starts the engine.  A life may end after
  any step of the engine, also because an append throws; the next one opens the
  file it leaves.  The accounts start from nothing every time, but the log goes
  on: `replay` leaves the offset behind the last frame.

    • `Life`, `live`, `runLives` — lives one after the other on one file,
    • `Continues`, `Continues.step` — what one life adds to the log it found,
    • `run_stored` — the file holds the frames of all lives, as long as those
      before the last one fit,
    • `lives_recovered` — all frames of all lives are replayed exactly if they
      fit into the size `main` opens the log with, and then every record can be
      read,
    • `last_life_cut` — what is replayed if the last life has logged more.
-/
import ZeroLGR.Ledger.Restart
import ZeroLGR.Ledger.WalRecord
import ZeroLGR.Wal.Stored

namespace ZeroLGR.Ledger

open Transition

/-! ## §1. Lives. -/

/-- One life of the process: the replies of the operating system to `main`, and
what happens from then on until it ends. -/
structure Life where
  os : Wal.OsReply
  acts : List Action

/-- A life on the file `disk`: the file it leaves, and what happened. -/
def live (pageSize : Wal.PageSize) (path : String) (disk : Wal.FileImage) (life : Life) :
    Option (Wal.FileImage × List (Traced LedgerEngine Event)) :=
  (startMain pageSize life.os path disk).bind fun s₀ =>
  (runEngine s₀ life.acts).map fun t => (t.state.wal.close, [t])

/-- Lives one after the other. -/
def runLives (pageSize : Wal.PageSize) (path : String) (disk : Wal.FileImage)
    (lives : List Life) : Option (Traced Wal.FileImage (Traced LedgerEngine Event)) :=
  run (traced (live pageSize path)) ⟨disk, []⟩ lives

/-- What was logged in these lives, oldest first. -/
def entries (past : List (Traced LedgerEngine Event)) : List LogEntry :=
  past.flatMap (fun t => logged t.trace)

/-- The payloads of a log. -/
def payloadsOf (log : List LogEntry) : List Bytes := log.map LogEntry.payload

@[simp] theorem payloadsOf_append (log log' : List LogEntry) :
    payloadsOf (log ++ log') = payloadsOf log ++ payloadsOf log' := List.map_append

theorem entries_append (past past' : List (Traced LedgerEngine Event)) :
    entries (past ++ past') = entries past ++ entries past' := List.flatMap_append

theorem entries_snoc (past : List (Traced LedgerEngine Event)) (t : Traced LedgerEngine Event) :
    entries (past ++ [t]) = entries past ++ logged t.trace := by
  rw [entries_append]
  unfold entries
  rw [List.flatMap_singleton]

/-- Every frame was made from a request and an identifier. -/
def Genuine (log : List LogEntry) : Prop :=
  ∀ l ∈ log, ∃ now, l.payload = serializeForWal l.req l.txId now

theorem Genuine.append {log log' : List LogEntry} (h : Genuine log) (h' : Genuine log') :
    Genuine (log ++ log') := by
  intro l hl
  rcases List.mem_append.mp hl with hl | hl
  · exact h l hl
  · exact h' l hl

/-! ## §2. What a life adds to the log. -/

/-- A life that has found the payloads `ps`: its own frames follow them, in the
file and, unless an append has thrown, in the object. -/
structure Continues (ps : List Bytes) (s : LedgerEngine) (tr : List Event) : Prop where
  stored : Wal.Stored s.wal.file (ps ++ payloadsOf (logged tr))
  recorded : s.pc.threw = false → Wal.Recorded s.wal (ps ++ payloadsOf (logged tr))
  genuine : Genuine (logged tr)

theorem continues_init {w : Wal.WriteAheadLog} {ps : List Bytes} (h : Wal.Recorded w ps) :
    Continues ps (.init w) [] := by
  have hps : ps ++ payloadsOf (logged []) = ps := List.append_nil ps
  constructor
  · rw [hps]
    exact h.stored
  · intro _
    rw [hps]
    exact h
  · intro l hl
    cases hl

section Steps

variable {ps : List Bytes} {s s' : LedgerEngine} {a : Action} {tr es : List Event}

/-- A step that leaves the log alone. -/
theorem Continues.move (h : Continues ps s tr) (hlogged : logged es = []) (hwal : s'.wal = s.wal)
    (halive : s'.pc.threw = false → s.pc.threw = false) : Continues ps s' (tr ++ es) := by
  have hsame : logged (tr ++ es) = logged tr := by
    rw [logged_append, hlogged, List.append_nil]
  constructor
  · rw [hsame, hwal]
    exact h.stored
  · intro hlive
    rw [hsame, hwal]
    exact h.recorded (halive hlive)
  · rw [hsame]
    exact h.genuine

/-- **A frame follows the others.** -/
theorem Continues.append (h : Continues ps s tr) {req : TransactionRequest} {tStart now : Int64}
    {txId : Uuid} {os : Wal.OsReply} {seq : Nat} {w : Wal.WriteAheadLog}
    (hpc : s.pc = .appendWal req tStart txId)
    (happ : s.wal.append os (serializeForWal req txId now) = (.returned seq, w)) :
    Continues ps { s with wal := w, pc := .applyTransaction req tStart txId }
      (tr ++ [.appended req txId (serializeForWal req txId now)]) := by
  have hrecorded := h.recorded (by rw [hpc]; rfl)
  have hlog := logged_appended tr req txId (serializeForWal req txId now)
  have hnext : Wal.Recorded w
      (ps ++ payloadsOf (logged tr ++ [⟨req, txId, serializeForWal req txId now⟩])) := by
    rw [payloadsOf_append, ← List.append_assoc]
    exact hrecorded.append (Wal.append_returned_inv hrecorded.toWellMapped happ)
  constructor
  · rw [hlog]
    exact hnext.stored
  · intro _
    rw [hlog]
    exact hnext
  · rw [hlog]
    refine h.genuine.append ?_
    intro l hl
    rw [List.mem_singleton.mp hl]
    exact ⟨now, rfl⟩

/-- **An append that throws leaves the file as it was**, as far as its bytes go. -/
theorem Continues.appendThrows (h : Continues ps s tr) (hbooks : Bookkeeping s.pc tr)
    (hlengths : ∀ req ∈ accepted tr, req.LengthsFit)
    (hsmall : ∀ p ∈ ps ++ payloadsOf (logged tr), Wal.Small p)
    {now : Int64} {os : Wal.OsReply} {req : TransactionRequest} {tStart : Int64} {txId : Uuid}
    (hpc : s.pc = .appendWal req tStart txId)
    (hstep : step s (.engine now os) = some (s', [])) (hthrew : s'.pc.threw = true) :
    Continues ps s' tr := by
  have hrecorded := h.recorded (by rw [hpc]; rfl)
  -- the request in hand was accepted, so its record is not too long
  have hfits : req.LengthsFit := by
    refine hlengths req ?_
    rw [hbooks.accepted_eq, hpc]
    exact List.mem_append_right _ (List.mem_singleton_self _)
  have hlen := length_serializeForWal_lt hfits txId now
  obtain ⟨out, happ, hne⟩ := appendThrows_inv hpc hstep hthrew
  have hstored : Wal.Stored s'.wal.file (ps ++ payloadsOf (logged tr)) := by
    rcases Wal.append_spec hrecorded.toWellMapped os hlen with ⟨what, hwhat⟩ | ⟨hret, -⟩
    · rw [happ] at hwhat
      have hout : out = .threw what := hwhat
      rw [hout] at happ
      have hrep : Wal.Represents s.wal (ps ++ payloadsOf (logged tr)) :=
        ⟨hrecorded, hsmall⟩
      exact hrep.stored_of_threw hlen happ
    · rw [happ] at hret
      exact absurd hret (hne _)
  constructor
  · exact hstored
  · intro hlive
    rw [hthrew] at hlive
    cases hlive
  · exact h.genuine

/-- **One step of a life.** -/
theorem Continues.step (h : Continues ps s tr) (hbooks : Bookkeeping s.pc tr)
    (hlengths : ∀ req ∈ accepted tr, req.LengthsFit)
    (hsmall : ∀ p ∈ ps ++ payloadsOf (logged tr), Wal.Small p)
    (hstep : Ledger.step s a = some (s', es)) : Continues ps s' (tr ++ es) := by
  have he := step_effect hstep
  cases he with
  | aside hside =>
      obtain ⟨-, -, -, -, hlogged, -⟩ := hside.silent.lists
      refine h.move hlogged hside.sameData.wal ?_
      rw [hside.view (fun _ => Pc.threw_idle)]
      exact id
  | append hpc happ => exact h.append hpc happ
  | appendThrows hpc =>
      rw [List.append_nil]
      exact h.appendThrows hbooks hlengths hsmall hpc hstep rfl
  | drawAccountId | commitAccount => exact h.move rfl rfl id
  | pop hpc | hit hpc | miss hpc | replyCached hpc | accept hpc | reject hpc | drawTxId hpc
  | apply hpc | build hpc | cache hpc | noCache hpc | reply hpc =>
      refine h.move rfl rfl ?_
      intro _
      rw [hpc]
      rfl

end Steps

/-! ## §3. A whole life. -/

/-- **One life**, from the log that `main` has replayed to any later point. -/
theorem run_continues {ps : List Bytes} {w : Wal.WriteAheadLog} (hw : Wal.Recorded w ps)
    {acts : List Action} {t : Traced LedgerEngine Event}
    (hrun : runEngine (.init w) acts = some t)
    (hlengths : ∀ req ∈ accepted t.trace, req.LengthsFit)
    (hsmall : ∀ p ∈ ps ++ payloadsOf (logged t.trace), Wal.Small p) :
    Continues ps t.state t.trace := by
  -- the lists only grow, so both conditions held at every earlier point
  have hboth : Bookkeeping t.state.pc t.trace ∧ Continues ps t.state t.trace := by
    refine traced_invariant
      (fun s tr => (∀ req ∈ accepted tr, req.LengthsFit) →
        (∀ p ∈ ps ++ payloadsOf (logged tr), Wal.Small p) →
          Bookkeeping s.pc tr ∧ Continues ps s tr) ?_ ?_ hrun hlengths hsmall
    · intro s tr a s' es hs hstep hlengths' hsmall'
      rw [accepted_append] at hlengths'
      rw [logged_append, payloadsOf_append, ← List.append_assoc] at hsmall'
      have hlengths₀ := fun req hreq => hlengths' req (List.mem_append_left _ hreq)
      have hsmall₀ := fun p hp => hsmall' p (List.mem_append_left _ hp)
      obtain ⟨hbooks, hcontinues⟩ := hs hlengths₀ hsmall₀
      exact ⟨hbooks.step (step_effect hstep), hcontinues.step hbooks hlengths₀ hsmall₀ hstep⟩
    · intro _ _
      exact ⟨⟨rfl, rfl, rfl, rfl⟩, continues_init hw⟩
  exact hboth.2

/-! ## §4. From one life to the next. -/

/-- The start of the frames takes no more room than the frames. -/
theorem framesLength_prefix_le (ps qs : List Bytes) :
    Wal.framesLength ps ≤ Wal.framesLength (ps ++ qs) := by
  rw [Wal.framesLength_append]
  exact Nat.le_add_right _ _

/-- So do the frames of all lives but the last. -/
theorem framesLength_dropLast_le (past : List (Traced LedgerEngine Event)) :
    Wal.framesLength (payloadsOf (entries past.dropLast)) ≤
      Wal.framesLength (payloadsOf (entries past)) := by
  obtain ⟨last, hlast⟩ := List.dropLast_prefix past
  have hsplit : payloadsOf (entries past) =
      payloadsOf (entries past.dropLast) ++ payloadsOf (entries last) := by
    rw [← payloadsOf_append, ← entries_append, hlast]
  rw [hsplit]
  exact framesLength_prefix_le _ _

/-- The frames that fit are those of the first entries. -/
theorem entries_split (log : List LogEntry) (size : Nat) :
    ∃ kept lost, log = kept ++ lost ∧ Wal.fitting size (payloadsOf log) = payloadsOf kept ∧
      ∀ l rest, lost = l :: rest → size < Wal.framesLength (payloadsOf (kept ++ [l])) := by
  rcases Wal.fitting_split (payloadsOf log) size with hall | ⟨p, rest, hsplit, hcut⟩
  · refine ⟨log, [], (List.append_nil log).symm, hall, ?_⟩
    intro l rest hnone
    cases hnone
  · obtain ⟨kept, lost, hlog, hkept, hlost⟩ := List.map_eq_append_iff.mp hsplit
    refine ⟨kept, lost, hlog, hkept.symm, ?_⟩
    intro l rest' hl
    -- the first entry that is lost has the payload that does not fit
    rw [hl, List.map_cons, List.cons.injEq] at hlost
    have hpayload : l.payload = p := hlost.1
    have hsnoc : payloadsOf (kept ++ [l]) = payloadsOf kept ++ [l.payload] := payloadsOf_append _ _
    rw [hsnoc, Wal.framesLength_snoc, hpayload]
    rw [← hkept] at hcut
    exact hcut

section Lives

variable {pageSize : Wal.PageSize} {path : String} {disk : Wal.FileImage}

theorem pageSize_le (pageSize : Wal.PageSize) : pageSize.bytes ≤ 2 ^ 31 := by
  obtain ⟨k, hk, hbytes⟩ := pageSize.pow_two
  rw [hbytes]
  exact Nat.pow_le_pow_right (by omega) (by omega)

/-- The default size stays below 4 GiB when it is rounded to pages. -/
theorem initialSizeAligned_lt (pageSize : Wal.PageSize) :
    Wal.initialSizeAligned pageSize defaultWalSize < 2 ^ 32 := by
  have hpage := pageSize_le pageSize
  have hround : ∀ size, size + pageSize.bytes - 1 < 2 ^ 32 →
      Wal.alignToPage pageSize size < 2 ^ 32 := by
    intro size hsize
    rw [Wal.alignToPage_eq_div, Wal.wrap64_of_lt (by omega)]
    exact lt_of_le_of_lt (Nat.div_mul_le_self _ _) hsize
  refine hround _ ?_
  unfold defaultWalSize
  omega

theorem initialSizeAligned_pos (pageSize : Wal.PageSize) :
    0 < Wal.initialSizeAligned pageSize defaultWalSize := by
  have hpage := pageSize_le pageSize
  have hround : max defaultWalSize pageSize.bytes ≤
      Wal.initialSizeAligned pageSize defaultWalSize :=
    Wal.le_alignToPage_of_no_wrap pageSize (by unfold defaultWalSize; omega)
  exact lt_of_lt_of_le (lt_max_of_lt_left (by decide)) hround

/-- The constructor returns in `main` if the three system calls succeed. -/
theorem construct_granted {os : Wal.OsReply} (hopen : os.openOk = true)
    (hftruncate : os.ftruncateOk = true) (hmmap : os.mmapOk = true) :
    (Wal.construct pageSize os path disk defaultWalSize).1 =
      .returned (Wal.freshLog pageSize path disk
        (Wal.initialSizeAligned pageSize defaultWalSize)) := by
  have hlt := initialSizeAligned_lt pageSize
  have hpos := initialSizeAligned_pos pageSize
  have hft : Wal.ftruncate os disk (Wal.initialSizeAligned pageSize defaultWalSize) =
      some (disk.resize (Wal.initialSizeAligned pageSize defaultWalSize)) :=
    if_pos ⟨hftruncate, by omega⟩
  have hmap : Wal.mmap os (Wal.initialSizeAligned pageSize defaultWalSize) = true := by
    unfold Wal.mmap
    rw [hmmap, decide_eq_true hpos]
    rfl
  unfold Wal.construct Wal.openAndMap
  rw [if_pos hopen, hft]
  simp only [hmap, if_true]
  rfl

/-- `main` starts the engine on the log that `replay` has left. -/
theorem startMain_inv {os : Wal.OsReply} {s : LedgerEngine}
    (h : startMain pageSize os path disk = some s) :
    ∃ w, (Wal.construct pageSize os path disk defaultWalSize).1 = .returned w ∧
      s = .init w.replay.log := by
  unfold startMain at h
  split at h
  · next w hopen =>
      refine ⟨w, hopen, ?_⟩
      split at h
      · rw [foldl_replayCallback] at h
        cases h
        rfl
      · cases h
  · cases h

/-- The parts of a life. -/
theorem live_inv {life : Life} {disk' : Wal.FileImage} {ts : List (Traced LedgerEngine Event)}
    (h : live pageSize path disk life = some (disk', ts)) :
    ∃ s₀ t, startMain pageSize life.os path disk = some s₀ ∧ runEngine s₀ life.acts = some t ∧
      disk' = t.state.wal.file ∧ ts = [t] := by
  obtain ⟨s₀, hstart, hend⟩ := Option.bind_eq_some_iff.mp h
  obtain ⟨t, hrun, heq⟩ := Option.map_eq_some_iff.mp hend
  cases heq
  exact ⟨s₀, t, hstart, hrun, rfl, rfl⟩

/-- **A life that finds frames leaves them, and its own behind them**, also if
its own do not fit any more. -/
theorem life_stored {os : Wal.OsReply} {s₀ : LedgerEngine} {acts : List Action}
    {t : Traced LedgerEngine Event} {ps : List Bytes} (hfound : Wal.Stored disk ps)
    (hfit : Wal.framesLength ps ≤ Wal.initialSizeAligned pageSize defaultWalSize)
    (hstart : startMain pageSize os path disk = some s₀) (hrun : runEngine s₀ acts = some t)
    (hlengths : ∀ req ∈ accepted t.trace, req.LengthsFit)
    (hsmall : ∀ p ∈ ps ++ payloadsOf (logged t.trace), Wal.Small p) :
    Wal.Stored t.state.wal.file (ps ++ payloadsOf (logged t.trace)) ∧
      Genuine (logged t.trace) := by
  obtain ⟨w, hopen, rfl⟩ := startMain_inv hstart
  -- what was found fits, so the engine starts behind it
  obtain ⟨-, -, hrep⟩ := hfound.reopened hopen (initialSizeAligned_lt pageSize) hfit
  have hcontinues := run_continues hrep.toRecorded hrun hlengths hsmall
  exact ⟨hcontinues.stored, hcontinues.genuine⟩

/-- **The file holds the frames of all lives**, as long as those before the last
one fit. -/
theorem run_stored (hzero : ∀ i, disk.byte i = 0) {lives : List Life}
    {u : Traced Wal.FileImage (Traced LedgerEngine Event)}
    (hrun : runLives pageSize path disk lives = some u)
    (hlengths : ∀ t ∈ u.trace, ∀ req ∈ accepted t.trace, req.LengthsFit)
    (hsmall : ∀ p ∈ payloadsOf (entries u.trace), Wal.Small p)
    (hfit : Wal.framesLength (payloadsOf (entries u.trace.dropLast)) ≤
      Wal.initialSizeAligned pageSize defaultWalSize) :
    Wal.Stored u.state (payloadsOf (entries u.trace)) ∧ Genuine (entries u.trace) := by
  refine traced_invariant
    (fun file past => (∀ t ∈ past, ∀ req ∈ accepted t.trace, req.LengthsFit) →
      (∀ p ∈ payloadsOf (entries past), Wal.Small p) →
        Wal.framesLength (payloadsOf (entries past.dropLast)) ≤
          Wal.initialSizeAligned pageSize defaultWalSize →
            Wal.Stored file (payloadsOf (entries past)) ∧ Genuine (entries past))
    ?_ ?_ hrun hlengths hsmall hfit
  · intro file past life file' ts hpast hlive hlengths' hsmall' hfit'
    obtain ⟨s₀, t, hstart, hrun', rfl, rfl⟩ := live_inv hlive
    rw [List.dropLast_concat] at hfit'
    rw [entries_snoc, payloadsOf_append] at hsmall' ⊢
    have hbefore := framesLength_dropLast_le past
    obtain ⟨hstored, hgenuine⟩ :=
      hpast (fun t' ht' => hlengths' t' (List.mem_append_left _ ht'))
        (fun p hp => hsmall' p (List.mem_append_left _ hp)) (hbefore.trans hfit')
    obtain ⟨hstored', hgenuine'⟩ := life_stored hstored hfit' hstart hrun'
      (hlengths' t (List.mem_append_right _ (List.mem_singleton_self t))) hsmall'
    exact ⟨hstored', hgenuine.append hgenuine'⟩
  · intro _ _ _
    refine ⟨Wal.stored_zero hzero, ?_⟩
    intro l hl
    cases hl

/-- **What is replayed of genuine frames can be read.** -/
theorem Genuine.audited {log : List LogEntry} (h : Genuine log)
    (hsmall : ∀ p ∈ payloadsOf log, Wal.Small p) {items : List (Nat × Bytes)}
    (hitems : items = Wal.numbered 0 (payloadsOf log)) :
    items.map (fun item => auditPayload item.2) = log.map (fun l => some (l.txId, l.req)) := by
  have hsplit : items.map (fun item => auditPayload item.2) =
      (items.map Prod.snd).map auditPayload := by
    rw [List.map_map]
    rfl
  rw [hsplit, hitems, Wal.map_snd_numbered]
  unfold payloadsOf
  rw [List.map_map]
  refine List.map_congr_left ?_
  intro l hl
  obtain ⟨now, hnow⟩ := h l hl
  have hpayload : Wal.Small (serializeForWal l.req l.txId now) := by
    rw [← hnow]
    exact hsmall l.payload (List.mem_map_of_mem hl)
  show auditPayload l.payload = some (l.txId, l.req)
  rw [hnow]
  exact auditPayload_eq_some.mpr ⟨lengthsFit_of_small hpayload, now, rfl⟩

/-- What the next start replays if all frames fit. -/
theorem lives_delivered (hzero : ∀ i, disk.byte i = 0) {lives : List Life}
    {u : Traced Wal.FileImage (Traced LedgerEngine Event)}
    (hrun : runLives pageSize path disk lives = some u)
    (hlengths : ∀ t ∈ u.trace, ∀ req ∈ accepted t.trace, req.LengthsFit)
    (hfit : Wal.framesLength (payloadsOf (entries u.trace)) ≤
      Wal.initialSizeAligned pageSize defaultWalSize)
    {os : Wal.OsReply} {w : Wal.WriteAheadLog}
    (hopen : (Wal.construct pageSize os path u.state defaultWalSize).1 = .returned w) :
    (∃ n, w.replay.outcome = .returned n) ∧
      w.replay.delivered = Wal.numbered 0 (payloadsOf (entries u.trace)) ∧
      w.replay.delivered.map (fun item => auditPayload item.2) =
        (entries u.trace).map (fun l => some (l.txId, l.req)) := by
  have hlt := initialSizeAligned_lt pageSize
  have hsmall := Wal.small_of_framesLength (lt_of_le_of_lt hfit hlt)
  obtain ⟨hstored, hgenuine⟩ := run_stored hzero hrun hlengths hsmall
    ((framesLength_dropLast_le u.trace).trans hfit)
  obtain ⟨hret, hdel, -⟩ := hstored.reopened hopen hlt hfit
  exact ⟨⟨_, hret⟩, hdel, hgenuine.audited hsmall hdel⟩

/-- **THE LOG OVER ALL LIVES.**  From a new file, over any number of lives, each
ended anywhere: the next start replays every frame of every life, in order,
exactly if they fit into the size the file is opened with.  Then a reader of the
log gets every request back with its identifier. -/
theorem lives_recovered (hzero : ∀ i, disk.byte i = 0) {lives : List Life}
    {u : Traced Wal.FileImage (Traced LedgerEngine Event)}
    (hrun : runLives pageSize path disk lives = some u)
    (hlengths : ∀ t ∈ u.trace, ∀ req ∈ accepted t.trace, req.LengthsFit)
    {os : Wal.OsReply} {w : Wal.WriteAheadLog}
    (hopen : (Wal.construct pageSize os path u.state defaultWalSize).1 = .returned w) :
    (((∃ n, w.replay.outcome = .returned n) ∧
        w.replay.delivered = Wal.numbered 0 (payloadsOf (entries u.trace))) ↔
      Wal.framesLength (payloadsOf (entries u.trace)) ≤
        Wal.initialSizeAligned pageSize defaultWalSize) ∧
      (Wal.framesLength (payloadsOf (entries u.trace)) ≤
          Wal.initialSizeAligned pageSize defaultWalSize →
        w.replay.delivered.map (fun item => auditPayload item.2) =
          (entries u.trace).map (fun l => some (l.txId, l.req))) := by
  refine ⟨⟨?_, ?_⟩, ?_⟩
  · intro hall
    obtain ⟨⟨n, hret⟩, hdel⟩ := hall
    obtain ⟨hw, hwell⟩ := Wal.construct_returned_inv hopen
    have hsize : w.mappedSize = Wal.initialSizeAligned pageSize defaultWalSize := by
      rw [hw]
      rfl
    have hlt : w.mappedSize < 2 ^ 32 := by
      rw [hsize]
      exact initialSizeAligned_lt pageSize
    rw [← hsize]
    exact Wal.delivered_fits hwell hlt hret hdel
  · intro hfit
    obtain ⟨hret, hdel, -⟩ := lives_delivered hzero hrun hlengths hfit hopen
    exact ⟨hret, hdel⟩
  · intro hfit
    obtain ⟨-, -, haudit⟩ := lives_delivered hzero hrun hlengths hfit hopen
    exact haudit

/-- **A life that goes on records behind all lives before it**, while their frames
fit. -/
theorem later_recorded (hzero : ∀ i, disk.byte i = 0) {lives : List Life}
    {u : Traced Wal.FileImage (Traced LedgerEngine Event)}
    (hrun : runLives pageSize path disk lives = some u)
    (hlengths : ∀ t ∈ u.trace, ∀ req ∈ accepted t.trace, req.LengthsFit)
    (hfit : Wal.framesLength (payloadsOf (entries u.trace)) ≤
      Wal.initialSizeAligned pageSize defaultWalSize)
    {os : Wal.OsReply} {s₀ : LedgerEngine} (hstart : startMain pageSize os path u.state = some s₀)
    {acts : List Action} {t : Traced LedgerEngine Event} (hlife : runEngine s₀ acts = some t)
    (hlengths' : ∀ req ∈ accepted t.trace, req.LengthsFit)
    (hsmall : ∀ p ∈ payloadsOf (entries (u.trace ++ [t])), Wal.Small p)
    (halive : t.state.pc.threw = false) :
    Wal.Recorded t.state.wal (payloadsOf (entries (u.trace ++ [t]))) := by
  have hlt := initialSizeAligned_lt pageSize
  obtain ⟨hstored, -⟩ := run_stored hzero hrun hlengths
    (Wal.small_of_framesLength (lt_of_le_of_lt hfit hlt))
    ((framesLength_dropLast_le u.trace).trans hfit)
  obtain ⟨w, hopen, rfl⟩ := startMain_inv hstart
  obtain ⟨-, -, hrep⟩ := hstored.reopened hopen hlt hfit
  have hsplit : payloadsOf (entries (u.trace ++ [t])) =
      payloadsOf (entries u.trace) ++ payloadsOf (logged t.trace) := by
    rw [entries_snoc, payloadsOf_append]
  rw [hsplit] at hsmall ⊢
  exact (run_continues hrep.toRecorded hlife hlengths' hsmall).recorded halive

/-- **THE LAST LIFE IS CUT.**  If the frames of the lives before it fit into the
size the file is opened with, the next start replays exactly those frames of all
lives that fit, and a reader gets their requests back; the first frame that does
not fit is lost, with all that follow it. -/
theorem last_life_cut (hzero : ∀ i, disk.byte i = 0) {lives : List Life}
    {u : Traced Wal.FileImage (Traced LedgerEngine Event)}
    (hrun : runLives pageSize path disk lives = some u)
    (hlengths : ∀ t ∈ u.trace, ∀ req ∈ accepted t.trace, req.LengthsFit)
    (hsmall : ∀ p ∈ payloadsOf (entries u.trace), Wal.Small p)
    (hfit : Wal.framesLength (payloadsOf (entries u.trace.dropLast)) ≤
      Wal.initialSizeAligned pageSize defaultWalSize)
    {os : Wal.OsReply} (hopen : os.openOk = true) (hftruncate : os.ftruncateOk = true)
    (hmmap : os.mmapOk = true) :
    ∃ w, (Wal.construct pageSize os path u.state defaultWalSize).1 = .returned w ∧
      startMain pageSize os path u.state = some (.init w.replay.log) ∧
      ∃ kept lost, entries u.trace = kept ++ lost ∧
        w.replay.delivered = Wal.numbered 0 (payloadsOf kept) ∧
        w.replay.delivered.map (fun item => auditPayload item.2) =
          kept.map (fun l => some (l.txId, l.req)) ∧
        Wal.framesLength (payloadsOf kept) ≤ Wal.initialSizeAligned pageSize defaultWalSize ∧
        ∀ l rest, lost = l :: rest →
          Wal.initialSizeAligned pageSize defaultWalSize <
            Wal.framesLength (payloadsOf (kept ++ [l])) := by
  have hreturned : (Wal.construct pageSize os path u.state defaultWalSize).1 =
      .returned (Wal.freshLog pageSize path u.state
        (Wal.initialSizeAligned pageSize defaultWalSize)) :=
    construct_granted hopen hftruncate hmmap
  obtain ⟨hstored, hgenuine⟩ := run_stored hzero hrun hlengths hsmall hfit
  obtain ⟨hret, hdel⟩ := hstored.cut hsmall hreturned
  refine ⟨_, hreturned, ?_, ?_⟩
  · unfold startMain
    rw [hreturned]
    simp only [hret, foldl_replayCallback]
    rfl
  · have hroom := Wal.framesLength_fitting_le (payloadsOf (entries u.trace))
      (Wal.initialSizeAligned pageSize defaultWalSize)
    obtain ⟨kept, lost, hentries, hkept, hcut⟩ := entries_split (entries u.trace)
      (Wal.initialSizeAligned pageSize defaultWalSize)
    rw [hkept] at hdel hroom
    have hsmall' : ∀ p ∈ payloadsOf kept, Wal.Small p := by
      intro p hp
      refine hsmall p ?_
      rw [hentries, payloadsOf_append]
      exact List.mem_append_left _ hp
    have hgenuine' : Genuine kept := by
      intro l hl
      refine hgenuine l ?_
      rw [hentries]
      exact List.mem_append_left _ hl
    exact ⟨kept, lost, hentries, hdel, hgenuine'.audited hsmall' hdel, hroom, hcut⟩

end Lives

/-- The process is killed when the frame of a sale is in the log and its
balances are not changed yet. -/
def killedLife : List Action :=
  createAccountCall "Sales" .revenue ++ createAccountCall "Cash" .asset ++
    .submit (transferRequest "sale" 0 1 500) :: engineSteps 6

/-- The same calls again, after the process was started again. -/
def killedThenAgain : List Life := [⟨Wal.OsReply.ok, killedLife⟩, ⟨Wal.OsReply.ok, firstLife⟩]

/-- The sale of both lives. -/
def sale : TransactionRequest := transferRequest "sale" 0 1 500

set_option synthInstance.maxSize 256 in
set_option maxRecDepth 4096 in
/-- The two lives run, and log the sale twice. -/
theorem killedThenAgain_runs :
    ∃ u w, runLives Wal.page4096 "zerolgr.wal" Wal.FileImage.empty killedThenAgain = some u ∧
      (Wal.construct Wal.page4096 Wal.OsReply.ok "zerolgr.wal" u.state defaultWalSize).1 =
        .returned w ∧
      (∀ t ∈ u.trace, ∀ req ∈ accepted t.trace, req.LengthsFit) ∧
      u.trace.map (fun t => (responses t.trace).map (fun b => b.2.status)) = [[], [.ok]] ∧
      (entries u.trace).map LogEntry.req = [sale, sale] ∧
      Wal.framesLength (payloadsOf (entries u.trace)) = 202 := by
  have hruns : (runLives Wal.page4096 "zerolgr.wal" Wal.FileImage.empty killedThenAgain).map
      (fun u => (u.trace.map (fun t => accepted t.trace),
        u.trace.map (fun t => (responses t.trace).map (fun b => b.2.status)),
        (entries u.trace).map LogEntry.req,
        Wal.framesLength (payloadsOf (entries u.trace)))) =
      some ([[sale], [sale]], [[], [.ok]], [sale, sale], 202) := by
    decide +kernel
  obtain ⟨u, hu, heq⟩ := Option.map_eq_some_iff.mp hruns
  simp only [Prod.mk.injEq] at heq
  obtain ⟨haccepted, hanswers, hentries, hlength⟩ := heq
  have hfits : sale.LengthsFit := by
    unfold TransactionRequest.LengthsFit
    decide
  refine ⟨u, Wal.freshLog Wal.page4096 "zerolgr.wal" u.state
    (Wal.initialSizeAligned Wal.page4096 defaultWalSize), hu, rfl, ?_, hanswers, hentries, hlength⟩
  intro t ht req hreq
  have hmem := List.mem_map_of_mem (f := fun t => accepted t.trace) ht
  rw [haccepted] at hmem
  have hone : accepted t.trace = [sale] := by
    simpa using hmem
  rw [hone] at hreq
  rw [List.mem_singleton.mp hreq]
  exact hfits

/-- **Both frames come back**, under the one key, although the first life has
answered nothing. -/
theorem killedThenAgain_recovered :
    ∃ u w, runLives Wal.page4096 "zerolgr.wal" Wal.FileImage.empty killedThenAgain = some u ∧
      (Wal.construct Wal.page4096 Wal.OsReply.ok "zerolgr.wal" u.state defaultWalSize).1 =
        .returned w ∧
      u.trace.map (fun t => (responses t.trace).map (fun b => b.2.status)) = [[], [.ok]] ∧
      (entries u.trace).map LogEntry.req = [sale, sale] ∧
      w.replay.delivered.map (fun item => auditPayload item.2) =
        (entries u.trace).map (fun l => some (l.txId, l.req)) := by
  obtain ⟨u, w, hu, hopen, hlengths, hanswers, hentries, hlength⟩ := killedThenAgain_runs
  obtain ⟨-, haudit⟩ := lives_recovered (fun _ => rfl) hu hlengths hopen
  exact ⟨u, w, hu, hopen, hanswers, hentries, haudit (by rw [hlength]; decide +kernel)⟩

/-- **An engine that waits for requests logs the next one.** -/
theorem logs_next {s : LedgerEngine} {req : TransactionRequest} (hpc : s.pc = .loadRunning)
    (hrunning : s.running = true) (hempty : s.requestQueue.items = [])
    (hmiss : s.idempotencyCache.lookup req.idempotencyKey = none)
    (hvalid : validateTransaction s.accounts req = .ok)
    (hreturns : ∀ txId, ∃ seq w,
      s.wal.append Wal.OsReply.ok (serializeForWal req txId 1000) = (.returned seq, w))
    (tr : List Event) :
    ∃ t txId, run (traced step) ⟨s, tr⟩ (.submit req :: engineSteps 6) = some t ∧
      logged t.trace = logged tr ++ [⟨req, txId, serializeForWal req txId 1000⟩] ∧
      accepted t.trace = accepted tr ++ [req] := by
  obtain ⟨q₁, hq₁, hitems₁⟩ := Fifo.Bounded.enqueue_of_lt (a := req)
    (show s.requestQueue.items.length < queueCapacity by rw [hempty]; decide)
  rw [hempty, List.nil_append] at hitems₁
  obtain ⟨q₂, hq₂, -⟩ := Fifo.Bounded.dequeue_of_cons hitems₁
  obtain ⟨seq, w, happend⟩ := hreturns (generateUuid 1000 s.uuidCounter)
  have hsubmit : step s (.submit req) = some ({ s with requestQueue := q₁ }, [.submitted req]) := by
    simp only [step, hq₁]
    rfl
  have hload : step { s with requestQueue := q₁ } (.engine 1000 Wal.OsReply.ok) =
      some ({ s with requestQueue := q₁, pc := .popRequest }, []) := by
    simp only [step, LedgerEngine.engineStep, hpc, hrunning]
    rfl
  have hpop : step { s with requestQueue := q₁, pc := .popRequest } (.engine 1000 Wal.OsReply.ok) =
      some ({ s with requestQueue := q₂, pc := .findCached req }, [.popped req]) := by
    simp only [step, LedgerEngine.engineStep, hq₂]
  have hfind : step { s with requestQueue := q₂, pc := .findCached req }
      (.engine 1000 Wal.OsReply.ok) =
        some ({ s with requestQueue := q₂, pc := .validate req }, []) := by
    simp only [step, LedgerEngine.engineStep, hmiss]
  have hvalidate : step { s with requestQueue := q₂, pc := .validate req }
      (.engine 1000 Wal.OsReply.ok) =
        some ({ s with requestQueue := q₂, pc := .generateUuid req 1000 },
          [.validated req .ok]) := by
    simp only [step, LedgerEngine.engineStep, hvalid]
    rfl
  have hdraw : step { s with requestQueue := q₂, pc := .generateUuid req 1000 }
      (.engine 1000 Wal.OsReply.ok) =
        some ({ s with
          requestQueue := q₂, uuidCounter := s.uuidCounter + 1
          pc := .appendWal req 1000 (generateUuid 1000 s.uuidCounter) }, []) := rfl
  have hlog : step
      { s with
        requestQueue := q₂, uuidCounter := s.uuidCounter + 1
        pc := .appendWal req 1000 (generateUuid 1000 s.uuidCounter) }
      (.engine 1000 Wal.OsReply.ok) =
        some ({ s with
          requestQueue := q₂, uuidCounter := s.uuidCounter + 1, wal := w
          pc := .applyTransaction req 1000 (generateUuid 1000 s.uuidCounter) },
          [.appended req (generateUuid 1000 s.uuidCounter)
            (serializeForWal req (generateUuid 1000 s.uuidCounter) 1000)]) := by
    simp only [step, LedgerEngine.engineStep, LedgerEngine.appendWal, happend]
  have hrun : run (traced step) ⟨s, tr⟩ (.submit req :: engineSteps 6) = some
      ⟨{ s with
          requestQueue := q₂, uuidCounter := s.uuidCounter + 1, wal := w
          pc := .applyTransaction req 1000 (generateUuid 1000 s.uuidCounter) },
        tr ++ [.submitted req, .popped req, .validated req .ok,
          .appended req (generateUuid 1000 s.uuidCounter)
            (serializeForWal req (generateUuid 1000 s.uuidCounter) 1000)]⟩ := by
    unfold engineSteps
    simp only [List.replicate]
    rw [run_traced_cons hsubmit, run_traced_cons hload, run_traced_cons hpop,
      run_traced_cons hfind, run_traced_cons hvalidate, run_traced_cons hdraw,
      run_traced_cons hlog]
    simp [run]
  exact ⟨_, _, hrun, by rw [logged_append]; rfl, by rw [accepted_append]; rfl⟩

/-- A description as large as the file that `main` opens. -/
def largeDescription : Bytes := List.replicate defaultWalSize 0

theorem length_largeDescription : largeDescription.length = 67108864 := List.length_replicate

/-- Another sale, with this description. -/
def largeSale : TransactionRequest :=
  { transferRequest "again" 0 1 500 with description := largeDescription }

theorem length_largeSale (txId : Uuid) (now : Int64) :
    (serializeForWal largeSale txId now).length = 67108954 := by
  simp only [serializeForWal, List.length_append, length_appendString, Uuid.length_eq, length_le64]
  have hdescription : largeSale.description.length = 67108864 := length_largeDescription
  have hothers : largeSale.debitAccountId.length + largeSale.creditAccountId.length +
      largeSale.idempotencyKey.length + largeSale.currency.length +
      largeSale.stripeChargeId.length = 18 := by
    decide +kernel
  omega

/-- A life with a sale, back at the start of the loop. -/
def saleLife : List Action := firstLife ++ engineSteps 1

/-- After a life that was killed, one that logs more than the file holds when it
is opened. -/
def largeLife : Life := ⟨Wal.OsReply.ok, saleLife ++ .submit largeSale :: engineSteps 6⟩

set_option synthInstance.maxSize 256 in
set_option maxRecDepth 4096 in
theorem saleLife_waits :
    ∃ u s t, runLives Wal.page4096 "zerolgr.wal" Wal.FileImage.empty
        [⟨Wal.OsReply.ok, killedLife⟩] = some u ∧
      startMain Wal.page4096 Wal.OsReply.ok "zerolgr.wal" u.state = some s ∧
      runEngine s saleLife = some t ∧ u.trace.map (fun t => accepted t.trace) = [[sale]] ∧
      accepted t.trace = [sale] ∧ (entries (u.trace ++ [t])).map LogEntry.req = [sale, sale] ∧
      Wal.framesLength (payloadsOf (entries u.trace)) = 101 ∧
      Wal.framesLength (payloadsOf (entries (u.trace ++ [t]))) = 202 ∧
      t.state.pc = .loadRunning ∧ t.state.running = true ∧ t.state.requestQueue.items = [] ∧
      (t.state.idempotencyCache.lookup largeSale.idempotencyKey).isNone = true ∧
      validateTransaction t.state.accounts largeSale = .ok ∧
      t.state.wal.mappedSize = 67108864 ∧ t.state.wal.writeOffset = 202 ∧
      t.state.wal.pageSize.bytes = 4096 := by
  have hruns : ((runLives Wal.page4096 "zerolgr.wal" Wal.FileImage.empty
      [⟨Wal.OsReply.ok, killedLife⟩]).bind fun u =>
      (startMain Wal.page4096 Wal.OsReply.ok "zerolgr.wal" u.state).bind fun s =>
      (runEngine s saleLife).map fun t =>
        (u.trace.map (fun t => accepted t.trace),
          [accepted t.trace, t.state.requestQueue.items, (entries (u.trace ++ [t])).map LogEntry.req],
          [Wal.framesLength (payloadsOf (entries u.trace)),
            Wal.framesLength (payloadsOf (entries (u.trace ++ [t]))), t.state.wal.mappedSize,
            t.state.wal.writeOffset, t.state.wal.pageSize.bytes],
          [decide (t.state.pc = .loadRunning), t.state.running,
            (t.state.idempotencyCache.lookup largeSale.idempotencyKey).isNone],
          validateTransaction t.state.accounts largeSale)) =
      some ([[sale]], [[sale], [], [sale, sale]],
        [101, 202, 67108864, 202, 4096], [true, true, true], .ok) := by
    decide +kernel
  obtain ⟨u, hu, hruns⟩ := Option.bind_eq_some_iff.mp hruns
  obtain ⟨s, hs, hruns⟩ := Option.bind_eq_some_iff.mp hruns
  obtain ⟨t, ht, heq⟩ := Option.map_eq_some_iff.mp hruns
  simp only [Prod.mk.injEq, List.cons.injEq, and_true, decide_eq_true_eq] at heq
  obtain ⟨hfirst, ⟨haccepted, hqueue, hentries⟩, ⟨hone, htwo, hmapped, hoffset, hpage⟩,
    ⟨hpc, hrunning, hmiss⟩, hvalid⟩ := heq
  exact ⟨u, s, t, hu, hs, ht, hfirst, haccepted, hentries, hone, htwo, hpc, hrunning, hqueue,
    hmiss, hvalid, hmapped, hoffset, hpage⟩

/-- The log of a life that waits takes the large frame: it grows. -/
theorem largeSale_returns {w : Wal.WriteAheadLog} (hw : w.WellMapped)
    (hmapped : w.mappedSize = 67108864) (hoffset : w.writeOffset = 202)
    (hpage : w.pageSize.bytes = 4096) (txId : Uuid) :
    ∃ seq w', w.append Wal.OsReply.ok (serializeForWal largeSale txId 1000) =
      (.returned seq, w') := by
  have hlength := length_largeSale txId 1000
  have hgranted : Wal.Granted w Wal.OsReply.ok (serializeForWal largeSale txId 1000) := by
    refine ⟨rfl, rfl, ?_⟩
    rw [hmapped, hoffset, hpage, hlength]
    decide
  obtain ⟨hret, -⟩ := Wal.append_granted hw (by rw [hlength]; decide) hgranted
  exact ⟨_, _, Prod.ext hret rfl⟩

/-- The second life logs two sales, and the second of them is too large. -/
theorem largeLife_runs :
    ∃ u kept lost, runLives Wal.page4096 "zerolgr.wal" Wal.FileImage.empty
        [⟨Wal.OsReply.ok, killedLife⟩, largeLife] = some u ∧
      (∀ t ∈ u.trace, ∀ req ∈ accepted t.trace, req.LengthsFit) ∧
      Wal.framesLength (payloadsOf (entries u.trace.dropLast)) = 101 ∧
      entries u.trace = kept ++ [lost] ∧ kept.map LogEntry.req = [sale, sale] ∧
      Wal.framesLength (payloadsOf kept) = 202 ∧ lost.req = largeSale ∧
      lost.payload.length = 67108954 := by
  obtain ⟨u, s, t, hu, hs, ht, hfirst, haccepted, hentries, hone, htwo, hpc, hrunning, hqueue,
    hmiss, hvalid, hmapped, hoffset, hpage⟩ := saleLife_waits
  have hsale : sale.LengthsFit := by
    unfold TransactionRequest.LengthsFit
    decide
  have hlarge : largeSale.LengthsFit := by
    have hdescription : largeSale.description.length = 67108864 := length_largeDescription
    simp only [TransactionRequest.LengthsFit, List.forall_mem_cons, List.not_mem_nil,
      false_implies, implies_true, and_true]
    refine ⟨by decide, by decide, by decide, by omega, by decide, by decide⟩
  have hfirst' : ∀ t ∈ u.trace, ∀ req ∈ accepted t.trace, req.LengthsFit := by
    intro t ht req hreq
    have hmem := List.mem_map_of_mem (f := fun t => accepted t.trace) ht
    rw [hfirst, List.mem_singleton] at hmem
    rw [hmem, List.mem_singleton] at hreq
    rw [hreq]
    exact hsale
  have hroom : ∀ n, n ≤ 202 → n ≤ Wal.initialSizeAligned Wal.page4096 defaultWalSize :=
    fun n hn => hn.trans (by decide +kernel)
  have hrecorded := later_recorded (fun _ => rfl) hu hfirst' (hroom _ (by rw [hone]; decide)) hs ht
    (fun req hreq => by
      rw [haccepted, List.mem_singleton] at hreq
      rw [hreq]
      exact hsale)
    (Wal.small_of_framesLength (by rw [htwo]; decide)) (by rw [hpc]; rfl)
  have hwaits : t.state.wal.WellMapped := hrecorded.toWellMapped
  obtain ⟨t', txId, ht', hlogged, haccepted'⟩ := logs_next hpc hrunning hqueue
    (Option.isNone_iff_eq_none.mp hmiss) hvalid
    (fun txId => largeSale_returns hwaits hmapped hoffset hpage txId) t.trace
  have hlive : live Wal.page4096 "zerolgr.wal" u.state largeLife =
      some (t'.state.wal.close, [t']) := by
    unfold live largeLife
    rw [hs, Option.bind_some, runEngine, run_append, show run _ _ saleLife = some t from ht,
      Option.bind_some, ht']
    rfl
  refine ⟨⟨t'.state.wal.close, u.trace ++ [t']⟩, entries (u.trace ++ [t]),
    ⟨largeSale, txId, serializeForWal largeSale txId 1000⟩, ?_, ?_, ?_, ?_, hentries, htwo, rfl,
    length_largeSale txId 1000⟩
  · have hsnoc := run_snoc (traced (live Wal.page4096 "zerolgr.wal"))
      [⟨Wal.OsReply.ok, killedLife⟩] largeLife ⟨Wal.FileImage.empty, []⟩
    rw [show run (traced (live Wal.page4096 "zerolgr.wal")) ⟨Wal.FileImage.empty, []⟩
      [⟨Wal.OsReply.ok, killedLife⟩] = some u from hu] at hsnoc
    exact hsnoc.trans (traced_eq_some.mpr ⟨[t'], hlive, rfl⟩)
  · intro t₁ ht₁ req hreq
    rcases List.mem_append.mp ht₁ with ht₁ | ht₁
    · exact hfirst' t₁ ht₁ req hreq
    · rw [List.mem_singleton.mp ht₁, haccepted', haccepted] at hreq
      rcases List.mem_cons.mp hreq with rfl | hreq
      · exact hsale
      · rw [List.mem_singleton.mp hreq]
        exact hlarge
  · rw [List.dropLast_concat]
    exact hone
  · rw [entries_snoc, entries_snoc, hlogged, List.append_assoc]

/-- **The large frame is lost**: the next start replays the two sales before it. -/
theorem largeLife_cut :
    ∃ u w kept lost, runLives Wal.page4096 "zerolgr.wal" Wal.FileImage.empty
        [⟨Wal.OsReply.ok, killedLife⟩, largeLife] = some u ∧
      startMain Wal.page4096 Wal.OsReply.ok "zerolgr.wal" u.state =
        some (.init (Wal.WriteAheadLog.replay w).log) ∧
      entries u.trace = kept ++ [lost] ∧ kept.map LogEntry.req = [sale, sale] ∧
      lost.req = largeSale ∧
      w.replay.delivered.map (fun item => auditPayload item.2) =
        kept.map (fun l => some (l.txId, l.req)) := by
  obtain ⟨u, two, l, hu, hlengths, hone, hall, hreqs, htwo, hlarge, hlength⟩ := largeLife_runs
  have hsize : Wal.initialSizeAligned Wal.page4096 defaultWalSize = 67108864 := by
    decide +kernel
  have hpayloads : payloadsOf (entries u.trace) = payloadsOf two ++ [l.payload] := by
    rw [hall, payloadsOf_append]
    rfl
  have hsmall : ∀ p ∈ payloadsOf (entries u.trace), Wal.Small p := by
    refine Wal.small_of_framesLength ?_
    rw [hpayloads, Wal.framesLength_snoc, htwo, hlength]
    decide
  have hok : Wal.OsReply.ok.openOk = true := rfl
  obtain ⟨w, -, hstart, kept, lost, hsplit, -, haudit, hfits, hcut⟩ :=
    last_life_cut (fun _ => rfl) hu hlengths hsmall (by rw [hone, hsize]; decide) hok rfl rfl
  rw [hsize] at hfits hcut
  -- neither less nor more than the two small frames fits
  have hkept : kept = two ∧ lost = [l] := by
    rcases List.append_eq_append_iff.mp (hall.symm.trans hsplit) with
      ⟨mid, rfl, hmid⟩ | ⟨mid, rfl, rfl⟩
    · cases mid with
      | nil => exact ⟨List.append_nil two, hmid.symm⟩
      | cons m mid =>
          -- the large frame would fit
          obtain ⟨rfl, -⟩ := List.cons.inj hmid
          have hsnoc : payloadsOf (two ++ l :: mid) =
              payloadsOf two ++ [l.payload] ++ payloadsOf mid := by
            rw [payloadsOf_append, List.append_assoc]
            rfl
          have hle := framesLength_prefix_le (payloadsOf two ++ [l.payload]) (payloadsOf mid)
          rw [← hsnoc, Wal.framesLength_snoc, htwo, hlength] at hle
          omega
    · cases mid with
      | nil => exact ⟨(List.append_nil kept).symm, rfl⟩
      | cons m mid =>
          -- a small frame would not fit
          have hfull := hcut m (mid ++ [l]) rfl
          have hle := framesLength_prefix_le (payloadsOf (kept ++ [m])) (payloadsOf mid)
          rw [← payloadsOf_append, List.append_assoc, List.singleton_append, htwo] at hle
          omega
  obtain ⟨rfl, rfl⟩ := hkept
  exact ⟨u, w, kept, l, hu, hstart, hall, hreqs, hlarge, haudit⟩

end ZeroLGR.Ledger
