/-
  ZeroLGR.Server.Framing — which frames `io_loop` takes for one message.

  A pass of the loop that receives takes three frames, "[identity]
  [empty_delimiter] [payload]", whatever the messages are made of, and waits
  until they are there.  Then it dispatches the third under the first, and comes
  back for the next three unless the payload is cut short: its handler reads past
  the end.

    • `Multipart`, `Pass`, `receivePass` — the messages, and the server with a record
      of its passes,
    • `run_frames`, `run_dispatching` — no frame is lost or changes its place, and
      no pass comes after one whose payload is cut short,
    • `Aligned` — every pass has the frames of one message, and every well-formed
      message has a pass,
    • `InTurn` — up to the first payload that is cut short the messages have two
      parts each, and no well-formed message comes behind it,
    • `aligned_iff` — the first holds over all runs exactly if the second does,
    • `settles` — of what has arrived, the I/O thread receives what it can.
-/
import ZeroLGR.Server.Bounds

namespace ZeroLGR.Server

open Transition Ledger

/-! ## §1. Messages and passes. -/

/-- A message as it is delivered at the ROUTER socket. -/
structure Multipart where
  identity : Bytes
  parts : List Bytes
  sent : parts ≠ []

/-- The identity of the sender stands in front of the parts. -/
def Multipart.frames (m : Multipart) : List Bytes := m.identity :: m.parts

/-- What a client sends that keeps to the format. -/
def Multipart.wellFormed (identity payload : Bytes) : Multipart :=
  ⟨identity, [[], payload], List.cons_ne_nil _ _⟩

/-- The message keeps to the format. -/
def Multipart.IsWellFormed (m : Multipart) : Prop := ∃ payload, m.parts = [[], payload]

/-- Two parts, the second of which holds what it announces. -/
def Multipart.Sound (m : Multipart) : Prop :=
  ∃ delimiter payload, m.parts = [delimiter, payload] ∧ Whole payload

/-- The frames of the messages, one behind the other. -/
def stream (ms : List Multipart) : List Bytes := ms.flatMap Multipart.frames

/-- `identity_msg`, `delimiter_msg` and `payload_msg` of one pass. -/
structure Pass where
  identity : Bytes
  delimiter : Bytes
  payload : Bytes
  deriving DecidableEq

def Pass.frames (p : Pass) : List Bytes := [p.identity, p.delimiter, p.payload]

theorem Pass.frames_inj {p q : Pass} (h : p.frames = q.frames) : p = q := by
  cases p
  cases q
  cases h
  rfl

/-- The pass that the step completes: what is dispatched after it, and the frame
in the middle. -/
def passIn (s s' : EngineServer) : List Pass :=
  match s.pc, s.input, s'.pc with
  | .poll, _ :: delimiter :: _, .handle identity payload => [⟨identity, delimiter, payload⟩]
  | _, _, _ => []

/-- A step of the server, with the pass it completes. -/
def receivePass (s : EngineServer) (a : Action) : Option (EngineServer × List Pass) :=
  (step s a).map fun r => (r.1, passIn s r.1)

/-- The frames of the message that arrives. -/
def Action.arrival : Action → Option (List Bytes)
  | .arrive frames => some frames
  | _ => none

/-- The messages that arrive in a run are `ms`. -/
def Arrive (as : List Action) (ms : List Multipart) : Prop :=
  as.filterMap Action.arrival = ms.map Multipart.frames

/-- Of what has arrived, nothing more will be received: the handler has read past
the end of a payload, or fewer than three frames wait. -/
def EngineServer.Settled (s : EngineServer) : Prop := s.pc = .undefinedRead ∨ s.input.length < 3

instance (s : EngineServer) : Decidable s.Settled :=
  inferInstanceAs (Decidable (s.pc = .undefinedRead ∨ s.input.length < 3))

theorem stream_cons (m : Multipart) (ms : List Multipart) :
    stream (m :: ms) = m.frames ++ stream ms := List.flatMap_cons

theorem stream_append (ms ms' : List Multipart) : stream (ms ++ ms') = stream ms ++ stream ms' :=
  List.flatMap_append

theorem stream_eq_nil {ms : List Multipart} : stream ms = [] ↔ ms = [] := by
  constructor
  · intro h
    cases ms with
    | nil => rfl
    | cons m ms => cases h
  · intro h
    rw [h]
    rfl

theorem length_frames (m : Multipart) : m.frames.length = m.parts.length + 1 := rfl

theorem parts_pos (m : Multipart) : 0 < m.parts.length := List.length_pos_iff.mpr m.sent

/-- A pass over the frames of a message has the payload of this message. -/
theorem sound_iff {m : Multipart} {p : Pass} (h : p.frames = m.frames) :
    m.Sound ↔ Whole p.payload := by
  obtain ⟨-, hparts⟩ := List.cons.inj h
  constructor
  · intro hsound
    obtain ⟨delimiter, payload, hm, hwhole⟩ := hsound
    rw [hm] at hparts
    cases hparts
    exact hwhole
  · intro hwhole
    exact ⟨p.delimiter, p.payload, hparts.symm, hwhole⟩

/-- A well-formed message is three frames. -/
theorem Multipart.IsWellFormed.length {m : Multipart} (h : m.IsWellFormed) :
    m.frames.length = 3 := by
  obtain ⟨payload, hparts⟩ := h
  rw [length_frames, hparts]
  rfl

/-! ## §2. What a step does to the frames. -/

/-- The thread neither dispatches a payload nor has read past the end of one. -/
def IoPc.calm : IoPc → Bool
  | .handle _ _ => false
  | .undefinedRead => false
  | _ => true

/-- **What a step does to the frames.** -/
inductive Takings (s : EngineServer) (a : Action) (s' : EngineServer) : Prop
  | none : a.arrival = none → s'.input = s.input → passIn s s' = [] →
      (s'.pc = s.pc ∨ s.pc.calm = true ∧ s'.pc.calm = true) → Takings s a s'
  | arrive {frames : List Bytes} : a.arrival = some frames → s'.input = s.input ++ frames →
      passIn s s' = [] → s'.pc = s.pc → Takings s a s'
  | pass {p : Pass} : a.arrival = none → s.input = p.frames ++ s'.input → passIn s s' = [p] →
      s.pc = .poll → s'.pc = .handle p.identity p.payload → Takings s a s'
  | handled {identity payload : Bytes} : a.arrival = none → s'.input = s.input →
      passIn s s' = [] → s.pc = .handle identity payload →
      (s'.pc = .undefinedRead ↔ ¬ Whole payload) → (∀ i p, s'.pc ≠ .handle i p) → Takings s a s'

section Steps

variable {s s' : EngineServer} {es : List Event}

theorem passIn_of_pc (h : s.pc ≠ .poll) : passIn s s' = [] := by
  unfold passIn
  split
  next hpoll _ _ => exact absurd hpoll h
  next => rfl

theorem passIn_of_same (h : s'.pc = s.pc) : passIn s s' = [] := by
  unfold passIn
  split
  next hpoll _ hhandle => cases hpoll.symm.trans (h.symm.trans hhandle)
  next => rfl

theorem handle_input {answer : Bytes} {uninitialised : Uuid} {identity payload : Bytes}
    (h : s.handle answer uninitialised identity payload = (s', es)) :
    s'.input = s.input ∧ ∀ i p, s'.pc ≠ .handle i p := by
  unfold EngineServer.handle EngineServer.handleRequest at h
  repeat' split at h
  all_goals
    cases h
    exact ⟨rfl, fun i p hpc => by cases hpc⟩

theorem drainOne_input (hpc : s.pc = .drain) (h : s.drainOne = (s', es)) :
    s'.input = s.input ∧ s'.pc.calm = true := by
  unfold EngineServer.drainOne at h
  split at h
  next =>
    cases h
    exact ⟨rfl, rfl⟩
  next =>
    dsimp only at h
    split at h
    all_goals
      cases h
      refine ⟨rfl, ?_⟩
      rw [hpc]
      rfl

theorem ioStep_takings {answer : Bytes} {uninitialised : Uuid}
    (h : s.ioStep answer uninitialised = some (s', es)) :
    Takings s (.io answer uninitialised) s' := by
  unfold EngineServer.ioStep at h
  split at h
  next hpc =>
    split at h
    all_goals
      cases h
      exact .none rfl rfl (passIn_of_pc (by rw [hpc]; decide))
        (.inr (by rw [hpc]; exact ⟨rfl, rfl⟩))
  next hpc =>
    split at h
    next hinput =>
      -- nothing has arrived: `poll` returns without a message
      cases h
      refine .none rfl rfl ?_ (.inr (by rw [hpc]; exact ⟨rfl, rfl⟩))
      unfold passIn
      rw [hinput]
      split <;> first | rfl | contradiction
    next identity delimiter payload rest hinput =>
      cases h
      refine .pass (p := ⟨identity, delimiter, payload⟩) rfl hinput ?_ hpc rfl
      unfold passIn
      rw [hpc, hinput]
    -- one or two frames: `recv` waits for the next
    next => cases h
  next identity payload hpc =>
    obtain ⟨hinput, hnot⟩ := handle_input (Option.some.inj h)
    refine .handled rfl hinput (passIn_of_pc (by rw [hpc]; exact IoPc.noConfusion)) hpc ?_ hnot
    have hiff := handle_undefinedRead_iff s answer uninitialised identity payload
    rwa [Option.some.inj h] at hiff
  next hpc =>
    cases h
    exact .none rfl rfl (passIn_of_pc (by rw [hpc]; exact IoPc.noConfusion))
      (.inr (by rw [hpc]; exact ⟨rfl, rfl⟩))
  next hdrain =>
    obtain ⟨hinput, hcalm⟩ := drainOne_input hdrain (Option.some.inj h)
    exact .none rfl hinput (passIn_of_pc (by rw [hdrain]; decide))
      (.inr ⟨by rw [hdrain]; rfl, hcalm⟩)
  next => cases h
  next => cases h

theorem answer_input (s : EngineServer) (i : Nat) (req : TransactionRequest)
    (resp : TransactionResponse) :
    (s.answer i req resp).input = s.input ∧ (s.answer i req resp).pc = s.pc := by
  unfold EngineServer.answer
  split <;> exact ⟨rfl, rfl⟩

theorem step_takings {a : Action} (h : step s a = some (s', es)) : Takings s a s' := by
  cases a with
  | io answer uninitialised => exact ioStep_takings h
  | arrive frames =>
      cases h
      exact .arrive rfl rfl (passIn_of_same rfl) rfl
  | engineTake =>
      obtain ⟨r, -, heq⟩ := Option.map_eq_some_iff.mp h
      cases heq
      exact .none rfl rfl (passIn_of_same rfl) (.inl rfl)
  | engineReply i resp =>
      obtain ⟨req, -, heq⟩ := Option.map_eq_some_iff.mp h
      cases heq
      obtain ⟨hinput, hpc⟩ := answer_input s i req resp
      exact .none rfl hinput (passIn_of_same hpc) (.inl hpc)
  | stop =>
      cases h
      exact .none rfl rfl (passIn_of_same rfl) (.inl rfl)

end Steps

/-! ## §3. Every run. -/

/-- **No pass comes after one whose payload is cut short**: the payloads handled
so far were whole, but for the one that is dispatched next or was the last. -/
inductive Dispatching : IoPc → List Pass → Prop
  | between {pc : IoPc} {ps : List Pass} : pc.calm = true → (∀ p ∈ ps, Whole p.payload) →
      Dispatching pc ps
  | inHand {ps : List Pass} {p : Pass} : (∀ q ∈ ps, Whole q.payload) →
      Dispatching (.handle p.identity p.payload) (ps ++ [p])
  | died {ps : List Pass} {p : Pass} : (∀ q ∈ ps, Whole q.payload) → ¬ Whole p.payload →
      Dispatching .undefinedRead (ps ++ [p])

/-- A thread that neither dispatches nor has died has handled whole payloads. -/
theorem Dispatching.whole {pc : IoPc} {ps : List Pass} (h : Dispatching pc ps)
    (hcalm : pc.calm = true) : ∀ p ∈ ps, Whole p.payload := by
  cases h with
  | between _ hall => exact hall
  | inHand => cases hcalm
  | died => cases hcalm

/-- A thread that has died has taken a payload that is cut short. -/
theorem Dispatching.of_died {pc : IoPc} {ps : List Pass} (h : Dispatching pc ps)
    (hdied : pc = .undefinedRead) : ∃ p ∈ ps, ¬ Whole p.payload := by
  cases h with
  | between hcalm =>
      rw [hdied] at hcalm
      cases hcalm
  | inHand => cases hdied
  | @died _ p _ hcut => exact ⟨p, List.mem_append_right _ List.mem_cons_self, hcut⟩

/-- Only the last payload may be cut short. -/
theorem Dispatching.last {pc : IoPc} {ps : List Pass} (h : Dispatching pc ps)
    {before after : List Pass} {p : Pass} (hps : ps = before ++ p :: after)
    (hcut : ¬ Whole p.payload) : after = [] := by
  have hsplit : ∀ {qs : List Pass} {q : Pass}, (∀ q ∈ qs, Whole q.payload) →
      qs ++ [q] = before ++ p :: after → after = [] := by
    intro qs q hall heq
    by_contra hne
    -- in front of the last they are whole
    obtain ⟨rest, r, rfl⟩ := List.eq_nil_or_concat after |>.resolve_left hne
    rw [List.concat_eq_append, ← List.cons_append, ← List.append_assoc] at heq
    have hfront := (List.append_inj' heq rfl).1
    exact hcut (hall p (by rw [hfront]; exact List.mem_append_right _ List.mem_cons_self))
  cases h with
  | between _ hall =>
      exact absurd (hall p (by rw [hps]; exact List.mem_append_right _ List.mem_cons_self)) hcut
  | inHand hall => exact hsplit hall hps
  | died hall _ => exact hsplit hall hps

section Runs

variable {s s' : EngineServer} {a : Action} {as : List Action} {ps : List Pass}
  {u : Traced EngineServer Pass}

/-- **One step.** -/
theorem Dispatching.step (h : Dispatching s.pc ps) (ht : Takings s a s') :
    Dispatching s'.pc (ps ++ passIn s s') := by
  cases ht with
  | none _ _ hnone hpc =>
      rw [hnone, List.append_nil]
      rcases hpc with hsame | ⟨hbefore, hafter⟩
      · rw [hsame]
        exact h
      · exact .between hafter (h.whole hbefore)
  | arrive _ _ hnone hpc =>
      rw [hnone, List.append_nil, hpc]
      exact h
  | pass _ _ hone hpoll hpc =>
      rw [hone, hpc]
      exact .inHand (h.whole (by rw [hpoll]; rfl))
  | @handled identity payload _ _ hnone hpc hdies hnot =>
      rw [hnone, List.append_nil]
      rw [hpc] at h
      cases h with
      | between hcalm => cases hcalm
      | @inHand qs p hall =>
          -- the handler comes back to the loop exactly if the payload is whole
          by_cases hwhole : Whole p.payload
          · have hlives : s'.pc ≠ .undefinedRead := fun hdead => hdies.mp hdead hwhole
            refine .between ?_ ?_
            · cases hpc' : s'.pc with
              | handle i q => exact absurd hpc' (hnot i q)
              | undefinedRead => exact absurd hpc' hlives
              | loadRunning | poll | recordIdentity | drain | returned => rfl
            · intro q hq
              rcases List.mem_append.mp hq with hq | hq
              · exact hall q hq
              · rw [List.mem_singleton.mp hq]
                exact hwhole
          · rw [hdies.mpr hwhole]
            exact .died hall hwhole

theorem receivePass_inv (h : receivePass s a = some (s', ps)) :
    (∃ es, step s a = some (s', es)) ∧ ps = passIn s s' := by
  obtain ⟨⟨s₁, es⟩, hstep, heq⟩ := Option.map_eq_some_iff.mp h
  cases heq
  exact ⟨⟨es, hstep⟩, rfl⟩

/-- In every run. -/
theorem run_dispatching (h : run (traced receivePass) ⟨.started, []⟩ as = some u) :
    Dispatching u.state.pc u.trace := by
  refine traced_invariant (fun s ps => Dispatching s.pc ps) ?_ ?_ h
  · intro s tr a s' ps hs hstep
    obtain ⟨⟨es, hes⟩, rfl⟩ := receivePass_inv hstep
    exact hs.step (step_takings hes)
  · exact .between rfl (fun p hp => by cases hp)

/-- What a step does to the frames. -/
theorem takings_frames (ht : Takings s a s') :
    s.input ++ (a.arrival.toList).flatten =
      (passIn s s').flatMap Pass.frames ++ s'.input := by
  cases ht with
  | none ha hinput hnone _ | handled ha hinput hnone _ _ _ =>
      rw [ha, hinput, hnone]
      exact List.append_nil _
  | @arrive frames ha hinput hnone _ =>
      rw [ha, hinput, hnone]
      simp
  | @pass p ha hinput hone _ _ =>
      rw [ha, hinput, hone, List.flatMap_singleton]
      exact List.append_nil _

/-- **Nothing is lost and nothing changes its order**: the passes and the frames
that wait are the frames that arrived. -/
theorem run_frames {ms : List Multipart} (hms : Arrive as ms)
    (h : run (traced receivePass) ⟨.started, []⟩ as = some u) :
    stream ms = u.trace.flatMap Pass.frames ++ u.state.input := by
  have hstream : stream ms = (as.filterMap Action.arrival).flatten := by
    rw [hms]
    exact List.flatMap_def
  rw [hstream]
  clear hms hstream
  -- induction on the run, whose last step adds to what the others have done
  induction as using List.reverseRecOn generalizing u with
  | nil =>
      cases h
      rfl
  | append_singleton as a ih =>
      rw [run_snoc] at h
      obtain ⟨m, hm, hlast⟩ := Option.bind_eq_some_iff.mp h
      obtain ⟨ps, hstep, htrace⟩ := traced_eq_some.mp hlast
      obtain ⟨⟨es, hes⟩, rfl⟩ := receivePass_inv hstep
      have hone := takings_frames (step_takings hes)
      have harrival : [a].filterMap Action.arrival = a.arrival.toList := by
        cases ha : a.arrival <;> simp [ha]
      rw [List.filterMap_append, List.flatten_append, ih hm, harrival, htrace,
        List.flatMap_append, List.append_assoc, hone, List.append_assoc]

end Runs

/-! ## §4. Passes and messages. -/

/-- **Up to the first payload that is cut short the messages have two parts each**,
the last of all at most two, and behind that payload comes no well-formed message. -/
def InTurn : List Multipart → Prop
  | [] => True
  | m :: ms => m.parts.length ≤ 2 ∧ (ms ≠ [] → m.parts.length = 2) ∧ (m.Sound → InTurn ms) ∧
      (¬ m.Sound → ∀ m' ∈ ms, ¬ m'.IsWellFormed)

/-- Each pass has exactly the frames of one message, in its turn. -/
def OfMessages (ms : List Multipart) (ps : List Pass) : Prop :=
  ∀ before p after, ps = before ++ p :: after →
    ∃ earlier m later, ms = earlier ++ m :: later ∧
      before.flatMap Pass.frames = stream earlier ∧ p.frames = m.frames

/-- Each well-formed message is dispatched in its turn, with its own identity and
payload. -/
def Dispatched (ms : List Multipart) (ps : List Pass) : Prop :=
  ∀ earlier identity payload later, ms = earlier ++ .wellFormed identity payload :: later →
    ∃ before after, ps = before ++ ⟨identity, [], payload⟩ :: after ∧
      before.flatMap Pass.frames = stream earlier

/-- **The framing is aligned**: each pass has exactly the frames of one message,
and once nothing more will be received, each well-formed message has been
dispatched with its own identity and payload. -/
structure Aligned (ms : List Multipart) (u : Traced EngineServer Pass) : Prop where
  passes : OfMessages ms u.trace
  wellFormed : u.state.Settled → Dispatched ms u.trace

theorem flatMap_frames_of_map {done : List Multipart} {ps : List Pass}
    (h : done.map Multipart.frames = ps.map Pass.frames) :
    ps.flatMap Pass.frames = stream done := by
  rw [List.flatMap_def, ← h]
  rfl

/-- **Passes over messages in turn** are these messages, one after the other. -/
theorem InTurn.passes {ps : List Pass} {rest : List Bytes} {ms : List Multipart} (h : InTurn ms)
    (hstream : stream ms = ps.flatMap Pass.frames ++ rest)
    (hlast : ∀ before p after, ps = before ++ p :: after → ¬ Whole p.payload → after = []) :
    ∃ done left, ms = done ++ left ∧ done.map Multipart.frames = ps.map Pass.frames ∧
      ((∃ p ∈ ps, ¬ Whole p.payload) → ∀ m ∈ left, ¬ m.IsWellFormed) := by
  -- induction on the passes; each takes off a message of three frames
  induction ps generalizing ms with
  | nil => exact ⟨[], ms, rfl, rfl, fun hno => by obtain ⟨p, hp, -⟩ := hno; cases hp⟩
  | cons p ps ih =>
      have hlength := congrArg List.length hstream
      cases ms with
      | nil => simp [stream, Pass.frames] at hlength
      | cons m ms =>
          obtain ⟨hle, hinner, hsound, hcut⟩ := h
          rw [stream_cons, List.flatMap_cons, List.append_assoc] at hstream
          have htwo : m.parts.length = 2 := by
            by_cases hone : ms = []
            · -- the last message has the three frames of the pass
              rw [hone] at hlength
              simp [stream, Pass.frames, length_frames] at hlength
              omega
            · exact hinner hone
          obtain ⟨hframes, hrest⟩ := List.append_inj hstream (by rw [length_frames, htwo]; rfl)
          by_cases hwhole : Whole p.payload
          · obtain ⟨done, left, rfl, hdone, hleft⟩ :=
              ih (hsound ((sound_iff hframes.symm).mpr hwhole)) hrest (by
                intro before q after hps hq
                exact hlast (p :: before) q after (by rw [hps]; rfl) hq)
            refine ⟨m :: done, left, rfl, ?_, ?_⟩
            · rw [List.map_cons, List.map_cons, hframes, hdone]
            · intro hno
              obtain ⟨q, hq, hqcut⟩ := hno
              rcases List.mem_cons.mp hq with rfl | hq
              · exact absurd hwhole hqcut
              · exact hleft ⟨q, hq, hqcut⟩
          · -- the thread has died over this payload
            obtain rfl : ps = [] := hlast [] p ps rfl hwhole
            refine ⟨[m], ms, rfl, by rw [List.map_singleton, List.map_singleton, hframes], ?_⟩
            exact fun _ => hcut (fun hs => hwhole ((sound_iff hframes.symm).mp hs))

/-- Each message is in the stream. -/
theorem length_frames_le {ms : List Multipart} {m : Multipart} (h : m ∈ ms) :
    m.frames.length ≤ (stream ms).length := by
  obtain ⟨before, after, rfl⟩ := List.append_of_mem h
  rw [stream_append, stream_cons, List.length_append, List.length_append]
  omega

/-- **Messages in turn are aligned.** -/
theorem aligned_of_inTurn {ms : List Multipart} {as : List Action} {u : Traced EngineServer Pass}
    (hturn : InTurn ms) (hms : Arrive as ms)
    (h : run (traced receivePass) ⟨.started, []⟩ as = some u) : Aligned ms u := by
  have hframes := run_frames hms h
  have hdispatching := run_dispatching h
  obtain ⟨done, left, rfl, hdone, hleft⟩ := hturn.passes hframes
    (fun before p after hps hcut => hdispatching.last hps hcut)
  constructor
  · -- the passes are the messages `done`, so a pass splits them where it stands
    intro before p after htrace
    rw [htrace, List.map_append, List.map_cons] at hdone
    obtain ⟨earlier, rest, rfl, hearlier, hrest⟩ := List.map_eq_append_iff.mp hdone
    obtain ⟨m, later, rfl, hm, -⟩ := List.map_eq_cons_iff.mp hrest
    exact ⟨earlier, m, later ++ left, by simp, flatMap_frames_of_map hearlier, hm.symm⟩
  · intro hsettled earlier identity payload later hsplit
    -- none of the messages that are left is well-formed
    have hnone : ∀ m ∈ left, ¬ m.IsWellFormed := by
      rcases hsettled with hdied | hfew
      · exact hleft (hdispatching.of_died hdied)
      · intro m hm hwf
        rw [stream_append, flatMap_frames_of_map hdone] at hframes
        have hle := length_frames_le hm
        rw [List.append_cancel_left hframes, hwf.length] at hle
        omega
    have hnot : .wellFormed identity payload ∉ left := fun hm => hnone _ hm ⟨payload, rfl⟩
    -- so it is one of those that were received
    rcases List.append_eq_append_iff.mp hsplit with ⟨mid, -, hmid⟩ | ⟨mid, rfl, hrest⟩
    · exact absurd (by rw [hmid]; exact List.mem_append_right _ List.mem_cons_self) hnot
    · cases mid with
      | nil => exact absurd (by rw [← List.nil_append left, ← hrest]; exact List.mem_cons_self) hnot
      | cons m mid =>
          obtain ⟨rfl, -⟩ := List.cons.inj hrest
          rw [List.map_append, List.map_cons] at hdone
          obtain ⟨before, rest, htrace, hbefore, hrest⟩ := List.map_eq_append_iff.mp hdone.symm
          obtain ⟨p, after, rfl, hp, -⟩ := List.map_eq_cons_iff.mp hrest
          obtain rfl : p = ⟨identity, [], payload⟩ := Pass.frames_inj hp
          exact ⟨before, after, htrace, flatMap_frames_of_map hbefore.symm⟩

/-! ## §5. The condition is the exact one. -/

/-- What comes behind the first message is served behind the first pass. -/
theorem OfMessages.tail {ms : List Multipart} {m : Multipart} {ps : List Pass} {p : Pass}
    (h : OfMessages (m :: ms) (p :: ps)) (hp : p.frames = m.frames) : OfMessages ms ps := by
  intro before q after hps
  obtain ⟨earlier, m', later, hms, hbefore, hq⟩ := h (p :: before) q after (by rw [hps]; rfl)
  rw [List.flatMap_cons, hp] at hbefore
  cases earlier with
  | nil => cases hbefore
  | cons m₁ earlier =>
      obtain ⟨rfl, hrest⟩ := List.cons.inj hms
      rw [stream_cons] at hbefore
      exact ⟨earlier, m', later, hrest, List.append_cancel_left hbefore, hq⟩

theorem Dispatched.tail {ms : List Multipart} {m : Multipart} {ps : List Pass} {p : Pass}
    (h : Dispatched (m :: ms) (p :: ps)) (hp : p.frames = m.frames) : Dispatched ms ps := by
  intro earlier identity payload later hms
  obtain ⟨before, after, hps, hbefore⟩ :=
    h (m :: earlier) identity payload later (by rw [hms]; rfl)
  rw [stream_cons] at hbefore
  cases before with
  | nil => cases hbefore
  | cons p₁ before =>
      obtain ⟨rfl, hrest⟩ := List.cons.inj hps
      rw [List.flatMap_cons, hp] at hbefore
      exact ⟨before, after, hrest, List.append_cancel_left hbefore⟩

/-- A well-formed message that is served has a pass of its own. -/
theorem Dispatched.ne_nil {ms : List Multipart} {m : Multipart} {ps : List Pass}
    (h : Dispatched ms ps) (hm : m ∈ ms) (hwf : m.IsWellFormed) : ps ≠ [] := by
  obtain ⟨identity, parts, sent⟩ := m
  obtain ⟨payload, rfl⟩ := hwf
  obtain ⟨earlier, later, hms⟩ := List.append_of_mem hm
  obtain ⟨before, after, rfl, -⟩ := h earlier identity payload later hms
  exact List.append_ne_nil_of_right_ne_nil _ (List.cons_ne_nil _ _)

/-- **Only messages in turn are aligned**, when all was received that can be. -/
theorem inTurn_of {ms : List Multipart} {ps : List Pass} {rest : List Bytes}
    (hof : OfMessages ms ps) (hdispatched : Dispatched ms ps)
    (hstream : stream ms = ps.flatMap Pass.frames ++ rest)
    (hlast : ∀ before p after, ps = before ++ p :: after → ¬ Whole p.payload → after = [])
    (hend : (∃ p ∈ ps, ¬ Whole p.payload) ∨ rest.length < 3) : InTurn ms := by
  -- induction on the passes; each takes off the first message
  induction ps generalizing ms with
  | nil =>
      have hfew : rest.length < 3 := by
        rcases hend with ⟨p, hp, -⟩ | hfew
        · cases hp
        · exact hfew
      cases ms with
      | nil => trivial
      | cons m ms =>
          -- fewer than three frames are one message of one part
          obtain rfl : stream (m :: ms) = rest := hstream
          rw [stream_cons, List.length_append, length_frames] at hfew
          have hpos := parts_pos m
          cases ms with
          | nil =>
              refine ⟨by omega, fun hne => absurd rfl hne, fun _ => trivial, ?_⟩
              intro _ m' hm'
              cases hm'
          | cons m' ms =>
              have hpos' := parts_pos m'
              rw [stream_cons, List.length_append, length_frames] at hfew
              omega
  | cons p ps ih =>
      obtain ⟨earlier, m, later, rfl, hearlier, hp⟩ := hof [] p ps rfl
      obtain rfl := stream_eq_nil.mp hearlier.symm
      rw [List.nil_append] at *
      have htwo : m.parts.length = 2 := by
        have hlength := congrArg List.length hp
        rw [length_frames] at hlength
        exact (Nat.succ.inj hlength).symm
      refine ⟨htwo.le, fun _ => htwo, ?_, ?_⟩
      · intro hsound
        have hwhole := (sound_iff hp).mp hsound
        rw [stream_cons, List.flatMap_cons, hp, List.append_assoc] at hstream
        refine ih (hof.tail hp) (hdispatched.tail hp) (List.append_cancel_left hstream) ?_ ?_
        · intro before q after hps hq
          exact hlast (p :: before) q after (by rw [hps]; rfl) hq
        · rcases hend with ⟨q, hq, hcut⟩ | hfew
          · rcases List.mem_cons.mp hq with rfl | hq
            · exact absurd hwhole hcut
            · exact .inl ⟨q, hq, hcut⟩
          · exact .inr hfew
      · intro hcut m' hm' hwf
        -- the thread has died, and a message behind would have no pass
        have hnil : ps = [] := hlast [] p ps rfl (fun hwhole => hcut ((sound_iff hp).mpr hwhole))
        exact (hdispatched.tail hp).ne_nil hm' hwf hnil

/-! ## §6. The thread receives what it can. -/

/-- The steps from a place of the loop to the next message, but for the replies. -/
def IoPc.ahead : IoPc → Nat
  | .loadRunning => 1
  | .poll => 0
  | .handle _ _ => 4
  | .recordIdentity _ _ => 3
  | .drain => 2
  | .returned => 0
  | .undefinedRead => 0

/-- What the I/O thread has before it: the frames, the replies, and the steps to
the next message. -/
def EngineServer.ahead (s : EngineServer) : Nat :=
  2 * s.input.length + s.replyQueue.items.length + s.pc.ahead

section Alone

variable {s s' : EngineServer} {es : List Event}

theorem handle_ahead {answer : Bytes} {uninitialised : Uuid} {identity payload : Bytes}
    (h : s.handle answer uninitialised identity payload = (s', es)) :
    s'.running = s.running ∧ s'.replyQueue = s.replyQueue ∧ s'.pc.ahead < 4 ∧
      s'.pc ≠ .returned := by
  unfold EngineServer.handle EngineServer.handleRequest at h
  repeat' split at h
  all_goals
    cases h
    exact ⟨rfl, rfl, by simp [IoPc.ahead], by simp⟩

theorem drainOne_ahead (hpc : s.pc = .drain) (h : s.drainOne = (s', es)) :
    s'.running = s.running ∧ s'.pc ≠ .returned ∧ s'.ahead < s.ahead := by
  unfold EngineServer.drainOne at h
  split at h
  next =>
    cases h
    refine ⟨rfl, by simp, ?_⟩
    simp [EngineServer.ahead, IoPc.ahead, hpc]
  next envelope q hq =>
    have hlength : s.replyQueue.items.length = q.items.length + 1 := by
      rw [Fifo.Bounded.dequeue_eq_some hq, List.length_cons]
    dsimp only at h
    split at h
    all_goals
      cases h
      refine ⟨rfl, by simp [hpc], ?_⟩
      simp [EngineServer.ahead, hlength]

/-- **A thread that may receive more comes nearer to it.** -/
theorem ioStep_ahead (hrunning : s.running = true) (hpc : s.pc ≠ .returned) (hmore : ¬ s.Settled)
    (answer : Bytes) (uninitialised : Uuid) :
    ∃ s' es, s.ioStep answer uninitialised = some (s', es) ∧ s'.running = true ∧
      s'.pc ≠ .returned ∧ s'.ahead < s.ahead := by
  obtain ⟨hlives, hframes⟩ := not_or.mp hmore
  unfold EngineServer.ioStep
  split
  next hload =>
    rw [if_pos hrunning]
    refine ⟨_, _, rfl, hrunning, by simp, ?_⟩
    simp [EngineServer.ahead, IoPc.ahead, hload]
  next hpoll =>
    have hthree : ∃ identity delimiter payload rest,
        s.input = identity :: delimiter :: payload :: rest := by
      rcases hinput : s.input with _ | ⟨identity, _ | ⟨delimiter, _ | ⟨payload, rest⟩⟩⟩
      · simp [hinput] at hframes
      · simp [hinput] at hframes
      · simp [hinput] at hframes
      · exact ⟨identity, delimiter, payload, rest, rfl⟩
    obtain ⟨identity, delimiter, payload, rest, hinput⟩ := hthree
    rw [hinput]
    refine ⟨_, _, rfl, hrunning, by simp, ?_⟩
    simp only [EngineServer.ahead, IoPc.ahead, hpoll, hinput, List.length_cons]
    omega
  next identity payload hhandle =>
    rcases hreturns : s.handle answer uninitialised identity payload with ⟨s', es⟩
    obtain ⟨hflag, hreplies, hahead, hgoes⟩ := handle_ahead hreturns
    obtain ⟨hinput, -⟩ := handle_input hreturns
    refine ⟨s', es, rfl, hflag.trans hrunning, hgoes, ?_⟩
    rw [EngineServer.ahead, EngineServer.ahead, hreplies, hinput, hhandle]
    exact Nat.add_lt_add_left hahead _
  next hrecord =>
    refine ⟨_, _, rfl, hrunning, by simp, ?_⟩
    simp [EngineServer.ahead, IoPc.ahead, hrecord]
  next hdrain =>
    obtain ⟨hflag, hgoes, hahead⟩ := drainOne_ahead hdrain rfl
    exact ⟨_, _, rfl, hflag.trans hrunning, hgoes, hahead⟩
  next hreturned => exact absurd hreturned hpc
  next hdead => exact absurd hdead hlives

/-- **The I/O thread settles**, without anyone else, when it was not told to stop. -/
theorem settles (ps : List Pass) (hrunning : s.running = true) (hpc : s.pc ≠ .returned) :
    ∃ n u, run (traced receivePass) ⟨s, ps⟩ (List.replicate n (.io [] Uuid.zero)) = some u ∧
      u.state.Settled := by
  -- induction on what the thread has before it
  induction hahead : s.ahead using Nat.strong_induction_on generalizing s ps with
  | _ k ih =>
      by_cases hsettled : s.Settled
      · exact ⟨0, ⟨s, ps⟩, rfl, hsettled⟩
      · obtain ⟨s', es, hstep, hrunning', hpc', hlt⟩ :=
          ioStep_ahead hrunning hpc hsettled [] Uuid.zero
        obtain ⟨n, u, hrun, hdone⟩ :=
          ih _ (hahead ▸ hlt) (ps ++ passIn s s') hrunning' hpc' rfl
        have hreceive : receivePass s (.io [] Uuid.zero) = some (s', passIn s s') := by
          rw [receivePass, show step s (.io [] Uuid.zero) = some (s', es) from hstep]
          rfl
        refine ⟨n + 1, u, ?_, hdone⟩
        rw [List.replicate_succ, run_traced_cons hreceive]
        exact hrun

end Alone

/-- The messages arrive before the thread looks. -/
theorem run_arrivals (ms : List Multipart) (s : EngineServer) :
    run (traced receivePass) ⟨s, []⟩ (ms.map (fun m => .arrive m.frames)) =
      some ⟨{ s with input := s.input ++ stream ms }, []⟩ := by
  induction ms generalizing s with
  | nil => simp [stream, run]
  | cons m ms ih =>
      have hreceive : receivePass s (.arrive m.frames) =
          some ({ s with input := s.input ++ m.frames }, []) := by
        have hnone : passIn s { s with input := s.input ++ m.frames } = [] := passIn_of_same rfl
        show some (_, passIn s { s with input := s.input ++ m.frames }) = _
        rw [hnone]
      rw [List.map_cons, run_traced_cons hreceive, List.append_nil, ih, stream_cons,
        List.append_assoc]

/-- There is a run in which the messages arrive and the thread settles. -/
theorem settled_run (ms : List Multipart) :
    ∃ as u, Arrive as ms ∧ run (traced receivePass) ⟨.started, []⟩ as = some u ∧
      u.state.Settled := by
  obtain ⟨n, u, hrun, hsettled⟩ :=
    settles (s := { EngineServer.started with input := stream ms }) [] rfl IoPc.noConfusion
  refine ⟨ms.map (fun m => .arrive m.frames) ++ List.replicate n (.io [] Uuid.zero), u, ?_, ?_,
    hsettled⟩
  · rw [Arrive, List.filterMap_append, List.filterMap_map]
    have hsilent : (List.replicate n (Action.io [] Uuid.zero)).filterMap Action.arrival = [] := by
      simp [Action.arrival]
    rw [hsilent, List.append_nil]
    exact congrFun List.filterMap_eq_map ms
  · rw [run_append, run_arrivals]
    exact hrun

/-- **The framing stays aligned exactly for messages in turn**, over every run of
the server in which they arrive. -/
theorem aligned_iff (ms : List Multipart) :
    (∀ as u, Arrive as ms → run (traced receivePass) ⟨.started, []⟩ as = some u → Aligned ms u) ↔
      InTurn ms := by
  constructor
  · intro haligned
    -- one run in which all is received that can be decides it
    obtain ⟨as, u, hms, hrun, hsettled⟩ := settled_run ms
    have hu := haligned as u hms hrun
    have hdispatching := run_dispatching hrun
    refine inTurn_of hu.passes (hu.wellFormed hsettled) (run_frames hms hrun)
      (fun before p after hps hcut => hdispatching.last hps hcut) ?_
    rcases hsettled with hdied | hfew
    · exact .inl (hdispatching.of_died hdied)
    · exact .inr hfew
  · intro hturn as u hms hrun
    exact aligned_of_inTurn hturn hms hrun

/-- A client sends a single part, and another keeps to the format: the payload
that is dispatched is the identity of the second. -/
def onePart : List Multipart :=
  [⟨[1], [[9]], List.cons_ne_nil _ _⟩,
    .wellFormed [0x55] (MSG_METRICS_REQUEST :: List.replicate 16 0)]

def onePartRun : List Action :=
  onePart.map (fun m => .arrive m.frames) ++ List.replicate 5 (.io [] Uuid.zero)

/-- The identity is no message type; the thread goes on, and waits with the two
frames that are left of the well-formed message. -/
theorem onePart_misaligned :
    ∃ u, run (traced receivePass) ⟨.started, []⟩ onePartRun = some u ∧ Arrive onePartRun onePart ∧
      u.trace = [⟨[1], [9], [0x55]⟩] ∧ u.state.pc = .poll ∧
      u.state.input = [[], MSG_METRICS_REQUEST :: List.replicate 16 0] ∧
      ¬ Aligned onePart u := by
  refine ⟨_, rfl, rfl, rfl, rfl, rfl, ?_⟩
  intro haligned
  obtain ⟨before, after, htrace, -⟩ := haligned.wellFormed (.inr (by decide))
    [⟨[1], [[9]], List.cons_ne_nil _ _⟩] [0x55] (MSG_METRICS_REQUEST :: List.replicate 16 0) [] rfl
  have hmem : (⟨[0x55], [], MSG_METRICS_REQUEST :: List.replicate 16 0⟩ : Pass) ∈
      [(⟨[1], [9], [0x55]⟩ : Pass)] := by
    have htrace' : [(⟨[1], [9], [0x55]⟩ : Pass)] = before ++ _ :: after := htrace
    rw [htrace']
    exact List.mem_append_right _ List.mem_cons_self
  exact absurd hmem (by decide)

end ZeroLGR.Server
