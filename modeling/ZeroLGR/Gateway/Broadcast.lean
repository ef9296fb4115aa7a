/-
  ZeroLGR.Gateway.Broadcast — `WSBroadcaster` of gateway/ws_streamer.py.

  `broadcast` goes over the set of clients and awaits a send to each.  At every
  `await` others connect, disconnect and broadcast.  CPython goes on with a loop
  over a set as long as the set has as many members as when the loop began, and
  raises `RuntimeError` as soon as it has not.

    • `Broadcast`, `WSBroadcaster`, `WSBroadcaster.step` — the machine,
    • `Steady` — the condition at one step: a loop that goes on finds as many
      clients as at its beginning, and a rebuilt set keeps them on their sides,
    • `Delivered` — what a broadcast has done when it returns,
    • `broadcast_delivers` — under the condition no broadcast raises, and each
      delivers,
    • `connectDuring_raises` — a client that connects meanwhile.
-/
import ZeroLGR.Lib.SlotTable
import ZeroLGR.Lib.Transition

namespace ZeroLGR.Gateway

open Transition SlotTable

variable {Client : Type} [DecidableEq Client]

/-! ## §1. The machine. -/

/-- Where a broadcast stands: at the head of its loop, in a send, or at its end. -/
inductive LoopPc (Client : Type) where
  | head
  | sending (ws : Client)
  | returned
  | raised
  deriving DecidableEq

/-- A broadcast with its loop: how many clients there were at its beginning, the
position, and the local variable `disconnected`. -/
structure Broadcast (Client : Type) where
  used : Nat
  pos : Nat
  disconnected : List Client
  pc : LoopPc Client
  deriving DecidableEq

/-- `WSBroadcaster`, with the broadcasts that have begun. -/
structure WSBroadcaster (Client : Type) where
  clients : Table Client
  broadcasts : List (Broadcast Client)

/-- The new broadcaster; a new set has eight slots. -/
def WSBroadcaster.started : WSBroadcaster Client := ⟨.empty 8, []⟩

/-- What is seen of broadcast number `b`: it sends to a client, and a send fails. -/
inductive WSBroadcaster.Event (Client : Type) where
  | sends (b : Nat) (ws : Client)
  | failed (b : Nat) (ws : Client)
  deriving DecidableEq

/-- A client connects, and this becomes of the set; a client disconnects; a
broadcast begins; the send of a broadcast returns, or raises. -/
inductive WSBroadcaster.Action (Client : Type) where
  | connect (ws : Client) (clients : Table Client)
  | disconnect (ws : Client)
  | broadcast
  | sent (b : Nat) (raises : Bool)

/-- The loop of broadcast number `b` takes the next client, or ends. -/
def Broadcast.next (bc : Broadcast Client) (clients : Table Client) (b : Nat) :
    Table Client × Broadcast Client × List (WSBroadcaster.Event Client) :=
  -- RuntimeError: Set changed size during iteration
  if clients.used ≠ bc.used then (clients, { bc with pc := .raised }, [])
  else
    match clients.next bc.pos with
    | some (ws, pos) => (clients, { bc with pos := pos, pc := .sending ws }, [.sends b ws])
    | none => (clients.discardAll bc.disconnected, { bc with pc := .returned }, [])

/-- `except Exception: disconnected.add(ws)`. -/
def Broadcast.noted (bc : Broadcast Client) (ws : Client) (raises : Bool) : Broadcast Client :=
  if raises = true then { bc with disconnected := ws :: bc.disconnected } else bc

/-- A broadcast at its beginning. -/
def Broadcast.begun (clients : Table Client) : Broadcast Client := ⟨clients.used, 0, [], .head⟩

/-- One step of anybody. -/
def WSBroadcaster.step (s : WSBroadcaster Client) : WSBroadcaster.Action Client →
    Option (WSBroadcaster Client × List (WSBroadcaster.Event Client))
  | .connect ws clients =>
      if Adds s.clients ws clients then some ({ s with clients := clients }, []) else none
  | .disconnect ws => some ({ s with clients := s.clients.discard ws }, [])
  | .broadcast =>
      let r := (Broadcast.begun s.clients).next s.clients s.broadcasts.length
      some (⟨r.1, s.broadcasts ++ [r.2.1]⟩, r.2.2)
  | .sent b raises =>
      (s.broadcasts[b]?).bind fun bc =>
        match bc.pc with
        | .sending ws =>
            let r := (bc.noted ws raises).next s.clients b
            some (⟨r.1, s.broadcasts.set b r.2.1⟩,
              (if raises = true then [.failed b ws] else []) ++ r.2.2)
        | _ => none

/-! ## §2. What is to hold. -/

/-- The broadcast is under way. -/
def WSBroadcaster.InProgress (s : WSBroadcaster Client) (b : Nat) : Prop :=
  ∃ bc ws, s.broadcasts[b]? = some bc ∧ bc.pc = .sending ws

/-- The broadcast has returned. -/
def WSBroadcaster.Returned (s : WSBroadcaster Client) (b : Nat) : Prop :=
  ∃ bc, s.broadcasts[b]? = some bc ∧ bc.pc = .returned

/-- **What a broadcast has done when it returns**: it has sent once to each client
that was connected all the time, and has taken out those whose send failed, and
no others. -/
structure Delivered (stays : Client → Prop) (b : Nat)
    (t t' : Traced (WSBroadcaster Client) (WSBroadcaster.Event Client)) : Prop where
  once : ∀ ws ∈ t.state.clients, stays ws → t'.trace.count (.sends b ws) = 1
  removed : ∀ ws, .failed b ws ∈ t'.trace → ws ∉ t'.state.clients
  kept : ∀ ws, .failed b ws ∉ t'.trace → (ws ∈ t'.state.clients ↔ ws ∈ t.state.clients)

/-- The send of the broadcast may return or raise, and then the broadcast returns,
or its loop stands at a later slot. -/
def WSBroadcaster.Advances (s : WSBroadcaster Client) (b pos : Nat) : Prop :=
  ∀ raises, ∃ s' es, s.step (.sent b raises) = some (s', es) ∧ (s'.Returned b ∨
    ∃ bc' ws', s'.broadcasts[b]? = some bc' ∧ bc'.pc = .sending ws' ∧ pos < bc'.pos ∧
      bc'.pos ≤ s'.clients.slots.length)

/-- The condition, at one step: a broadcast whose send has ended finds as many
clients as at its beginning; and if a client is put in, those that are there stay
on their side of the position of every loop. -/
structure Steady (s : WSBroadcaster Client) (a : WSBroadcaster.Action Client) : Prop where
  size : ∀ (b : Nat) (raises : Bool) (bc : Broadcast Client), a = .sent b raises →
    s.broadcasts[b]? = some bc → s.clients.used = bc.used
  sides : ∀ (ws : Client) (clients : Table Client), a = .connect ws clients →
    ∀ (b : Nat) (bc : Broadcast Client) (ws' : Client), s.broadcasts[b]? = some bc →
      bc.pc = .sending ws' → ∀ x ∈ s.clients, (s.clients.Before bc.pos x ↔ clients.Before bc.pos x)

/-! ## §3. Steps. -/

section Steps

variable {s s' : WSBroadcaster Client} {a : WSBroadcaster.Action Client}
  {es : List (WSBroadcaster.Event Client)}

/-- **A loop that finds as many clients as at its beginning** takes one from
behind its position, or ends. -/
theorem next_cases {bc : Broadcast Client} {clients : Table Client} {b : Nat}
    (hsize : clients.used = bc.used) :
    (∃ ws pos, clients.next bc.pos = some (ws, pos) ∧ bc.next clients b =
        (clients, { bc with pos := pos, pc := .sending ws }, [.sends b ws])) ∨
      clients.next bc.pos = none ∧ bc.next clients b =
        (clients.discardAll bc.disconnected, { bc with pc := .returned }, []) := by
  unfold Broadcast.next
  rw [if_neg (not_not_intro hsize)]
  cases hnext : clients.next bc.pos with
  | none => exact .inr ⟨rfl, rfl⟩
  | some r => exact .inl ⟨r.1, r.2, rfl, rfl⟩

theorem next_events {bc : Broadcast Client} {clients : Table Client} {b : Nat} :
    ∀ e ∈ (bc.next clients b).2.2, ∃ ws, e = .sends b ws := by
  intro e he
  unfold Broadcast.next at he
  split at he
  · cases he
  · split at he
    next ws pos hnext => exact ⟨ws, List.mem_singleton.mp he⟩
    next => cases he

omit [DecidableEq Client] in
@[simp] theorem noted_used (bc : Broadcast Client) (ws : Client) (raises : Bool) :
    (bc.noted ws raises).used = bc.used := by
  unfold Broadcast.noted
  split
  · rfl
  · rfl

omit [DecidableEq Client] in
@[simp] theorem noted_pos (bc : Broadcast Client) (ws : Client) (raises : Bool) :
    (bc.noted ws raises).pos = bc.pos := by
  unfold Broadcast.noted
  split
  · rfl
  · rfl

omit [DecidableEq Client] in
theorem mem_noted {bc : Broadcast Client} {ws x : Client} {raises : Bool} :
    x ∈ (bc.noted ws raises).disconnected ↔ x = ws ∧ raises = true ∨ x ∈ bc.disconnected := by
  unfold Broadcast.noted
  split
  next h => simp [h]
  next h => simp [h]

/-- Broadcast number `b` has its turn: its loop, which stands at `bc` by then, goes
on.  The events `earlier` come before that. -/
structure Turn (s : WSBroadcaster Client) (b : Nat) (bc : Broadcast Client)
    (earlier : List (WSBroadcaster.Event Client)) (s' : WSBroadcaster Client)
    (es : List (WSBroadcaster.Event Client)) : Prop where
  others : ∀ j, j ≠ b → s'.broadcasts[j]? = s.broadcasts[j]?
  own : s'.broadcasts[b]? = some (bc.next s.clients b).2.1
  clients : s'.clients = (bc.next s.clients b).1
  events : es = earlier ++ (bc.next s.clients b).2.2
  earlier : ∀ e ∈ earlier, ∃ ws, e = .failed b ws

theorem set_of_connect {ws : Client} {clients : Table Client}
    (h : s.step (.connect ws clients) = some (s', es)) :
    s' = { s with clients := clients } ∧ es = [] := by
  unfold WSBroadcaster.step at h
  dsimp only at h
  split at h
  · cases h
    exact ⟨rfl, rfl⟩
  · cases h

theorem turn_of_broadcast (h : s.step .broadcast = some (s', es)) :
    Turn s s.broadcasts.length (.begun s.clients) [] s' es := by
  cases h
  refine ⟨?_, List.getElem?_concat_length, rfl, rfl, fun e he => (by cases he)⟩
  intro j hj
  show (s.broadcasts ++ [_])[j]? = _
  rcases Nat.lt_or_gt_of_ne hj with hlt | hgt
  · exact List.getElem?_append_left hlt
  · rw [List.getElem?_eq_none (by rw [List.length_append]; exact hgt),
      List.getElem?_eq_none (Nat.le_of_lt hgt)]

theorem turn_of_sent {b : Nat} {raises : Bool} (h : s.step (.sent b raises) = some (s', es)) :
    ∃ bc ws, s.broadcasts[b]? = some bc ∧ bc.pc = .sending ws ∧
      Turn s b (bc.noted ws raises) (if raises = true then [.failed b ws] else []) s' es := by
  obtain ⟨bc, hbc, h⟩ := Option.bind_eq_some_iff.mp h
  split at h
  next ws hpc =>
    cases h
    have hlt := (List.getElem?_eq_some_iff.mp hbc).1
    refine ⟨bc, ws, hbc, hpc, ?_, List.getElem?_set_self hlt, rfl, rfl, ?_⟩
    · exact fun j hj => List.getElem?_set_ne (Ne.symm hj)
    · intro e he
      split at he
      · exact ⟨ws, List.mem_singleton.mp he⟩
      · cases he
  next => cases h

end Steps

/-! ## §4. The invariants. -/

section Invariants

variable {s s' : WSBroadcaster Client} {tr es earlier : List (WSBroadcaster.Event Client)}
  {b : Nat} {bc : Broadcast Client} {x : Client}

/-- No broadcast has raised, and what is on record of each of them. -/
structure Recorded (s : WSBroadcaster Client) (tr : List (WSBroadcaster.Event Client)) : Prop where
  raised : ∀ (b : Nat) (bc : Broadcast Client), s.broadcasts[b]? = some bc → bc.pc ≠ .raised
  listed : ∀ (b : Nat) (bc : Broadcast Client), s.broadcasts[b]? = some bc →
    ∀ ws, ws ∈ bc.disconnected ↔ .failed b ws ∈ tr
  fresh : ∀ (b : Nat), s.broadcasts.length ≤ b → ∀ ws, .failed b ws ∉ tr ∧ .sends b ws ∉ tr

theorem Turn.events_own (ht : Turn s b bc earlier s' es) :
    ∀ e ∈ es, ∃ ws, e = .failed b ws ∨ e = .sends b ws := by
  intro e he
  rw [ht.events, List.mem_append] at he
  rcases he with he | he
  · obtain ⟨ws, hws⟩ := ht.earlier e he
    exact ⟨ws, .inl hws⟩
  · obtain ⟨ws, hws⟩ := next_events e he
    exact ⟨ws, .inr hws⟩

/-- Nothing is seen of another broadcast. -/
theorem Turn.quiet {j : Nat} (ht : Turn s b bc earlier s' es) (hj : j ≠ b) (ws : Client) :
    .failed j ws ∉ es ∧ .sends j ws ∉ es := by
  constructor
  · intro he
    obtain ⟨ws', heq | heq⟩ := ht.events_own _ he
    · cases heq
      exact hj rfl
    · cases heq
  · intro he
    obtain ⟨ws', heq | heq⟩ := ht.events_own _ he
    · cases heq
    · cases heq
      exact hj rfl

/-- Where the broadcast stands after its turn. -/
theorem Turn.goesOn (ht : Turn s b bc earlier s' es) (hsize : s.clients.used = bc.used) :
    ∃ bc', s'.broadcasts[b]? = some bc' ∧ bc'.disconnected = bc.disconnected ∧
      bc'.pc ≠ .raised := by
  refine ⟨_, ht.own, ?_⟩
  rcases next_cases hsize with ⟨ws, pos, -, heq⟩ | ⟨-, heq⟩
  · rw [heq]
    exact ⟨rfl, by simp⟩
  · rw [heq]
    exact ⟨rfl, by simp⟩

/-- **A turn keeps the record.** -/
theorem Recorded.turn (h : Recorded s tr) (ht : Turn s b bc earlier s' es)
    (hsize : s.clients.used = bc.used)
    (hlisted : ∀ ws, ws ∈ bc.disconnected ↔ .failed b ws ∈ tr ++ earlier) :
    Recorded s' (tr ++ es) := by
  obtain ⟨bc', hbc', hdisconnected, hpc⟩ := ht.goesOn hsize
  refine ⟨?_, ?_, ?_⟩
  · intro j bcj hj
    by_cases hjb : j = b
    · rw [hjb, hbc'] at hj
      cases hj
      exact hpc
    · rw [ht.others j hjb] at hj
      exact h.raised j bcj hj
  · intro j bcj hj ws
    by_cases hjb : j = b
    · subst hjb
      rw [hbc'] at hj
      cases hj
      have hnot : .failed j ws ∉ (bc.next s.clients j).2.2 := by
        intro he
        obtain ⟨ws', heq⟩ := next_events _ he
        cases heq
      rw [hdisconnected, hlisted, ht.events, ← List.append_assoc]
      exact ⟨List.mem_append_left _, fun he => (List.mem_append.mp he).resolve_right hnot⟩
    · rw [ht.others j hjb] at hj
      rw [h.listed j bcj hj, List.mem_append]
      exact ⟨.inl, fun hor => hor.resolve_right (ht.quiet hjb ws).1⟩
  · intro j hj ws
    have hjb : j ≠ b := by
      intro heq
      rw [heq] at hj
      exact absurd (List.getElem?_eq_some_iff.mp hbc').1 (Nat.not_lt.mpr hj)
    have hold : s.broadcasts.length ≤ j := by
      have hnone := List.getElem?_eq_none hj
      rw [ht.others j hjb] at hnone
      exact List.getElem?_eq_none_iff.mp hnone
    have hquiet := ht.quiet hjb ws
    simp only [List.mem_append, not_or]
    exact ⟨⟨(h.fresh j hold ws).1, hquiet.1⟩, (h.fresh j hold ws).2, hquiet.2⟩

omit [DecidableEq Client] in
/-- The members change, and no broadcast has its turn. -/
theorem Recorded.members (h : Recorded s tr) (clients : Table Client) :
    Recorded { s with clients := clients } (tr ++ []) := by
  rw [List.append_nil]
  exact ⟨h.raised, h.listed, h.fresh⟩

omit [DecidableEq Client] in
/-- A loop at its beginning has noted nobody, and has sent to nobody. -/
theorem Recorded.listed_begun (h : Recorded s tr) (ws : Client) :
    ws ∈ (Broadcast.begun s.clients).disconnected ↔ .failed s.broadcasts.length ws ∈ tr ++ [] := by
  rw [List.append_nil]
  exact iff_of_false List.not_mem_nil (h.fresh _ (Nat.le_refl _) ws).1

/-- A broadcast that begins has sent to nobody. -/
theorem Recorded.count_begun (h : Recorded s tr) (x : Client) :
    tr.count (.sends s.broadcasts.length x) =
      if s.clients.Before (Broadcast.begun s.clients).pos x then 1 else 0 := by
  show _ = if s.clients.Before 0 x then 1 else 0
  rw [if_neg not_before_zero, List.count_eq_zero]
  exact (h.fresh _ (Nat.le_refl _) x).2

omit [DecidableEq Client] in
theorem Recorded.listed_noted (h : Recorded s tr) (hbc : s.broadcasts[b]? = some bc) (ws : Client)
    (raises : Bool) (x : Client) : x ∈ (bc.noted ws raises).disconnected ↔
      .failed b x ∈ tr ++ if raises = true then [.failed b ws] else [] := by
  rw [mem_noted, List.mem_append, h.listed b bc hbc x]
  cases raises with
  | true => simp [or_comm]
  | false => simp

/-- **One step** keeps the record. -/
theorem Recorded.step {a : WSBroadcaster.Action Client} (h : Recorded s tr)
    (hstep : s.step a = some (s', es)) (hsteady : Steady s a) : Recorded s' (tr ++ es) := by
  cases a with
  | connect ws clients =>
      obtain ⟨rfl, rfl⟩ := set_of_connect hstep
      exact h.members clients
  | disconnect ws =>
      cases hstep
      exact h.members _
  | broadcast => exact h.turn (turn_of_broadcast hstep) rfl h.listed_begun
  | sent b raises =>
      obtain ⟨bc, ws, hbc, -, hturn⟩ := turn_of_sent hstep
      refine h.turn hturn ?_ (h.listed_noted hbc ws raises)
      rw [noted_used]
      exact hsteady.size b raises bc rfl hbc

/-- While the broadcast is under way, it has sent once to the client if that stands
before its position, and else not at all. -/
def Served (b : Nat) (x : Client) (s : WSBroadcaster Client)
    (tr : List (WSBroadcaster.Event Client)) : Prop :=
  ∀ (bc : Broadcast Client) (ws : Client), s.broadcasts[b]? = some bc → bc.pc = .sending ws →
    x ∈ s.clients → tr.count (.sends b x) = if s.clients.Before bc.pos x then 1 else 0

theorem Turn.count_earlier (ht : Turn s b bc earlier s' es) (j : Nat) (x : Client) :
    earlier.count (.sends j x) = 0 := by
  rw [List.count_eq_zero]
  intro he
  obtain ⟨ws, heq⟩ := ht.earlier _ he
  cases heq

/-- **A turn of the broadcast itself.** -/
theorem Served.own (ht : Turn s b bc earlier s' es) (hsize : s.clients.used = bc.used)
    (hbefore : x ∈ s.clients →
      tr.count (.sends b x) = if s.clients.Before bc.pos x then 1 else 0) :
    Served b x s' (tr ++ es) := by
  intro bc' ws hbc' hpc hx
  have hown := ht.own
  have hclients := ht.clients
  have hes := ht.events
  rcases next_cases hsize with ⟨ws', pos, hnext, heq⟩ | ⟨-, heq⟩
  · rw [heq] at hown hclients hes
    rw [hown] at hbc'
    cases hbc'
    rw [hclients] at hx ⊢
    obtain ⟨hbehind, -, -, hiff⟩ := next_some hnext
    rw [hes, List.count_append, List.count_append, ht.count_earlier, hbefore hx]
    by_cases hxw : x = ws'
    · subst hxw
      have hnot : ¬ s.clients.Before bc.pos x := fun h => h.not_behind hbehind
      rw [if_neg hnot, if_pos ((hiff x).mpr (.inr rfl))]
      simp
    · have hsame : s.clients.Before pos x ↔ s.clients.Before bc.pos x := by
        rw [hiff x]
        exact or_iff_left hxw
      have hother : [WSBroadcaster.Event.sends b ws'].count (.sends b x) = 0 := by
        simp [Ne.symm hxw]
      simp only [hsame, hother, Nat.add_zero]
  · rw [heq] at hown
    rw [hown] at hbc'
    cases hbc'
    cases hpc

/-- **A turn of another broadcast**, which may take clients out at its end. -/
theorem Served.other {j : Nat} (h : Served j x s tr) (ht : Turn s b bc earlier s' es)
    (hsize : s.clients.used = bc.used) (hj : j ≠ b) : Served j x s' (tr ++ es) := by
  intro bc' ws hbc' hpc hx
  rw [ht.others j hj] at hbc'
  have hcount : es.count (.sends j x) = 0 := List.count_eq_zero.mpr (ht.quiet hj x).2
  have hclients := ht.clients
  rw [List.count_append, hcount, Nat.add_zero]
  rcases next_cases hsize with ⟨ws', pos, -, heq⟩ | ⟨-, heq⟩
  · rw [heq] at hclients
    rw [hclients] at hx ⊢
    exact h bc' ws hbc' hpc hx
  · rw [heq] at hclients
    rw [hclients] at hx ⊢
    obtain ⟨hmem, hnot⟩ := mem_discardAll.mp hx
    rw [h bc' ws hbc' hpc hmem]
    simp only [before_discardAll, hnot, not_false_eq_true, and_true]

/-- **One step**, while the client stays. -/
theorem Served.step {a : WSBroadcaster.Action Client} {j : Nat} (h : Served j x s tr)
    (hrecorded : Recorded s tr) (hstep : s.step a = some (s', es)) (hsteady : Steady s a)
    (hstays : s.InProgress j → x ∈ s.clients) : Served j x s' (tr ++ es) := by
  cases a with
  | connect ws clients =>
      obtain ⟨rfl, rfl⟩ := set_of_connect hstep
      intro bc' ws' hbc' hpc hx
      have hmem : x ∈ s.clients := hstays ⟨bc', ws', hbc', hpc⟩
      have hsides := hsteady.sides ws clients rfl j bc' ws' hbc' hpc x hmem
      rw [List.append_nil, h bc' ws' hbc' hpc hmem]
      simp only [hsides]
  | disconnect ws =>
      cases hstep
      intro bc' ws' hbc' hpc hx
      obtain ⟨hmem, hne⟩ := mem_discard.mp hx
      rw [List.append_nil, h bc' ws' hbc' hpc hmem]
      simp only [before_discard, ne_eq, hne, not_false_eq_true, and_true]
  | broadcast =>
      have hturn := turn_of_broadcast hstep
      by_cases hj : j = s.broadcasts.length
      · subst hj
        exact Served.own hturn rfl (fun _ => hrecorded.count_begun x)
      · exact h.other hturn rfl hj
  | sent b raises =>
      obtain ⟨bc, ws, hbc, hpc, hturn⟩ := turn_of_sent hstep
      have hsize : s.clients.used = (bc.noted ws raises).used := by
        rw [noted_used]
        exact hsteady.size b raises bc rfl hbc
      by_cases hj : j = b
      · subst hj
        refine Served.own hturn hsize (fun hx => ?_)
        rw [noted_pos]
        exact h bc ws hbc hpc hx
      · exact h.other hturn hsize hj

/-! ## §5. The end of a broadcast. -/

/-- **The loop is at its end**: nobody stands behind it. -/
theorem Turn.delivered {stays : Client → Prop} (ht : Turn s b bc earlier s' es)
    (hsize : s.clients.used = bc.used) (hreturned : s'.Returned b)
    (hlisted : ∀ ws, ws ∈ bc.disconnected ↔ .failed b ws ∈ tr ++ earlier)
    (hcount : ∀ ws ∈ s.clients, stays ws →
      tr.count (.sends b ws) = if s.clients.Before bc.pos ws then 1 else 0) :
    Delivered stays b ⟨s, tr⟩ ⟨s', tr ++ es⟩ := by
  have hown := ht.own
  have hclients := ht.clients
  have hes := ht.events
  rcases next_cases hsize with ⟨ws', pos, -, heq⟩ | ⟨hnext, heq⟩
  · obtain ⟨bc', hbc', hpc⟩ := hreturned
    rw [heq] at hown
    rw [hown] at hbc'
    cases hbc'
    cases hpc
  · rw [heq] at hclients hes
    rw [List.append_nil] at hes
    refine ⟨?_, ?_, ?_⟩
    · intro ws hws hstays
      show (tr ++ es).count _ = 1
      rw [hes, List.count_append, ht.count_earlier, hcount ws hws hstays,
        if_pos ((before_iff hws).mpr (next_none hnext ws))]
    · intro ws hfailed hmem
      change ws ∈ s'.clients at hmem
      rw [hclients, mem_discardAll, hlisted, ← hes] at hmem
      exact hmem.2 hfailed
    · intro ws hfailed
      show ws ∈ s'.clients ↔ ws ∈ s.clients
      change .failed b ws ∉ tr ++ es at hfailed
      rw [hes, ← hlisted] at hfailed
      rw [hclients, mem_discardAll]
      exact and_iff_left hfailed

/-- A broadcast that returns in a step has done its work. -/
theorem delivered_of_step {stays : Client → Prop} {a : WSBroadcaster.Action Client}
    (hrecorded : Recorded s tr) (hserved : ∀ x, stays x → Served b x s tr)
    (hstep : s.step a = some (s', es)) (hsteady : Steady s a) (hbefore : ¬ s.Returned b)
    (hreturned : s'.Returned b) : Delivered stays b ⟨s, tr⟩ ⟨s', tr ++ es⟩ := by
  cases a with
  | connect ws clients =>
      obtain ⟨rfl, rfl⟩ := set_of_connect hstep
      exact absurd hreturned hbefore
  | disconnect ws =>
      cases hstep
      exact absurd hreturned hbefore
  | broadcast =>
      have hturn := turn_of_broadcast hstep
      by_cases hb : b = s.broadcasts.length
      · subst hb
        exact hturn.delivered rfl hreturned hrecorded.listed_begun
          (fun ws _ _ => hrecorded.count_begun ws)
      · unfold WSBroadcaster.Returned at hreturned
        rw [hturn.others b hb] at hreturned
        exact absurd hreturned hbefore
  | sent j raises =>
      obtain ⟨bc, ws, hbc, hpc, hturn⟩ := turn_of_sent hstep
      by_cases hb : b = j
      · subst hb
        refine hturn.delivered ?_ hreturned (hrecorded.listed_noted hbc ws raises) ?_
        · rw [noted_used]
          exact hsteady.size b raises bc rfl hbc
        · intro x hx hstays
          rw [noted_pos]
          exact hserved x hstays bc ws hbc hpc hx
      · unfold WSBroadcaster.Returned at hreturned
        rw [hturn.others b hb] at hreturned
        exact absurd hreturned hbefore

/-- **A send that has ended takes the loop on.** -/
theorem sent_advances {ws : Client} (hbc : s.broadcasts[b]? = some bc) (hpc : bc.pc = .sending ws)
    (hsize : s.clients.used = bc.used) : s.Advances b bc.pos := by
  intro raises
  have hstep : s.step (.sent b raises) =
      some (⟨((bc.noted ws raises).next s.clients b).1,
        s.broadcasts.set b ((bc.noted ws raises).next s.clients b).2.1⟩,
        (if raises = true then [.failed b ws] else []) ++
          ((bc.noted ws raises).next s.clients b).2.2) := by
    unfold WSBroadcaster.step
    dsimp only
    rw [hbc, Option.bind_some, hpc]
  refine ⟨_, _, hstep, ?_⟩
  have hlt := (List.getElem?_eq_some_iff.mp hbc).1
  have hsize' : s.clients.used = (bc.noted ws raises).used := by
    rw [noted_used]
    exact hsize
  rcases next_cases hsize' with ⟨ws', pos, hnext, heq⟩ | ⟨-, heq⟩
  · obtain ⟨-, hpos, hle, -⟩ := next_some hnext
    rw [noted_pos] at hpos
    right
    refine ⟨_, ws', List.getElem?_set_self hlt, ?_⟩
    rw [heq]
    exact ⟨rfl, hpos, hle⟩
  · left
    refine ⟨_, List.getElem?_set_self hlt, ?_⟩
    rw [heq]

end Invariants

/-! ## §6. All runs. -/

/-- A run of the broadcaster, from its start on. -/
abbrev stepBroadcaster : Traced (WSBroadcaster Client) (WSBroadcaster.Event Client) →
    WSBroadcaster.Action Client →
      Option (Traced (WSBroadcaster Client) (WSBroadcaster.Event Client)) :=
  traced WSBroadcaster.step

/-- The client is connected as long as the broadcast is under way. -/
def Throughout (acts : List (WSBroadcaster.Action Client)) (b : Nat) (ws : Client) : Prop :=
  ∀ t, Visits stepBroadcaster ⟨.started, []⟩ acts t → t.state.InProgress b → ws ∈ t.state.clients

/-- **All broadcasts of a run deliver.**  None of them raises; one that returns has
delivered; and one that waits is taken on by the end of its send, while the set
has the size it had at its beginning. -/
structure AllDeliver (acts : List (WSBroadcaster.Action Client)) : Prop where
  raised : ∀ t, Visits stepBroadcaster ⟨.started, []⟩ acts t →
    ∀ (b : Nat) (bc : Broadcast Client), t.state.broadcasts[b]? = some bc → bc.pc ≠ .raised
  delivered : ∀ t a t', Takes stepBroadcaster ⟨.started, []⟩ acts t a t' →
    ∀ b, ¬ t.state.Returned b → t'.state.Returned b → Delivered (Throughout acts b) b t t'
  advances : ∀ t, Visits stepBroadcaster ⟨.started, []⟩ acts t →
    ∀ (b : Nat) (bc : Broadcast Client) (ws : Client), t.state.broadcasts[b]? = some bc →
      bc.pc = .sending ws → t.state.clients.used = bc.used → t.state.Advances b bc.pos

section Steadily

variable {acts : List (WSBroadcaster.Action Client)}
  (hsteady : ∀ t a t', Takes stepBroadcaster ⟨.started, []⟩ acts t a t' → Steady t.state a)

include hsteady

theorem run_recorded {t : Traced (WSBroadcaster Client) (WSBroadcaster.Event Client)}
    (h : Visits stepBroadcaster ⟨.started, []⟩ acts t) : Recorded t.state t.trace := by
  refine traced_of_takes Recorded ⟨?_, ?_, ?_⟩ ?_ h
  · exact fun b bc hbc => (by cases hbc)
  · exact fun b bc hbc => (by cases hbc)
  · exact fun b _ ws => ⟨List.not_mem_nil, List.not_mem_nil⟩
  · intro u a u' es htakes hes hu
    exact hu.step hes (hsteady u a u' htakes)

theorem run_served {t : Traced (WSBroadcaster Client) (WSBroadcaster.Event Client)}
    (h : Visits stepBroadcaster ⟨.started, []⟩ acts t) {b : Nat} {x : Client}
    (hstays : Throughout acts b x) : Served b x t.state t.trace := by
  refine traced_of_takes (Served b x) (fun bc ws hbc => (by cases hbc)) ?_ h
  intro u a u' es htakes hes hu
  have hrecorded := run_recorded hsteady htakes.source
  exact hu.step hrecorded hes (hsteady u a u' htakes) (hstays u htakes.source)

end Steadily

/-- **BROADCASTS DELIVER**, in every run all of whose steps are steady. -/
theorem broadcast_delivers {acts : List (WSBroadcaster.Action Client)}
    (hsteady : ∀ t a t', Takes stepBroadcaster ⟨.started, []⟩ acts t a t' → Steady t.state a) :
    AllDeliver acts := by
  refine ⟨fun t hvisits => (run_recorded hsteady hvisits).raised, ?_, ?_⟩
  · intro t a t' htakes b hbefore hreturned
    obtain ⟨es, hes, htrace⟩ := htakes.shows
    have hrecorded := run_recorded hsteady htakes.source
    have hdelivered := delivered_of_step hrecorded
      (fun x hstays => run_served hsteady htakes.source hstays) hes (hsteady t a t' htakes)
      hbefore hreturned
    rwa [← htrace] at hdelivered
  · intro t _ b bc ws hbc hpc hsize
    exact sent_advances hbc hpc hsize

/-! ## §7. Two runs. -/

/-- The condition, as a check. -/
def steady (t : Traced (WSBroadcaster Client) (WSBroadcaster.Event Client)) :
    WSBroadcaster.Action Client → Bool
  | .sent b _ =>
      match t.state.broadcasts[b]? with
      | some bc => decide (t.state.clients.used = bc.used)
      | none => true
  | .connect _ clients =>
      t.state.broadcasts.all fun bc =>
        t.state.clients.members.all fun x =>
          decide (t.state.clients.Before bc.pos x) == decide (clients.Before bc.pos x)
  | _ => true

theorem steady_of_check {t : Traced (WSBroadcaster Client) (WSBroadcaster.Event Client)}
    {a : WSBroadcaster.Action Client} (h : steady t a = true) : Steady t.state a := by
  constructor
  · intro b raises bc ha hbc
    subst ha
    unfold steady at h
    simp only [hbc] at h
    exact of_decide_eq_true h
  · intro ws clients ha b bc ws' hbc _ x hx
    subst ha
    have hbcs := List.all_eq_true.mp h bc (List.mem_of_getElem? hbc)
    have hsame := List.all_eq_true.mp hbcs x (mem_members.mpr hx)
    exact decide_eq_decide.mp (eq_of_beq hsame)

/-- Client 3 takes the place of client 1 while the first broadcast sends to client
0, which fails; then client 4 takes the place of client 0 while the second does. -/
def replacedMeanwhile : List (WSBroadcaster.Action Nat) :=
  [.connect 0 ⟨[some 0, none, none, none, none, none, none, none], by decide⟩,
    .connect 1 ⟨[some 0, some 1, none, none, none, none, none, none], by decide⟩,
    .connect 2 ⟨[some 0, some 1, some 2, none, none, none, none, none], by decide⟩,
    .broadcast, .disconnect 1,
    .connect 3 ⟨[some 0, none, some 2, none, none, some 3, none, none], by decide⟩,
    .sent 0 true, .broadcast, .sent 0 false, .sent 0 false,
    .connect 4 ⟨[none, none, some 2, some 4, none, some 3, none, none], by decide⟩,
    .sent 1 false, .sent 1 false, .sent 1 false, .sent 1 false]

/-- Both broadcasts return, and both have sent to clients 2 and 3. -/
theorem replacedMeanwhile_delivers :
    ∃ t, Visits stepBroadcaster ⟨.started, []⟩ replacedMeanwhile t ∧
      t.state.broadcasts.map Broadcast.pc = [.returned, .returned] ∧
      t.trace = [.sends 0 0, .failed 0 0, .sends 0 2, .sends 1 0, .sends 0 3, .sends 1 2,
        .sends 1 4, .sends 1 3] ∧
      AllDeliver replacedMeanwhile := by
  have hrun : (run stepBroadcaster ⟨.started, []⟩ replacedMeanwhile).map
      (fun t => (t.state.broadcasts.map Broadcast.pc, t.trace)) =
        some ([.returned, .returned], [.sends 0 0, .failed 0 0, .sends 0 2, .sends 1 0,
          .sends 0 3, .sends 1 2, .sends 1 4, .sends 1 3]) := by
    decide +kernel
  have hchecked : checked stepBroadcaster steady ⟨.started, []⟩ replacedMeanwhile = true := by
    decide +kernel
  obtain ⟨t, ht, heq⟩ := Option.map_eq_some_iff.mp hrun
  obtain ⟨hpcs, htrace⟩ := Prod.mk.inj heq
  exact ⟨t, visits_end ht, hpcs, htrace,
    broadcast_delivers (fun t a t' htakes => steady_of_check (htakes.checked hchecked))⟩

/-- Client 2 connects while a broadcast sends to the first of two clients. -/
def connectDuring : List (WSBroadcaster.Action Nat) :=
  [.connect 0 ⟨[some 0, none, none, none, none, none, none, none], by decide⟩,
    .connect 1 ⟨[some 0, some 1, none, none, none, none, none, none], by decide⟩,
    .broadcast,
    .connect 2 ⟨[some 0, some 1, some 2, none, none, none, none, none], by decide⟩,
    .sent 0 false]

/-- **The broadcast raises**, and has sent nothing to client 1, which was connected
all the time. -/
theorem connectDuring_raises :
    ∃ t, Visits stepBroadcaster ⟨.started, []⟩ connectDuring t ∧
      t.state.broadcasts.map Broadcast.pc = [.raised] ∧ t.trace = [.sends 0 0] ∧
      ¬ AllDeliver connectDuring := by
  have hrun : (run stepBroadcaster ⟨.started, []⟩ connectDuring).map
      (fun t => (t.state.broadcasts.map Broadcast.pc, t.trace)) =
        some ([.raised], [.sends 0 0]) := by
    decide +kernel
  obtain ⟨t, ht, heq⟩ := Option.map_eq_some_iff.mp hrun
  obtain ⟨hpcs, htrace⟩ := Prod.mk.inj heq
  refine ⟨t, visits_end ht, hpcs, htrace, ?_⟩
  intro hdelivers
  have hmem : LoopPc.raised ∈ t.state.broadcasts.map Broadcast.pc := by
    rw [hpcs]
    exact List.mem_singleton_self _
  obtain ⟨bc, hbc, hpc⟩ := List.mem_map.mp hmem
  obtain ⟨b, hb⟩ := List.mem_iff_getElem?.mp hbc
  exact hdelivers.raised t (visits_end ht) b bc hb hpc

end ZeroLGR.Gateway
