/-
  ZeroLGR.Lib.Channel — a bounded queue whose two ends see each other late.

  The sender counts what it has sent, the receiver what it has taken.  Each of
  them knows its own count, and of the other's some value of the past: what is
  sent may arrive later, what is taken may be noticed later.  To either end alone
  the channel is an atomic bounded queue, which the other end uses a little later
  than it really does.

  Main results:
    * `Moves.inbox`, `Moves.outbox` — one move, as calls of the atomic queue,
    * `Runs.received` — every run, as the receiver sees it,
    * `Runs.delivered` — every run, as the sender sees it.
-/
import ZeroLGR.Lib.Fifo

namespace Delayed

open Fifo Transition

variable {α : Type*} {cap : Nat}

/-! ## §1. The atomic queue, with the results of its calls. -/

/-- A call of `push` or `pop`, with its result. -/
inductive Call (α : Type*) where
  | pushed (a : α)
  | full
  | popped (a : α)
  | empty
  deriving DecidableEq

/-- The calls of the sender. -/
def Call.isPush : Call α → Bool
  | .pushed _ | .full => true
  | .popped _ | .empty => false

/-- The calls of the receiver. -/
def Call.isPop : Call α → Bool
  | .popped _ | .empty => true
  | .pushed _ | .full => false

/-- What a call put into the queue. -/
def Call.pushedValue : Call α → Option α
  | .pushed a => some a
  | _ => none

/-- What a call took out of the queue. -/
def Call.poppedValue : Call α → Option α
  | .popped a => some a
  | _ => none

/-- One call: `push` is refused by a full queue only, `pop` by an empty one. -/
inductive Call.Step : Bounded α cap → Call α → Bounded α cap → Prop
  | pushed {q q' : Bounded α cap} {a : α} :
      q'.items = q.items ++ [a] → Call.Step q (.pushed a) q'
  | full {q : Bounded α cap} : q.items.length = cap → Call.Step q .full q
  | popped {q q' : Bounded α cap} {a : α} :
      q.items = a :: q'.items → Call.Step q (.popped a) q'
  | empty {q : Bounded α cap} : q.items = [] → Call.Step q .empty q

/-- The sequences of calls, with their results, that an atomic queue allows. -/
abbrev Calls : Bounded α cap → List (Call α) → Bounded α cap → Prop := Path Call.Step

theorem bounded_ext {q q' : Bounded α cap} (h : q.items = q'.items) : q = q' := by
  obtain ⟨items, hitems⟩ := q
  obtain ⟨items', hitems'⟩ := q'
  cases h
  rfl

theorem calls_nil {q q' : Bounded α cap} (h : Calls q [] q') : q = q' := by
  generalize hnil : ([] : List (Call α)) = cs at h
  cases h with
  | nil => rfl
  | snoc hpath hstep => simp at hnil

theorem calls_one {q q' : Bounded α cap} {c : Call α} (h : Calls q [c] q') :
    Call.Step q c q' := by
  generalize hone : [c] = cs at h
  cases h with
  | nil => cases hone
  | snoc hpath hstep =>
      have hsplit : [] ++ [c] = _ := hone
      obtain ⟨rfl, hlast⟩ := List.append_inj' hsplit rfl
      cases hlast
      rw [calls_nil hpath]
      exact hstep

/-- Several values are put in. -/
theorem calls_pushed {q q' : Bounded α cap} {xs : List α} (h : q'.items = q.items ++ xs) :
    Calls q (xs.map .pushed) q' := by
  -- induction on the values, from the last one
  induction xs using List.reverseRecOn generalizing q' with
  | nil =>
      rw [List.append_nil] at h
      rw [bounded_ext h]
      exact .nil q
  | append_singleton xs a ih =>
      have hlen : (q.items ++ xs).length ≤ cap := by
        have hbound := q'.bound
        rw [h, ← List.append_assoc, List.length_append] at hbound
        omega
      have hfirst : Calls q (xs.map .pushed) ⟨q.items ++ xs, hlen⟩ := ih rfl
      rw [List.map_append]
      refine .snoc hfirst (.pushed ?_)
      rw [h, List.append_assoc]

/-- Several values are taken out. -/
theorem calls_popped {q q' : Bounded α cap} {xs : List α} (h : q.items = xs ++ q'.items) :
    Calls q (xs.map .popped) q' := by
  induction xs generalizing q with
  | nil =>
      rw [bounded_ext h]
      exact .nil q'
  | cons a xs ih =>
      have hlen : (xs ++ q'.items).length ≤ cap := by
        have hbound := q.bound
        rw [h, List.cons_append, List.length_cons] at hbound
        omega
      have hfirst : Calls q [.popped a] ⟨xs ++ q'.items, hlen⟩ := .single (.popped h)
      exact hfirst.trans (ih rfl)

/-! ## §2. The channel. -/

/-- Everything ever sent, how much of it was taken, how many takings the sender
has noticed and how many sendings have arrived. -/
structure Channel (α : Type*) (cap : Nat) where
  sent : List α
  noticed : Nat
  taken : Nat
  arrived : Nat
  noticed_le : noticed ≤ taken
  taken_le : taken ≤ arrived
  arrived_le : arrived ≤ sent.length
  room : sent.length ≤ noticed + cap

/-- Nothing was sent. -/
def Channel.new : Channel α cap where
  sent := []
  noticed := 0
  taken := 0
  arrived := 0
  noticed_le := Nat.le_refl 0
  taken_le := Nat.le_refl 0
  arrived_le := Nat.le_refl 0
  room := Nat.zero_le _

theorem Channel.taken_le_length (ch : Channel α cap) : ch.taken ≤ ch.sent.length :=
  Nat.le_trans ch.taken_le ch.arrived_le

/-- The queue, to the receiver: what has arrived and was not taken. -/
def Channel.inbox (ch : Channel α cap) : Bounded α cap where
  items := (ch.sent.take ch.arrived).drop ch.taken
  bound := by
    have hnoticed := ch.noticed_le
    have harrived := ch.arrived_le
    have hroom := ch.room
    rw [List.length_drop, List.length_take]
    omega

/-- The queue, to the sender: what it has not noticed to be taken. -/
def Channel.outbox (ch : Channel α cap) : Bounded α cap where
  items := ch.sent.drop ch.noticed
  bound := by
    have hroom := ch.room
    rw [List.length_drop]
    omega

/-- One move: an end looks at the other's count, or finishes a call. -/
inductive Moves : Channel α cap → List (Call α) → Channel α cap → Prop
  | look {ch ch' : Channel α cap} : ch'.sent = ch.sent → ch'.taken = ch.taken →
      ch.noticed ≤ ch'.noticed → ch.arrived ≤ ch'.arrived → Moves ch [] ch'
  | pushed {ch ch' : Channel α cap} {a : α} : ch'.sent = ch.sent ++ [a] →
      ch'.taken = ch.taken → ch'.noticed = ch.noticed → ch'.arrived = ch.arrived →
      Moves ch [.pushed a] ch'
  | full {ch ch' : Channel α cap} : ch'.sent = ch.sent → ch'.taken = ch.taken →
      ch.noticed ≤ ch'.noticed → ch'.arrived = ch.arrived →
      ch'.sent.length = ch'.noticed + cap → Moves ch [.full] ch'
  | popped {ch ch' : Channel α cap} {a : α} : ch'.sent = ch.sent →
      ch'.taken = ch.taken + 1 → ch'.noticed = ch.noticed → ch'.arrived = ch.arrived →
      ch.sent[ch.taken]? = some a → Moves ch [.popped a] ch'
  | empty {ch ch' : Channel α cap} : ch'.sent = ch.sent → ch'.taken = ch.taken →
      ch'.noticed = ch.noticed → ch.arrived ≤ ch'.arrived → ch'.taken = ch'.arrived →
      Moves ch [.empty] ch'

/-- Several moves, with the calls that were finished. -/
inductive Runs : Channel α cap → List (Call α) → Channel α cap → Prop
  | nil (ch : Channel α cap) : Runs ch [] ch
  | snoc {ch mid ch' : Channel α cap} {cs ds : List (Call α)} :
      Runs ch cs mid → Moves mid ds ch' → Runs ch (cs ++ ds) ch'

/-! ## §3. One move, to either end. -/

section Moves

variable {ch ch' : Channel α cap} {cs : List (Call α)}

/-- What a longer prefix has more. -/
theorem take_grows {xs : List α} {i j : Nat} (h : i ≤ j) :
    xs.take j = xs.take i ++ (xs.take j).drop i := by
  have hsplit := List.take_append_drop i (xs.take j)
  rw [List.take_take, Nat.min_eq_left h] at hsplit
  exact hsplit.symm

/-- The sendings that arrive, when the receiver looks. -/
theorem inbox_arrives (hsent : ch'.sent = ch.sent) (htaken : ch'.taken = ch.taken)
    (harrived : ch.arrived ≤ ch'.arrived) :
    ch'.inbox.items = ch.inbox.items ++ (ch.sent.take ch'.arrived).drop ch.arrived := by
  have hle := ch.arrived_le
  have htake := ch.taken_le
  have hbound : ch.taken ≤ (ch.sent.take ch.arrived).length := by
    rw [List.length_take]
    omega
  show (ch'.sent.take ch'.arrived).drop ch'.taken = (ch.sent.take ch.arrived).drop ch.taken ++ _
  rw [hsent, htaken, ← List.drop_append_of_le_length hbound, ← take_grows harrived]

/-- **One move, to the receiver**: some sendings arrive, then its own call, if
it made one. -/
theorem Moves.inbox (h : Moves ch cs ch') :
    ∃ (mid : Bounded α cap) (xs : List α), mid.items = ch.inbox.items ++ xs ∧
      Calls mid (cs.filter Call.isPop) ch'.inbox ∧
      ch'.sent.take ch'.arrived = ch.sent.take ch.arrived ++ xs := by
  have hle := ch.arrived_le
  have hgrows : ch.arrived ≤ ch'.arrived → ch'.sent = ch.sent →
      ch'.sent.take ch'.arrived =
        ch.sent.take ch.arrived ++ (ch.sent.take ch'.arrived).drop ch.arrived := by
    intro harrived hsent
    rw [hsent]
    exact take_grows harrived
  cases h with
  | look hsent htaken hnoticed harrived =>
      exact ⟨ch'.inbox, _, inbox_arrives hsent htaken harrived, .nil _, hgrows harrived hsent⟩
  | @pushed _ a hsent htaken hnoticed harrived =>
      have htake : ch'.sent.take ch'.arrived = ch.sent.take ch.arrived := by
        rw [hsent, harrived, List.take_append_of_le_length hle]
      have hsame : ch'.inbox = ch.inbox := by
        refine bounded_ext ?_
        show (ch'.sent.take ch'.arrived).drop ch'.taken = _
        rw [htake, htaken]
        rfl
      refine ⟨ch.inbox, [], (List.append_nil _).symm, ?_, by rw [htake, List.append_nil]⟩
      rw [hsame]
      exact .nil _
  | full hsent htaken hnoticed harrived hfull =>
      have hrefl : ch.arrived ≤ ch'.arrived := by omega
      exact ⟨ch'.inbox, _, inbox_arrives hsent htaken hrefl, .nil _, hgrows hrefl hsent⟩
  | @popped _ a hsent htaken hnoticed harrived ha =>
      refine ⟨ch.inbox, [], (List.append_nil _).symm, .single (.popped ?_), ?_⟩
      · -- the element taken is the oldest that has arrived
        have hlt : ch.taken < ch.arrived := by
          have := ch'.taken_le
          omega
        have hin : (ch.sent.take ch.arrived)[ch.taken]? = some a := by
          rw [List.getElem?_take_of_lt hlt]
          exact ha
        obtain ⟨hbound, hget⟩ := List.getElem?_eq_some_iff.mp hin
        show (ch.sent.take ch.arrived).drop ch.taken = a :: (ch'.sent.take ch'.arrived).drop ch'.taken
        rw [List.drop_eq_getElem_cons hbound, hget, hsent, harrived, htaken]
      · rw [hsent, harrived, List.append_nil]
  | empty hsent htaken hnoticed harrived hempty =>
      refine ⟨ch'.inbox, _, inbox_arrives hsent htaken harrived, .single (.empty ?_),
        hgrows harrived hsent⟩
      show (ch'.sent.take ch'.arrived).drop ch'.taken = []
      rw [List.drop_eq_nil_iff, List.length_take]
      omega

/-- The takings that are noticed, when the sender looks. -/
theorem outbox_notices (hsent : ch'.sent = ch.sent) (hnoticed : ch.noticed ≤ ch'.noticed) :
    ch.outbox.items = (ch.sent.take ch'.noticed).drop ch.noticed ++ ch'.outbox.items := by
  have hle : ch'.noticed ≤ ch.sent.length := by
    rw [← hsent]
    exact Nat.le_trans ch'.noticed_le ch'.taken_le_length
  show ch.sent.drop ch.noticed = _ ++ ch'.sent.drop ch'.noticed
  rw [hsent, ← List.drop_append_of_le_length (by rw [List.length_take]; omega),
    List.take_append_drop]

/-- **One move, to the sender**: it notices some takings, then its own call, if
it made one. -/
theorem Moves.outbox (h : Moves ch cs ch') :
    ∃ (mid : Bounded α cap) (xs : List α), ch.outbox.items = xs ++ mid.items ∧
      Calls mid (cs.filter Call.isPush) ch'.outbox ∧
      ch'.sent.take ch'.noticed = ch.sent.take ch.noticed ++ xs := by
  have hnoticed_le : ch.noticed ≤ ch.sent.length := Nat.le_trans ch.noticed_le ch.taken_le_length
  have hgrows : ch.noticed ≤ ch'.noticed → ch'.sent = ch.sent →
      ch'.sent.take ch'.noticed =
        ch.sent.take ch.noticed ++ (ch.sent.take ch'.noticed).drop ch.noticed := by
    intro hnoticed hsent
    rw [hsent]
    exact take_grows hnoticed
  cases h with
  | look hsent htaken hnoticed harrived =>
      exact ⟨ch'.outbox, _, outbox_notices hsent hnoticed, .nil _, hgrows hnoticed hsent⟩
  | @pushed _ a hsent htaken hnoticed harrived =>
      refine ⟨ch.outbox, [], rfl, .single (.pushed ?_), ?_⟩
      · show ch'.sent.drop ch'.noticed = ch.sent.drop ch.noticed ++ [a]
        rw [hsent, hnoticed, List.drop_append_of_le_length hnoticed_le]
      · rw [hsent, hnoticed, List.take_append_of_le_length hnoticed_le, List.append_nil]
  | full hsent htaken hnoticed harrived hfull =>
      refine ⟨ch'.outbox, _, outbox_notices hsent hnoticed, .single (.full ?_),
        hgrows hnoticed hsent⟩
      show (ch'.sent.drop ch'.noticed).length = cap
      rw [List.length_drop]
      omega
  | popped hsent htaken hnoticed harrived ha =>
      have hrefl : ch.noticed ≤ ch'.noticed := by omega
      exact ⟨ch'.outbox, _, outbox_notices hsent hrefl, .nil _, hgrows hrefl hsent⟩
  | empty hsent htaken hnoticed harrived hempty =>
      have hrefl : ch.noticed ≤ ch'.noticed := by omega
      exact ⟨ch'.outbox, _, outbox_notices hsent hrefl, .nil _, hgrows hrefl hsent⟩

/-- What a move adds to the record. -/
theorem Moves.record (h : Moves ch cs ch') :
    ch'.sent = ch.sent ++ cs.filterMap Call.pushedValue ∧
      ch'.sent.take ch'.taken = ch.sent.take ch.taken ++ cs.filterMap Call.poppedValue := by
  have hle := ch.taken_le_length
  cases h with
  | look hs ht _ _ | full hs ht _ _ _ | empty hs ht _ _ _ =>
      rw [hs, ht]
      exact ⟨(List.append_nil _).symm, (List.append_nil _).symm⟩
  | pushed hs ht _ _ =>
      rw [hs, ht, List.take_append_of_le_length hle]
      exact ⟨rfl, (List.append_nil _).symm⟩
  | popped hs ht _ _ ha =>
      rw [hs, ht]
      refine ⟨(List.append_nil _).symm, ?_⟩
      rw [List.take_add_one, ha]
      rfl

end Moves

/-! ## §4. Every run, to either end. -/

section Runs

variable {ch : Channel α cap} {cs : List (Call α)}

/-- Calls of one end only, seen by the other. -/
theorem filter_map_none {p : Call α → Bool} {f : α → Call α} (hf : ∀ x, p (f x) = false)
    (xs : List α) : (xs.map f).filter p = [] := by
  rw [List.filter_eq_nil_iff]
  intro c hc
  obtain ⟨x, -, rfl⟩ := List.mem_map.mp hc
  simp [hf x]

/-- Calls of one end only, seen by itself. -/
theorem filter_map_all {p : Call α → Bool} {f : α → Call α} (hf : ∀ x, p (f x) = true)
    (xs : List α) : (xs.map f).filter p = xs.map f := by
  rw [List.filter_eq_self]
  intro c hc
  obtain ⟨x, -, rfl⟩ := List.mem_map.mp hc
  exact hf x

theorem filter_isPush_isPop (cs : List (Call α)) :
    (cs.filter Call.isPop).filter Call.isPush = [] := by
  rw [List.filter_eq_nil_iff]
  intro c hc
  have hpop := (List.mem_filter.mp hc).2
  cases c <;> simp_all [Call.isPop, Call.isPush]

theorem filter_isPop_isPush (cs : List (Call α)) :
    (cs.filter Call.isPush).filter Call.isPop = [] := by
  rw [List.filter_eq_nil_iff]
  intro c hc
  have hpush := (List.mem_filter.mp hc).2
  cases c <;> simp_all [Call.isPop, Call.isPush]

/-- **EVERY RUN, AS THE RECEIVER SEES IT**: an atomic queue allows its calls,
with the pushes of what has arrived between them. -/
theorem Runs.received (h : Runs .new cs ch) :
    ∃ ds : List (Call α), Calls .empty ds ch.inbox ∧
      ds.filter Call.isPop = cs.filter Call.isPop ∧
      ds.filter Call.isPush = (ch.sent.take ch.arrived).map .pushed := by
  generalize hnew : Channel.new = start at h
  induction h with
  | nil =>
      subst hnew
      exact ⟨[], .nil _, rfl, rfl⟩
  | @snoc mid ch' cs es _ hmove ih =>
      obtain ⟨ds, hds, hpops, hpushes⟩ := ih
      obtain ⟨q, xs, hq, hown, harrived⟩ := hmove.inbox
      refine ⟨ds ++ (xs.map .pushed ++ es.filter Call.isPop), ?_, ?_, ?_⟩
      · exact hds.trans ((calls_pushed hq).trans hown)
      · rw [List.filter_append, List.filter_append, List.filter_append, hpops,
          filter_map_none (fun _ => rfl), List.filter_filter]
        simp
      · rw [List.filter_append, List.filter_append, filter_map_all (fun _ => rfl),
          filter_isPush_isPop, hpushes, harrived, List.map_append, List.append_nil]

/-- **EVERY RUN, AS THE SENDER SEES IT**: an atomic queue allows its calls, with
the pops of what it has noticed to be taken between them. -/
theorem Runs.delivered (h : Runs .new cs ch) :
    ∃ ds : List (Call α), Calls .empty ds ch.outbox ∧
      ds.filter Call.isPush = cs.filter Call.isPush ∧
      ds.filter Call.isPop = (ch.sent.take ch.noticed).map .popped := by
  generalize hnew : Channel.new = start at h
  induction h with
  | nil =>
      subst hnew
      exact ⟨[], .nil _, rfl, rfl⟩
  | @snoc mid ch' cs es _ hmove ih =>
      obtain ⟨ds, hds, hpushes, hpops⟩ := ih
      obtain ⟨q, xs, hq, hown, hnoticed⟩ := hmove.outbox
      refine ⟨ds ++ (xs.map .popped ++ es.filter Call.isPush), ?_, ?_, ?_⟩
      · exact hds.trans ((calls_popped hq).trans hown)
      · rw [List.filter_append, List.filter_append, List.filter_append, hpushes,
          filter_map_none (fun _ => rfl), List.filter_filter]
        simp
      · rw [List.filter_append, List.filter_append, filter_map_all (fun _ => rfl),
          filter_isPop_isPush, hpops, hnoticed, List.map_append, List.append_nil]

/-- What was sent, and how much of it was taken, is what the calls say. -/
theorem Runs.record (h : Runs .new cs ch) :
    ch.sent = cs.filterMap Call.pushedValue ∧
      ch.sent.take ch.taken = cs.filterMap Call.poppedValue := by
  generalize hnew : Channel.new = start at h
  induction h with
  | nil =>
      subst hnew
      exact ⟨rfl, rfl⟩
  | snoc _ hmove ih =>
      obtain ⟨hsent, htaken⟩ := ih
      obtain ⟨hsent', htaken'⟩ := hmove.record
      rw [List.filterMap_append, List.filterMap_append, ← hsent, ← htaken]
      exact ⟨hsent', htaken'⟩

end Runs

end Delayed
