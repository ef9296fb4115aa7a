/-
  ZeroLGR.Lib.Emit — loops that hand out one item per iteration.

  One iteration of such a loop stops, faults (does something the machine does
  not allow), or emits an item and goes on.  The loop itself is run with fuel;
  `Emits` is the fuel-free account of the iterations that went on.

  Main results:
    * `scan_of_emits` — iterations that went on are the first part of any scan,
    * `emits_scan` — every scan is such a sequence of iterations,
    * `scan_eq_stopped`, `emitted_of_end` — where a scan ends,
    * `Emits.prefix_of_stop` — a loop that stops has only one run: every other
      sequence of iterations is a first part of it,
    * `scan_terminates` — a measure that grows and is bounded ends the loop.
-/
import Mathlib.Data.List.Basic

namespace Emit

variable {α σ : Type*}

/-! ## §1. One iteration, and the loop. -/

/-- What one iteration does. -/
inductive Next (α σ : Type*) where
  | stop
  | fault
  | emit (a : α) (s : σ)

/-- How a scan ended; `running` means that it ran out of fuel. -/
inductive Status where
  | stopped
  | faulted
  | running
  deriving Repr, DecidableEq

/-- What was emitted, the state of the loop at its end, and how it ended. -/
structure Scan (α σ : Type*) where
  emitted : List α
  state : σ
  status : Status
  deriving DecidableEq

/-- The loop, for at most `fuel` iterations. -/
def scan (next : σ → Next α σ) : Nat → σ → Scan α σ
  | 0, s => ⟨[], s, .running⟩
  | fuel + 1, s =>
      match next s with
      | .stop => ⟨[], s, .stopped⟩
      | .fault => ⟨[], s, .faulted⟩
      | .emit a s' =>
          let rest := scan next fuel s'
          ⟨a :: rest.emitted, rest.state, rest.status⟩

/-- `Emits next s as s'`: iterations that all went on lead from `s` to `s'` and
emit `as`. -/
inductive Emits (next : σ → Next α σ) : σ → List α → σ → Prop
  | nil (s : σ) : Emits next s [] s
  | cons {s m s' : σ} {a : α} {as : List α} :
      next s = .emit a m → Emits next m as s' → Emits next s (a :: as) s'

variable {next : σ → Next α σ}

/-! ## §2. Iterations compose, and are determined by the state. -/

theorem Emits.trans {s m s' : σ} {as bs : List α}
    (h₁ : Emits next s as m) (h₂ : Emits next m bs s') : Emits next s (as ++ bs) s' := by
  induction h₁ with
  | nil => exact h₂
  | cons hstep _ ih => exact .cons hstep (ih h₂)

theorem Emits.single {s s' : σ} {a : α} (h : next s = .emit a s') : Emits next s [a] s' :=
  .cons h (.nil s')

/-- A sequence of iterations splits at every item. -/
theorem Emits.split {s s' : σ} : ∀ (as bs : List α), Emits next s (as ++ bs) s' →
    ∃ m, Emits next s as m ∧ Emits next m bs s'
  | [], _, h => ⟨s, .nil s, h⟩
  | a :: as, bs, h => by
      cases h with
      | cons hstep hrest =>
          obtain ⟨m, hleft, hright⟩ := Emits.split as bs hrest
          exact ⟨m, .cons hstep hleft, hright⟩

/-- What every iteration keeps holds after any number of them. -/
theorem Emits.invariant (Inv : σ → Prop)
    (hstep : ∀ s a s', Inv s → next s = .emit a s' → Inv s')
    {s s' : σ} {as : List α} (h : Emits next s as s') (hs : Inv s) : Inv s' := by
  induction h with
  | nil => exact hs
  | cons hnext _ ih => exact ih (hstep _ _ _ hs hnext)

/-- Of two sequences of iterations from one state, one begins with the other. -/
theorem Emits.comparable {s s₁ s₂ : σ} {as bs : List α}
    (h₁ : Emits next s as s₁) (h₂ : Emits next s bs s₂) :
    (∃ cs, as = bs ++ cs ∧ Emits next s₂ cs s₁) ∨ (∃ cs, bs = as ++ cs ∧ Emits next s₁ cs s₂) := by
  induction h₁ generalizing bs with
  | nil => exact .inr ⟨bs, rfl, h₂⟩
  | cons hstep htail ih =>
      cases h₂ with
      | nil => exact .inl ⟨_, rfl, .cons hstep htail⟩
      | cons hstep' htail' =>
          rw [hstep] at hstep'
          cases hstep'
          rcases ih htail' with ⟨cs, rfl, hcs⟩ | ⟨cs, rfl, hcs⟩
          · exact .inl ⟨cs, rfl, hcs⟩
          · exact .inr ⟨cs, rfl, hcs⟩

/-- No iteration goes on from a state where the loop stops. -/
theorem Emits.nil_of_stop {s s' : σ} {as : List α} (hstop : next s = .stop)
    (h : Emits next s as s') : as = [] ∧ s' = s := by
  cases h with
  | nil => exact ⟨rfl, rfl⟩
  | cons hstep _ => rw [hstop] at hstep; cases hstep

/-- **A loop that stops has one run.**  Whatever iterations are possible from
its start are the first part of it. -/
theorem Emits.prefix_of_stop {s s₁ s₂ : σ} {as bs : List α}
    (h₁ : Emits next s as s₁) (hstop : next s₁ = .stop) (h₂ : Emits next s bs s₂) :
    ∃ cs, as = bs ++ cs ∧ Emits next s₂ cs s₁ := by
  rcases h₁.comparable h₂ with h | ⟨cs, rfl, hcs⟩
  · exact h
  · obtain ⟨rfl, rfl⟩ := hcs.nil_of_stop hstop
    exact ⟨[], by rw [List.append_nil, List.append_nil], .nil _⟩

/-! ## §3. The loop and its iterations. -/

theorem scan_of_emits {s s' : σ} {as : List α} (h : Emits next s as s') (fuel : Nat) :
    scan next (as.length + fuel) s =
      ⟨as ++ (scan next fuel s').emitted, (scan next fuel s').state,
        (scan next fuel s').status⟩ := by
  induction h with
  | nil => rw [List.length_nil, Nat.zero_add, List.nil_append]
  | cons hstep _ ih =>
      rw [List.length_cons, Nat.succ_add, scan, hstep]
      show Scan.mk _ _ _ = _
      rw [ih]
      rfl

/-- A loop that stops after the iterations `as` is run to its end by any fuel
that is more than their number. -/
theorem scan_eq_stopped {s s' : σ} {as : List α} (h : Emits next s as s')
    (hstop : next s' = .stop) {fuel : Nat} (hfuel : as.length < fuel) :
    scan next fuel s = ⟨as, s', .stopped⟩ := by
  obtain ⟨k, rfl⟩ := Nat.exists_eq_add_of_lt hfuel
  rw [Nat.add_assoc, scan_of_emits h, scan, hstop]
  show Scan.mk (as ++ []) s' .stopped = _
  rw [List.append_nil]

/-- What was emitted in any number of iterations is the first part of what a scan
with enough fuel emits. -/
theorem prefix_of_scan {s s' : σ} {as : List α} (h : Emits next s as s') {fuel : Nat}
    (hfuel : as.length ≤ fuel) : as <+: (scan next fuel s).emitted := by
  obtain ⟨k, rfl⟩ := Nat.exists_eq_add_of_le hfuel
  rw [scan_of_emits h]
  exact List.prefix_append _ _

/-- If no iteration goes on from there, it is all of it. -/
theorem emitted_of_end {s s' : σ} {as : List α} (h : Emits next s as s')
    (hend : ∀ a m, next s' ≠ .emit a m) {fuel : Nat} (hfuel : as.length ≤ fuel) :
    (scan next fuel s).emitted = as := by
  obtain ⟨k, rfl⟩ := Nat.exists_eq_add_of_le hfuel
  have hnone : (scan next k s').emitted = [] := by
    cases k with
    | zero => rfl
    | succ k =>
        rw [scan]
        split
        next => rfl
        next => rfl
        next a m hstep => exact absurd hstep (hend a m)
  rw [scan_of_emits h, hnone, List.append_nil]

theorem emits_scan (next : σ → Next α σ) :
    ∀ (fuel : Nat) (s : σ), Emits next s (scan next fuel s).emitted (scan next fuel s).state
  | 0, s => .nil s
  | fuel + 1, s => by
      rw [scan]
      split
      next => exact .nil s
      next => exact .nil s
      next a s' hstep => exact .cons hstep (emits_scan next fuel s')

theorem stop_of_scan (next : σ → Next α σ) :
    ∀ (fuel : Nat) (s : σ), (scan next fuel s).status = .stopped →
      next (scan next fuel s).state = .stop
  | 0, s => by intro h; cases h
  | fuel + 1, s => by
      rw [scan]
      split
      next hstep => exact fun _ => hstep
      next => intro h; cases h
      next a s' _ => exact stop_of_scan next fuel s'

theorem fault_of_scan (next : σ → Next α σ) :
    ∀ (fuel : Nat) (s : σ), (scan next fuel s).status = .faulted →
      next (scan next fuel s).state = .fault
  | 0, s => by intro h; cases h
  | fuel + 1, s => by
      rw [scan]
      split
      next => intro h; cases h
      next hstep => exact fun _ => hstep
      next a s' _ => exact fault_of_scan next fuel s'

/-- A scan that ran out of fuel went on in every iteration. -/
theorem length_of_running (next : σ → Next α σ) :
    ∀ (fuel : Nat) (s : σ), (scan next fuel s).status = .running →
      (scan next fuel s).emitted.length = fuel
  | 0, s => fun _ => rfl
  | fuel + 1, s => by
      rw [scan]
      split
      next => intro h; cases h
      next => intro h; cases h
      next a s' _ =>
        intro h
        rw [List.length_cons, length_of_running next fuel s' h]

/-! ## §4. Termination. -/

/-- Iterations that each raise a measure by at least `d` raise it by `d` times
their number. -/
theorem Emits.measure (μ : σ → Nat) {d : Nat} (Inv : σ → Prop)
    (hinv : ∀ s a s', Inv s → next s = .emit a s' → Inv s')
    (hμ : ∀ s a s', Inv s → next s = .emit a s' → μ s + d ≤ μ s')
    {s s' : σ} {as : List α} (h : Emits next s as s') (hs : Inv s) :
    μ s + d * as.length ≤ μ s' := by
  induction h with
  | nil => simp
  | cons hstep _ ih =>
      have hone := hμ _ _ _ hs hstep
      have hrest := ih (hinv _ _ _ hs hstep)
      rw [List.length_cons, Nat.mul_succ]
      omega

/-- **Termination.**  If every iteration that goes on raises a measure that
stays below a bound, the loop ends within as many iterations as the bound. -/
theorem scan_terminates (μ : σ → Nat) {bound : Nat} (Inv : σ → Prop)
    (hinv : ∀ s a s', Inv s → next s = .emit a s' → Inv s')
    (hμ : ∀ s a s', Inv s → next s = .emit a s' → μ s + 1 ≤ μ s')
    (hbound : ∀ s, Inv s → μ s ≤ bound) {s : σ} (hs : Inv s) {fuel : Nat} (hfuel : bound < fuel) :
    (scan next fuel s).status ≠ .running := by
  intro hrun
  have hemits := emits_scan next fuel s
  have hlen := length_of_running next fuel s hrun
  have hend := hbound _ (hemits.invariant Inv hinv hs)
  have hgrow := hemits.measure μ Inv hinv hμ hs
  omega

end Emit
