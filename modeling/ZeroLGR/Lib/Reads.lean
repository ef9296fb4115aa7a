/-
  ZeroLGR.Lib.Reads — decoders that read from memory, and how far they read.

  A decoder that is handed a pointer may read behind the end of the message.
  `Reader` is what such a decoder computes together with the spans it reads; the
  memory behind the message may hold anything.  A checked decoder, which gives up
  at the end of the message, tells the two apart: where it returns a value the
  reads stay inside, and where it gives up one of them does not.

  Main results:
    * `Read.within_iff` — when a span is inside,
    * `Checks.bind`, `Checks.map` — checked decoders compose,
    * `checks_load`, `checks_loadByte` — one copy from memory.
-/
import ZeroLGR.Lib.Bytes

namespace Reads

universe u

variable {α β : Type u}

/-! ## §1. Reads. -/

/-- The bytes `[offset, offset + length)` are read. -/
structure Read where
  offset : Nat
  length : Nat
  deriving DecidableEq

/-- Only bytes below `size` are read. -/
def Read.Within (r : Read) (size : Nat) : Prop :=
  ∀ i, r.offset ≤ i → i < r.offset + r.length → i < size

theorem Read.within_iff {r : Read} {size : Nat} :
    r.Within size ↔ r.length = 0 ∨ r.offset + r.length ≤ size := by
  constructor
  · intro h
    by_cases hzero : r.length = 0
    · exact .inl hzero
    · have hlast := h (r.offset + r.length - 1) (by omega) (by omega)
      omega
  · intro h i hi hlt
    omega

instance (r : Read) (size : Nat) : Decidable (r.Within size) :=
  decidable_of_iff _ Read.within_iff.symm

/-- A value, and the spans that were read for it. -/
structure Reader (α : Type u) where
  value : α
  reads : List Read
  deriving DecidableEq

instance : Monad Reader where
  pure a := ⟨a, []⟩
  bind x f := ⟨(f x.value).value, x.reads ++ (f x.value).reads⟩

/-- The message, and behind it whatever is there. -/
def extend (data : Bytes) (beyond : Nat → UInt8) : Nat → UInt8 :=
  fun i => data.getD i (beyond i)

/-- Copy `n` bytes from memory. -/
def load (m : Nat → UInt8) (off n : Nat) : Reader Bytes := ⟨Bytes.readAt m off n, [⟨off, n⟩]⟩

/-- One byte of memory. -/
def loadByte (m : Nat → UInt8) (off : Nat) : Reader UInt8 := ⟨m off, [⟨off, 1⟩]⟩

/-- Inside the message memory is the message. -/
theorem readAt_extend {data : Bytes} {beyond : Nat → UInt8} {off n : Nat}
    (h : off + n ≤ data.length) :
    Bytes.readAt (extend data beyond) off n = (data.drop off).take n := by
  refine List.ext_getElem? ?_
  intro i
  rw [Bytes.readAt_getElem?]
  by_cases hi : i < n
  · have hlt : off + i < data.length := by omega
    rw [if_pos hi, List.getElem?_take_of_lt hi, List.getElem?_drop, extend,
      List.getD_eq_getElem _ _ hlt, List.getElem?_eq_getElem hlt]
  · rw [if_neg hi, List.getElem?_take_eq_none (by omega)]

/-! ## §2. Checked decoders. -/

/-- The checked decoder returns the value if all reads are inside the message,
and gives up if one of them is not. -/
structure Checks (size : Nat) (checked : Option α) (x : Reader α) : Prop where
  value : ∀ a, checked = some a → x.value = a
  inside : checked.isSome = true → ∀ r ∈ x.reads, r.Within size
  outside : checked = none → ∃ r ∈ x.reads, ¬ r.Within size

theorem Checks.pure {size : Nat} (a : α) : Checks size (some a) (Pure.pure a) := by
  refine ⟨fun _ h => Option.some.inj h, ?_, fun h => by cases h⟩
  intro _ r hr
  cases hr

/-- **Composition.**  The first read that leaves the message is that of the first
decoder that gives up. -/
theorem Checks.bind {size : Nat} {o : Option α} {x : Reader α} {f : α → Option β}
    {g : α → Reader β} (h : Checks size o x) (hf : ∀ a, o = some a → Checks size (f a) (g a)) :
    Checks size (o.bind f) (x >>= g) := by
  cases o with
  | none =>
      refine ⟨fun _ hnone => (by cases hnone), fun hnone => (by cases hnone), ?_⟩
      intro _
      obtain ⟨r, hr, hout⟩ := h.outside rfl
      exact ⟨r, List.mem_append_left _ hr, hout⟩
  | some a =>
      have hnext := hf a rfl
      rw [← h.value a rfl] at hnext ⊢
      refine ⟨hnext.value, ?_, ?_⟩
      · intro hsome r hr
        rcases List.mem_append.mp hr with hfirst | hsecond
        · exact h.inside rfl r hfirst
        · exact hnext.inside hsome r hsecond
      · intro hnone
        obtain ⟨r, hr, hout⟩ := hnext.outside hnone
        exact ⟨r, List.mem_append_right _ hr, hout⟩

theorem Checks.map {size : Nat} {o : Option α} {x : Reader α} (h : Checks size o x) (f : α → β) :
    Checks size (o.map f) (x >>= fun a => Pure.pure (f a)) := by
  rw [Option.map_eq_bind]
  exact h.bind (fun a _ => .pure (f a))

/-- A copy that is checked against the end of the message. -/
theorem checks_load {data : Bytes} {off n : Nat} (beyond : Nat → UInt8)
    (h : 0 < n ∨ off ≤ data.length) :
    Checks data.length (if off + n ≤ data.length then some ((data.drop off).take n) else none)
      (load (extend data beyond) off n) := by
  by_cases hfit : off + n ≤ data.length
  · rw [if_pos hfit]
    refine ⟨?_, ?_, fun hnone => by cases hnone⟩
    · intro bs hbs
      rw [← Option.some.inj hbs]
      exact readAt_extend hfit
    · intro _ r hr
      rw [List.mem_singleton.mp hr]
      exact Read.within_iff.mpr (.inr hfit)
  · rw [if_neg hfit]
    refine ⟨fun _ hnone => (by cases hnone), fun hnone => (by cases hnone), ?_⟩
    intro _
    refine ⟨⟨off, n⟩, List.mem_singleton_self _, ?_⟩
    intro hwithin
    rcases Read.within_iff.mp hwithin with hzero | hle
    · have hn : n = 0 := hzero
      omega
    · exact hfit hle

/-- One byte that is checked against it. -/
theorem checks_loadByte (data : Bytes) (off : Nat) (beyond : Nat → UInt8) :
    Checks data.length data[off]? (loadByte (extend data beyond) off) := by
  have hwithin : Read.Within ⟨off, 1⟩ data.length ↔ off < data.length :=
    Read.within_iff.trans ⟨fun h => h.resolve_left Nat.one_ne_zero, .inr⟩
  refine ⟨?_, ?_, ?_⟩
  · intro byte hbyte
    show data.getD off (beyond off) = byte
    rw [List.getD_eq_getElem?_getD, hbyte]
    rfl
  · intro hsome r hr
    obtain ⟨byte, hbyte⟩ := Option.isSome_iff_exists.mp hsome
    rw [List.mem_singleton.mp hr]
    exact hwithin.mpr (List.getElem?_eq_some_iff.mp hbyte).1
  · intro hnone
    refine ⟨⟨off, 1⟩, List.mem_singleton_self _, ?_⟩
    rw [hwithin]
    exact Nat.not_lt.mpr (List.getElem?_eq_none_iff.mp hnone)

/-- The reads are inside exactly if the checked decoder does not give up. -/
theorem Checks.inside_iff {size : Nat} {o : Option α} {x : Reader α} (h : Checks size o x) :
    (∀ r ∈ x.reads, r.Within size) ↔ o.isSome = true := by
  constructor
  · intro hinside
    by_contra hnone
    obtain ⟨r, hr, hout⟩ := h.outside (Option.not_isSome_iff_eq_none.mp hnone)
    exact hout (hinside r hr)
  · exact h.inside

end Reads
