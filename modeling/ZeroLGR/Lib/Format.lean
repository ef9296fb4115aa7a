/-
  ZeroLGR.Lib.Format — formats that say where a value ends.

  A format writes values as lists and reads them back from an offset of a
  message.  Its law is an equivalence: a value is read at an offset if and only
  if what is written for it stands there, and the reader ends behind it.  The
  law is a field, so formats that are put together obey it by construction.

  Main results:
    * `Format.block`, `Format.word`, `Format.seq`, `Format.imap`,
      `Format.counted` — formats, and how they are put together,
    * `Format.read_write` — what is written is read, and nothing behind it,
    * `Format.write_prefix` — no two values begin in the same way,
    * `Format.write_of_read` — what is read whole is what is written.
-/
import ZeroLGR.Lib.Bytes
import ZeroLGR.Lib.Span

open Span

/-- How values of `β` are written as lists over `α`, which ones can be, and how
one is read from an offset: the value, and the offset behind it. -/
structure Format (α β : Type*) where
  write : β → List α
  valid : β → Prop
  read : List α → Nat → Option (β × Nat)
  read_iff : ∀ {data off b stop}, read data off = some (b, stop) ↔
    valid b ∧ At data off (write b) ∧ stop = off + (write b).length

namespace Format

variable {α β γ : Type*}

/-! ## §1. Putting formats together. -/

/-- One value behind the other. -/
def seq (f : Format α β) (g : Format α γ) : Format α (β × γ) where
  write p := f.write p.1 ++ g.write p.2
  valid p := f.valid p.1 ∧ g.valid p.2
  read data off := (f.read data off).bind fun b => (g.read data b.2).map fun c => ((b.1, c.1), c.2)
  read_iff := by
    intro data off p stop
    rw [Option.bind_eq_some_iff, at_append, List.length_append]
    constructor
    · -- the second reader starts where the first has ended
      rintro ⟨⟨b, mid⟩, hb, hrest⟩
      obtain ⟨⟨c, stop'⟩, hc, hp⟩ := Option.map_eq_some_iff.mp hrest
      cases hp
      obtain ⟨hbvalid, hbat, rfl⟩ := f.read_iff.mp hb
      obtain ⟨hcvalid, hcat, rfl⟩ := g.read_iff.mp hc
      exact ⟨⟨hbvalid, hcvalid⟩, ⟨hbat, hcat⟩, Nat.add_assoc _ _ _⟩
    · rintro ⟨⟨hbvalid, hcvalid⟩, ⟨hbat, hcat⟩, rfl⟩
      refine ⟨(p.1, off + (f.write p.1).length), f.read_iff.mpr ⟨hbvalid, hbat, rfl⟩, ?_⟩
      rw [g.read_iff.mpr ⟨hcvalid, hcat, rfl⟩, Option.map_some, Nat.add_assoc]

@[simp] theorem write_seq (f : Format α β) (g : Format α γ) (p : β × γ) :
    (f.seq g).write p = f.write p.1 ++ g.write p.2 := rfl

@[simp] theorem valid_seq (f : Format α β) (g : Format α γ) (p : β × γ) :
    (f.seq g).valid p ↔ f.valid p.1 ∧ g.valid p.2 := Iff.rfl

/-- Other values for the same lists. -/
def imap (f : Format α β) (enc : γ → β) (dec : β → γ) (dec_enc : ∀ c, dec (enc c) = c)
    (enc_dec : ∀ b, f.valid b → enc (dec b) = b) : Format α γ where
  write c := f.write (enc c)
  valid c := f.valid (enc c)
  read data off := (f.read data off).map fun b => (dec b.1, b.2)
  read_iff := by
    intro data off c stop
    rw [Option.map_eq_some_iff, ← f.read_iff]
    constructor
    · rintro ⟨⟨b, stop'⟩, hb, hc⟩
      cases hc
      rw [enc_dec b (f.read_iff.mp hb).1]
      exact hb
    · intro h
      exact ⟨(enc c, stop), h, by rw [dec_enc]⟩

/-- `n` elements as they are. -/
def block (α : Type*) (n : Nat) : Format α { as : List α // as.length = n } where
  write as := as.val
  valid _ := True
  read data off :=
    if h : off + n ≤ data.length then
      some (⟨(data.drop off).take n, by rw [List.length_take, List.length_drop]; omega⟩, off + n)
    else none
  read_iff := by
    intro data off as stop
    constructor
    · intro h
      split at h
      · next hle =>
          obtain ⟨rfl, rfl⟩ := Prod.mk.inj (Option.some.inj h)
          refine ⟨trivial, at_take hle, ?_⟩
          rw [List.length_take, List.length_drop]
          omega
      · cases h
    · rintro ⟨-, hat, rfl⟩
      obtain ⟨as, rfl⟩ := as
      rw [dif_pos hat.le]
      simp only [hat.take]

/-- A number in `w` bytes, least significant first. -/
def word (w : Nat) : Format UInt8 Nat where
  write n := Bytes.toLE w n
  valid n := n < 256 ^ w
  read data off := ((block UInt8 w).read data off).map fun bs => (Bytes.ofLE bs.1.val, bs.2)
  read_iff := by
    intro data off n stop
    rw [Option.map_eq_some_iff]
    constructor
    · rintro ⟨⟨⟨bs, hlen⟩, stop'⟩, hbs, hn⟩
      cases hn
      obtain ⟨-, hat, rfl⟩ := (block UInt8 w).read_iff.mp hbs
      obtain rfl : bs.length = w := hlen
      have hvalue : Bytes.toLE bs.length (Bytes.ofLE bs) = bs := Bytes.toLE_ofLE bs
      refine ⟨Bytes.ofLE_lt bs, ?_, ?_⟩
      · rw [hvalue]
        exact hat
      · rw [hvalue]
        rfl
    · rintro ⟨hlt, hat, rfl⟩
      refine ⟨(⟨Bytes.toLE w n, Bytes.length_toLE w n⟩, off + (Bytes.toLE w n).length),
        (block UInt8 w).read_iff.mpr ⟨trivial, hat, rfl⟩, ?_⟩
      simp only [Bytes.ofLE_toLE_of_lt hlt]

/-- The number of elements, and the elements. -/
def counted (len : Format α Nat) : Format α (List α) where
  write as := len.write as.length ++ as
  valid as := len.valid as.length
  read data off := (len.read data off).bind fun n =>
    ((block α n.1).read data n.2).map fun as => (as.1.val, as.2)
  read_iff := by
    intro data off as stop
    rw [Option.bind_eq_some_iff, at_append, List.length_append]
    constructor
    · -- as many elements are read as the number in front of them says
      rintro ⟨⟨n, mid⟩, hn, hrest⟩
      obtain ⟨⟨⟨bs, hlen⟩, stop'⟩, hbs, has⟩ := Option.map_eq_some_iff.mp hrest
      cases has
      obtain rfl : bs.length = n := hlen
      obtain ⟨hvalid, hnat, rfl⟩ := len.read_iff.mp hn
      obtain ⟨-, hbsat, rfl⟩ := (block α bs.length).read_iff.mp hbs
      exact ⟨hvalid, ⟨hnat, hbsat⟩, Nat.add_assoc _ _ _⟩
    · rintro ⟨hvalid, ⟨hnat, hasat⟩, rfl⟩
      refine ⟨(as.length, off + (len.write as.length).length),
        len.read_iff.mpr ⟨hvalid, hnat, rfl⟩, ?_⟩
      have hread := (block α as.length).read_iff (b := ⟨as, rfl⟩).mpr ⟨trivial, hasat, rfl⟩
      rw [hread, Option.map_some, Nat.add_assoc]
      rfl

/-! ## §2. What every format does. -/

variable (f : Format α β) {b c : β}

/-- **What is written is read**, wherever it stands, and nothing behind it. -/
theorem read_at {data : List α} {off : Nat} (hb : f.valid b) (h : At data off (f.write b)) :
    f.read data off = some (b, off + (f.write b).length) :=
  f.read_iff.mpr ⟨hb, h, rfl⟩

theorem read_write (hb : f.valid b) (rest : List α) :
    f.read (f.write b ++ rest) 0 = some (b, (f.write b).length) := by
  have hat := (at_append.mp (at_self (f.write b ++ rest))).1
  rw [f.read_at hb hat, Nat.zero_add]

theorem read_whole (hb : f.valid b) : f.read (f.write b) 0 = some (b, (f.write b).length) := by
  rw [f.read_at hb (at_self _), Nat.zero_add]

/-- **No two values begin in the same way.** -/
theorem write_prefix (hb : f.valid b) (hc : f.valid c) {rest rest' : List α}
    (h : f.write b ++ rest = f.write c ++ rest') : b = c ∧ rest = rest' := by
  have hread := f.read_write hb rest
  rw [h, f.read_write hc rest'] at hread
  obtain ⟨rfl, -⟩ := Prod.mk.inj (Option.some.inj hread)
  exact ⟨rfl, List.append_cancel_left h⟩

theorem write_inj (hb : f.valid b) (hc : f.valid c) (h : f.write b = f.write c) : b = c := by
  have hrest : f.write b ++ [] = f.write c ++ [] := by rw [h]
  exact (f.write_prefix hb hc hrest).1

/-- **What is read whole is what is written.** -/
theorem write_of_read {data : List α} (h : f.read data 0 = some (b, data.length)) :
    f.valid b ∧ f.write b = data := by
  obtain ⟨hvalid, hat, hlen⟩ := f.read_iff.mp h
  have htake := hat.take
  rw [Nat.zero_add] at hlen
  rw [List.drop_zero, ← hlen, List.take_length] at htake
  exact ⟨hvalid, htake.symm⟩

end Format
