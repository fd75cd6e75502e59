import PacPrism.Foundations.Numerals

/-!
# Foundations/Layout — records written to text piece by piece, and read back

A layout is a list of pieces: a literal, a field written as one of a list of names, and a field
written as a number of a fixed width.  No piece runs into the next, so a record that fits its
layout is read back from its text (`read_render`), up to the fields the layout does not mention.
-/

namespace Bytes

/-- The last digits of a number, with the zeros in front. -/
def zeroPadded : Nat → Nat → Bytes
  | 0, _ => []
  | width + 1, n => zeroPadded width (n / 10) ++ [UInt8.ofNat (48 + n % 10)]

@[simp] theorem length_zeroPadded (width n : Nat) : (zeroPadded width n).length = width := by
  induction width generalizing n with
  | zero => rfl
  | succ width ih => rw [zeroPadded, List.length_append, ih, List.length_singleton]

theorem digit_byte : ∀ d < 10, isDigit (UInt8.ofNat (48 + d)) = true
    ∧ (Char.ofNat (UInt8.ofNat (48 + d)).toNat).toNat - '0'.toNat = d := by decide

theorem isDigit_of_mem_zeroPadded {width n : Nat} : ∀ b ∈ zeroPadded width n, isDigit b = true := by
  induction width generalizing n with
  | zero => exact fun b hb => absurd hb List.not_mem_nil
  | succ width ih =>
    intro b hb
    rcases List.mem_append.1 hb with hb | hb
    · exact ih b hb
    · rw [List.mem_singleton.1 hb]
      exact (digit_byte _ (Nat.mod_lt n (by decide))).1

theorem digitsValue_zeroPadded {width n : Nat} (h : n < 10 ^ width) :
    digitsValue (zeroPadded width n) = n := by
  induction width generalizing n with
  | zero =>
    obtain rfl : n = 0 := by simpa using h
    rfl
  | succ width ih =>
    have hfront := ih (n := n / 10) (by rw [Nat.pow_succ] at h; omega)
    rw [digitsValue] at hfront
    rw [digitsValue, zeroPadded, List.map_append, Nat.ofDigitChars_append, hfront,
      List.map_singleton, Nat.ofDigitChars_cons, Nat.ofDigitChars_nil,
      (digit_byte _ (Nat.mod_lt n (by decide))).2]
    omega

end Bytes

/-- A piece of a text about a record. -/
inductive Piece (ρ : Type) where
  | literal (text : Bytes)
  /-- A field, counted from 0, by its name. -/
  | name (names : List Bytes) (get : ρ → Int) (set : ρ → Int → ρ)
  /-- A field with a fixed number of digits. -/
  | number (width : Nat) (get : ρ → Int) (set : ρ → Int → ρ)

namespace Piece

variable {ρ : Type}

/-- No name starts with another one. -/
def Clear : Piece ρ → Prop
  | name names _ _ => names.Pairwise fun a b => ¬ a <+: b ∧ ¬ b <+: a
  | _ => True

instance : DecidablePred (@Clear ρ)
  | name names _ _ => inferInstanceAs (Decidable (names.Pairwise fun a b => ¬ a <+: b ∧ ¬ b <+: a))
  | literal _ => .isTrue trivial
  | number _ _ _ => .isTrue trivial

/-- The field has a text. -/
def Fits (r : ρ) : Piece ρ → Prop
  | literal _ => True
  | name names get _ => 0 ≤ get r ∧ get r < names.length
  | number width get _ => 0 ≤ get r ∧ get r < (10 ^ width : Nat)

/-- The text of the piece. -/
def render (r : ρ) : Piece ρ → Bytes
  | literal text => text
  | name names get _ => names.getD (get r).toNat []
  | number width get _ => Bytes.zeroPadded width (get r).toNat

/-- Read the piece at the front of a text into a record. -/
def read (r : ρ) (s : Bytes) : Piece ρ → Option (ρ × Bytes)
  | literal text => if text.isPrefixOf s then some (r, s.drop text.length) else none
  | name names _ set =>
    (names.findIdx? (·.isPrefixOf s)).map fun i : Nat =>
      (set r i, s.drop (names.getD i []).length)
  | number width _ set =>
    if (s.take width).length = width ∧ (s.take width).all Bytes.isDigit then
      some (set r (Bytes.digitsValue (s.take width)), s.drop width)
    else none

/-- Copy the field of the piece from one record to another. -/
def assign (source target : ρ) : Piece ρ → ρ
  | literal _ => target
  | name _ get set => set target (get source)
  | number _ get set => set target (get source)

theorem findIdx_name {names : List Bytes}
    (hclear : names.Pairwise fun a b => ¬ a <+: b ∧ ¬ b <+: a) {i : Nat} (hi : i < names.length)
    (rest : Bytes) : names.findIdx? (·.isPrefixOf (names[i] ++ rest)) = some i := by
  rw [List.findIdx?_eq_some_iff_getElem]
  refine ⟨hi, List.isPrefixOf_iff_prefix.2 (List.prefix_append _ rest), fun j hj hpre => ?_⟩
  have hne := List.pairwise_iff_getElem.1 hclear j i (by omega) hi hj
  rcases List.prefix_or_prefix_of_prefix (List.isPrefixOf_iff_prefix.1 hpre)
    (List.prefix_append names[i] rest) with h | h
  exacts [hne.1 h, hne.2 h]

/-- **A piece is read back**, and nothing behind it is. -/
theorem read_render {p : Piece ρ} {r : ρ} (hclear : p.Clear) (hfits : p.Fits r) (target : ρ)
    (rest : Bytes) : p.read target (p.render r ++ rest) = some (p.assign r target, rest) := by
  cases p with
  | literal text =>
    rw [read, render, if_pos (List.isPrefixOf_iff_prefix.2 (List.prefix_append text rest)),
      List.drop_left]
    rfl
  | name names get set =>
    obtain ⟨hlow, hhigh⟩ := hfits
    have hi : (get r).toNat < names.length := by omega
    have hname : names.getD (get r).toNat [] = names[(get r).toNat] := by simp [hi]
    rw [read, render, hname, findIdx_name hclear hi rest, Option.map_some, hname, List.drop_left,
      Int.toNat_of_nonneg hlow]
    rfl
  | number width get set =>
    obtain ⟨hlow, hhigh⟩ := hfits
    have hlength := Bytes.length_zeroPadded width (get r).toNat
    have hvalue : Bytes.digitsValue (Bytes.zeroPadded width (get r).toNat) = (get r).toNat :=
      Bytes.digitsValue_zeroPadded (by omega)
    rw [read, render, List.take_left' hlength, List.drop_left' hlength, hvalue,
      if_pos ⟨hlength, List.all_eq_true.2 Bytes.isDigit_of_mem_zeroPadded⟩,
      Int.toNat_of_nonneg hlow]
    rfl

end Piece

/-- The pieces of a text, in order. -/
abbrev Layout (ρ : Type) := List (Piece ρ)

namespace Layout

variable {ρ : Type}

/-- The text of a record. -/
def render (layout : Layout ρ) (r : ρ) : Bytes := layout.flatMap fun p => p.render r

/-- Read a text into a record; what is behind the last piece is left. -/
def read (layout : Layout ρ) (r : ρ) (s : Bytes) : Option (ρ × Bytes) :=
  layout.foldlM (fun x p => p.read x.1 x.2) (r, s)

/-- Copy the fields of the layout from one record to another. -/
def assign (layout : Layout ρ) (source target : ρ) : ρ :=
  layout.foldl (fun target p => p.assign source target) target

/-- **The text of a record is read back**: the fields of the layout are those of the record, and the
others stay as they were. -/
theorem read_render {layout : Layout ρ} {r : ρ} (hclear : ∀ p ∈ layout, p.Clear)
    (hfits : ∀ p ∈ layout, p.Fits r) (target : ρ) (rest : Bytes) :
    layout.read target (layout.render r ++ rest) = some (layout.assign r target, rest) := by
  induction layout generalizing target with
  | nil => rfl
  | cons p layout ih =>
    have hpiece := Piece.read_render (hclear p List.mem_cons_self) (hfits p List.mem_cons_self)
      target (render layout r ++ rest)
    have hrest := ih (fun q hq => hclear q (List.mem_cons_of_mem p hq))
      (fun q hq => hfits q (List.mem_cons_of_mem p hq)) (p.assign r target)
    rw [read, render, List.flatMap_cons, List.append_assoc, List.foldlM_cons]
    dsimp only
    rw [← render, hpiece]
    exact hrest

end Layout
