import Mathlib.Algebra.Group.Int.Defs
import Mathlib.Algebra.Group.Nat.Defs
import Mathlib.Data.List.TakeWhile
import PacPrism.Foundations.Exceptions

/-!
# Foundations/Numerals — decimal text

`std::stoull` and `std::stoi` skip leading blanks, accept one sign and ignore whatever follows the
digits; a negated magnitude wraps around in an unsigned type.
-/

namespace Bytes

/-- `isspace` in the C locale. -/
def isSpace (b : UInt8) : Bool := b == 0x20 || (0x09 ≤ b && b ≤ 0x0d)

/-- `isdigit`. -/
def isDigit (b : UInt8) : Bool := 0x30 ≤ b && b ≤ 0x39

/-- The number a sequence of digits denotes. -/
def digitsValue (ds : Bytes) : Nat := Nat.ofDigitChars 10 (ds.map fun b => Char.ofNat b.toNat) 0

/-- The number at the front of a text, as its sign and its magnitude. -/
def scanInteger (s : Bytes) : Option (Bool × Nat) :=
  let s := s.dropWhile isSpace
  let negative := s.head? == some 0x2d
  let s := if negative || s.head? == some 0x2b then s.tail else s
  let ds := s.takeWhile isDigit
  if ds = [] then none else some (negative, digitsValue ds)

/-- `std::stoull`. -/
def stoull (s : Bytes) : Except Exn Nat :=
  match scanInteger s with
  | none => throw ⟨.invalidArgument, lit "stoull"⟩
  | some (negative, n) =>
    if n < 2 ^ 64 then pure (if negative then (2 ^ 64 - n) % 2 ^ 64 else n)
    else throw ⟨.outOfRange, lit "stoull"⟩

/-- `std::stoi`. -/
def stoi (s : Bytes) : Except Exn Int :=
  match scanInteger s with
  | none => throw ⟨.invalidArgument, lit "stoi"⟩
  | some (negative, n) =>
    let i : Int := if negative then -n else n
    if -2 ^ 31 ≤ i ∧ i < 2 ^ 31 then pure i else throw ⟨.outOfRange, lit "stoi"⟩

/-- The decimal text of a number. -/
def decimal (n : Nat) : Bytes := (Nat.toDigits 10 n).map fun c => UInt8.ofNat c.toNat

/-- The decimal text of a signed number. -/
def decimalInt : Int → Bytes
  | .ofNat n => decimal n
  | .negSucc n => lit "-" ++ decimal (n + 1)

/-- **Decimal text reads back as the number it was written from.** -/
theorem digitsValue_decimal (n : Nat) : digitsValue (decimal n) = n := by
  have hback : ∀ c ∈ Nat.toDigits 10 n, Char.ofNat (UInt8.ofNat c.toNat).toNat = c := by
    intro c hc
    have hdigit := Nat.isDigit_of_mem_toDigits (by decide) le_rfl hc
    have hle : c.toNat ≤ 57 := by
      rw [Char.isDigit, Bool.and_eq_true, decide_eq_true_iff, decide_eq_true_iff] at hdigit
      exact hdigit.2
    rw [UInt8.toNat_ofNat_of_lt' (by simp [UInt8.size]; omega), Char.ofNat_toNat]
  have hmap : (decimal n).map (fun b => Char.ofNat b.toNat) = Nat.toDigits 10 n := by
    rw [decimal, List.map_map]
    exact (List.map_congr_left hback).trans (List.map_id _)
  rw [digitsValue, hmap, Nat.ofDigitChars_ten_toDigits]

theorem decimal_injective : Function.Injective decimal := fun m n h => by
  rw [← digitsValue_decimal m, h, digitsValue_decimal]

end Bytes

/-! ## Numerals -/

/-- A text of one or more digits. -/
structure Numeral where
  digits : Bytes
  ne : digits ≠ []
  digit : ∀ b ∈ digits, Bytes.isDigit b = true

namespace Numeral

/-- The number a numeral denotes. -/
def value (n : Numeral) : Nat := Bytes.digitsValue n.digits

/-- The decimal numeral of a number. -/
def ofNat (n : Nat) : Numeral where
  digits := Bytes.decimal n
  ne := by simp [Bytes.decimal]
  digit b hb := by
    obtain ⟨c, hc, rfl⟩ := List.mem_map.1 hb
    have hdigit := Nat.isDigit_of_mem_toDigits (by decide) le_rfl hc
    rw [Char.isDigit, Bool.and_eq_true, decide_eq_true_iff, decide_eq_true_iff] at hdigit
    have hlow : 48 ≤ c.toNat := hdigit.1
    have hhigh : c.toNat ≤ 57 := hdigit.2
    have hbyte : (UInt8.ofNat c.toNat).toNat = c.toNat :=
      UInt8.toNat_ofNat_of_lt' (by simp [UInt8.size]; omega)
    simp [Bytes.isDigit, UInt8.le_iff_toNat_le, hbyte, hlow, hhigh]

@[simp] theorem value_ofNat (n : Nat) : (ofNat n).value = n := Bytes.digitsValue_decimal n

/-- A digit is neither a blank nor a sign. -/
theorem of_isDigit {b : UInt8} (h : Bytes.isDigit b = true) :
    Bytes.isSpace b = false ∧ b ≠ 0x2d ∧ b ≠ 0x2b := by
  simp [Bytes.isDigit, UInt8.le_iff_toNat_le] at h
  simp [Bytes.isSpace, UInt8.le_iff_toNat_le, ← UInt8.toNat_inj]
  omega

end Numeral

/-! ## What the conversions accept -/

/-- A numeral as the scan meets it: behind blanks and a sign, and with anything behind it that is
not another digit. -/
structure LenientNumeral where
  blanks : Bytes
  sign : Bytes
  numeral : Numeral
  rest : Bytes
  blank : ∀ b ∈ blanks, Bytes.isSpace b = true
  sign_eq : sign = [] ∨ sign = [0x2b] ∨ sign = [0x2d]
  stop : ∀ b ∈ rest.head?, Bytes.isDigit b = false

namespace LenientNumeral

/-- The text. -/
def text (l : LenientNumeral) : Bytes := l.blanks ++ (l.sign ++ (l.numeral.digits ++ l.rest))

/-- The sign is a minus. -/
def negative (l : LenientNumeral) : Bool := l.sign == [0x2d]

/-- A scan stops at the first byte that fails its test. -/
theorem span_append {p : UInt8 → Bool} {a c : Bytes} (ha : ∀ b ∈ a, p b = true)
    (hc : ∀ b ∈ c.head?, p b = false) : (a ++ c).takeWhile p = a ∧ (a ++ c).dropWhile p = c := by
  rw [List.takeWhile_append_of_pos ha, List.dropWhile_append_of_pos ha]
  cases c with
  | nil => simp
  | cons b c => simp [hc b rfl]

/-- **The number at the front of a text** is scanned, and nothing else of it matters. -/
theorem scanInteger_text (l : LenientNumeral) :
    Bytes.scanInteger l.text = some (l.negative, l.numeral.value) := by
  obtain ⟨blanks, sign, numeral, rest, hblank, hsign, hstop⟩ := l
  obtain ⟨d, ds, hds⟩ := List.exists_cons_of_ne_nil numeral.ne
  obtain ⟨hspace, hminus, hplus⟩ := Numeral.of_isDigit (numeral.digit d (hds ▸ List.mem_cons_self))
  have hhead : (numeral.digits ++ rest).head? = some d := by rw [hds]; rfl
  have hall : (numeral.digits ++ rest).takeWhile Bytes.isDigit = numeral.digits :=
    (span_append numeral.digit hstop).1
  have hblanks : (blanks ++ (sign ++ (numeral.digits ++ rest))).dropWhile Bytes.isSpace
      = sign ++ (numeral.digits ++ rest) := by
    refine (span_append hblank ?_).2
    rcases hsign with rfl | rfl | rfl
    · simpa [hhead] using hspace
    all_goals
      intro b hb
      obtain rfl := Option.some.inj hb
      decide
  rw [Bytes.scanInteger, text]
  simp only [hblanks]
  rcases hsign with rfl | rfl | rfl <;>
    simp [hhead, hminus, hplus, hall, numeral.ne, negative, Numeral.value]

/-- What a scan leaves starts with a byte that fails its test. -/
theorem head_dropWhile (p : UInt8 → Bool) (s : Bytes) :
    ∀ b ∈ (s.dropWhile p).head?, p b = false := by
  intro b hb
  have hnot := List.head?_dropWhile_not p s
  rw [Option.mem_def.1 hb] at hnot
  simpa using hnot

/-- The sign a scan takes off the front. -/
theorem exists_sign (s : Bytes) : ∃ sign t, s = sign ++ t
    ∧ (sign = [] ∨ sign = [0x2b] ∨ sign = [0x2d]) ∧ (s.head? == some 0x2d) = (sign == [0x2d])
    ∧ (if s.head? == some 0x2d || s.head? == some 0x2b then s.tail else s) = t := by
  cases s with
  | nil => exact ⟨[], [], by decide⟩
  | cons b s =>
    by_cases hminus : b = 0x2d
    · exact ⟨[b], s, rfl, by simp [hminus], by simp [hminus], by simp [hminus]⟩
    · by_cases hplus : b = 0x2b
      · exact ⟨[b], s, rfl, by simp [hplus], by simp [hplus], by simp [hplus]⟩
      · exact ⟨[], b :: s, rfl, .inl rfl, by simp [hminus], by simp [hminus, hplus]⟩

/-- **Every text that a number is scanned from is of this form.** -/
theorem exists_of_scanInteger {s : Bytes} {negative : Bool} {n : Nat}
    (h : Bytes.scanInteger s = some (negative, n)) :
    ∃ l : LenientNumeral, l.text = s ∧ l.negative = negative ∧ l.numeral.value = n := by
  obtain ⟨sign, t, hs, hsign, hnegative, ht⟩ := exists_sign (s.dropWhile Bytes.isSpace)
  rw [Bytes.scanInteger, ht, hnegative] at h
  split_ifs at h with hne
  obtain ⟨rfl, rfl⟩ := Prod.mk.inj (Option.some.inj h)
  refine ⟨⟨s.takeWhile Bytes.isSpace, sign,
    ⟨t.takeWhile Bytes.isDigit, hne, List.all_eq_true.1 List.all_takeWhile⟩,
    t.dropWhile Bytes.isDigit, List.all_eq_true.1 List.all_takeWhile, hsign,
    head_dropWhile _ t⟩, ?_, rfl, rfl⟩
  rw [text, List.takeWhile_append_dropWhile, ← hs, List.takeWhile_append_dropWhile]

/-- The number that `std::stoull` makes of it: a negated one wraps around. -/
def value (l : LenientNumeral) : Nat :=
  if l.negative then (2 ^ 64 - l.numeral.value) % 2 ^ 64 else l.numeral.value

/-- **What `std::stoull` accepts.** -/
theorem stoull_eq_ok_iff (s : Bytes) (n : Nat) : Bytes.stoull s = .ok n
    ↔ ∃ l : LenientNumeral, l.text = s ∧ l.numeral.value < 2 ^ 64 ∧ l.value = n := by
  constructor
  · intro h
    rw [Bytes.stoull] at h
    cases hscan : Bytes.scanInteger s with
    | none =>
      rw [hscan] at h
      cases h
    | some scanned =>
      obtain ⟨l, rfl, hnegative, hvalue⟩ := exists_of_scanInteger hscan
      rw [hscan] at h
      dsimp only at h
      rw [← hnegative, ← hvalue] at h
      split_ifs at h with hfits hminus
      · exact ⟨l, rfl, hfits, by rw [value, if_pos hminus]; exact Except.ok.inj h⟩
      · exact ⟨l, rfl, hfits, by rw [value, if_neg hminus]; exact Except.ok.inj h⟩
  · rintro ⟨l, rfl, hfits, rfl⟩
    rw [Bytes.stoull, l.scanInteger_text]
    dsimp only
    rw [if_pos hfits]
    rfl

end LenientNumeral

namespace Numeral

/-- **A numeral is converted to its value**, if that fits in 64 bits. -/
theorem stoull (n : Numeral) : Bytes.stoull n.digits
    = if n.value < 2 ^ 64 then .ok n.value else .error ⟨.outOfRange, lit "stoull"⟩ := by
  have hscan := LenientNumeral.scanInteger_text ⟨[], [], n, [], by simp, .inl rfl, by simp⟩
  rw [LenientNumeral.text, List.nil_append, List.nil_append, List.append_nil] at hscan
  rw [Bytes.stoull, hscan]
  rfl

end Numeral
