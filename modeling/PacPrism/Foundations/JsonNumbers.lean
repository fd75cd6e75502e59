import Mathlib.Data.Rat.Cast.Order
import PacPrism.Foundations.Json

/-!
# Foundations/JsonNumbers — number literals, and the integers they are read as

A literal without fraction and exponent is kept as an unsigned or a signed 64-bit integer if it fits
one, every other literal as a double.  Reading it as an `std::int64_t` casts all three without a
range check; `getInt64_parsed_iff` says for which literals that yields the number written.
-/

/-- A number literal: digits after an optional minus sign, or anything with a fraction or an
exponent. -/
inductive NumberLiteral where
  | integer (negative : Bool) (magnitude : Nat)
  | real (x : Rat)

namespace NumberLiteral

/-- The number written. -/
def value : NumberLiteral → Rat
  | .integer false magnitude => (magnitude : Int)
  | .integer true magnitude => (-(magnitude : Int) : Int)
  | .real x => x

/-- What a literal is parsed as, given the nearest double of a number that is not too large for
one. -/
def parsed (toDouble : Rat → Option Rat) : NumberLiteral → Option Json
  | .integer false magnitude =>
    if magnitude < UInt64.size then some (.numberUnsigned (UInt64.ofNat magnitude))
    else (toDouble (magnitude : Int)).map .numberFloat
  | .integer true magnitude =>
    if Int64.minValue.toInt ≤ -(magnitude : Int) then
      some (.numberInteger (Int64.ofInt (-magnitude)))
    else (toDouble (-(magnitude : Int) : Int)).map .numberFloat
  | .real x => (toDouble x).map .numberFloat

/-- The number written is an `std::int64_t`. -/
def IsInt64 (l : NumberLiteral) : Prop := ∃ t : Int64, (t.toInt : Rat) = l.value

end NumberLiteral

/-- What is known of numbers in the texts the library parses: the literal written under a key of the
outermost object, and how the program's platform converts. -/
structure Nlohmann.Numbers (nlohmann : Nlohmann) where
  written : Bytes → Bytes → Option NumberLiteral
  /-- The nearest double; none if the number is too large for one. -/
  toDouble : Rat → Option Rat
  /-- A literal is found under its key, as what it is parsed as. -/
  at_of_written : ∀ {text j key l}, nlohmann.parse text = .ok j → written text key = some l →
    ∃ v, l.parsed toDouble = some v ∧ j.at key = .ok v
  /-- Numbers come from literals. -/
  exists_written : ∀ {text j key v t}, nlohmann.parse text = .ok j → j.at key = .ok v →
    nlohmann.getInt64 v = .ok t → ∃ l, written text key = some l
  /-- The cast of a double that is an integer in range. -/
  castFloat_toInt : ∀ t : Int64, nlohmann.castFloat t.toInt = t

namespace Nlohmann.Numbers

variable {nlohmann : Nlohmann} (numbers : nlohmann.Numbers)

/-- The literal survives the reading: it is an integer in range, and if it is written with a
fraction or an exponent, then its nearest double is that integer.  Where the nearest double is out
of range the language leaves the cast open; it may happen to yield the integer. -/
def Exact : NumberLiteral → Prop
  | .integer negative magnitude => (NumberLiteral.integer negative magnitude).IsInt64
  | .real x => ∃ t : Int64, (t.toInt : Rat) = x ∧ ∃ y, numbers.toDouble x = some y
      ∧ (y = x ∨ (∀ t' : Int64, (t'.toInt : Rat) ≠ y) ∧ nlohmann.castFloat y = t)

theorem Exact.isInt64 {numbers : nlohmann.Numbers} {l : NumberLiteral} (h : numbers.Exact l) :
    l.IsInt64 := by
  cases l with
  | integer => exact h
  | real x =>
    obtain ⟨t, ht, -⟩ := h
    exact ⟨t, ht⟩

/-- A number wraps into an `std::int64_t`, and is kept exactly if it is one. -/
theorem toInt_ofInt_eq_iff (i : Int) :
    (((Int64.ofInt i).toInt : Int) : Rat) = i ↔ ∃ t : Int64, (t.toInt : Rat) = i := by
  constructor
  · exact fun h => ⟨_, h⟩
  · rintro ⟨t, ht⟩
    obtain rfl : t.toInt = i := Int.cast_injective ht
    rw [Int64.ofInt_toInt]

theorem toInt_castFloat_eq_iff {x y : Rat} (hy : numbers.toDouble x = some y) :
    ((nlohmann.castFloat y).toInt : Rat) = x ↔ numbers.Exact (.real x) := by
  constructor
  · intro h
    refine ⟨nlohmann.castFloat y, h, y, hy, ?_⟩
    by_cases hrange : ∃ t : Int64, (t.toInt : Rat) = y
    · obtain ⟨t, rfl⟩ := hrange
      rw [numbers.castFloat_toInt] at h
      exact .inl h
    · exact .inr ⟨fun t ht => hrange ⟨t, ht⟩, rfl⟩
  · rintro ⟨t, rfl, y', hy', hcast⟩
    obtain rfl : y = y' := Option.some.inj (hy.symm.trans hy')
    rcases hcast with rfl | ⟨-, rfl⟩
    · rw [numbers.castFloat_toInt]
    · rfl

/-- **Which literals are read as the number written.** -/
theorem getInt64_parsed_iff {l : NumberLiteral} {v : Json}
    (h : l.parsed numbers.toDouble = some v) :
    ∃ t, nlohmann.getInt64 v = .ok t ∧ ((t.toInt : Rat) = l.value ↔ numbers.Exact l) := by
  -- An integer too large for its kind is no `std::int64_t`, whatever its double is cast to.
  have hlarge {i : Int} {y : Rat} (hi : ∀ t : Int64, t.toInt ≠ i) :
      ((nlohmann.castFloat y).toInt : Rat) = i ↔ ∃ t : Int64, (t.toInt : Rat) = i :=
    iff_of_false (fun heq => hi _ (Int.cast_injective heq))
      fun ⟨t, ht⟩ => hi t (Int.cast_injective ht)
  match l with
  | .integer false n =>
    rw [NumberLiteral.parsed] at h
    split_ifs at h with hfits
    · obtain rfl := Option.some.inj h
      have hwrap : (UInt64.ofNat n).toInt64 = Int64.ofInt n := by
        rw [Int64.ofInt, BitVec.ofInt_natCast]
        rfl
      exact ⟨_, rfl, by rw [hwrap]; exact toInt_ofInt_eq_iff n⟩
    · obtain ⟨y, -, rfl⟩ := Option.map_eq_some_iff.1 h
      refine ⟨_, rfl, hlarge fun t => ?_⟩
      have hlt := t.toInt_lt
      rw [UInt64.size] at hfits
      omega
  | .integer true n =>
    rw [NumberLiteral.parsed] at h
    split_ifs at h with hfits
    · obtain rfl := Option.some.inj h
      exact ⟨_, rfl, toInt_ofInt_eq_iff (-n)⟩
    · obtain ⟨y, -, rfl⟩ := Option.map_eq_some_iff.1 h
      refine ⟨_, rfl, hlarge fun t heq => hfits ?_⟩
      rw [← heq]
      exact t.minValue_le_toInt
  | .real x =>
    obtain ⟨y, hy, rfl⟩ := Option.map_eq_some_iff.1 h
    exact ⟨_, rfl, numbers.toInt_castFloat_eq_iff hy⟩

end Nlohmann.Numbers

/-! ## The numbers of listed documents -/

/-- The literal of a number, taking every rational for a double. -/
def NumberLiteral.ofJson : Json → Option NumberLiteral
  | .numberUnsigned n => some (.integer false n.toNat)
  | .numberInteger i => some (.integer true i.toInt.natAbs)
  | .numberFloat x => some (.real x)
  | _ => none

theorem NumberLiteral.parsed_ofJson {v : Json} {l : NumberLiteral} (h : ofJson v = some l)
    (hsigned : ∀ i, v = .numberInteger i → i.toInt ≤ 0) : l.parsed some = some v := by
  cases v with
  | numberUnsigned n =>
    obtain rfl := Option.some.inj h
    rw [parsed, if_pos n.toNat_lt_size, UInt64.ofNat_toNat]
  | numberInteger i =>
    obtain rfl := Option.some.inj h
    have habs : -(i.toInt.natAbs : Int) = i.toInt := by
      have := hsigned i rfl
      omega
    rw [parsed, habs, if_pos i.minValue_le_toInt, Int64.ofInt_toInt]
  | numberFloat x =>
    obtain rfl := Option.some.inj h
    rfl
  | _ => cases h

theorem Nlohmann.castFloatX86_toInt (t : Int64) : castFloatX86 t.toInt = t := by
  rw [castFloatX86, Rat.num_intCast, Rat.den_intCast]
  simp only [Nat.cast_one, Int.tdiv_one]
  rw [if_pos ⟨t.minValue_le_toInt, t.toInt_le⟩, Int64.ofInt_toInt]

/-- The numbers of listed documents in which signed integers come from literals with a sign. -/
def Nlohmann.numbersOfDocuments (documents : List (Bytes × Json))
    (valid : ∀ d ∈ documents, d.2.valid = true) (printed : Json → Bytes)
    (signed : ∀ d ∈ documents, ∀ key i, d.2.at key = .ok (.numberInteger i) → i.toInt ≤ 0) :
    (withDocuments documents valid printed).Numbers where
  written text key := (documents.find? fun d => d.1 = text).bind fun d =>
    match d.2.at key with
    | .ok v => NumberLiteral.ofJson v
    | .error _ => none
  toDouble := some
  at_of_written {text j key l} hparse hl := by
    obtain ⟨d, hd, rfl⟩ := exists_document_of_parse hparse
    rw [hd, Option.bind_some] at hl
    cases hv : d.2.at key with
    | error e => rw [hv] at hl; cases hl
    | ok v =>
      rw [hv] at hl
      refine ⟨v, NumberLiteral.parsed_ofJson hl fun i hi => ?_, rfl⟩
      exact signed d (List.mem_of_find?_eq_some hd) key i (hi ▸ hv)
  exists_written {text j key v t} hparse hv ht := by
    obtain ⟨d, hd, rfl⟩ := exists_document_of_parse hparse
    rw [hd, Option.bind_some, hv]
    cases v with
    | numberUnsigned n => exact ⟨_, rfl⟩
    | numberInteger i => exact ⟨_, rfl⟩
    | numberFloat x => exact ⟨_, rfl⟩
    | _ => cases ht
  castFloat_toInt := castFloatX86_toInt
