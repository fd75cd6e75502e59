import PacPrism.Foundations.Numerals

/-!
# Foundations/Hex — bytes as hexadecimal text

A byte is a number below 256: written in base 16 and filled up to two digits it is its high half
before its low half.
-/

namespace Bytes

/-- The text of a number in base 16, as `std::hex` has it written. -/
def hexadecimal (n : Nat) : Bytes := (Nat.toDigits 16 n).map fun c => UInt8.ofNat c.toNat

/-- `std::setw(width) << std::setfill(fill)`: the next text is filled up on the left. -/
def padLeft (width : Nat) (fill : UInt8) (s : Bytes) : Bytes :=
  List.replicate (width - s.length) fill ++ s

/-- The lower-case digit of a number below 16. -/
def hexDigit (n : Nat) : UInt8 := if n < 10 then UInt8.ofNat (0x30 + n) else UInt8.ofNat (0x57 + n)

/-- One of `0`–`9`, `a`–`f`. -/
def isHexDigit (b : UInt8) : Bool := isDigit b || (0x61 ≤ b && b ≤ 0x66)

/-- Two digits for each byte. -/
def hexText (s : Bytes) : Bytes :=
  s.flatMap fun b => [hexDigit (b.toNat / 16), hexDigit (b.toNat % 16)]

theorem digitChar_eq_hexDigit {n : Nat} (h : n < 16) :
    UInt8.ofNat (Nat.digitChar n).toNat = hexDigit n := by
  have hall : ∀ n < 16, UInt8.ofNat (Nat.digitChar n).toNat = hexDigit n := by decide
  exact hall n h

theorem isHexDigit_hexDigit {n : Nat} (h : n < 16) : isHexDigit (hexDigit n) = true := by
  have hall : ∀ n < 16, isHexDigit (hexDigit n) = true := by decide
  exact hall n h

/-- **A byte is written with two digits**, its high half before its low half. -/
theorem padLeft_hexadecimal (b : UInt8) :
    padLeft 2 0x30 (hexadecimal b.toNat) = [hexDigit (b.toNat / 16), hexDigit (b.toNat % 16)] := by
  have hlt := b.toNat_lt
  have hhigh : b.toNat / 16 < 16 := by omega
  have hlow : b.toNat % 16 < 16 := by omega
  rw [← digitChar_eq_hexDigit hhigh, ← digitChar_eq_hexDigit hlow]
  rcases Nat.lt_or_ge b.toNat 16 with hsmall | hlarge
  · rw [hexadecimal, Nat.toDigits_of_lt_base hsmall, Nat.div_eq_of_lt hsmall,
      Nat.mod_eq_of_lt hsmall]
    rfl
  · rw [hexadecimal, Nat.toDigits_of_base_le (by decide) hlarge, Nat.toDigits_of_lt_base hhigh]
    rfl

theorem length_hexText (s : Bytes) : (hexText s).length = 2 * s.length := by
  induction s with
  | nil => rfl
  | cons b s ih =>
    rw [hexText, List.flatMap_cons, ← hexText, List.length_append, ih, List.length_cons,
      List.length_cons, List.length_cons, List.length_nil]
    omega

theorem isHexDigit_of_mem_hexText {s : Bytes} {c : UInt8} (h : c ∈ hexText s) :
    isHexDigit c = true := by
  obtain ⟨b, -, hc⟩ := List.mem_flatMap.1 h
  have hlt := b.toNat_lt
  simp only [List.mem_cons, List.not_mem_nil, or_false] at hc
  rcases hc with rfl | rfl
  · exact isHexDigit_hexDigit (by omega)
  · exact isHexDigit_hexDigit (Nat.mod_lt _ (by omega))

/-- The digits are ASCII characters. -/
theorem lt_of_isHexDigit {c : UInt8} (h : isHexDigit c = true) : c < 0x80 := by
  simp only [isHexDigit, isDigit, Bool.or_eq_true, Bool.and_eq_true, decide_eq_true_eq] at h
  rcases h with h | h
  exacts [UInt8.lt_of_le_of_lt h.2 (by decide), UInt8.lt_of_le_of_lt h.2 (by decide)]

end Bytes
