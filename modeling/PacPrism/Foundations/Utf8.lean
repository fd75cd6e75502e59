import PacPrism.Foundations.Bytes

/-!
# Foundations/Utf8 — well-formed UTF-8

A decoder is between two characters, or expects continuation bytes of which the next one lies in a
given interval: the intervals exclude overlong forms, surrogates and what lies beyond U+10FFFF.
-/

namespace Utf8

/-- The state of a decoder. -/
inductive State where
  | boundary
  /-- The next byte lies between `low` and `high`, and `more` continuation bytes follow it. -/
  | expect (low high : UInt8) (more : Nat)
  deriving DecidableEq

/-- One byte decoded; `none` rejects it. -/
def step : State → UInt8 → Option State
  | .boundary, b =>
    if b ≤ 0x7f then some .boundary
    else if 0xc2 ≤ b ∧ b ≤ 0xdf then some (.expect 0x80 0xbf 0)
    else if b = 0xe0 then some (.expect 0xa0 0xbf 1)
    else if b = 0xed then some (.expect 0x80 0x9f 1)
    else if 0xe1 ≤ b ∧ b ≤ 0xef then some (.expect 0x80 0xbf 1)
    else if b = 0xf0 then some (.expect 0x90 0xbf 2)
    else if 0xf1 ≤ b ∧ b ≤ 0xf3 then some (.expect 0x80 0xbf 2)
    else if b = 0xf4 then some (.expect 0x80 0x8f 2)
    else none
  | .expect low high more, b =>
    if low ≤ b ∧ b ≤ high then
      match more with
      | 0 => some .boundary
      | more + 1 => some (.expect 0x80 0xbf more)
    else none

/-- The text is a sequence of characters. -/
def valid (s : Bytes) : Bool := s.foldlM step .boundary == some .boundary

/-- ASCII text is UTF-8. -/
theorem valid_of_ascii {s : Bytes} (h : ∀ b ∈ s, b ≤ 0x7f) : valid s = true := by
  rw [valid, beq_iff_eq]
  induction s with
  | nil => rfl
  | cons b s ih =>
    obtain ⟨hb, hs⟩ := List.forall_mem_cons.1 h
    rw [List.foldlM_cons, step, if_pos hb]
    exact ih hs

end Utf8
