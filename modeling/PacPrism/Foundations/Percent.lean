import PacPrism.Foundations.Utf8

/-!
# Foundations/Percent — percent-encoded text

The encoding of RFC 3986: unreserved characters stand for themselves, any other byte is written as
`%` and two hexadecimal digits.  No delimiter of a URI is left, and a text is its own encoding
exactly if it consists of unreserved characters.
-/

namespace Percent

/-- A letter, a digit, or one of `-`, `.`, `_`, `~`. -/
def unreserved (b : UInt8) : Bool :=
  (0x41 ≤ b && b ≤ 0x5a) || (0x61 ≤ b && b ≤ 0x7a) || (0x30 ≤ b && b ≤ 0x39)
    || b == 0x2d || b == 0x2e || b == 0x5f || b == 0x7e

/-- The upper-case digit of a number below 16. -/
def hexDigit (n : Nat) : UInt8 := if n < 10 then UInt8.ofNat (0x30 + n) else UInt8.ofNat (0x37 + n)

/-- The percent sign. -/
def percent : UInt8 := 0x25

/-- A byte, encoded. -/
def encodeByte (b : UInt8) : Bytes :=
  if unreserved b then [b] else [percent, hexDigit (b.toNat / 16), hexDigit (b.toNat % 16)]

/-- A text, encoded. -/
def encode (s : Bytes) : Bytes := s.flatMap encodeByte

theorem unreserved_hexDigit {n : Nat} (h : n < 16) : unreserved (hexDigit n) = true := by
  have hall : ∀ n < 16, unreserved (hexDigit n) = true := by decide
  exact hall n h

/-- An encoded text consists of percent signs and unreserved characters. -/
theorem eq_percent_or_unreserved_of_mem {s : Bytes} {c : UInt8} (h : c ∈ encode s) :
    c = percent ∨ unreserved c = true := by
  obtain ⟨b, -, hc⟩ := List.mem_flatMap.1 h
  rw [encodeByte] at hc
  split_ifs at hc with hb
  · exact .inr (by rwa [List.mem_singleton.1 hc])
  · have hlt := b.toNat_lt
    simp only [List.mem_cons, List.not_mem_nil, or_false] at hc
    rcases hc with rfl | rfl | rfl
    · exact .inl rfl
    · exact .inr (unreserved_hexDigit (by omega))
    · exact .inr (unreserved_hexDigit (Nat.mod_lt _ (by omega)))

/-- No delimiter is left in an encoded text. -/
theorem notMem_encode {c : UInt8} (hpercent : c ≠ percent) (h : unreserved c = false) (s : Bytes) :
    c ∉ encode s := fun hc => by
  rcases eq_percent_or_unreserved_of_mem hc with hc | hc
  · exact hpercent hc
  · rw [h] at hc
    cases hc

theorem length_le_length_encode (s : Bytes) : s.length ≤ (encode s).length := by
  induction s with
  | nil => exact le_rfl
  | cons b s ih =>
    have hb : 1 ≤ (encodeByte b).length := by
      rw [encodeByte]
      split_ifs <;> simp
    rw [encode, List.flatMap_cons, List.length_append, List.length_cons]
    rw [encode] at ih
    omega

/-- **The texts encoded by themselves** are those of unreserved characters. -/
theorem encode_eq_self_iff (s : Bytes) : encode s = s ↔ ∀ b ∈ s, unreserved b = true := by
  induction s with
  | nil => simp [encode]
  | cons b s ih =>
    rw [List.forall_mem_cons, ← ih, encode, List.flatMap_cons, encodeByte]
    split_ifs with hb
    · rw [List.singleton_append, List.cons_inj_right, encode]
      exact (and_iff_right hb).symm
    · refine iff_of_false (fun heq => ?_) fun h => hb h.1
      have hlength := congrArg List.length heq
      have hle := length_le_length_encode s
      rw [encode] at hle
      simp only [List.length_append, List.length_cons, List.length_nil] at hlength
      omega

theorem encode_ne_nil {s : Bytes} (h : s ≠ []) : encode s ≠ [] := fun heq => by
  have hle := length_le_length_encode s
  rw [heq] at hle
  exact h (List.length_eq_zero_iff.1 (by simpa using hle))

theorem le_of_mem_encode {s : Bytes} {c : UInt8} (h : c ∈ encode s) : c ≤ 0x7f := by
  rcases eq_percent_or_unreserved_of_mem h with rfl | hc
  · decide
  · simp only [unreserved, Bool.or_eq_true, Bool.and_eq_true, decide_eq_true_iff,
      beq_iff_eq] at hc
    rcases hc with (((((⟨-, hc⟩ | ⟨-, hc⟩) | ⟨-, hc⟩) | rfl) | rfl) | rfl) | rfl
    · exact UInt8.le_trans hc (by decide)
    · exact UInt8.le_trans hc (by decide)
    · exact UInt8.le_trans hc (by decide)
    all_goals decide

/-- **An encoded text is UTF-8.** -/
theorem valid_encode (s : Bytes) : Utf8.valid (encode s) = true :=
  Utf8.valid_of_ascii fun _ h => le_of_mem_encode h

end Percent
