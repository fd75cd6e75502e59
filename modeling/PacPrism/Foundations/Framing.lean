import PacPrism.Foundations.Bytes

/-!
# Foundations/Framing — messages in a byte stream

A reader sees the stream through a buffer that grows at its end.  A framing says when the buffer
begins with a complete message, and how long that is; before, it asks for more.  Which message is
found depends on the bytes of the message alone.
-/

/-- What a buffer holds at its front. -/
inductive Scan where
  | needMore
  | complete (length : Nat)
  | malformed
  deriving DecidableEq

/-- A way to cut messages of type `μ` off the front of a stream. -/
structure Framing (μ : Type) where
  scan : Bytes → Scan
  decode : Bytes → μ
  scan_nil : scan [] = .needMore
  /-- A message lies in the buffer. -/
  le_length : ∀ {b n}, scan b = .complete n → n ≤ b.length
  /-- What follows a message does not matter. -/
  scan_take_append : ∀ {b n}, scan b = .complete n → ∀ rest, scan (b.take n ++ rest) = .complete n
  /-- Part of a message is no message. -/
  scan_take_of_lt : ∀ {b n k}, scan b = .complete n → k < n → scan (b.take k) = .needMore

namespace Framing

variable {μ : Type} (framing : Framing μ)

/-- The bytes are one message. -/
def Complete (w : Bytes) : Prop := framing.scan w = .complete w.length

instance (w : Bytes) : Decidable (framing.Complete w) := inferInstanceAs (Decidable (_ = _))

variable {framing} {w : Bytes}

theorem Complete.scan_append (h : framing.Complete w) (rest : Bytes) :
    framing.scan (w ++ rest) = .complete w.length := by
  have := framing.scan_take_append h rest
  rwa [List.take_length] at this

/-- **A buffer that holds part of a message waits for the rest of it.** -/
theorem Complete.scan_of_prefix (h : framing.Complete w) {b : Bytes} (hb : b <+: w)
    (hlt : b.length < w.length) : framing.scan b = .needMore := by
  rw [List.prefix_iff_eq_take.1 hb]
  exact framing.scan_take_of_lt h hlt

theorem Complete.eq_or_needMore (h : framing.Complete w) {b : Bytes} (hb : b <+: w) :
    b = w ∨ b.length < w.length ∧ framing.scan b = .needMore := by
  rcases hb.length_le.eq_or_lt with heq | hlt
  · exact .inl (hb.eq_of_length heq)
  · exact .inr ⟨hlt, h.scan_of_prefix hb hlt⟩

/-! ## Messages that end in a blank line -/

/-- The end of a header. -/
def blankLine : Bytes := lit "\r\n\r\n"

/-- A message is a header without a body. -/
def ofHeaders (decode : Bytes → μ) : Framing μ where
  scan b := match Bytes.search blankLine b with
    | some i => .complete (i + blankLine.length)
    | none => .needMore
  decode := decode
  scan_nil := rfl
  le_length {b n} h := by
    cases hs : Bytes.search blankLine b with
    | none => rw [hs] at h; cases h
    | some i =>
      rw [hs] at h
      cases h
      exact Bytes.search_add_length_le hs
  scan_take_append {b n} h rest := by
    cases hs : Bytes.search blankLine b with
    | none => rw [hs] at h; cases h
    | some i =>
      rw [hs] at h
      cases h
      rw [Bytes.search_take_append (by decide) hs]
  scan_take_of_lt {b n k} h hk := by
    cases hs : Bytes.search blankLine b with
    | none => rw [hs] at h; cases h
    | some i =>
      rw [hs] at h
      cases h
      rw [Bytes.search_take_of_lt (by decide) hs hk]

/-! ## Messages back to back -/

/-- The messages of a stream, each with the position it starts at. -/
def positions : Nat → List Bytes → List (Nat × Bytes)
  | _, [] => []
  | start, w :: ws => (start, w) :: positions (start + w.length) ws

theorem positions_append (start : Nat) (ws ws' : List Bytes) :
    positions start (ws ++ ws')
      = positions start ws ++ positions (start + ws.flatten.length) ws' := by
  induction ws generalizing start with
  | nil => rfl
  | cons w ws ih =>
    rw [List.cons_append, positions, positions, ih, List.flatten_cons, List.length_append,
      Nat.add_assoc, List.cons_append]

/-- Wherever a message ends, a segment ends. -/
def CutAtMessages (segments messages : List Bytes) : Prop :=
  ∀ before, before <+: messages → ∃ taken, taken <+: segments ∧ taken.flatten = before.flatten

instance (segments messages : List Bytes) : Decidable (CutAtMessages segments messages) :=
  decidable_of_iff
    (∀ before ∈ messages.inits, ∃ taken ∈ segments.inits, taken.flatten = before.flatten)
    (by simp only [CutAtMessages, List.mem_inits])

/-- The next segment does not go beyond the message that the buffer is part of. -/
theorem CutAtMessages.length_le {before after taken rest : List Bytes} {buffer segment : Bytes}
    (h : CutAtMessages (taken ++ segment :: rest) (before ++ w :: after))
    (htaken : taken.flatten = before.flatten ++ buffer) (hlt : buffer.length < w.length) :
    (buffer ++ segment).length ≤ w.length := by
  obtain ⟨cut, hcut, hflat⟩ := h (before ++ [w]) ⟨after, by simp⟩
  have hlen := congrArg List.length hflat
  have htakenLen := congrArg List.length htaken
  rw [List.flatten_concat, List.length_append] at hlen
  rw [List.length_append] at htakenLen
  -- The cut behind the message lies behind what is taken, hence behind the next segment.
  have hmore : ¬ cut <+: taken := fun hle => by
    have := (List.IsPrefix.flatten hle).length_le
    omega
  have hnext : taken ++ [segment] <+: cut := by
    have hsegment : taken ++ [segment] <+: taken ++ segment :: rest := ⟨rest, by simp⟩
    rcases List.prefix_or_prefix_of_prefix hcut hsegment with hle | hle
    · rcases List.prefix_concat_iff.1 hle with rfl | hle
      · exact List.prefix_rfl
      · exact absurd hle hmore
    · exact hle
  have := (List.IsPrefix.flatten hnext).length_le
  rw [List.flatten_concat, List.length_append] at this
  rw [List.length_append]
  omega

end Framing
