import PacPrism.Console.Range
import PacPrism.Foundations.Search

/-!
# Console/RangeGrammar — the Range header and its grammar

    bytes=first-last     bytes=first-     bytes=-length

`RangeSpec` is one range of the grammar and `RangeSpec.resolve` says which bytes of a file it asks
for.  The parser cuts at the first dash and converts what it finds on both sides with `std::stoull`,
so its answer is read off these two numbers (`bounds_parseRange`): it resolves the headers of the
grammar almost as it should, and it accepts others.
-/

namespace PacPrism

/-- The delimiter of the two numbers. -/
def dash : UInt8 := 0x2d

/-- The bounds of a range, if it is valid. -/
def RangeInfo.bounds (info : RangeInfo) : Option (Nat × Nat) :=
  if info.valid = true then some (info.start, info.stop) else none

/-- The bounds that two texts stand for, as `std::stoull` reads them. -/
def readBounds (startStr endStr : Bytes) (fileSize : Nat) : Option (Nat × Nat) :=
  if startStr = [] then
    match Bytes.stoull endStr with
    | .ok suffix => if 1 ≤ suffix ∧ 1 ≤ fileSize then
        some (fileSize - min suffix fileSize, fileSize - 1) else none
    | .error _ => none
  else match Bytes.stoull startStr with
    | .error _ => none
    | .ok start =>
      if endStr = [] then
        if start < fileSize then some (start, fileSize - 1) else none
      else match Bytes.stoull endStr with
        | .error _ => none
        | .ok stop => if start ≤ stop ∧ stop < fileSize then some (start, stop) else none

/-- The check that ends the `try` block, seen from the bounds. -/
theorem bounds_check (info : RangeInfo) (h : info.valid = false) :
    (if info.fileSize ≤ info.start ∨ info.fileSize ≤ info.stop ∨ info.stop < info.start then info
      else { info with valid := true }).bounds
      = if info.start ≤ info.stop ∧ info.stop < info.fileSize then some (info.start, info.stop)
        else none := by
  by_cases hin : info.start ≤ info.stop ∧ info.stop < info.fileSize
  · rw [if_neg (by omega), if_pos hin]
    rfl
  · rw [if_pos (by omega), if_neg hin, RangeInfo.bounds, if_neg (by simp [h])]

/-- A range that ends with the file; an empty file has none. -/
theorem bounds_to_end (start n : Nat) :
    (if start ≤ sizeSub n 1 ∧ sizeSub n 1 < n then some (start, sizeSub n 1) else none)
      = if start < n then some (start, n - 1) else none := by
  rw [sizeSub]
  by_cases hn : 1 ≤ n
  · simp only [if_pos hn]
    exact if_congr (by omega) rfl rfl
  · simp only [if_neg hn]
    rw [if_neg (by omega), if_neg (by omega)]

/-- The body of the `try` block reads the bounds that the two texts stand for. -/
theorem bounds_parseBounds (startStr endStr : Bytes) (n : Nat) :
    (Io.finalState (parseBounds startStr endStr { fileSize := n })).bounds
      = readBounds startStr endStr n := by
  rw [parseBounds, assignBounds, readBounds]
  by_cases hstart : startStr = []
  · rw [if_pos hstart, if_pos hstart]
    cases Bytes.stoull endStr with
    | error e => rfl
    | ok suffix =>
      have hfirst : (if n < suffix then 0 else sizeSub n suffix) = n - min suffix n := by
        rw [sizeSub]
        split_ifs <;> omega
      refine (bounds_check ⟨false, if n < suffix then 0 else sizeSub n suffix, sizeSub n 1, n⟩
        rfl).trans ((bounds_to_end _ n).trans ?_)
      dsimp only
      rw [hfirst]
      exact if_congr (by omega) rfl rfl
  · rw [if_neg hstart, if_neg hstart]
    cases Bytes.stoull startStr with
    | error e => by_cases hend : endStr = [] <;> simp only [hend, if_true, if_false] <;> rfl
    | ok start =>
      by_cases hend : endStr = []
      · rw [if_pos hend]
        simp only [hend, if_true]
        exact (bounds_check ⟨false, start, sizeSub n 1, n⟩ rfl).trans (bounds_to_end start n)
      · rw [if_neg hend]
        simp only [hend, if_false]
        cases Bytes.stoull endStr with
        | error e => rfl
        | ok stop => exact bounds_check ⟨false, start, stop, n⟩ rfl

/-- What follows `bytes=` is cut at its first dash. -/
theorem parseRange_append (rangeSpec : Bytes) (n : Nat) :
    parseRange (lit "bytes=" ++ rangeSpec) n = match Bytes.find rangeSpec [dash] with
      | none => { fileSize := n }
      | some dashPos => Io.finalState (parseBounds (Bytes.before rangeSpec dashPos)
          (Bytes.after rangeSpec dashPos) { fileSize := n }) := by
  have hbytes : Bytes.substr (lit "bytes=" ++ rangeSpec) 0 (Bytes.zero_le_length _) 6
      = lit "bytes=" := by
    rw [Bytes.substr, List.drop_zero, show 6 = (lit "bytes=").length from rfl, List.take_left]
  have hrest (h : 6 ≤ (lit "bytes=" ++ rangeSpec).length) :
      Bytes.substr (lit "bytes=" ++ rangeSpec) 6 h = rangeSpec := by
    rw [Bytes.substr, show 6 = (lit "bytes=").length from rfl, List.drop_left,
      List.take_of_length_le (by simp)]
  rw [parseRange, if_neg (by simp [lit]), dif_pos hbytes]
  dsimp only
  rw [hrest]
  rfl

/-- **What a header with a dash stands for** is read from the texts on both sides of the first. -/
theorem bounds_parseRange {startStr : Bytes} (h : dash ∉ startStr) (endStr : Bytes) (n : Nat) :
    (parseRange (lit "bytes=" ++ (startStr ++ dash :: endStr)) n).bounds
      = readBounds startStr endStr n := by
  obtain ⟨p, hp, hbefore, hafter⟩ := Bytes.exists_find_cons h endStr
  rw [parseRange_append, hp]
  dsimp only
  rw [hbefore, hafter, bounds_parseBounds]

/-- A header that is valid has a dash. -/
theorem exists_of_valid {header : Bytes} {n : Nat} (h : (parseRange header n).valid = true) :
    ∃ startStr endStr, dash ∉ startStr
      ∧ header = lit "bytes=" ++ (startStr ++ dash :: endStr) := by
  have hbytes : header.take 6 = lit "bytes=" := by
    by_contra hnot
    have hinvalid : parseRange header n = { fileSize := n } := by
      rw [parseRange, dif_neg (by rwa [Bytes.substr, List.drop_zero]), ite_self]
    rw [hinvalid] at h
    cases h
  obtain ⟨rangeSpec, rfl⟩ : ∃ rangeSpec, header = lit "bytes=" ++ rangeSpec :=
    ⟨header.drop 6, by rw [← hbytes, List.take_append_drop]⟩
  rw [parseRange_append] at h
  cases hfind : Bytes.find rangeSpec [dash] with
  | none =>
    rw [hfind] at h
    cases h
  | some dashPos =>
    obtain ⟨hdash, hspec⟩ := Bytes.eq_of_find hfind
    exact ⟨_, _, hdash, congrArg (lit "bytes=" ++ ·) hspec⟩

/-! ## The grammar -/

/-- One range of bytes. -/
inductive RangeSpec where
  /-- `first-last`. -/
  | bounded (first last : Numeral)
  /-- `first-`. -/
  | onward (first : Numeral)
  /-- `-length`. -/
  | suffix (length : Numeral)

namespace RangeSpec

/-- The texts on both sides of the dash. -/
def parts : RangeSpec → Bytes × Bytes
  | bounded first last => (first.digits, last.digits)
  | onward first => (first.digits, [])
  | suffix length => ([], length.digits)

/-- The header. -/
def text (r : RangeSpec) : Bytes := lit "bytes=" ++ (r.parts.1 ++ dash :: r.parts.2)

/-- **The bytes asked for** in a file of this size, first and last included; none if the range
cannot be satisfied. -/
def resolve (n : Nat) : RangeSpec → Option (Nat × Nat)
  | bounded first last =>
    if first.value < n then some (first.value, min last.value (n - 1)) else none
  | onward first => if first.value < n then some (first.value, n - 1) else none
  | suffix length => if 1 ≤ length.value then some (n - min length.value n, n - 1) else none

/-- The bounds of the range are in order. -/
def Ordered : RangeSpec → Prop
  | bounded first last => first.value ≤ last.value
  | _ => True

/-- **What the parser needs to resolve a range as it should**: the last byte asked for is in the
file if the first is, and the length of a suffix fits in 64 bits. -/
def Representable (n : Nat) : RangeSpec → Prop
  | bounded first last => first.value < n → last.value < n
  | onward _ => True
  | suffix length => length.value < 2 ^ 64

/-- A range is written with digits. -/
theorem isDigit_of_mem_parts (r : RangeSpec) {b : UInt8} (h : b ∈ r.parts.1 ++ r.parts.2) :
    Bytes.isDigit b = true := by
  rw [List.mem_append] at h
  cases r with
  | bounded first last => exact h.elim (first.digit b) (last.digit b)
  | onward first => exact h.elim (first.digit b) fun h => absurd h List.not_mem_nil
  | suffix length => exact h.elim (fun h => absurd h List.not_mem_nil) (length.digit b)

theorem dash_notMem_fst (r : RangeSpec) : dash ∉ r.parts.1 := fun h =>
  absurd (r.isDigit_of_mem_parts (List.mem_append_left _ h)) (by decide)

/-- Two texts of digits, not both empty, are those of a range. -/
theorem exists_parts {startStr endStr : Bytes}
    (hdigit : ∀ b ∈ startStr ++ endStr, Bytes.isDigit b = true)
    (hne : startStr ≠ [] ∨ endStr ≠ []) : ∃ r : RangeSpec, r.parts = (startStr, endStr) := by
  obtain ⟨hstartDigit, hendDigit⟩ := List.forall_mem_append.1 hdigit
  by_cases hstart : startStr = []
  · subst hstart
    exact ⟨suffix ⟨endStr, hne.resolve_left (not_not.2 rfl), hendDigit⟩, rfl⟩
  · by_cases hend : endStr = []
    · subst hend
      exact ⟨onward ⟨startStr, hstart, hstartDigit⟩, rfl⟩
    · exact ⟨bounded ⟨startStr, hstart, hstartDigit⟩ ⟨endStr, hend, hendDigit⟩, rfl⟩

/-- What the header of a range stands for. -/
theorem bounds_text (r : RangeSpec) (n : Nat) :
    (parseRange r.text n).bounds = readBounds r.parts.1 r.parts.2 n :=
  bounds_parseRange r.dash_notMem_fst _ n

/-- Numbers that do not fit in 64 bits are not in the file either. -/
theorem readBounds_bounded (first last : Numeral) {n : Nat} (hsize : n < 2 ^ 64) :
    readBounds first.digits last.digits n
      = if first.value ≤ last.value ∧ last.value < n then some (first.value, last.value)
        else none := by
  rw [readBounds, if_neg first.ne, first.stoull, last.stoull]
  by_cases hin : first.value ≤ last.value ∧ last.value < n
  · rw [if_pos (by omega), if_pos (by omega), if_pos hin]
    dsimp only
    rw [if_neg last.ne, if_pos hin]
  · rw [if_neg hin]
    by_cases hfits : first.value < 2 ^ 64
    · rw [if_pos hfits]
      dsimp only
      rw [if_neg last.ne]
      split_ifs
      exacts [if_neg hin, rfl]
    · rw [if_neg hfits]

theorem readBounds_onward (first : Numeral) {n : Nat} (hsize : n < 2 ^ 64) :
    readBounds first.digits [] n
      = if first.value < n then some (first.value, n - 1) else none := by
  rw [readBounds, if_neg first.ne, first.stoull]
  by_cases hin : first.value < n
  · rw [if_pos (by omega)]
    rfl
  · rw [if_neg hin]
    by_cases hfits : first.value < 2 ^ 64
    · rw [if_pos hfits]
      exact if_neg hin
    · rw [if_neg hfits]

theorem readBounds_suffix (length : Numeral) (n : Nat) :
    readBounds [] length.digits n
      = if length.value < 2 ^ 64 ∧ 1 ≤ length.value ∧ 1 ≤ n then
          some (n - min length.value n, n - 1) else none := by
  rw [readBounds, if_pos rfl, length.stoull]
  by_cases hlength : length.value < 2 ^ 64
  · rw [if_pos hlength]
    exact if_congr (by tauto) rfl rfl
  · rw [if_neg hlength, if_neg fun h => hlength h.1]

/-- **Which ranges are resolved as they should be.** -/
theorem bounds_parseRange_iff (r : RangeSpec) (hr : r.Ordered) {n : Nat} (hn : 1 ≤ n)
    (hsize : n < 2 ^ 64) :
    (parseRange r.text n).bounds = r.resolve n ↔ r.Representable n := by
  rw [bounds_text]
  cases r with
  | bounded first last =>
    have hle : first.value ≤ last.value := hr
    rw [parts, readBounds_bounded first last hsize, resolve, Representable]
    by_cases hfirst : first.value < n
    · by_cases hlast : last.value < n
      · rw [if_pos ⟨hle, hlast⟩, if_pos hfirst, min_eq_left (by omega)]
        exact iff_of_true rfl fun _ => hlast
      · rw [if_neg fun h => hlast h.2, if_pos hfirst]
        exact iff_of_false (by simp) fun h => hlast (h hfirst)
    · rw [if_neg (by omega), if_neg hfirst]
      exact iff_of_true rfl fun h => absurd h hfirst
  | onward first => exact iff_of_true (readBounds_onward first hsize) trivial
  | suffix length =>
    rw [parts, readBounds_suffix, resolve, Representable]
    by_cases hlength : length.value < 2 ^ 64
    · exact iff_of_true (if_congr (by omega) rfl rfl) hlength
    · rw [if_neg fun h => hlength h.1, if_pos (by omega)]
      exact iff_of_false (by simp) hlength

/-- A range inside a file of ten bytes. -/
theorem bounds_parseRange_bounded :
    (parseRange (bounded (.ofNat 2) (.ofNat 5)).text 10).bounds = some (2, 5) :=
  (bounds_parseRange_iff (bounded (.ofNat 2) (.ofNat 5)) (show _ ≤ _ by decide) (by decide)
    (by decide)).2 (show _ → _ by decide)

/-- A range that ends behind the file is not resolved. -/
theorem bounds_parseRange_fails : ¬ ∀ r : RangeSpec, r.Ordered → ∀ n, 1 ≤ n → n < 2 ^ 64 →
    (parseRange r.text n).bounds = r.resolve n := by
  intro hall
  have hrange := hall (bounded (.ofNat 0) (.ofNat 99)) (show _ ≤ _ by decide) 10 (by decide)
    (by decide)
  exact absurd hrange (by decide)

end RangeSpec

/-! ## Headers outside the grammar -/

/-- `std::stoull` reads the text as this number. -/
def Reads (s : Bytes) (n : Nat) : Prop :=
  ∃ l : LenientNumeral, l.text = s ∧ l.numeral.value < 2 ^ 64 ∧ l.value = n

theorem reads_iff (s : Bytes) (n : Nat) : Reads s n ↔ Bytes.stoull s = .ok n :=
  (LenientNumeral.stoull_eq_ok_iff s n).symm

/-- The two texts can be read as a range of a file of this size. -/
def ReadsRange (startStr endStr : Bytes) (n : Nat) : Prop :=
  startStr = [] ∧ (∃ length, Reads endStr length ∧ 1 ≤ length ∧ 1 ≤ n)
  ∨ ∃ first, Reads startStr first ∧
    (endStr = [] ∧ first < n ∨ ∃ last, Reads endStr last ∧ first ≤ last ∧ last < n)

theorem Reads.ne {s : Bytes} {n : Nat} (h : Reads s n) : s ≠ [] := by
  obtain ⟨l, rfl, -⟩ := h
  simp [LenientNumeral.text, l.numeral.ne]

theorem ReadsRange.ne {startStr endStr : Bytes} {n : Nat} (h : ReadsRange startStr endStr n) :
    startStr ≠ [] ∨ endStr ≠ [] := by
  rcases h with ⟨-, ⟨_, hlength, -⟩⟩ | ⟨_, hfirst, -⟩
  exacts [.inr hlength.ne, .inl hfirst.ne]

/-- **A range that is read from more than digits**: on one side of the first dash stands a sign, a
blank, another dash, or anything else behind a number. -/
def SloppyRange (header : Bytes) (n : Nat) : Prop :=
  ∃ startStr endStr, dash ∉ startStr ∧ header = lit "bytes=" ++ (startStr ++ dash :: endStr)
    ∧ ReadsRange startStr endStr n ∧ ∃ b ∈ startStr ++ endStr, Bytes.isDigit b = false

theorem isSome_readBounds_iff (startStr endStr : Bytes) (n : Nat) :
    (readBounds startStr endStr n).isSome = true ↔ ReadsRange startStr endStr n := by
  simp only [ReadsRange, reads_iff]
  rw [readBounds]
  have hempty (first : Nat) : Bytes.stoull [] ≠ .ok first := fun h => by cases h
  by_cases hstart : startStr = []
  · subst hstart
    rw [if_pos rfl]
    cases Bytes.stoull endStr with
    | error e => simp [hempty]
    | ok length =>
      dsimp only
      split_ifs with hlength <;> simp [hempty, hlength]
  · rw [if_neg hstart]
    cases Bytes.stoull startStr with
    | error e => simp [hstart]
    | ok first =>
      dsimp only
      by_cases hend : endStr = []
      · subst hend
        rw [if_pos rfl]
        split_ifs with hfirst <;> simp [hstart, hempty, hfirst]
      · rw [if_neg hend]
        cases Bytes.stoull endStr with
        | error e => simp [hstart, hend]
        | ok last =>
          dsimp only
          split_ifs with hlast <;> simp [hstart, hend, hlast]

theorem valid_iff_isSome_bounds (info : RangeInfo) :
    info.valid = true ↔ info.bounds.isSome = true := by
  rw [RangeInfo.bounds]
  split_ifs with h <;> simp [h]

/-- **Which headers are accepted only if they are in the grammar**: those that are not read as a
range from more than digits. -/
theorem valid_imp_text_iff (header : Bytes) (n : Nat) :
    ((parseRange header n).valid = true → ∃ r : RangeSpec, header = r.text)
      ↔ ¬ SloppyRange header n := by
  constructor
  · rintro h ⟨startStr, endStr, hdash, rfl, hreads, b, hb, hdigit⟩
    have hvalid : (parseRange (lit "bytes=" ++ (startStr ++ dash :: endStr)) n).valid = true := by
      rw [valid_iff_isSome_bounds, bounds_parseRange hdash, isSome_readBounds_iff]
      exact hreads
    obtain ⟨r, hr⟩ := h hvalid
    obtain ⟨rfl, rfl⟩ := Bytes.append_cons_inj hdash r.dash_notMem_fst (List.append_cancel_left hr)
    rw [r.isDigit_of_mem_parts hb] at hdigit
    cases hdigit
  · intro hsloppy hvalid
    obtain ⟨startStr, endStr, hdash, rfl⟩ := exists_of_valid hvalid
    rw [valid_iff_isSome_bounds, bounds_parseRange hdash, isSome_readBounds_iff] at hvalid
    have hdigit : ∀ b ∈ startStr ++ endStr, Bytes.isDigit b = true := fun b hb => by
      by_contra hnot
      exact hsloppy ⟨startStr, endStr, hdash, rfl, hvalid, b, hb, by simpa using hnot⟩
    obtain ⟨r, hr⟩ := RangeSpec.exists_parts hdigit hvalid.ne
    exact ⟨r, by rw [RangeSpec.text, hr]⟩

/-- Two ranges in one header are not in the grammar, and the first is accepted. -/
theorem valid_imp_text_fails : ¬ ∀ header n, (parseRange header n).valid = true →
    ∃ r : RangeSpec, header = r.text := by
  intro hall
  obtain ⟨r, hr⟩ := hall (lit "bytes=0-3,5-8") 10 (by decide)
  have hcut : lit "0" ++ dash :: lit "3,5-8" = r.parts.1 ++ dash :: r.parts.2 :=
    List.append_cancel_left (show lit "bytes=" ++ (lit "0" ++ dash :: lit "3,5-8") = r.text from hr)
  obtain ⟨-, hend⟩ := Bytes.append_cons_inj (by decide) r.dash_notMem_fst hcut
  have hcomma : Bytes.isDigit 0x2c = true :=
    r.isDigit_of_mem_parts (List.mem_append_right _ (hend ▸ by decide))
  exact absurd hcomma (by decide)

end PacPrism
