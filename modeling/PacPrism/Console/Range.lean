import PacPrism.Foundations.Numerals

/-!
# Console/Range — the Range header

`parse_range_header`, given the size of the file.  The bounds are assigned one by one, so the info
returned for a header that turns out invalid keeps those assigned by then; only `valid` says that
they mean anything.
-/

namespace PacPrism

/-- The range a header asks for, `start` and `stop` included. -/
structure RangeInfo where
  valid : Bool := false
  start : Nat := 0
  /-- The source calls it `end`. -/
  stop : Nat := 0
  fileSize : Nat := 0
  deriving DecidableEq

/-- The difference of two sizes: `std::size_t` wraps around. -/
def sizeSub (a b : Nat) : Nat := if b ≤ a then a - b else a + 2 ^ 64 - b

/-- The two bounds. -/
def assignBounds (startStr endStr : Bytes) : Io RangeInfo Unit := do
  if startStr = [] then
    -- Suffix range: the last bytes of the file.
    let suffix ← Io.ofExcept (Bytes.stoull endStr)
    modify fun info =>
      { info with start := if info.fileSize < suffix then 0 else sizeSub info.fileSize suffix }
    modify fun info => { info with stop := sizeSub info.fileSize 1 }
  else if endStr = [] then
    let start ← Io.ofExcept (Bytes.stoull startStr)
    modify fun info => { info with start := start }
    modify fun info => { info with stop := sizeSub info.fileSize 1 }
  else
    let start ← Io.ofExcept (Bytes.stoull startStr)
    modify fun info => { info with start := start }
    let stop ← Io.ofExcept (Bytes.stoull endStr)
    modify fun info => { info with stop := stop }

/-- The two bounds, and the check that they lie in the file: the body of the `try` block. -/
def parseBounds (startStr endStr : Bytes) : Io RangeInfo Unit := do
  assignBounds startStr endStr
  modify fun info =>
    if info.fileSize ≤ info.start ∨ info.fileSize ≤ info.stop ∨ info.stop < info.start then info
    else { info with valid := true }

/-- The range a header asks for in a file of this size. -/
def parseRange (rangeHeader : Bytes) (fileSize : Nat) : RangeInfo :=
  let info : RangeInfo := { fileSize := fileSize }
  if rangeHeader = [] then info
  else if hbytes :
      Bytes.substr rangeHeader 0 (Bytes.zero_le_length rangeHeader) 6 = lit "bytes=" then
    let rangeSpec := Bytes.substr rangeHeader 6 (by
      have hlength : min 6 rangeHeader.length = 6 :=
        List.length_take.symm.trans (congrArg List.length hbytes)
      omega)
    match Bytes.find rangeSpec (lit "-") with
    | none => info
    | some dashPos =>
      let startStr := Bytes.before rangeSpec dashPos
      let endStr := Bytes.after rangeSpec dashPos
      Io.finalState (parseBounds startStr endStr info)
  else info

/-! ## Valid ranges -/

/-- A range of a file of size `n`: the bounds are in order and in the file, if it is valid. -/
def RangeInfo.Sound (n : Nat) (info : RangeInfo) : Prop :=
  info.fileSize = n ∧ (info.valid = true → info.start ≤ info.stop ∧ info.stop < n)

theorem keeps_assignBounds (n : Nat) (startStr endStr : Bytes) :
    Io.Keeps (fun info : RangeInfo => info.fileSize = n ∧ info.valid = false)
      (assignBounds startStr endStr) := by
  rw [assignBounds]
  split_ifs
  · exact Io.Keeps.bind (Io.keeps_ofExcept _ _) fun _ =>
      Io.Keeps.bind (Io.keeps_modify fun _ h => h) fun _ => Io.keeps_modify fun _ h => h
  · exact Io.Keeps.bind (Io.keeps_ofExcept _ _) fun _ =>
      Io.Keeps.bind (Io.keeps_modify fun _ h => h) fun _ => Io.keeps_modify fun _ h => h
  · exact Io.Keeps.bind (Io.keeps_ofExcept _ _) fun _ =>
      Io.Keeps.bind (Io.keeps_modify fun _ h => h) fun _ =>
        Io.Keeps.bind (Io.keeps_ofExcept _ _) fun _ => Io.keeps_modify fun _ h => h

theorem sound_parseBounds (startStr endStr : Bytes) {n : Nat} {info : RangeInfo}
    (hsize : info.fileSize = n) (hvalid : info.valid = false) :
    (Io.finalState (parseBounds startStr endStr info)).Sound n := by
  have hassigned := keeps_assignBounds n startStr endStr info ⟨hsize, hvalid⟩
  rw [parseBounds, Io.bind_apply]
  cases h : assignBounds startStr endStr info with
  | error e info' =>
    obtain ⟨hsize', hinvalid⟩ : info'.fileSize = n ∧ info'.valid = false := by rwa [h] at hassigned
    exact ⟨hsize', fun hv => absurd hv (by simp [Io.finalState, hinvalid])⟩
  | ok _ info' =>
    obtain ⟨hsize', hinvalid⟩ : info'.fileSize = n ∧ info'.valid = false := by rwa [h] at hassigned
    change RangeInfo.Sound n (if _ then info' else { info' with valid := true })
    split_ifs with hout
    · exact ⟨hsize', fun hv => absurd hv (by simp [hinvalid])⟩
    · refine ⟨hsize', fun _ => ?_⟩
      dsimp only
      omega

/-- **A range reported valid lies in the file.** -/
theorem sound_parseRange (rangeHeader : Bytes) (n : Nat) : (parseRange rangeHeader n).Sound n := by
  have hinvalid : RangeInfo.Sound n { fileSize := n } := ⟨rfl, fun h => nomatch h⟩
  rw [parseRange]
  split_ifs
  · exact hinvalid
  · dsimp only
    split
    · exact hinvalid
    · exact sound_parseBounds _ _ rfl rfl
  · exact hinvalid

end PacPrism
