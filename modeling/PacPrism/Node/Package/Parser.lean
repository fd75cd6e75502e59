import PacPrism.Console.Range
import PacPrism.Foundations.Path
import PacPrism.Foundations.Search

/-!
# Node/Package/Parser — the paths of a Debian package pool

`PackageParser::parse`, guard by guard.  A search answers `none` where the source compares with
`npos`, and every length is a difference of positions computed by `sub`, the machine's subtraction
(`wrappingSub`) or any other that agrees with it where it does not wrap around.
-/

namespace PacPrism

/-- Package information extracted from path. -/
structure PackageInfo where
  /-- Package name. -/
  name : Bytes := []
  /-- Package version. -/
  version : Bytes := []
  /-- Repository component. -/
  component : Bytes := []
  /-- File extension. -/
  extension : Bytes := []
  /-- Architecture. -/
  architecture : Bytes := []
  deriving DecidableEq

namespace PackageParser

/-- Subtraction of `std::size_t`. -/
def wrappingSub (a b : Nat) : Except Exn Nat := pure (sizeSub a b)

section Parse

variable (sub : Nat → Nat → Except Exn Nat)

/-- `stop - start - 1`: the length of what lies between two delimiters. -/
def lengthBetween (start stop : Nat) : Except Exn Nat := do
  let length ← sub stop start
  sub length 1

/-- Source packages, whose extension starts at `extensionPos`. -/
def parseSource (info : PackageInfo) (filename : Bytes) (firstUnderscore extensionPos : Nat) :
    Except Exn PackageInfo := do
  let version ← Bytes.trySubstr filename (firstUnderscore + 1)
    (← lengthBetween sub firstUnderscore extensionPos)
  let extension ← Bytes.trySubstr filename extensionPos
  pure { info with version := version, architecture := lit "source", extension := extension }

/-- Binary packages: `name_version_arch.extension`. -/
def parseBinary (info : PackageInfo) (filename : Bytes) (firstUnderscore lastDot : Nat) :
    Except Exn (Option PackageInfo) :=
  match Bytes.findFrom filename (lit "_") (firstUnderscore + 1) with
  | none => pure none
  | some secondUnderscore =>
    if lastDot ≤ secondUnderscore then pure none
    else do
      let version ← Bytes.trySubstr filename (firstUnderscore + 1)
        (← lengthBetween sub firstUnderscore secondUnderscore)
      let architecture ← Bytes.trySubstr filename (secondUnderscore + 1)
        (← lengthBetween sub secondUnderscore lastDot)
      let extension ← Bytes.trySubstr filename lastDot
      pure (some { info with version := version, architecture := architecture,
                             extension := extension })

/-- A position behind the first underscore, if there is one. -/
def behind (firstUnderscore : Nat) (pos : Option Nat) : Option Nat :=
  pos.filter fun pos => firstUnderscore < pos

/-- The formats, in the order in which they are tried. -/
def parseFormats (info : PackageInfo) (filename : Bytes) (firstUnderscore lastDot : Nat) :
    Except Exn (Option PackageInfo) :=
  match behind firstUnderscore (Bytes.findFrom filename (lit ".orig")) with
  | some origPos => some <$> parseSource sub info filename firstUnderscore origPos
  | none => do
    if ← Bytes.tryCompare filename lastDot 4 (lit ".dsc") then
      let version ← Bytes.trySubstr filename (firstUnderscore + 1)
        (← lengthBetween sub firstUnderscore lastDot)
      pure (some { info with version := version, architecture := lit "source",
                             extension := lit ".dsc" })
    else if ← (Bytes.tryCompare filename lastDot 3 (lit ".gz")
        <||> Bytes.tryCompare filename lastDot 3 (lit ".xz")) then
      match behind firstUnderscore (Bytes.rfind filename (lit ".tar") lastDot) with
      | some tarPos => some <$> parseSource sub info filename firstUnderscore tarPos
      | none => parseBinary sub info filename firstUnderscore lastDot
    else parseBinary sub info filename firstUnderscore lastDot

/-- The last segment of a path. -/
def parseFilename (info : PackageInfo) (filename : Bytes) : Except Exn (Option PackageInfo) :=
  match Bytes.findFrom filename (lit "_") with
  | none => pure none
  | some firstUnderscore => do
    let name ← Bytes.trySubstr filename 0 firstUnderscore
    if name = [] then pure none
    else match Bytes.rfind filename (lit ".") with
      | none => pure none
      | some lastDot =>
        if lastDot ≤ firstUnderscore then pure none
        else parseFormats sub { info with name := name } filename firstUnderscore lastDot

/-- `parse`, with lengths computed by `sub`. -/
def parseWith (path : Bytes) : Except Exn (Option PackageInfo) :=
  if Bytes.rfind path (lit "/debian/pool/") 0 ≠ some 0 then pure none
  else match Bytes.findFrom path (lit "/") 13 with
    | none => pure none
    | some componentEnd => do
      let component ← Bytes.trySubstr path 13 (← sub componentEnd 13)
      if component ≠ lit "main" ∧ component ≠ lit "contrib" ∧ component ≠ lit "non-free" then
        pure none
      else match Bytes.rfind path (lit "/") with
        | none => pure none
        | some lastSlash => do
          let filename ← Bytes.trySubstr path (lastSlash + 1)
          parseFilename sub { component := component } filename

end Parse

/-- Parse a Debian repository path and extract package information. -/
def parse (path : Bytes) : Except Exn (Option PackageInfo) := parseWith wrappingSub path

example : parse (lit "/debian/pool/main/v/vim/vim_9.0.0_amd64.deb")
    = .ok (some ⟨lit "vim", lit "9.0.0", lit "main", lit ".deb", lit "amd64"⟩) := by decide

/-! ## Cuts at the delimiters -/

/-- The delimiter behind the name, and the one before the architecture. -/
def underscore : UInt8 := 0x5f

/-- The delimiter before the extension. -/
def dot : UInt8 := 0x2e

/-- **A word is looked for in the name first**: found there, it hides those behind the name. -/
theorem behind_findFrom {pat : Bytes} (hpat : pat ≠ []) (hunderscore : underscore ∉ pat)
    (name tail : Bytes) :
    behind name.length (Bytes.findFrom (name ++ underscore :: tail) pat)
      = if pat <:+: name then none
        else (Bytes.search pat tail).map (name.length + 1 + ·) := by
  rw [Bytes.findFrom_zero, Bytes.search_append_cons_of_notMem hpat hunderscore]
  cases hname : Bytes.search pat name with
  | none =>
    rw [if_neg ((Bytes.search_eq_none_iff_absent hpat).1 hname), Option.none_or, behind]
    cases Bytes.search pat tail with
    | none => rfl
    | some i => exact Option.filter_some_pos (by simp; omega)
  | some i =>
    have hle := Bytes.search_add_length_le hname
    have hpos := List.length_pos_iff.2 hpat
    rw [if_pos (Bytes.infix_of_search hpat hname), Option.some_or, behind,
      Option.filter_some_neg (by simp; omega)]

/-- The file name is cut at its first underscore and its last dot. -/
theorem parseFilename_append (sub : Nat → Nat → Except Exn Nat) (info : PackageInfo)
    {filename : Bytes} (name tail extension : Bytes)
    (hfilename : filename = name ++ underscore :: (tail ++ dot :: extension)) (hne : name ≠ [])
    (hname : underscore ∉ name) (hextension : dot ∉ extension) :
    parseFilename sub info filename
      = parseFormats sub { info with name := name } filename name.length
          (name.length + 1 + tail.length) := by
  have hfirst : Bytes.findFrom filename (lit "_") = some name.length := by
    rw [Bytes.findFrom_zero, hfilename]
    exact Bytes.search_append_cons hname _
  have hlast : Bytes.rfind filename (lit ".") = some (name.length + 1 + tail.length) := by
    refine (Bytes.rfind_append_cons (b := dot) (name ++ underscore :: tail) extension
      (by simp [hfilename]) hextension).trans ?_
    simp
    omega
  rw [parseFilename, hfirst]
  dsimp only
  rw [Bytes.trySubstr_middle [] name (underscore :: (tail ++ dot :: extension)) hfilename
    (by rfl) rfl, pure_bind, if_neg hne, hlast]
  dsimp only
  rw [if_neg (by omega)]

/-- Differences that do not wrap around are exact. -/
def Exact (sub : Nat → Nat → Except Exn Nat) : Prop := ∀ a b, b ≤ a → sub a b = pure (a - b)

theorem exact_wrappingSub : Exact wrappingSub := fun a b h => by
  rw [wrappingSub, sizeSub, if_pos h]

section Exact

variable {sub : Nat → Nat → Except Exn Nat} (hsub : Exact sub)

include hsub

theorem lengthBetween_of_exact {start stop n : Nat} (h : stop = start + 1 + n) :
    lengthBetween sub start stop = pure n := by
  subst h
  have hfirst : sub (start + 1 + n) start = pure (1 + n) := by
    rw [hsub _ _ (by omega), Nat.add_assoc, Nat.add_sub_cancel_left]
  rw [lengthBetween, hfirst, pure_bind, hsub _ _ (by omega), Nat.add_sub_cancel_left]

/-- **The version is what lies between the first underscore and the extension.** -/
theorem parseSource_append (info : PackageInfo) (name version extension : Bytes) :
    parseSource sub info (name ++ underscore :: (version ++ extension)) name.length
        (name.length + 1 + version.length)
      = pure { info with version := version, architecture := lit "source",
                         extension := extension } := by
  rw [parseSource, lengthBetween_of_exact hsub rfl, pure_bind,
    Bytes.trySubstr_middle (name ++ [underscore]) version extension (by simp) (by simp) rfl,
    pure_bind,
    Bytes.trySubstr_last (name ++ underscore :: version) extension (by simp) (by simp; omega),
    pure_bind]

/-- **The architecture is what lies between the second underscore and the last dot.** -/
theorem parseBinary_append (info : PackageInfo) (name : Bytes) {version : Bytes}
    (hversion : underscore ∉ version) (architecture extension : Bytes) :
    parseBinary sub info
        (name ++ underscore :: (version ++ underscore :: (architecture ++ extension)))
        name.length (name.length + 1 + version.length + 1 + architecture.length)
      = pure (some { info with version := version, architecture := architecture,
                               extension := extension }) := by
  have hsecond : Bytes.findFrom
      (name ++ underscore :: (version ++ underscore :: (architecture ++ extension))) (lit "_")
      (name.length + 1) = some (name.length + 1 + version.length) := by
    rw [Bytes.findFrom_append (name ++ [underscore])
      (version ++ underscore :: (architecture ++ extension)) (by simp) (by simp),
      show lit "_" = [underscore] from rfl, Bytes.search_append_cons hversion]
    simp
  rw [parseBinary, hsecond]
  dsimp only
  rw [if_neg (by omega), lengthBetween_of_exact hsub rfl, pure_bind,
    Bytes.trySubstr_middle (name ++ [underscore]) version
      (underscore :: (architecture ++ extension)) (by simp) (by simp) rfl, pure_bind,
    lengthBetween_of_exact hsub rfl, pure_bind,
    Bytes.trySubstr_middle (name ++ underscore :: (version ++ [underscore])) architecture extension
      (by simp) (by simp; omega) rfl, pure_bind,
    Bytes.trySubstr_last (name ++ underscore :: (version ++ underscore :: architecture)) extension
      (by simp) (by simp; omega), pure_bind]

end Exact

end PackageParser

end PacPrism
