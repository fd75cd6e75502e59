import PacPrism.Node.Package.FileFormats

/-!
# Node/Package/PoolPaths — the paths of a pool, written and parsed

    /debian/pool/component/dir/…/dir/name_version_architecture.deb
    /debian/pool/component/dir/…/dir/name_version.orig.tar.gz

`BinaryPath` and `SourcePath` are the grammars of the paths of packages, their side conditions as
fields.  The parser looks for the archives of upstream first, by the word `.orig`, and takes its
first place in the file name: where that is in the version of a binary package, or in the name of a
source package, the path is not read back.
-/

namespace PacPrism

/-- Bytes of a package name: `[a-z0-9+.-]`. -/
def isNameByte (b : UInt8) : Bool :=
  (0x61 ≤ b && b ≤ 0x7a) || Bytes.isDigit b || (lit "+.-").contains b

/-- Bytes of a version: `[A-Za-z0-9.+~:-]`. -/
def isVersionByte (b : UInt8) : Bool :=
  (0x41 ≤ b && b ≤ 0x5a) || (0x61 ≤ b && b ≤ 0x7a) || Bytes.isDigit b || (lit ".+~:-").contains b

/-- Bytes of an architecture: `[a-z0-9-]`. -/
def isArchitectureByte (b : UInt8) : Bool :=
  (0x61 ≤ b && b ≤ 0x7a) || Bytes.isDigit b || (lit "-").contains b

/-- What the paths of all packages have in common: where they lie, a name and a version. -/
structure PoolPath where
  component : Bytes
  dirs : List Bytes
  name : Bytes
  version : Bytes
  component_eq : component = lit "main" ∨ component = lit "contrib" ∨ component = lit "non-free"
  dirs_ne : dirs ≠ []
  segment : ∀ dir ∈ dirs, dir ≠ [] ∧ Path.slash ∉ dir
  name_ne : name ≠ []
  name_byte : ∀ b ∈ name, isNameByte b = true
  version_ne : version ≠ []
  version_byte : ∀ b ∈ version, isVersionByte b = true

/-- The path of a binary package. -/
structure BinaryPath extends PoolPath where
  architecture : Bytes
  extension : Bytes
  architecture_ne : architecture ≠ []
  architecture_byte : ∀ b ∈ architecture, isArchitectureByte b = true
  extension_eq : extension = lit ".deb" ∨ extension = lit ".udeb"

namespace PoolPath

variable (p : PoolPath)

/-- The path of a file called by the name, the version and what follows them. -/
def textWith (tail : Bytes) : Bytes :=
  lit "/debian/pool/" ++ (p.component ++ Path.slash :: ((lit "/").intercalate p.dirs ++ Path.slash ::
    (p.name ++ PackageParser.underscore :: (p.version ++ tail))))

/-- The information common to all packages. -/
def infoWith (architecture extension : Bytes) : PackageInfo :=
  ⟨p.name, p.version, p.component, extension, architecture⟩

end PoolPath

/-- A byte outside the alphabet of a text is not in it. -/
theorem notMem_of_alphabet {alphabet : UInt8 → Bool} {s : Bytes}
    (h : ∀ b ∈ s, alphabet b = true) {b : UInt8} (hb : alphabet b = false) : b ∉ s := fun hmem => by
  rw [h b hmem] at hb
  cases hb

namespace BinaryPath

open PackageParser (underscore dot)

variable (p : BinaryPath)

/-- The path. -/
def text : Bytes := p.textWith (underscore :: (p.architecture ++ p.extension))

/-- What a parser should find in it. -/
def info : PackageInfo := p.infoWith p.architecture p.extension

/-- The file name. -/
def filename : Bytes :=
  p.name ++ underscore :: (p.version ++ underscore :: (p.architecture ++ p.extension))

theorem exists_extension : ∃ ext, p.extension = dot :: ext ∧ dot ∉ ext ∧ underscore ∉ ext
    ∧ Path.slash ∉ ext := by
  rcases p.extension_eq with h | h
  exacts [⟨lit "deb", h, by decide⟩, ⟨lit "udeb", h, by decide⟩]

theorem shown {f : FileFormat}
    (htext : f.text = p.version ++ underscore :: (p.architecture ++ p.extension))
    (hf : f.Selected p.name) : f.Shown p.text p.component p.name := by
  obtain ⟨ext, hext, -, -, hslash⟩ := p.exists_extension
  have hfilename : Path.slash ∉ p.filename := by
    simp only [filename, hext, List.mem_append, List.mem_cons, not_or]
    exact ⟨notMem_of_alphabet p.name_byte (by decide), by decide,
      notMem_of_alphabet p.version_byte (by decide), by decide,
      notMem_of_alphabet p.architecture_byte (by decide), by decide, hslash⟩
  have hunderscore : underscore ∉ p.name := notMem_of_alphabet p.name_byte (by decide)
  rw [filename, ← htext] at hfilename
  rw [text, PoolPath.textWith, ← htext]
  exact f.shown_of_selected p.component_eq _ p.name_ne hunderscore hfilename hf

/-- A path that does not show the word `.orig` behind the name is read as that of a binary
package. -/
theorem parse_of_binary (h : lit ".orig" <:+: p.name ∨ ¬ lit ".orig" <:+: p.version) :
    PackageParser.parse p.text = .ok (some p.info) := by
  obtain ⟨ext, hext, hdot, -, -⟩ := p.exists_extension
  have horig : ¬ lit ".orig" <:+: dot :: ext := by
    rw [← hext]
    rcases p.extension_eq with h | h <;> rw [h] <;> decide
  have hother : ¬ lit "dsc" <+: ext ∧ ¬ FileFormat.Compressed ext := by
    rcases p.extension_eq with h | h <;> obtain rfl := List.cons.inj (hext.symm.trans h) |>.2 <;>
      decide
  have hselected : (FileFormat.binary p.version p.architecture ext).Selected p.name := by
    refine ⟨h.imp_right fun hversion => ?_, hdot, notMem_of_alphabet p.version_byte (by decide),
      hother.1, fun hc => hother.2 hc.1⟩
    rw [FileFormat.text, Bytes.infix_append_cons_iff (by decide) (by decide), not_or]
    refine ⟨hversion, fun hinfix => horig ?_⟩
    exact (Bytes.cons_infix_append_of_notMem
      (notMem_of_alphabet p.architecture_byte (by decide)) _ _).1 hinfix
  have hinfo : p.info
      = (FileFormat.binary p.version p.architecture ext).info p.component p.name := by
    rw [info, PoolPath.infoWith, hext]
    rfl
  rw [hinfo]
  exact PackageParser.parseWith_of_shown PackageParser.exact_wrappingSub
    (p.shown (by rw [FileFormat.text, hext]) hselected)

/-- A path that shows it there is read as that of a source package, and what follows the word as its
extension. -/
theorem parse_of_orig (hname : ¬ lit ".orig" <:+: p.name) (hversion : lit ".orig" <:+: p.version) :
    ∃ version extension, underscore ∈ extension ∧ PackageParser.parse p.text
      = .ok (some ⟨p.name, version, p.component, extension, lit "source"⟩) := by
  obtain ⟨version, tail, htext, hsearch⟩ := Bytes.exists_first_infix (by decide) hversion
  let rest := tail ++ underscore :: (p.architecture ++ p.extension)
  have hshown : (FileFormat.orig version rest).Shown p.text p.component p.name :=
    p.shown (by simp [FileFormat.text, rest, htext]) ⟨hname, hsearch rest⟩
  exact ⟨version, lit ".orig" ++ rest, by simp [rest],
    PackageParser.parseWith_of_shown PackageParser.exact_wrappingSub hshown⟩

end BinaryPath

/-- **Which paths of binary packages round-trip**: those whose version does not show the word
`.orig`, unless the name shows it first. -/
theorem parse_binary_iff (p : BinaryPath) : PackageParser.parse p.text = .ok (some p.info)
    ↔ lit ".orig" <:+: p.name ∨ ¬ lit ".orig" <:+: p.version := by
  refine ⟨fun h => ?_, p.parse_of_binary⟩
  by_contra hnot
  obtain ⟨hname, hversion⟩ := not_or.1 hnot
  obtain ⟨version, extension, hmem, hparse⟩ := p.parse_of_orig hname (not_not.1 hversion)
  obtain rfl : p.extension = extension :=
    congrArg PackageInfo.extension (Option.some.inj (Except.ok.inj (h.symm.trans hparse)))
  obtain ⟨ext, hext, -, hunderscore, -⟩ := p.exists_extension
  rw [hext] at hmem
  exact (List.mem_cons.1 hmem).elim (by decide) hunderscore

/-- The path `/debian/pool/main/v/vim/vim_1.orig_amd64.deb`. -/
def origVersionPath : BinaryPath where
  component := lit "main"
  dirs := [lit "v", lit "vim"]
  name := lit "vim"
  version := lit "1.orig"
  architecture := lit "amd64"
  extension := lit ".deb"
  component_eq := .inl rfl
  dirs_ne := by decide
  segment := by decide
  name_ne := by decide
  name_byte := List.all_eq_true.1 (by decide)
  version_ne := by decide
  version_byte := List.all_eq_true.1 (by decide)
  architecture_ne := by decide
  architecture_byte := List.all_eq_true.1 (by decide)
  extension_eq := .inl rfl

example : origVersionPath.text = lit "/debian/pool/main/v/vim/vim_1.orig_amd64.deb" := by decide

/-- A binary package whose version ends in `.orig` is taken for a source package. -/
theorem parse_binary_fails :
    ¬ ∀ p : BinaryPath, PackageParser.parse p.text = .ok (some p.info) := by
  intro hall
  have hsource : PackageParser.parse origVersionPath.text
      = .ok (some ⟨lit "vim", lit "1", lit "main", lit ".orig_amd64.deb", lit "source"⟩) := by
    decide
  exact absurd (hsource.symm.trans (hall origVersionPath)) (by decide)

/-! ## Source packages -/

/-- The path of a file of a source package, below any directory. -/
structure SourcePath where
  component : Bytes
  dirs : Bytes
  name : Bytes
  version : Bytes
  extension : Bytes
  component_eq : component = lit "main" ∨ component = lit "contrib" ∨ component = lit "non-free"
  name_ne : name ≠ []
  name_byte : ∀ b ∈ name, isNameByte b = true
  version_ne : version ≠ []
  version_byte : ∀ b ∈ version, isVersionByte b = true
  version_word : ¬ lit ".orig" <:+: version ∧ ¬ lit ".tar" <:+: version
  extension_mem : extension ∈
    [lit ".orig.tar.gz", lit ".orig.tar.xz", lit ".dsc", lit ".tar.gz", lit ".tar.xz"]

namespace SourcePath

open PackageParser (underscore dot)

variable (p : SourcePath)

/-- The path. -/
def text : Bytes :=
  lit "/debian/pool/" ++ (p.component ++ Path.slash :: (p.dirs ++ Path.slash ::
    (p.name ++ underscore :: (p.version ++ p.extension))))

/-- What a parser should find in it. -/
def info : PackageInfo := ⟨p.name, p.version, p.component, p.extension, lit "source"⟩

theorem parse_of_selected {f : FileFormat} (htext : f.text = p.version ++ p.extension)
    (hf : f.Selected p.name) :
    PackageParser.parse p.text = .ok (some (f.info p.component p.name)) := by
  have hextension : Path.slash ∉ p.extension :=
    (by decide : ∀ e ∈ [lit ".orig.tar.gz", lit ".orig.tar.xz", lit ".dsc", lit ".tar.gz",
      lit ".tar.xz"], Path.slash ∉ e) _ p.extension_mem
  have hfilename : Path.slash ∉ p.name ++ underscore :: f.text := by
    simp only [htext, List.mem_append, List.mem_cons, not_or]
    exact ⟨notMem_of_alphabet p.name_byte (by decide), by decide,
      notMem_of_alphabet p.version_byte (by decide), hextension⟩
  have hunderscore : underscore ∉ p.name := notMem_of_alphabet p.name_byte (by decide)
  rw [text, ← htext]
  exact PackageParser.parseWith_of_shown PackageParser.exact_wrappingSub
    (f.shown_of_selected p.component_eq _ p.name_ne hunderscore hfilename hf)

/-- The upstream archive of a package whose name does not show the word `.orig`. -/
theorem parse_of_orig {rest : Bytes} (hext : p.extension = lit ".orig" ++ rest)
    (hname : ¬ lit ".orig" <:+: p.name) : PackageParser.parse p.text = .ok (some p.info) := by
  have hword : dot ∉ lit "orig" := by decide
  have hsearch := Bytes.search_append_word hword p.version_word.1 rest
  have hparse := p.parse_of_selected (f := .orig p.version rest) (by rw [FileFormat.text, hext])
    ⟨hname, hsearch⟩
  rwa [info, hext]

/-- Where the word `.orig` is not looked at, an archive is read by the word `.tar`. -/
theorem parse_of_tar {front rest : Bytes} (hext : p.version ++ p.extension
      = front ++ (lit ".tar" ++ dot :: rest)) (hrest : rest = lit "gz" ∨ rest = lit "xz")
    (horig : FileFormat.NoOrig p.name (p.version ++ p.extension)) :
    PackageParser.parse p.text
      = .ok (some ⟨p.name, front, p.component, lit ".tar" ++ dot :: rest, lit "source"⟩) := by
  have hcompressed : dot ∉ rest ∧ FileFormat.Compressed rest := by
    rcases hrest with rfl | rfl <;> decide
  have htext : (FileFormat.tar front [] rest).text = p.version ++ p.extension := hext.symm
  exact p.parse_of_selected htext ⟨htext ▸ horig, hcompressed.1, hcompressed.2, by decide⟩

theorem noOrig {rest : Bytes} (hext : p.extension = dot :: rest)
    (hword : ¬ lit ".orig" <:+: dot :: rest) :
    FileFormat.NoOrig p.name (p.version ++ p.extension) := by
  refine .inr ?_
  rw [hext, show lit ".orig" = dot :: lit "orig" from rfl,
    Bytes.cons_infix_append_cons_iff (by decide), not_or]
  exact ⟨p.version_word.1, hword⟩

/-- The upstream archive of a package, whatever its name. -/
theorem parse_upstream_iff {rest : Bytes} (hrest : rest = lit "gz" ∨ rest = lit "xz")
    (hext : p.extension = lit ".orig" ++ (lit ".tar" ++ dot :: rest)) :
    PackageParser.parse p.text = .ok (some p.info) ↔ ¬ lit ".orig" <:+: p.name := by
  refine ⟨fun h hname => ?_, p.parse_of_orig hext⟩
  have htext : p.version ++ p.extension
      = (p.version ++ lit ".orig") ++ (lit ".tar" ++ dot :: rest) := by simp [hext]
  have hparse := p.parse_of_tar htext hrest (.inl hname)
  have hversion : p.version = p.version ++ lit ".orig" :=
    congrArg PackageInfo.version (Option.some.inj (Except.ok.inj (h.symm.trans hparse)))
  simp [lit] at hversion

theorem parse_of_dsc (hext : p.extension = lit ".dsc") :
    PackageParser.parse p.text = .ok (some p.info) := by
  have htext : (FileFormat.dsc p.version []).text = p.version ++ p.extension := by
    rw [FileFormat.text, List.append_nil, hext]
  have hinfo : p.info = (FileFormat.dsc p.version []).info p.component p.name := by
    rw [info, hext]
    rfl
  rw [hinfo]
  have hword : ¬ lit ".orig" <:+: dot :: lit "dsc" := by decide
  exact p.parse_of_selected htext ⟨htext ▸ p.noOrig hext hword, List.not_mem_nil⟩

theorem parse_of_archive {rest : Bytes} (hrest : rest = lit "gz" ∨ rest = lit "xz")
    (hext : p.extension = lit ".tar" ++ dot :: rest) :
    PackageParser.parse p.text = .ok (some p.info) := by
  have hword : ¬ lit ".orig" <:+: lit ".tar" ++ dot :: rest := by
    rcases hrest with rfl | rfl <;> decide
  rw [p.parse_of_tar (by rw [hext]) hrest (p.noOrig hext hword), info, hext]

end SourcePath

/-- **Which paths of source packages round-trip**: all but those of upstream archives whose name
shows the word `.orig` itself. -/
theorem parse_source_iff (p : SourcePath) : PackageParser.parse p.text = .ok (some p.info)
    ↔ ¬ (lit ".orig" <+: p.extension ∧ lit ".orig" <:+: p.name) := by
  have hmem := p.extension_mem
  simp only [List.mem_cons, List.not_mem_nil, or_false] at hmem
  rcases hmem with hext | hext | hext | hext | hext
  · rw [p.parse_upstream_iff (.inl rfl) hext, hext, and_iff_right (by decide)]
  · rw [p.parse_upstream_iff (.inr rfl) hext, hext, and_iff_right (by decide)]
  · exact iff_of_true (p.parse_of_dsc hext) fun h => absurd (hext ▸ h.1) (by decide)
  · exact iff_of_true (p.parse_of_archive (.inl rfl) hext) fun h => absurd (hext ▸ h.1) (by decide)
  · exact iff_of_true (p.parse_of_archive (.inr rfl) hext) fun h => absurd (hext ▸ h.1) (by decide)

/-- The path `/debian/pool/main/v/vim.orig/vim.orig_1.orig.tar.gz`. -/
def origNamePath : SourcePath where
  component := lit "main"
  dirs := lit "v/vim.orig"
  name := lit "vim.orig"
  version := lit "1"
  extension := lit ".orig.tar.gz"
  component_eq := .inl rfl
  name_ne := by decide
  name_byte := List.all_eq_true.1 (by decide)
  version_ne := by decide
  version_byte := List.all_eq_true.1 (by decide)
  version_word := by decide
  extension_mem := by decide

example : origNamePath.text = lit "/debian/pool/main/v/vim.orig/vim.orig_1.orig.tar.gz" := by decide

/-- The upstream archive of a package whose name ends in `.orig` gets the word into its version. -/
theorem parse_source_fails :
    ¬ ∀ p : SourcePath, PackageParser.parse p.text = .ok (some p.info) := by
  intro hall
  have hversion : PackageParser.parse origNamePath.text
      = .ok (some ⟨lit "vim.orig", lit "1.orig", lit "main", lit ".tar.gz", lit "source"⟩) := by
    decide
  exact absurd (hversion.symm.trans (hall origNamePath)) (by decide)

end PacPrism
