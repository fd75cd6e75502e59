import PacPrism.Node.Package.FileFormats

/-!
# Node/Package/Reassembly — what the reported pieces say about the path

Two properties of the answers of the parser: the pieces make up the file name again, and each of
them is what the documentation of the parser says.  Both are read off the format that is selected,
and both fail where that format leaves something open: what follows `.dsc`, and what stands between
the delimiters.
-/

namespace PacPrism

open PackageParser (underscore dot fileName)

namespace PackageInfo

/-- The file name of a source package. -/
def sourceName (info : PackageInfo) : Bytes :=
  info.name ++ underscore :: (info.version ++ info.extension)

/-- The file name of a binary package. -/
def binaryName (info : PackageInfo) : Bytes :=
  info.name ++ underscore :: (info.version ++ underscore :: (info.architecture ++ info.extension))

/-- **The pieces make up the path**, as far as it is not directories. -/
def Reassembles (info : PackageInfo) (path : Bytes) : Prop :=
  (fileName path = info.sourceName ∧ info.architecture = lit "source"
      ∨ fileName path = info.binaryName)
    ∧ lit "/debian/pool/" ++ (info.component ++ [Path.slash]) <+: path

/-- A text without delimiters. -/
def Plain (s : Bytes) : Prop := s ≠ [] ∧ Path.slash ∉ s ∧ underscore ∉ s

/-- **The pieces are what the parser is documented to report.** -/
structure Documented (info : PackageInfo) (path : Bytes) : Prop where
  name : Plain info.name
  version : Plain info.version
  architecture : Plain info.architecture
  extension : ∃ b rest, info.extension = dot :: b :: rest
  source : fileName path ≠ info.binaryName →
    info.extension ∈ [lit ".dsc", lit ".tar.gz", lit ".tar.xz"] ∨ lit ".orig" <+: info.extension

end PackageInfo

namespace PackageParser

/-- A path has one package file to show. -/
theorem info_eq_of_shown {path component name : Bytes} {f : FileFormat} {info : PackageInfo}
    (h : parse path = .ok (some info)) (hshown : f.Shown path component name) :
    info = f.info component name :=
  Option.some.inj (Except.ok.inj (h.symm.trans (parseWith_of_shown exact_wrappingSub hshown)))

/-! ## Reassembly -/

/-- The path shows the description of a source package, with more behind `.dsc`. -/
def DropsTail (path : Bytes) : Prop :=
  ∃ component name version rest, (FileFormat.dsc version rest).Shown path component name ∧ rest ≠ []

/-- **When the pieces make up the path**: nothing follows the extension `.dsc`. -/
theorem reassembles_iff {path : Bytes} {info : PackageInfo} (h : parse path = .ok (some info)) :
    info.Reassembles path ↔ ¬ DropsTail path := by
  constructor
  · rintro ⟨hname, -⟩ ⟨component, name, version, rest, hshown, hne⟩
    obtain rfl := info_eq_of_shown h hshown
    rw [hshown.fileName] at hname
    rcases hname with ⟨hsource, -⟩ | hbinary
    · refine hne ?_
      simpa [PackageInfo.sourceName, FileFormat.info, FileFormat.text] using hsource
    · simp [PackageInfo.binaryName, FileFormat.info, FileFormat.text, lit] at hbinary
  · intro hkeeps
    obtain ⟨component, name, f, hshown, rfl⟩ := (parseWith_eq_some_iff exact_wrappingSub).1 h
    refine ⟨?_, by rw [FileFormat.component_info]; exact hshown.inPool.2⟩
    rw [hshown.fileName]
    cases f with
    | orig version rest => exact .inl ⟨rfl, rfl⟩
    | dsc version rest =>
      obtain rfl : rest = [] := by
        by_contra hne
        exact hkeeps ⟨component, name, version, rest, hshown, hne⟩
      exact .inl ⟨rfl, rfl⟩
    | tar version middle rest => exact .inl ⟨rfl, rfl⟩
    | binary version architecture rest => exact .inr rfl

/-- The path of a binary package. -/
def vimPath : Bytes := lit "/debian/pool/main/v/vim/vim_9.0.0_amd64.deb"

def vimInfo : PackageInfo := ⟨lit "vim", lit "9.0.0", lit "main", lit ".deb", lit "amd64"⟩

theorem parse_vimPath : parse vimPath = .ok (some vimInfo) := by decide

theorem reassembles_vimInfo : vimInfo.Reassembles vimPath := by
  refine (reassembles_iff parse_vimPath).2 ?_
  rintro ⟨component, name, version, rest, hshown, -⟩
  have harchitecture : vimInfo.architecture = lit "source" :=
    congrArg PackageInfo.architecture (info_eq_of_shown parse_vimPath hshown)
  exact absurd harchitecture (by decide)

/-- Of `vim_1.dscript`, what follows `.dsc` is dropped. -/
theorem not_reassembles :
    ¬ ∀ path info, parse path = .ok (some info) → info.Reassembles path := by
  intro hall
  have hparse : parse (lit "/debian/pool/main/v/vim/vim_1.dscript")
      = .ok (some ⟨lit "vim", lit "1", lit "main", lit ".dsc", lit "source"⟩) := by decide
  obtain ⟨hname, -⟩ := hall _ _ hparse
  exact absurd hname (by decide)

/-! ## The documented pieces -/

end PackageParser

namespace FileFormat

/-- The pieces between the delimiters are there, and hold no further delimiter. -/
def Clean : FileFormat → Prop
  | orig version _ => version ≠ [] ∧ underscore ∉ version
  | dsc version _ => version ≠ [] ∧ underscore ∉ version
  | tar version middle rest => (version ≠ [] ∧ underscore ∉ version)
    ∧ middle = [] ∧ (rest = lit "gz" ∨ rest = lit "xz")
  | binary version architecture rest =>
    version ≠ [] ∧ (architecture ≠ [] ∧ underscore ∉ architecture) ∧ rest ≠ []

variable {path component name : Bytes} {f : FileFormat}

theorem version_prefix_text (f : FileFormat) (component name : Bytes) :
    (f.info component name).version <+: f.text := by
  cases f <;> exact List.prefix_append _ _

theorem Shown.slash_notMem (h : f.Shown path component name) :
    Path.slash ∉ name ∧ Path.slash ∉ f.text := by
  have hslash := PackageParser.slash_notMem_fileName path
  rw [h.fileName, List.mem_append, List.mem_cons, not_or, not_or] at hslash
  exact ⟨hslash.1, hslash.2.2⟩

/-- An archive has a documented extension if nothing stands between `.tar` and the last dot. -/
theorem tar_clean_of_mem {version middle rest : Bytes} (h : (tar version middle rest).Selected name)
    (hmem : lit ".tar" ++ (middle ++ dot :: rest) ∈ [lit ".dsc", lit ".tar.gz", lit ".tar.xz"]) :
    middle = [] ∧ (rest = lit "gz" ∨ rest = lit "xz") := by
  obtain ⟨-, hrest, -, -⟩ := h
  simp only [List.mem_cons, List.not_mem_nil, or_false] at hmem
  rcases hmem with heq | heq | heq
  · simp [lit] at heq
  · have hcut : middle ++ dot :: rest = [] ++ dot :: lit "gz" := List.append_cancel_left heq
    obtain ⟨rfl, rfl⟩ := Bytes.append_cons_inj_last hrest (by decide) hcut
    exact ⟨rfl, .inl rfl⟩
  · have hcut : middle ++ dot :: rest = [] ++ dot :: lit "xz" := List.append_cancel_left heq
    obtain ⟨rfl, rfl⟩ := Bytes.append_cons_inj_last hrest (by decide) hcut
    exact ⟨rfl, .inr rfl⟩

/-- **Whether the pieces are as documented** depends on the format that is selected. -/
theorem Shown.documented_iff_clean (h : f.Shown path component name) :
    (f.info component name).Documented path ↔ f.Clean := by
  obtain ⟨hname, htext⟩ := h.slash_notMem
  have hplain : PackageInfo.Plain name := ⟨h.name_ne, hname, h.underscore_notMem⟩
  have hsource : PackageInfo.Plain (lit "source") := ⟨by decide, by decide, by decide⟩
  have hversion : Path.slash ∉ (f.info component name).version :=
    fun hmem => htext ((f.version_prefix_text component name).subset hmem)
  cases f with
  | orig version rest =>
    constructor
    · exact fun hdoc => ⟨hdoc.version.1, hdoc.version.2.2⟩
    · rintro ⟨hne, hunderscore⟩
      exact ⟨hplain, ⟨hne, hversion, hunderscore⟩, hsource, ⟨_, _, rfl⟩, fun _ =>
        .inr (List.prefix_append _ rest)⟩
  | dsc version rest =>
    constructor
    · exact fun hdoc => ⟨hdoc.version.1, hdoc.version.2.2⟩
    · rintro ⟨hne, hunderscore⟩
      exact ⟨hplain, ⟨hne, hversion, hunderscore⟩, hsource, ⟨_, _, rfl⟩, fun _ =>
        .inl List.mem_cons_self⟩
  | tar version middle rest =>
    have hnotBinary : PackageParser.fileName path
        ≠ ((tar version middle rest).info component name).binaryName := by
      rw [h.fileName, PackageInfo.binaryName]
      intro heq
      have hlength := congrArg List.length heq
      simp [text, info, lit] at hlength
    constructor
    · intro hdoc
      refine ⟨⟨hdoc.version.1, hdoc.version.2.2⟩, tar_clean_of_mem h.selected ?_⟩
      exact (hdoc.source hnotBinary).resolve_right (by simp [info, lit])
    · rintro ⟨⟨hne, hunderscore⟩, rfl, hrest⟩
      refine ⟨hplain, ⟨hne, hversion, hunderscore⟩, hsource, ⟨_, _, rfl⟩, fun _ => .inl ?_⟩
      rcases hrest with rfl | rfl
      exacts [.tail _ (.head _), .tail _ (.tail _ (.head _))]
  | binary version architecture rest =>
    have harchitecture : Path.slash ∉ architecture := fun hmem =>
      htext (List.mem_append_right _ (List.mem_cons_of_mem _ (List.mem_append_left _ hmem)))
    obtain ⟨-, -, hunderscore, -, -⟩ := h.selected
    constructor
    · intro hdoc
      refine ⟨hdoc.version.1, ⟨hdoc.architecture.1, hdoc.architecture.2.2⟩, ?_⟩
      obtain ⟨b, tail, hext⟩ := hdoc.extension
      rw [(List.cons.inj hext).2]
      exact List.cons_ne_nil b tail
    · rintro ⟨hne, ⟨hne', hunderscore'⟩, hrest⟩
      obtain ⟨b, tail, rfl⟩ := List.exists_cons_of_ne_nil hrest
      exact ⟨hplain, ⟨hne, hversion, hunderscore⟩, ⟨hne', harchitecture, hunderscore'⟩,
        ⟨b, tail, rfl⟩, fun hnot => absurd h.fileName hnot⟩

end FileFormat

namespace PackageParser

/-- The path shows a package file with a piece that is missing or holds a delimiter. -/
def Sloppy (path : Bytes) : Prop :=
  ∃ component name f, FileFormat.Shown f path component name ∧ ¬ f.Clean

/-- **When the pieces are as documented**: nothing is missing between the delimiters of the path,
and no delimiter is there twice. -/
theorem documented_iff {path : Bytes} {info : PackageInfo} (h : parse path = .ok (some info)) :
    info.Documented path ↔ ¬ Sloppy path := by
  constructor
  · rintro hdoc ⟨component, name, f, hshown, hunclean⟩
    obtain rfl := info_eq_of_shown h hshown
    exact hunclean (hshown.documented_iff_clean.1 hdoc)
  · intro hclean
    obtain ⟨component, name, f, hshown, rfl⟩ := (parseWith_eq_some_iff exact_wrappingSub).1 h
    refine hshown.documented_iff_clean.2 ?_
    by_contra hunclean
    exact hclean ⟨component, name, f, hshown, hunclean⟩

/-- Nothing is missing in a binary package's path. -/
theorem not_sloppy_vimPath : ¬ Sloppy vimPath :=
  (documented_iff parse_vimPath).1
    { name := ⟨by decide, by decide, by decide⟩
      version := ⟨by decide, by decide, by decide⟩
      architecture := ⟨by decide, by decide, by decide⟩
      extension := ⟨_, _, rfl⟩
      source := fun hnot => absurd (by decide) hnot }

/-- Of `vim_.dsc`, the version is empty. -/
theorem not_documented :
    ¬ ∀ path info, parse path = .ok (some info) → info.Documented path := by
  intro hall
  have hparse : parse (lit "/debian/pool/main/v/vim/vim_.dsc")
      = .ok (some ⟨lit "vim", [], lit "main", lit ".dsc", lit "source"⟩) := by decide
  exact (hall _ _ hparse).version.1 rfl

end PackageParser

end PacPrism
