import Mathlib.Data.List.DropRight
import PacPrism.Node.Package.Parser

/-!
# Node/Package/FileFormats — what the parser accepts

    /debian/pool/component/…/name_version.orig…      FileFormat.orig
                             name_version.dsc…       FileFormat.dsc
                             name_version.tar….gz…   FileFormat.tar
                             name_version_arch.…     FileFormat.binary

A `FileFormat` is what can stand behind the first underscore of a file name, in pieces.  The formats
are tried in this order, and `Selected` says when one of them wins.  The parser answers exactly the
pieces of the format that is selected (`parseWith_eq_some_iff`), whichever way its lengths are
computed: nothing it cuts out starts behind the end of a text, and no length wraps around.
-/

namespace PacPrism

open PackageParser (underscore dot)

/-- What follows the first underscore of a file name, in pieces. -/
inductive FileFormat where
  /-- A version, `.orig`, and anything behind it. -/
  | orig (version rest : Bytes)
  /-- A version, `.dsc`, and anything behind it. -/
  | dsc (version rest : Bytes)
  /-- A version, `.tar`, anything, and a last dot with `gz` or `xz` behind it. -/
  | tar (version middle rest : Bytes)
  /-- A version, an architecture, and a last dot with anything behind it. -/
  | binary (version architecture rest : Bytes)

namespace FileFormat

/-- The text. -/
def text : FileFormat → Bytes
  | orig version rest => version ++ (lit ".orig" ++ rest)
  | dsc version rest => version ++ (lit ".dsc" ++ rest)
  | tar version middle rest => version ++ (lit ".tar" ++ (middle ++ dot :: rest))
  | binary version architecture rest =>
    version ++ underscore :: (architecture ++ dot :: rest)

/-- What the parser reports. -/
def info (component name : Bytes) : FileFormat → PackageInfo
  | orig version rest => ⟨name, version, component, lit ".orig" ++ rest, lit "source"⟩
  | dsc version _ => ⟨name, version, component, lit ".dsc", lit "source"⟩
  | tar version middle rest =>
    ⟨name, version, component, lit ".tar" ++ (middle ++ dot :: rest), lit "source"⟩
  | binary version architecture rest => ⟨name, version, component, dot :: rest, architecture⟩

@[simp] theorem name_info (component name : Bytes) (f : FileFormat) :
    (f.info component name).name = name := by cases f <;> rfl

@[simp] theorem component_info (component name : Bytes) (f : FileFormat) :
    (f.info component name).component = component := by cases f <;> rfl

/-- The extension of a compressed archive. -/
def Compressed (rest : Bytes) : Prop := lit "gz" <+: rest ∨ lit "xz" <+: rest

instance (rest : Bytes) : Decidable (Compressed rest) := inferInstanceAs (Decidable (_ ∨ _))

/-- No longer word stands there, unless it starts that way itself. -/
theorem Compressed.not_prefix {rest word : Bytes} (h : Compressed rest) (hlength : 2 ≤ word.length)
    (hword : ¬ Compressed word) : ¬ word <+: rest := by
  intro hpre
  refine hword (h.imp ?_ ?_)
  · exact fun hgz => List.prefix_of_prefix_length_le hgz hpre hlength
  · exact fun hxz => List.prefix_of_prefix_length_le hxz hpre hlength

/-- The word `.orig` does not select the first format: it does not occur behind the name, or it
occurs in the name, too, where the search finds it first. -/
def NoOrig (name tail : Bytes) : Prop := lit ".orig" <:+: name ∨ ¬ lit ".orig" <:+: tail

/-- The format wins over the others behind this name. -/
def Selected (name : Bytes) : FileFormat → Prop
  | orig version rest =>
    ¬ lit ".orig" <:+: name ∧ Bytes.search (lit ".orig") (orig version rest).text
      = some version.length
  | dsc version rest => NoOrig name (dsc version rest).text ∧ dot ∉ rest
  | tar version middle rest => NoOrig name (tar version middle rest).text ∧ dot ∉ rest
    ∧ Compressed rest ∧ ¬ lit ".tar" <:+: middle
  | binary version architecture rest => NoOrig name (binary version architecture rest).text
    ∧ dot ∉ rest ∧ underscore ∉ version ∧ ¬ lit "dsc" <+: rest
    ∧ ¬ (Compressed rest ∧ lit ".tar" <:+: version ++ underscore :: architecture)

/-- Whatever follows the name, a format is selected, or there is no underscore before the last
dot. -/
theorem exists_selected (name front : Bytes) {rest : Bytes} (hrest : dot ∉ rest) :
    (∃ f : FileFormat, f.text = front ++ dot :: rest ∧ f.Selected name)
      ∨ NoOrig name (front ++ dot :: rest) ∧ underscore ∉ front ∧ ¬ lit "dsc" <+: rest
        ∧ ¬ (Compressed rest ∧ lit ".tar" <:+: front) := by
  by_cases horig : NoOrig name (front ++ dot :: rest)
  · by_cases hdsc : lit "dsc" <+: rest
    · obtain ⟨tail, rfl⟩ := hdsc
      refine .inl ⟨dsc front tail, rfl, horig, fun h => hrest (List.mem_append_right _ h)⟩
    by_cases htar : Compressed rest ∧ lit ".tar" <:+: front
    · obtain ⟨hcompressed, hinfix⟩ := htar
      obtain ⟨version, middle, rfl, hlast⟩ := Bytes.exists_last_infix (by decide) hinfix
      have htext : (tar version middle rest).text
          = version ++ (lit ".tar" ++ middle) ++ dot :: rest := by simp [text]
      exact .inl ⟨tar version middle rest, htext, htext ▸ horig, hrest, hcompressed, hlast⟩
    by_cases hunderscore : underscore ∈ front
    · obtain ⟨version, architecture, rfl, hversion⟩ := List.eq_append_cons_of_mem hunderscore
      have htext : (binary version architecture rest).text
          = version ++ underscore :: architecture ++ dot :: rest := by simp [text]
      exact .inl ⟨binary version architecture rest, htext, htext ▸ horig, hrest, hversion, hdsc,
        htar⟩
    · exact .inr ⟨horig, hunderscore, hdsc, htar⟩
  · obtain ⟨hname, hinfix⟩ := not_or.1 horig
    obtain ⟨version, tail, htext, hsearch⟩ :=
      Bytes.exists_first_infix (by decide) (not_not.1 hinfix)
    exact .inl ⟨orig version tail, htext.symm, hname, hsearch tail⟩

end FileFormat

/-! ## The formats, tried in order -/

namespace PackageParser

open FileFormat (NoOrig Compressed)

section Formats

variable {sub : Nat → Nat → Except Exn Nat} {info : PackageInfo} {name front rest : Bytes}

theorem behind_orig_of_noOrig {tail : Bytes} (h : NoOrig name tail) :
    behind name.length (Bytes.findFrom (name ++ underscore :: tail) (lit ".orig")) = none := by
  rw [behind_findFrom (by decide) (by decide)]
  split_ifs with hname
  · rfl
  · rw [(Bytes.search_eq_none_iff_absent (by decide)).2 (h.resolve_left hname), Option.map_none]

/-- The word `.tar` occurs in a file name, up to its last dot, where it occurs before that dot. -/
theorem tar_prefix_drop_iff (hrest : Compressed rest) {k : Nat} (hk : k ≤ front.length) :
    lit ".tar" <+: (name ++ underscore :: (front ++ dot :: rest)).drop (name.length + 1 + k)
      ↔ lit ".tar" <+: front.drop k := by
  have hdrop : (name ++ underscore :: (front ++ dot :: rest)).drop (name.length + 1 + k)
      = front.drop k ++ dot :: rest := by
    rw [← List.drop_append_of_le_length hk, List.append_cons, List.drop_append,
      List.drop_of_length_le (by simp), List.nil_append]
    simp
  have hnot : ¬ lit "tar" <+: rest := hrest.not_prefix (by decide) (by decide)
  rw [hdrop, show lit ".tar" = dot :: lit "tar" from rfl,
    Bytes.cons_prefix_append_cons_iff (by decide), or_iff_left]
  exact fun h => hnot h.2

/-- Where it is found. -/
theorem behind_tar_eq_some {version middle : Bytes}
    (hfront : front = version ++ (lit ".tar" ++ middle)) (hmiddle : ¬ lit ".tar" <:+: middle)
    (hrest : Compressed rest) :
    behind name.length (Bytes.rfind (name ++ underscore :: (front ++ dot :: rest)) (lit ".tar")
        (name.length + 1 + front.length)) = some (name.length + 1 + version.length) := by
  have hlength : version.length + 4 + middle.length = front.length := by
    rw [hfront]
    simp [lit]
    omega
  have hfound : Bytes.rfind (name ++ underscore :: (front ++ dot :: rest)) (lit ".tar")
      (name.length + 1 + front.length) = some (name.length + 1 + version.length) := by
    rw [Bytes.rfind, min_eq_left (by simp; omega), Bytes.rsearch_eq_some_iff,
      tar_prefix_drop_iff hrest (by omega)]
    refine ⟨by omega, by rw [hfront, List.drop_left]; exact List.prefix_append _ _,
      fun k hk hle hpre => ?_⟩
    obtain ⟨j, rfl⟩ : ∃ j, k = name.length + 1 + (version.length + 1 + j) :=
      ⟨k - name.length - 1 - version.length - 1, by omega⟩
    rw [tar_prefix_drop_iff hrest (by omega), hfront] at hpre
    have hdrop : (version ++ (lit ".tar" ++ middle)).drop (version.length + 1 + j)
        = (lit "tar" ++ middle).drop j := by
      rw [Nat.add_assoc, ← List.drop_drop, List.drop_left, ← List.drop_drop]
      rfl
    rw [hdrop] at hpre
    have hinfix := hpre.isInfix.trans (List.drop_suffix j _).isInfix
    exact hmiddle ((Bytes.cons_infix_append_of_notMem (b := dot) (by decide) _ _).1 hinfix)
  rw [hfound, behind]
  exact Option.filter_some_pos (by simp; omega)

theorem behind_tar_eq_none (hfront : ¬ lit ".tar" <:+: front) (hrest : Compressed rest) :
    behind name.length (Bytes.rfind (name ++ underscore :: (front ++ dot :: rest)) (lit ".tar")
        (name.length + 1 + front.length)) = none := by
  cases hfound : Bytes.rfind (name ++ underscore :: (front ++ dot :: rest)) (lit ".tar")
      (name.length + 1 + front.length) with
  | none => rfl
  | some j =>
    rw [Bytes.rfind, min_eq_left (by simp; omega), Bytes.rsearch_eq_some_iff] at hfound
    obtain ⟨hle, hpre, -⟩ := hfound
    refine Option.filter_some_neg (decide_eq_false fun hlt => ?_)
    obtain ⟨k, rfl⟩ : ∃ k, j = name.length + 1 + k := ⟨j - name.length - 1, by omega⟩
    rw [tar_prefix_drop_iff hrest (by omega)] at hpre
    exact hfront (hpre.isInfix.trans (List.drop_suffix k _).isInfix)

/-- What stands behind the last dot is compared with a word. -/
theorem tryCompare_lastDot (word : Bytes) :
    Bytes.tryCompare (name ++ underscore :: (front ++ dot :: rest))
        (name.length + 1 + front.length) (dot :: word).length (dot :: word)
      = pure (decide (word <+: rest)) := by
  rw [Bytes.tryCompare_last (name ++ underscore :: front) (dot :: rest) (by simp)
    (by simp; omega), List.length_cons, List.take_succ_cons]
  congr 2
  rw [List.cons.injEq, List.prefix_iff_eq_take]
  simp [eq_comm]

theorem tryCompare_dsc :
    Bytes.tryCompare (name ++ underscore :: (front ++ dot :: rest))
        (name.length + 1 + front.length) 4 (lit ".dsc") = pure (decide (lit "dsc" <+: rest)) :=
  tryCompare_lastDot (lit "dsc")

theorem tryCompare_compressed :
    (Bytes.tryCompare (name ++ underscore :: (front ++ dot :: rest))
        (name.length + 1 + front.length) 3 (lit ".gz")
      <||> Bytes.tryCompare (name ++ underscore :: (front ++ dot :: rest))
        (name.length + 1 + front.length) 3 (lit ".xz")) = pure (decide (Compressed rest)) := by
  have hgz : Bytes.tryCompare (name ++ underscore :: (front ++ dot :: rest))
      (name.length + 1 + front.length) 3 (lit ".gz") = pure (decide (lit "gz" <+: rest)) :=
    tryCompare_lastDot (lit "gz")
  have hxz : Bytes.tryCompare (name ++ underscore :: (front ++ dot :: rest))
      (name.length + 1 + front.length) 3 (lit ".xz") = pure (decide (lit "xz" <+: rest)) :=
    tryCompare_lastDot (lit "xz")
  rw [hgz, hxz, orM, pure_bind]
  by_cases h : lit "gz" <+: rest <;> simp [h, Compressed, toBool]

section Exact

variable (hsub : Exact sub)

include hsub

/-- **The first format** wins by the word `.orig` behind the name. -/
theorem parseFormats_of_orig {version : Bytes} {lastDot : Nat}
    (h : (FileFormat.orig version rest).Selected name) :
    parseFormats sub info (name ++ underscore :: (FileFormat.orig version rest).text) name.length
        lastDot
      = pure (some { info with version := version, architecture := lit "source",
                               extension := lit ".orig" ++ rest }) := by
  obtain ⟨hname, hsearch⟩ := h
  rw [parseFormats, behind_findFrom (by decide) (by decide), if_neg hname, hsearch,
    Option.map_some]
  dsimp only
  rw [FileFormat.text, parseSource_append hsub]
  rfl

/-- **The second** by the extension `.dsc`, or one that starts with it. -/
theorem parseFormats_of_dsc (h : NoOrig name (front ++ dot :: rest)) (hdsc : lit "dsc" <+: rest) :
    parseFormats sub info (name ++ underscore :: (front ++ dot :: rest)) name.length
        (name.length + 1 + front.length)
      = pure (some { info with version := front, architecture := lit "source",
                               extension := lit ".dsc" }) := by
  rw [parseFormats, behind_orig_of_noOrig h]
  dsimp only
  rw [tryCompare_dsc, pure_bind, if_pos (decide_eq_true hdsc), lengthBetween_of_exact hsub rfl,
    pure_bind,
    Bytes.trySubstr_middle (name ++ [underscore]) front (dot :: rest) (by simp) (by simp) rfl,
    pure_bind]

/-- **The third** by the word `.tar` before the extension `.gz` or `.xz`. -/
theorem parseFormats_of_tar {version middle : Bytes}
    (hfront : front = version ++ (lit ".tar" ++ middle)) (h : NoOrig name (front ++ dot :: rest))
    (hrest : Compressed rest) (hmiddle : ¬ lit ".tar" <:+: middle) :
    parseFormats sub info (name ++ underscore :: (front ++ dot :: rest)) name.length
        (name.length + 1 + front.length)
      = pure (some { info with version := version, architecture := lit "source",
                               extension := lit ".tar" ++ (middle ++ dot :: rest) }) := by
  have hdsc : ¬ lit "dsc" <+: rest := hrest.not_prefix (by decide) (by decide)
  have htext : front ++ dot :: rest = version ++ (lit ".tar" ++ (middle ++ dot :: rest)) := by
    rw [hfront, List.append_assoc, List.append_assoc]
  rw [parseFormats, behind_orig_of_noOrig h]
  dsimp only
  rw [tryCompare_dsc, pure_bind, if_neg (by simpa using hdsc), tryCompare_compressed, pure_bind,
    if_pos (decide_eq_true hrest), behind_tar_eq_some hfront hmiddle hrest]
  dsimp only
  rw [htext, parseSource_append hsub]
  rfl

omit hsub in
/-- **The fourth** wins where none of the others does. -/
theorem parseFormats_of_other (h : NoOrig name (front ++ dot :: rest)) (hdsc : ¬ lit "dsc" <+: rest)
    (htar : ¬ (Compressed rest ∧ lit ".tar" <:+: front)) :
    parseFormats sub info (name ++ underscore :: (front ++ dot :: rest)) name.length
        (name.length + 1 + front.length)
      = parseBinary sub info (name ++ underscore :: (front ++ dot :: rest)) name.length
        (name.length + 1 + front.length) := by
  rw [parseFormats, behind_orig_of_noOrig h]
  dsimp only
  rw [tryCompare_dsc, pure_bind, if_neg (by simpa using hdsc), tryCompare_compressed, pure_bind]
  by_cases hrest : Compressed rest
  · rw [if_pos (decide_eq_true hrest), behind_tar_eq_none (fun h => htar ⟨hrest, h⟩) hrest]
  · rw [if_neg (by simpa using hrest)]

/-- **The pieces of the format that is selected are reported.** -/
theorem parseFormats_of_selected {component : Bytes} {f : FileFormat} (hf : f.Selected name)
    (htext : f.text = front ++ dot :: rest) (hrest : dot ∉ rest) :
    parseFormats sub { name := name, component := component }
        (name ++ underscore :: (front ++ dot :: rest)) name.length
        (name.length + 1 + front.length)
      = pure (some (f.info component name)) := by
  cases f with
  | orig version tail =>
    rw [← htext]
    exact parseFormats_of_orig hsub hf
  | dsc version tail =>
    obtain ⟨hnone, htail⟩ := hf
    have htail : dot ∉ lit "dsc" ++ tail := by simpa [lit, dot] using htail
    obtain ⟨rfl, rfl⟩ := Bytes.append_cons_inj_last htail hrest htext
    exact parseFormats_of_dsc hsub hnone (List.prefix_append _ tail)
  | tar version middle tail =>
    obtain ⟨hnone, htail, hcompressed, hmiddle⟩ := hf
    have hcut : version ++ (lit ".tar" ++ middle) ++ dot :: tail = front ++ dot :: rest := by
      rw [← htext, FileFormat.text, List.append_assoc, List.append_assoc]
    obtain ⟨rfl, rfl⟩ := Bytes.append_cons_inj_last htail hrest hcut
    exact parseFormats_of_tar hsub rfl (htext ▸ hnone) hcompressed hmiddle
  | binary version architecture tail =>
    obtain ⟨hnone, htail, hversion, hdsc, htar⟩ := hf
    have hcut : version ++ underscore :: architecture ++ dot :: tail = front ++ dot :: rest := by
      rw [← htext, FileFormat.text, List.append_assoc, List.cons_append]
    obtain ⟨rfl, rfl⟩ := Bytes.append_cons_inj_last htail hrest hcut
    have hlastDot : name.length + 1 + (version ++ underscore :: architecture).length
        = name.length + 1 + version.length + 1 + architecture.length := by
      simp
      omega
    rw [parseFormats_of_other (htext ▸ hnone) hdsc htar, ← htext, FileFormat.text, hlastDot,
      parseBinary_append hsub _ _ hversion]
    rfl

omit hsub in
/-- Nothing is reported where no format is selected. -/
theorem parseFormats_of_none (h : NoOrig name (front ++ dot :: rest)) (hdsc : ¬ lit "dsc" <+: rest)
    (htar : ¬ (Compressed rest ∧ lit ".tar" <:+: front)) (hfront : underscore ∉ front) :
    parseFormats sub info (name ++ underscore :: (front ++ dot :: rest)) name.length
        (name.length + 1 + front.length) = pure none := by
  rw [parseFormats_of_other h hdsc htar, parseBinary,
    Bytes.findFrom_append (name ++ [underscore]) (front ++ dot :: rest) (by simp) (by simp),
    show lit "_" = [underscore] from rfl, Bytes.search_append_of_notMem hfront]
  cases Bytes.search [underscore] (dot :: rest) with
  | none => rfl
  | some i =>
    simp only [Option.map_some]
    rw [if_pos (by simp)]

end Exact

end Formats

/-! ## The path -/

/-- The path lies below this component of the pool. -/
def InPool (component path : Bytes) : Prop :=
  (component = lit "main" ∨ component = lit "contrib" ∨ component = lit "non-free")
    ∧ lit "/debian/pool/" ++ (component ++ [Path.slash]) <+: path

/-- What is behind the last slash of a path. -/
def fileName (path : Bytes) : Bytes := path.rtakeWhile (· ≠ Path.slash)

theorem fileName_append (front : Bytes) {filename : Bytes} (h : Path.slash ∉ filename) :
    fileName (front ++ Path.slash :: filename) = filename := by
  rw [fileName, List.rtakeWhile, List.reverse_append, List.reverse_cons, List.append_assoc,
    List.takeWhile_append_of_pos fun b hb => by
      rw [List.mem_reverse] at hb
      exact decide_eq_true fun heq => h (heq ▸ hb)]
  simp

theorem slash_notMem_fileName (path : Bytes) : Path.slash ∉ fileName path := fun h => by
  simpa using List.mem_rtakeWhile_imp h

theorem parseWith_of_inPool {sub : Nat → Nat → Except Exn Nat} (hsub : Exact sub)
    {component path : Bytes} (h : InPool component path) :
    parseWith sub path = parseFilename sub { component := component } (fileName path) := by
  obtain ⟨hcomponent, below, hpath⟩ := h
  rw [List.append_assoc, List.append_assoc, List.singleton_append] at hpath
  have hroot : Bytes.rfind path (lit "/debian/pool/") 0 = some 0 := by
    rw [Bytes.rfind, Nat.zero_min, Bytes.rsearch_zero_eq_some_iff, ← hpath]
    exact List.prefix_append _ _
  have hslash : Path.slash ∉ component := by
    rcases hcomponent with rfl | rfl | rfl <;> decide
  have hend : Bytes.findFrom path (lit "/") 13 = some (13 + component.length) := by
    refine (Bytes.findFrom_append (lit "/debian/pool/") _ hpath.symm rfl [Path.slash]).trans ?_
    rw [Bytes.search_append_cons hslash]
    rfl
  obtain ⟨front, filename, hlast, hfilename⟩ : ∃ front filename,
      path = front ++ Path.slash :: filename ∧ Path.slash ∉ filename :=
    Bytes.exists_last_cons (by rw [← hpath]; simp)
  rw [parseWith, if_neg (not_not.2 hroot), hend]
  dsimp only
  rw [hsub _ _ (by omega), Nat.add_sub_cancel_left, pure_bind,
    Bytes.trySubstr_middle (lit "/debian/pool/") component _ hpath.symm (by rfl) rfl, pure_bind,
    if_neg (by tauto), show lit "/" = [Path.slash] from rfl,
    Bytes.rfind_append_cons front filename hlast hfilename]
  dsimp only
  rw [Bytes.trySubstr_last (front ++ [Path.slash]) filename (by simp [hlast]) (by simp),
    pure_bind, hlast, fileName_append front hfilename]

theorem parseWith_cases (path : Bytes) : (∃ component, InPool component path)
    ∨ ∀ sub, Exact sub → parseWith sub path = pure none := by
  by_cases hroot : lit "/debian/pool/" <+: path
  · have hfind : Bytes.rfind path (lit "/debian/pool/") 0 = some 0 := by
      rwa [Bytes.rfind, Nat.zero_min, Bytes.rsearch_zero_eq_some_iff]
    obtain ⟨tail, rfl⟩ := hroot
    have hend (pat : Bytes) : Bytes.findFrom (lit "/debian/pool/" ++ tail) pat 13
        = (Bytes.search pat tail).map (13 + ·) :=
      Bytes.findFrom_append (lit "/debian/pool/") tail rfl rfl pat
    by_cases hslash : Path.slash ∈ tail
    · obtain ⟨component, below, rfl, hcomponent⟩ := List.eq_append_cons_of_mem hslash
      by_cases hknown : component = lit "main" ∨ component = lit "contrib"
          ∨ component = lit "non-free"
      · exact .inl ⟨component, hknown, below, by simp⟩
      · refine .inr fun sub hsub => ?_
        rw [parseWith, if_neg (not_not.2 hfind), hend, show lit "/" = [Path.slash] from rfl,
          Bytes.search_append_cons hcomponent, Option.map_some]
        dsimp only
        rw [hsub _ _ (by omega), Nat.add_sub_cancel_left, pure_bind,
          Bytes.trySubstr_middle (lit "/debian/pool/") component (Path.slash :: below) rfl (by rfl)
            rfl, pure_bind, if_pos (by tauto)]
    · refine .inr fun sub _ => ?_
      rw [parseWith, if_neg (not_not.2 hfind), hend,
        show Bytes.search (lit "/") tail = none from Bytes.search_singleton_eq_none_iff.2 hslash]
      rfl
  · refine .inr fun sub _ => ?_
    rw [parseWith, if_pos]
    rwa [Bytes.rfind, Nat.zero_min, Ne, Bytes.rsearch_zero_eq_some_iff]

theorem parseFilename_cases (filename : Bytes) :
    (∃ name front rest, filename = name ++ underscore :: (front ++ dot :: rest) ∧ name ≠ []
        ∧ underscore ∉ name ∧ dot ∉ rest)
      ∨ ∀ sub info, parseFilename sub info filename = pure none := by
  by_cases hunderscore : underscore ∈ filename
  · obtain ⟨name, tail, rfl, hname⟩ := List.eq_append_cons_of_mem hunderscore
    have hfirst : Bytes.findFrom (name ++ underscore :: tail) (lit "_") = some name.length := by
      rw [Bytes.findFrom_zero]
      exact Bytes.search_append_cons hname tail
    have hcut : Bytes.trySubstr (name ++ underscore :: tail) 0 name.length = pure name :=
      Bytes.trySubstr_middle [] name (underscore :: tail) rfl rfl rfl
    by_cases hne : name = []
    · refine .inr fun sub info => ?_
      rw [parseFilename, hfirst]
      dsimp only
      rw [hcut, pure_bind, if_pos hne]
    by_cases hdot : dot ∈ tail
    · obtain ⟨front, rest, rfl, hrest⟩ := Bytes.exists_last_cons hdot
      exact .inl ⟨name, front, rest, rfl, hne, hname, hrest⟩
    · refine .inr fun sub info => ?_
      rw [parseFilename, hfirst]
      dsimp only
      rw [hcut, pure_bind, if_neg hne]
      cases hlast : Bytes.rfind (name ++ underscore :: tail) (lit ".") with
      | none => rfl
      | some lastDot =>
        have hbefore : lastDot ≤ name.length := by
          obtain ⟨-, hpre, -⟩ := Bytes.rsearch_eq_some_iff.1 hlast
          by_contra hlt
          rw [List.drop_append, List.drop_of_length_le (by omega), List.nil_append,
            show lastDot - name.length = lastDot - name.length - 1 + 1 by omega,
            List.drop_succ_cons] at hpre
          exact hdot (List.mem_of_mem_drop (hpre.subset (List.mem_singleton_self dot)))
        dsimp only
        rw [if_pos hbefore]
  · refine .inr fun sub info => ?_
    have hnone : Bytes.findFrom filename (lit "_") = none := by
      rw [Bytes.findFrom_zero]
      exact Bytes.search_singleton_eq_none_iff.2 hunderscore
    rw [parseFilename, hnone]

end PackageParser

/-- **The path shows a package file**: what the parser accepts. -/
structure FileFormat.Shown (f : FileFormat) (path component name : Bytes) : Prop where
  inPool : PackageParser.InPool component path
  fileName : PackageParser.fileName path = name ++ underscore :: f.text
  name_ne : name ≠ []
  underscore_notMem : underscore ∉ name
  selected : f.Selected name

/-- A file below a component of the pool shows what its name does. -/
theorem FileFormat.shown_of_selected (f : FileFormat) {component name : Bytes}
    (hcomponent : component = lit "main" ∨ component = lit "contrib" ∨ component = lit "non-free")
    (dirs : Bytes) (hne : name ≠ []) (hname : underscore ∉ name)
    (hfilename : Path.slash ∉ name ++ underscore :: f.text) (hf : f.Selected name) :
    f.Shown (lit "/debian/pool/" ++ (component ++ Path.slash :: (dirs ++ Path.slash ::
      (name ++ underscore :: f.text)))) component name where
  inPool := ⟨hcomponent, dirs ++ Path.slash :: (name ++ underscore :: f.text), by simp⟩
  fileName := by
    have hcut := PackageParser.fileName_append
      (lit "/debian/pool/" ++ (component ++ Path.slash :: dirs)) hfilename
    simpa using hcut
  name_ne := hne
  underscore_notMem := hname
  selected := hf

namespace PackageParser

theorem dot_mem_text (f : FileFormat) : dot ∈ f.text := by
  cases f <;> simp [FileFormat.text, lit, dot]

/-- Every path shows a package file or is refused. -/
theorem shown_or_none (path : Bytes) : (∃ component name f, FileFormat.Shown f path component name)
    ∨ ∀ sub, Exact sub → parseWith sub path = pure none := by
  rcases parseWith_cases path with ⟨component, hpool⟩ | hnone
  · rcases parseFilename_cases (fileName path) with
      ⟨name, front, rest, hfilename, hne, hname, hrest⟩ | hnone
    · rcases FileFormat.exists_selected name front hrest with
        ⟨f, htext, hselected⟩ | ⟨hnone, hfront, hdsc, htar⟩
      · exact .inl ⟨component, name, f, hpool, by rw [hfilename, htext], hne, hname, hselected⟩
      · refine .inr fun sub hsub => ?_
        rw [parseWith_of_inPool hsub hpool,
          parseFilename_append sub _ name front rest hfilename hne hname hrest, hfilename]
        exact parseFormats_of_none hnone hdsc htar hfront
    · refine .inr fun sub hsub => ?_
      rw [parseWith_of_inPool hsub hpool, hnone]
  · exact .inr hnone

theorem parseWith_of_shown {sub : Nat → Nat → Except Exn Nat} (hsub : Exact sub)
    {path component name : Bytes} {f : FileFormat} (h : f.Shown path component name) :
    parseWith sub path = pure (some (f.info component name)) := by
  obtain ⟨hpool, hfilename, hne, hname, hselected⟩ := h
  obtain ⟨front, rest, htext, hrest⟩ := Bytes.exists_last_cons (dot_mem_text f)
  rw [htext] at hfilename
  rw [parseWith_of_inPool hsub hpool,
    parseFilename_append sub _ name front rest hfilename hne hname hrest, hfilename]
  exact parseFormats_of_selected hsub hselected htext hrest

/-- **The parser accepts the package files**, and reports their pieces. -/
theorem parseWith_eq_some_iff {sub : Nat → Nat → Except Exn Nat} (hsub : Exact sub)
    {path : Bytes} {info : PackageInfo} : parseWith sub path = .ok (some info)
      ↔ ∃ component name f, FileFormat.Shown f path component name
        ∧ info = f.info component name := by
  constructor
  · intro h
    rcases shown_or_none path with ⟨component, name, f, hshown⟩ | hnone
    · refine ⟨component, name, f, hshown, ?_⟩
      exact Option.some.inj (Except.ok.inj (h.symm.trans (parseWith_of_shown hsub hshown)))
    · cases h.symm.trans (hnone sub hsub)
  · rintro ⟨component, name, f, hshown, rfl⟩
    exact parseWith_of_shown hsub hshown

/-! ## Safety -/

/-- Subtraction that does not wrap around: it throws. -/
def checkedSub (a b : Nat) : Except Exn Nat :=
  if b ≤ a then pure (a - b) else throw ⟨.outOfRange, lit "difference"⟩

theorem exact_checkedSub : Exact checkedSub := fun _ _ h => if_pos h

/-- The texts reported. -/
def fields (info : PackageInfo) : List Bytes :=
  [info.name, info.version, info.component, info.extension, info.architecture]

theorem length_le_of_shown {path component name : Bytes} {f : FileFormat}
    (h : f.Shown path component name) :
    ∀ field ∈ fields (f.info component name), field.length ≤ path.length := by
  have hfilename : name.length + 1 + f.text.length ≤ path.length := by
    have hle : (fileName path).length ≤ path.length := (List.rtakeWhile_suffix _ _).length_le
    rw [h.fileName] at hle
    simpa [Nat.add_assoc, Nat.add_comm 1] using hle
  have hcomponent : 14 + component.length ≤ path.length := by
    simpa [lit, Nat.add_comm, Nat.add_left_comm] using h.inPool.2.length_le
  cases f <;> simp [fields, FileFormat.info, FileFormat.text, lit] at hfilename ⊢ <;> omega

/-- **The parser is safe on every string**: no cut starts behind the end of its text, no length
wraps around, and no field is longer than the path. -/
theorem parse_safe (path : Bytes) : ∃ r, parseWith checkedSub path = .ok r ∧ parse path = .ok r
    ∧ ∀ info ∈ r, ∀ field ∈ fields info, field.length ≤ path.length := by
  rcases shown_or_none path with ⟨component, name, f, hshown⟩ | hnone
  · refine ⟨_, parseWith_of_shown exact_checkedSub hshown,
      parseWith_of_shown exact_wrappingSub hshown, ?_⟩
    rintro info hinfo
    obtain rfl := Option.some.inj hinfo
    exact length_le_of_shown hshown
  · exact ⟨none, hnone _ exact_checkedSub, hnone _ exact_wrappingSub, by simp⟩

end PackageParser

end PacPrism
