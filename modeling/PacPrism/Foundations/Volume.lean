import Mathlib.Data.List.Infix
import Mathlib.Data.List.TakeWhile
import PacPrism.Foundations.Path

/-!
# Foundations/Volume — the files that paths lead to, and the directories on the way

    path ──▸ place ──▸ place ⋯ ──name──▸ file

A path leads through directories, and only through those there are: `a/../f` leads nowhere as long
as there is no `a`.  So which file a path is depends on the directories, and to make some can only
add to it.

`Volume.tree` is the volume without links.  There a path without `..` behind a name (`Straight`)
leads to one file whatever directories there are, and does so as soon as that file can be there.
-/

/-! ## The directory of a path -/

namespace Path

/-- The components of a path that are not empty. -/
def names (p : Bytes) : List Bytes := (p.splitOn slash).filter (· ≠ [])

theorem names_append_slash (p q : Bytes) : names (p ++ slash :: q) = names p ++ names q := by
  rw [names, List.splitOn_append_cons_self, List.filter_append, ← names, ← names]

theorem names_of_slashes {p : Bytes} (h : ∀ b ∈ p, b = slash) : names p = [] := by
  induction p with
  | nil => rfl
  | cons b p ih =>
    rw [List.forall_mem_cons] at h
    obtain ⟨rfl, h⟩ := h
    rw [← List.nil_append (slash :: p), names_append_slash, ih h]
    rfl

/-- Separators at the end name nothing. -/
theorem names_append_slashes (p : Bytes) {s : Bytes} (h : ∀ b ∈ s, b = slash) :
    names (p ++ s) = names p := by
  cases s with
  | nil => rw [List.append_nil]
  | cons b s =>
    rw [List.forall_mem_cons] at h
    obtain ⟨rfl, h⟩ := h
    rw [names_append_slash, names_of_slashes h, List.append_nil]

theorem isAbsolute_of_prefix {p q : Bytes} (h : p <+: q) (hne : p ≠ []) :
    isAbsolute p = isAbsolute q := by
  obtain ⟨r, rfl⟩ := h
  rw [isAbsolute_append hne]

/-- A path with a separator, split at the last one. -/
theorem exists_split {p : Bytes} (h : slash ∈ p) :
    ∃ dir last, p = dir ++ slash :: last ∧ slash ∉ last := by
  obtain ⟨last, dir, hsplit, hlast⟩ := List.eq_append_cons_of_mem (List.mem_reverse.2 h)
  refine ⟨dir.reverse, last.reverse, ?_, by rwa [List.mem_reverse]⟩
  rw [← List.reverse_reverse p, hsplit]
  simp

theorem parentPath_of_notMem {p : Bytes} (h : slash ∉ p) : parentPath p = [] := by
  cases p with
  | nil => rfl
  | cons b p =>
    have hdir : (b :: p).reverse.dropWhile (· ≠ slash) = [] := by
      rw [List.dropWhile_eq_nil_iff]
      intro c hc
      have hne : c ≠ slash := fun hslash => h (hslash ▸ List.mem_reverse.1 hc)
      simpa using hne
    have hall : ¬ (b :: p).all (· = slash) = true := fun hall =>
      h (of_decide_eq_true (List.all_eq_true.1 hall b List.mem_cons_self) ▸ List.mem_cons_self)
    simp only [parentPath, if_neg hall, hdir]
    rfl

/-- **The parent of a path has the names before the last separator**, and starts where it does. -/
theorem parentPath_of_split {dir last : Bytes} (h : slash ∉ last) :
    names (parentPath (dir ++ slash :: last)) = names dir
      ∧ isAbsolute (parentPath (dir ++ slash :: last)) = isAbsolute (dir ++ slash :: last) := by
  have hdir : (dir ++ slash :: last).reverse.dropWhile (· ≠ slash) = slash :: dir.reverse := by
    rw [List.reverse_append, List.reverse_cons, List.append_assoc, List.singleton_append,
      List.dropWhile_append_of_pos, List.dropWhile_cons_of_neg]
    · simp
    · intro b hb
      have hne : b ≠ slash := fun hslash => h (hslash ▸ List.mem_reverse.1 hb)
      simpa using hne
  -- The directory is what is left of it without the separators at its end.
  obtain ⟨trimmed, slashes, rfl, hslashes, htrimmed⟩ : ∃ t s, dir = t ++ s ∧ (∀ b ∈ s, b = slash)
      ∧ (dir.reverse.dropWhile (· = slash)).reverse = t := by
    refine ⟨_, (dir.reverse.takeWhile (· = slash)).reverse, ?_, fun b hb => ?_, rfl⟩
    · rw [← List.reverse_append, List.takeWhile_append_dropWhile, List.reverse_reverse]
    · have hslash := List.mem_takeWhile_imp (List.mem_reverse.1 hb)
      exact of_decide_eq_true hslash
  have hnames := names_append_slashes trimmed hslashes
  have hpos : List.dropWhile (fun b => decide (b = slash)) (slash :: (trimmed ++ slashes).reverse)
      = (trimmed ++ slashes).reverse.dropWhile (· = slash) := List.dropWhile_cons_of_pos (by simp)
  simp only [parentPath, hdir, List.reverse_reverse, hpos, htrimmed]
  rw [List.reverse_cons, List.reverse_reverse]
  split_ifs with hall hnil
  · rw [List.all_eq_true] at hall
    refine ⟨?_, rfl⟩
    rw [names_of_slashes fun b hb => of_decide_eq_true (hall b hb),
      names_of_slashes fun b hb => of_decide_eq_true (hall b (List.mem_append_left _ hb))]
  · subst hnil
    have hfirst : (([] ++ slashes ++ [slash] : Bytes).take 1) <+: [] ++ slashes ++ slash :: last :=
      (List.take_prefix 1 _).trans ⟨last, by simp⟩
    refine ⟨?_, isAbsolute_of_prefix hfirst (by simp)⟩
    rw [hnames, names_of_slashes fun b hb => ?_]
    · rfl
    · rcases List.mem_append.1 (List.mem_of_mem_take hb) with hb | hb
      exacts [hslashes b hb, List.mem_singleton.1 hb]
  · exact ⟨hnames.symm, isAbsolute_of_prefix ⟨slashes ++ slash :: last, by simp⟩ hnil⟩

/-- The components before the last one. -/
def leading (p : Bytes) : List Bytes := (p.splitOn slash).dropLast

theorem leading_of_split {dir last : Bytes} (h : slash ∉ last) :
    leading (dir ++ slash :: last) = dir.splitOn slash := by
  rw [leading, List.splitOn_append_cons_self, List.splitOn_eq_singleton h, List.dropLast_concat]

/-- **The parent of a path is where its leading components lead.** -/
theorem names_parentPath (p : Bytes) :
    names (parentPath p) = (leading p).filter (· ≠ [])
      ∧ isAbsolute (parentPath p) = isAbsolute p := by
  by_cases h : slash ∈ p
  · obtain ⟨dir, last, rfl, hlast⟩ := exists_split h
    rw [leading_of_split hlast]
    exact parentPath_of_split hlast
  · rw [parentPath_of_notMem h, leading, List.splitOn_eq_singleton h]
    refine ⟨rfl, ?_⟩
    cases p with
    | nil => rfl
    | cons b p =>
      have hb : b ≠ slash := fun hb => h (hb ▸ List.mem_cons_self)
      simp [isAbsolute, hb]

end Path

/-! ## Volumes -/

/-- **The files that paths lead to**, among the directories there are: to make more of them neither
changes nor removes what a path leads to, and a path whose own are made leads somewhere. -/
structure Volume (δ κ : Type) where
  /-- The file a path leads to; `none` if a directory on the way is missing. -/
  locate : δ → Bytes → Option κ
  isDirectory : δ → Bytes → Bool
  /-- The directories once those on a path are made: all of them, or those on its first
  components. -/
  makeDirectories : Option Nat → Bytes → δ → δ
  /-- The directory that the file is in is there. -/
  Home : δ → κ → Prop
  home_of_locate : ∀ {d p k}, locate d p = some k → Home d k
  home_makeDirectories : ∀ {d k} n q, Home d k → Home (makeDirectories n q d) k
  locate_makeDirectories : ∀ {d p k} n q, locate d p = some k →
    locate (makeDirectories n q d) p = some k
  exists_locate : ∀ d p, ∃ k, locate (makeDirectories none (Path.parentPath p) d) p = some k

/-- **Paths that do not depend on the directories**: whenever one of them leads anywhere it is to
its file, and it does so once that file can be there. -/
structure Volume.Plain {δ κ : Type} (volume : Volume δ κ) (file : Bytes → κ)
    (paths : Bytes → Prop) : Prop where
  eq_file : ∀ {d p k}, paths p → volume.locate d p = some k → k = file p
  locate_of_home : ∀ {d p}, paths p → volume.Home d (file p) → volume.locate d p = some (file p)

/-! ## A tree of directories -/

namespace Tree

open Path

/-- A place in the tree: the names that lead there from the root. -/
abbrev Place := List Bytes

/-- Where a component leads; the root is its own parent. -/
def next (place : Place) (c : Bytes) : Place :=
  if c = dotDot then place.dropLast else if c = [] ∨ c = dot then place else place ++ [c]

/-- Where a sequence of components leads. -/
def follow (place : Place) (cs : List Bytes) : Place := cs.foldl next place

/-- The places a sequence of components leads through. -/
def passed (place : Place) (cs : List Bytes) : List Place := cs.inits.map (follow place)

variable (cwd : Place)

/-- Where a path starts. -/
def start (p : Bytes) : Place := if isAbsolute p then [] else cwd

/-- The directories: those listed, the working directory, and all above these. -/
def IsDirectory (dirs : List Place) (place : Place) : Prop := ∃ d ∈ cwd :: dirs, place <+: d

instance (dirs : List Place) (place : Place) : Decidable (IsDirectory cwd dirs place) :=
  inferInstanceAs (Decidable (∃ d ∈ cwd :: dirs, place <+: d))

/-- A walk through directories. -/
def walk (dirs : List Place) : Place → List Bytes → Option Place
  | place, [] => some place
  | place, c :: cs =>
    if IsDirectory cwd dirs (next place c) then walk dirs (next place c) cs else none

/-- The file a path leads to, directories or not. -/
def file (p : Bytes) : Place :=
  follow (start cwd p) (leading p) ++ (p.splitOn slash).getLast?.toList

variable {cwd} {dirs dirs' : List Place} {place place' : Place} {p : Bytes}

/-! ### Places -/

theorem follow_filter (place : Place) (cs : List Bytes) :
    follow place (cs.filter (· ≠ [])) = follow place cs := by
  induction cs generalizing place with
  | nil => rfl
  | cons c cs ih =>
    by_cases hc : c = []
    · subst hc
      rw [List.filter_cons_of_neg (by simp), ih]
      rfl
    · rw [List.filter_cons_of_pos (by simpa using hc)]
      exact ih (next place c)

/-- What was passed on the way of some names is passed on any way with these names. -/
theorem mem_passed_of_filter {cs cs' : List Bytes}
    (h : cs.filter (· ≠ []) = cs'.filter (· ≠ [])) {init : List Bytes} (hinit : init <+: cs) :
    follow place init ∈ passed place cs' := by
  have hprefix : init.filter (· ≠ []) <+: cs'.filter (· ≠ []) := h ▸ hinit.filter _
  obtain ⟨init', hinit', heq⟩ := List.prefix_filter_iff.1 hprefix
  rw [passed, List.mem_map]
  refine ⟨init', (List.mem_inits _ _).2 hinit', ?_⟩
  rw [← follow_filter, ← heq, follow_filter]

theorem dropLast_file (p : Bytes) : (file cwd p).dropLast = follow (start cwd p) (leading p) := by
  rw [file, List.getLast?_eq_some_getLast (List.splitOn_ne_nil slash p), Option.toList_some,
    List.dropLast_concat]

/-! ### Directories -/

theorem isDirectory_start (dirs : List Place) (p : Bytes) :
    IsDirectory cwd dirs (start cwd p) := by
  refine ⟨cwd, List.mem_cons_self, ?_⟩
  rw [start]
  split_ifs
  exacts [List.nil_prefix, List.prefix_rfl]

theorem IsDirectory.mono (h : IsDirectory cwd dirs place) (hsub : dirs ⊆ dirs') :
    IsDirectory cwd dirs' place :=
  let ⟨d, hd, hplace⟩ := h
  ⟨d, List.cons_subset_cons cwd hsub hd, hplace⟩

/-- What is above a directory is one. -/
theorem IsDirectory.above (h : IsDirectory cwd dirs place) (habove : place' <+: place) :
    IsDirectory cwd dirs place' :=
  let ⟨d, hd, hplace⟩ := h
  ⟨d, hd, habove.trans hplace⟩

/-- **A walk ends where its components lead**, if it passes directories only. -/
theorem walk_eq_some_iff (hplace : IsDirectory cwd dirs place) {cs : List Bytes} :
    walk cwd dirs place cs = some place' ↔ follow place cs = place'
      ∧ ∀ init, init <+: cs → IsDirectory cwd dirs (follow place init) := by
  induction cs generalizing place with
  | nil =>
    rw [walk, Option.some.injEq]
    refine (and_iff_left fun init hinit => ?_).symm
    rw [List.prefix_nil.1 hinit]
    exact hplace
  | cons c cs ih =>
    rw [walk]
    split_ifs with hnext
    · rw [ih hnext]
      refine and_congr_right fun _ => ⟨fun h init hinit => ?_, fun h init hinit => ?_⟩
      · rcases List.prefix_cons_iff.1 hinit with rfl | ⟨init', rfl, hinit'⟩
        exacts [hplace, h init' hinit']
      · exact h (c :: init) ((List.prefix_cons_inj c).2 hinit)
    · refine iff_of_false nofun fun ⟨_, h⟩ => hnext (h [c] ?_)
      exact (List.prefix_cons_inj c).2 List.nil_prefix

variable (cwd) in
/-- The file that a path leads to: its name in the directory the walk ends in. -/
def locate (dirs : List Place) (p : Bytes) : Option Place :=
  (walk cwd dirs (start cwd p) (leading p)).map (· ++ (p.splitOn slash).getLast?.toList)

/-- A path leads to its file if the way there is through directories. -/
theorem locate_eq_some_iff : locate cwd dirs p = some place
    ↔ file cwd p = place
      ∧ ∀ init, init <+: leading p → IsDirectory cwd dirs (follow (start cwd p) init) := by
  rw [locate, Option.map_eq_some_iff]
  constructor
  · rintro ⟨dir, hwalk, rfl⟩
    obtain ⟨rfl, hpassed⟩ := (walk_eq_some_iff (isDirectory_start dirs p)).1 hwalk
    exact ⟨rfl, hpassed⟩
  · rintro ⟨rfl, hpassed⟩
    exact ⟨_, (walk_eq_some_iff (isDirectory_start dirs p)).2 ⟨rfl, hpassed⟩, rfl⟩

variable (cwd) in
/-- The directories once those on a path are made. -/
def makeDirectories (n : Option Nat) (p : Bytes) (dirs : List Place) : List Place :=
  passed (start cwd p) (n.elim (p.splitOn slash) fun n => (p.splitOn slash).take n) ++ dirs

theorem subset_makeDirectories (n : Option Nat) (p : Bytes) (dirs : List Place) :
    dirs ⊆ makeDirectories cwd n p dirs := List.subset_append_right _ _

theorem locate_makeDirectories (n : Option Nat) (q : Bytes) (h : locate cwd dirs p = some place) :
    locate cwd (makeDirectories cwd n q dirs) p = some place := by
  rw [locate_eq_some_iff] at h ⊢
  exact ⟨h.1, fun init hinit => (h.2 init hinit).mono (subset_makeDirectories n q dirs)⟩

/-- **The directories of a path make a way to its file.** -/
theorem locate_makeDirectories_parentPath (dirs : List Place) (p : Bytes) :
    locate cwd (makeDirectories cwd none (parentPath p) dirs) p = some (file cwd p) := by
  rw [locate_eq_some_iff]
  obtain ⟨hnames, habsolute⟩ := names_parentPath p
  refine ⟨rfl, fun init hinit => ⟨_, List.mem_cons_of_mem _ (List.mem_append_left _ ?_),
    List.prefix_rfl⟩⟩
  rw [start, start, habsolute]
  exact mem_passed_of_filter hnames.symm hinit

/-! ### Paths without `..` behind a name -/

/-- The component climbs or stays where it is. -/
def Climbs (c : Bytes) : Prop := c = dotDot ∨ c = [] ∨ c = dot

instance (c : Bytes) : Decidable (Climbs c) :=
  inferInstanceAs (Decidable (c = dotDot ∨ c = [] ∨ c = dot))

/-- **There is no `..` behind the name of a directory.** -/
def Straight (p : Bytes) : Prop := dotDot ∉ (leading p).dropWhile fun c => Climbs c

instance (p : Bytes) : Decidable (Straight p) :=
  inferInstanceAs (Decidable (dotDot ∉ _))

theorem next_prefix_of_climbs {c : Bytes} (h : Climbs c) : next place c <+: place := by
  rw [next]
  split_ifs with hdots
  · exact List.dropLast_prefix place
  · exact List.prefix_rfl
  · exact (h.elim hdots ‹_›).elim

/-- Names only lead down. -/
theorem prefix_follow {cs : List Bytes} (h : dotDot ∉ cs) : place <+: follow place cs := by
  induction cs generalizing place with
  | nil => exact List.prefix_rfl
  | cons c cs ih =>
    rw [List.mem_cons, not_or] at h
    have hrest : next place c <+: follow (next place c) cs := ih h.2
    refine List.IsPrefix.trans ?_ hrest
    rw [next, if_neg (Ne.symm h.1)]
    split_ifs
    exacts [List.prefix_rfl, List.prefix_append place [c]]

/-- A straight way to a directory is a way through directories. -/
theorem isDirectory_of_straight {cs : List Bytes}
    (hcs : dotDot ∉ cs.dropWhile fun c => Climbs c) (hplace : IsDirectory cwd dirs place)
    (hend : IsDirectory cwd dirs (follow place cs)) {init : List Bytes} (hinit : init <+: cs) :
    IsDirectory cwd dirs (follow place init) := by
  induction cs generalizing place init with
  | nil =>
    rw [List.prefix_nil.1 hinit]
    exact hplace
  | cons c cs ih =>
    by_cases hc : Climbs c
    · rw [List.dropWhile_cons_of_pos (by simpa using hc)] at hcs
      rcases List.prefix_cons_iff.1 hinit with rfl | ⟨init', rfl, hinit'⟩
      · exact hplace
      · exact ih hcs (hplace.above (next_prefix_of_climbs hc)) hend hinit'
    · rw [List.dropWhile_cons_of_neg (by simpa using hc)] at hcs
      obtain ⟨rest, hrest⟩ := hinit
      rw [← hrest, List.mem_append, not_or] at hcs
      rw [← hrest, follow, List.foldl_append] at hend
      exact hend.above (prefix_follow hcs.2)

end Tree

/-- **The tree of directories** below the root, without links. -/
def Volume.tree (cwd : Tree.Place) : Volume (List Tree.Place) Tree.Place where
  locate := Tree.locate cwd
  isDirectory dirs p := (Tree.walk cwd dirs (Tree.start cwd p) (p.splitOn Path.slash)).isSome
  makeDirectories := Tree.makeDirectories cwd
  Home dirs place := Tree.IsDirectory cwd dirs place.dropLast
  home_of_locate {dirs p place} h := by
    obtain ⟨rfl, hpassed⟩ := Tree.locate_eq_some_iff.1 h
    rw [Tree.dropLast_file]
    exact hpassed _ List.prefix_rfl
  home_makeDirectories n q h := h.mono (Tree.subset_makeDirectories n q _)
  locate_makeDirectories := Tree.locate_makeDirectories
  exists_locate dirs p := ⟨_, Tree.locate_makeDirectories_parentPath dirs p⟩

/-- **In a tree, the straight paths do not depend on the directories.** -/
theorem Volume.plain_tree (cwd : Tree.Place) :
    (tree cwd).Plain (Tree.file cwd) Tree.Straight where
  eq_file _ h := (Tree.locate_eq_some_iff.1 h).1.symm
  locate_of_home {dirs p} hstraight h := by
    have hend : Tree.IsDirectory cwd dirs (Tree.file cwd p).dropLast := h
    rw [Tree.dropLast_file] at hend
    exact Tree.locate_eq_some_iff.2 ⟨rfl, fun init hinit =>
      Tree.isDirectory_of_straight hstraight (Tree.isDirectory_start dirs p) hend hinit⟩

-- A path with a missing directory on its way leads nowhere, and to a file once that is made.
example : (Volume.tree []).locate [[lit "d"]] (lit "d/a/../f") = none := by decide

example : (Volume.tree []).locate
    ((Volume.tree []).makeDirectories none (lit "d/a/..") [[lit "d"]])
    (lit "d/a/../f") = some [lit "d", lit "f"] := by decide
