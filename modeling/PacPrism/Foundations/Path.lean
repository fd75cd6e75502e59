import Mathlib.Data.List.Induction
import Mathlib.Logic.Function.Iterate
import PacPrism.Foundations.Bytes

/-!
# Foundations/Path — lexical paths of a POSIX file system

Paths are strings.  `join` and `parentPath` compute strings; `lexicallyNormal` says where a string
leads once its empty, `.` and `..` components are resolved without looking at the disk.

A normal path climbs some levels above where it starts and then goes down through ordinary names, so
"inside a directory" is a prefix of names at the same climb (`Within`).  `within_join_iff` decides
it for a join from the two operands alone.
-/

namespace Path

/-- The separator. -/
def slash : UInt8 := 0x2f

/-- The component that stays. -/
def dot : Bytes := lit "."

/-- The component that climbs. -/
def dotDot : Bytes := lit ".."

/-- A component that names an entry of its directory. -/
def Ordinary (c : Bytes) : Prop := c ≠ [] ∧ c ≠ dot ∧ c ≠ dotDot ∧ slash ∉ c

instance (c : Bytes) : Decidable (Ordinary c) :=
  inferInstanceAs (Decidable (c ≠ [] ∧ c ≠ dot ∧ c ≠ dotDot ∧ slash ∉ c))

/-- An absolute path starts at the root. -/
def isAbsolute (p : Bytes) : Bool := p.head? == some slash

/-- `p / q`: an absolute `q` replaces `p`, any other is appended behind a separator. -/
def join (p q : Bytes) : Bytes :=
  if isAbsolute q then q
  else if p = [] ∨ p.getLast? = some slash then p ++ q
  else p ++ slash :: q

theorem join_injective (dir : Bytes) {p q : Bytes} (hp : isAbsolute p = false)
    (hq : isAbsolute q = false) (h : join dir p = join dir q) : p = q := by
  simp only [join, hp, hq, Bool.false_eq_true, if_false] at h
  split_ifs at h
  · exact List.append_cancel_left h
  · exact (List.cons.inj (List.append_cancel_left h)).2

/-- `parent_path`: the path without its last component; a root is its own parent. -/
def parentPath (p : Bytes) : Bytes :=
  let dir := (p.reverse.dropWhile (· ≠ slash)).reverse
  let trimmed := (dir.reverse.dropWhile (· = slash)).reverse
  if p.all (· = slash) then p
  else if trimmed = [] then dir.take 1
  else trimmed

/-! ## Normal paths -/

/-- A path without `.`, `..` and empty components: `up` levels above where it starts, and from there
down through `names`.  Nothing is above the root. -/
@[ext] structure Normal where
  rooted : Bool
  up : Nat
  names : List Bytes
  up_eq_zero : rooted = true → up = 0
  ordinary : ∀ c ∈ names, Ordinary c

namespace Normal

/-- The root, or the directory a relative path starts from. -/
def start (rooted : Bool) : Normal := ⟨rooted, 0, [], fun _ => rfl, fun _ h => nomatch h⟩

/-- One level up; the root is its own parent. -/
def parent (n : Normal) : Normal where
  rooted := n.rooted
  up := if n.names = [] ∧ n.rooted = false then n.up + 1 else n.up
  names := n.names.dropLast
  up_eq_zero h := by rw [if_neg (by simp [h]), n.up_eq_zero h]
  ordinary c h := n.ordinary c (List.dropLast_subset _ h)

@[simp] theorem rooted_parent (n : Normal) : n.parent.rooted = n.rooted := rfl

@[simp] theorem names_parent (n : Normal) : n.parent.names = n.names.dropLast := rfl

theorem up_parent (n : Normal) :
    n.parent.up = if n.names = [] ∧ n.rooted = false then n.up + 1 else n.up := rfl

/-- Down through ordinary names. -/
def enter (n : Normal) (names : List Bytes) (h : ∀ c ∈ names, Ordinary c) : Normal where
  rooted := n.rooted
  up := n.up
  names := n.names ++ names
  up_eq_zero := n.up_eq_zero
  ordinary c hc := (List.mem_append.1 hc).elim (n.ordinary c) (h c)

@[simp] theorem rooted_enter (n : Normal) (names : List Bytes) (h : ∀ c ∈ names, Ordinary c) :
    (n.enter names h).rooted = n.rooted := rfl

@[simp] theorem up_enter (n : Normal) (names : List Bytes) (h : ∀ c ∈ names, Ordinary c) :
    (n.enter names h).up = n.up := rfl

@[simp] theorem names_enter (n : Normal) (names : List Bytes) (h : ∀ c ∈ names, Ordinary c) :
    (n.enter names h).names = n.names ++ names := rfl

/-- One component further. -/
def step (n : Normal) (c : Bytes) : Normal :=
  if c = dotDot then n.parent
  else if h : Ordinary c then n.enter [c] (by simpa using h)
  else n

/-- Further along a sequence of components. -/
def follow (n : Normal) (cs : List Bytes) : Normal := cs.foldl step n

theorem follow_append (n : Normal) (cs cs' : List Bytes) :
    n.follow (cs ++ cs') = (n.follow cs).follow cs' := List.foldl_append

@[simp] theorem follow_empty_component (n : Normal) : n.follow [[]] = n := by
  rw [follow, List.foldl_cons, List.foldl_nil, step, if_neg (by decide), dif_neg (by decide)]

@[simp] theorem rooted_follow (n : Normal) (cs : List Bytes) : (n.follow cs).rooted = n.rooted := by
  induction cs generalizing n with
  | nil => rfl
  | cons c cs ih =>
    rw [follow, List.foldl_cons, ← follow, ih, step]
    split_ifs <;> rfl

/-- `p` is the directory `base` followed by zero or more ordinary components. -/
def Within (base p : Normal) : Prop :=
  p.rooted = base.rooted ∧ p.up = base.up ∧ base.names <+: p.names

instance (base p : Normal) : Decidable (base.Within p) :=
  inferInstanceAs (Decidable (p.rooted = base.rooted ∧ p.up = base.up ∧ base.names <+: p.names))

/-! ## Climbing -/

/-- Several levels up. -/
def climb (n : Normal) (k : Nat) : Normal := parent^[k] n

theorem climb_succ (n : Normal) (k : Nat) : n.climb (k + 1) = (n.climb k).parent :=
  Function.iterate_succ_apply' parent k n

@[simp] theorem rooted_climb (n : Normal) (k : Nat) : (n.climb k).rooted = n.rooted := by
  induction k with
  | zero => rfl
  | succ k ih => rw [climb_succ, parent, ih]

theorem names_climb (n : Normal) (k : Nat) :
    (n.climb k).names = n.names.take (n.names.length - k) := by
  induction k with
  | zero => exact (List.take_length (l := n.names)).symm
  | succ k ih =>
    rw [climb_succ, names_parent, ih, List.dropLast_eq_take, List.length_take, List.take_take]
    congr 1
    omega

theorem up_climb (n : Normal) (k : Nat) :
    (n.climb k).up = if n.rooted then n.up else n.up + (k - n.names.length) := by
  induction k with
  | zero => rw [Nat.zero_sub, Nat.add_zero, ite_self]; rfl
  | succ k ih =>
    have hnil : n.names.take (n.names.length - k) = [] ↔ n.names.length ≤ k := by
      rw [List.take_eq_nil_iff, ← List.length_eq_zero_iff]
      omega
    rw [climb_succ, up_parent, names_climb, rooted_climb, ih]
    simp only [hnil]
    cases n.rooted with
    | true => simp only [Bool.true_eq_false, and_false, if_false, if_true]
    | false =>
      simp only [Bool.false_eq_true, if_false, and_true]
      split_ifs <;> omega

/-- **Climbing and going down again ends inside exactly when the way down repeats what was
climbed.** -/
theorem within_climb_enter_iff (n : Normal) (k : Nat) (names : List Bytes)
    (h : ∀ c ∈ names, Ordinary c) :
    n.Within ((n.climb k).enter names h) ↔ (n.rooted = true ∨ k ≤ n.names.length)
      ∧ n.names.drop (n.names.length - k) <+: names := by
  have hup : (n.climb k).up = n.up ↔ n.rooted = true ∨ k ≤ n.names.length := by
    rw [up_climb]
    split_ifs with hr
    · exact iff_of_true rfl (.inl hr)
    · rw [or_iff_right hr]
      omega
  have hnames : n.names <+: (n.climb k).names ++ names
      ↔ n.names.drop (n.names.length - k) <+: names := by
    rw [names_climb]
    conv_lhs => lhs; rw [← List.take_append_drop (n.names.length - k) n.names]
    exact List.prefix_append_right_inj _
  change (n.climb k).rooted = n.rooted ∧ (n.climb k).up = n.up
    ∧ n.names <+: (n.climb k).names ++ names ↔ _
  rw [hup, hnames]
  exact and_iff_right (rooted_climb n k)

/-! ## Relative paths -/

theorem parent_enter (n : Normal) {names : List Bytes} (h : ∀ c ∈ names, Ordinary c)
    (hne : names ≠ []) :
    (n.enter names h).parent
      = n.enter names.dropLast fun c hc => h c (List.dropLast_subset _ hc) := by
  ext1
  · rfl
  · exact if_neg fun hc => hne (List.append_eq_nil_iff.1 hc.1).2
  · exact List.dropLast_append_of_ne_nil hne

/-- **A relative path acts anywhere as it does on its own**: it climbs its `up` and then goes down
its `names`. -/
theorem follow_eq (n : Normal) (cs : List Bytes) :
    n.follow cs = (n.climb ((start false).follow cs).up).enter ((start false).follow cs).names
      ((start false).follow cs).ordinary := by
  induction cs using List.reverseRecOn with
  | nil => ext1 <;> simp [follow, start, enter, climb]
  | append_singleton cs c ih =>
    rw [follow_append, ih]
    generalize hr : (start false).follow cs = r
    have hrooted : r.rooted = false := by rw [← hr, rooted_follow, start]
    have hlast : (start false).follow (cs ++ [c]) = r.step c := by rw [follow_append, hr]; rfl
    simp only [hlast]
    change ((n.climb r.up).enter r.names r.ordinary).step c = _
    by_cases hdd : c = dotDot
    · have hstep : ∀ m : Normal, m.step c = m.parent := fun _ => if_pos hdd
      simp only [hstep]
      by_cases hnil : r.names = []
      · -- Nothing left to cancel: the path climbs one level more.
        have hup : r.parent.up = r.up + 1 := if_pos ⟨hnil, hrooted⟩
        ext1 <;> simp [hup, climb_succ, up_parent, hnil]
      · have hup : r.parent.up = r.up := if_neg fun hc => hnil hc.1
        rw [parent_enter _ _ hnil]
        ext1 <;> simp [hup]
    · by_cases hord : Ordinary c
      · have hstep : ∀ m : Normal, m.step c = m.enter [c] (by simpa using hord) := fun _ =>
          (if_neg hdd).trans (dif_pos hord)
        simp only [hstep]
        ext1 <;> simp
      · have hstep : ∀ m : Normal, m.step c = m := fun _ => (if_neg hdd).trans (dif_neg hord)
        simp only [hstep]

end Normal

/-! ## Joins -/

/-- Where a path leads. -/
def lexicallyNormal (p : Bytes) : Normal := (Normal.start (isAbsolute p)).follow (p.splitOn slash)

@[simp] theorem rooted_lexicallyNormal (p : Bytes) :
    (lexicallyNormal p).rooted = isAbsolute p := by
  rw [lexicallyNormal, Normal.rooted_follow, Normal.start]

theorem isAbsolute_append {p : Bytes} (h : p ≠ []) (q : Bytes) :
    isAbsolute (p ++ q) = isAbsolute p := by
  rw [isAbsolute, isAbsolute, List.head?_append_of_ne_nil _ h]

/-- A relative path that is joined leaves it to the directory whether the path is absolute. -/
theorem isAbsolute_join {p q : Bytes} (h : isAbsolute q = false) :
    isAbsolute (join p q) = isAbsolute p := by
  rw [join, if_neg (by simp [h])]
  rcases eq_or_ne p [] with rfl | hne
  · rw [if_pos (.inl rfl), List.nil_append, h]
    rfl
  · split_ifs
    exacts [isAbsolute_append hne q, isAbsolute_append hne (slash :: q)]

/-- The separator only separates: the components behind it follow those before it. -/
theorem lexicallyNormal_append_slash (p q : Bytes) (h : p ≠ []) :
    lexicallyNormal (p ++ slash :: q) = (lexicallyNormal p).follow (q.splitOn slash) := by
  rw [lexicallyNormal, isAbsolute_append h, List.splitOn_append_cons_self, Normal.follow_append,
    ← lexicallyNormal]

/-- **A relative path is followed from the directory it is joined to.** -/
theorem lexicallyNormal_join (p : Bytes) {q : Bytes} (h : isAbsolute q = false) :
    lexicallyNormal (join p q) = (lexicallyNormal p).follow (q.splitOn slash) := by
  rw [join, if_neg (by simp [h])]
  split_ifs with hp
  · rcases hp with rfl | hp
    · rw [List.nil_append, lexicallyNormal, h]
      rw [show lexicallyNormal [] = Normal.start false from Normal.follow_empty_component _]
    · obtain ⟨p, rfl⟩ := List.getLast?_eq_some_iff.1 hp
      rw [List.append_assoc, List.singleton_append]
      rcases eq_or_ne p [] with rfl | hne
      · rw [List.nil_append, List.nil_append, lexicallyNormal, lexicallyNormal, ← List.nil_append
          (slash :: q), List.splitOn_append_cons_self, Normal.follow_append, List.splitOn_nil,
          Normal.follow_empty_component]
        rfl
      · rw [lexicallyNormal_append_slash p q hne, lexicallyNormal_append_slash p [] hne,
          List.splitOn_nil, Normal.follow_empty_component]
  · rw [not_or] at hp
    exact lexicallyNormal_append_slash p q hp.1

/-- **Which paths stay below the directory they are joined to**: an absolute one must lie below it
already; a relative one that climbs `up` levels must come down again through the last `up` names of
the directory. -/
def Confined (dir q : Bytes) : Prop :=
  if isAbsolute q then
    isAbsolute dir = true ∧ (lexicallyNormal dir).names <+: (lexicallyNormal q).names
  else
    (isAbsolute dir = true ∨ (lexicallyNormal q).up ≤ (lexicallyNormal dir).names.length)
      ∧ (lexicallyNormal dir).names.drop
          ((lexicallyNormal dir).names.length - (lexicallyNormal q).up)
        <+: (lexicallyNormal q).names

instance (dir q : Bytes) : Decidable (Confined dir q) :=
  inferInstanceAs (Decidable (if isAbsolute q then
      isAbsolute dir = true ∧ (lexicallyNormal dir).names <+: (lexicallyNormal q).names
    else
      (isAbsolute dir = true ∨ (lexicallyNormal q).up ≤ (lexicallyNormal dir).names.length)
        ∧ (lexicallyNormal dir).names.drop
            ((lexicallyNormal dir).names.length - (lexicallyNormal q).up)
          <+: (lexicallyNormal q).names))

/-- **A join stays inside its directory exactly when the path joined is confined to it.** -/
theorem within_join_iff (dir q : Bytes) :
    (lexicallyNormal dir).Within (lexicallyNormal (join dir q)) ↔ Confined dir q := by
  rw [Confined]
  by_cases hq : isAbsolute q = true
  · simp only [if_pos hq, join]
    rw [Normal.Within, rooted_lexicallyNormal, rooted_lexicallyNormal, hq]
    constructor
    · exact fun ⟨hr, _, hpre⟩ => ⟨hr.symm, hpre⟩
    · rintro ⟨hr, hpre⟩
      refine ⟨hr.symm, ?_, hpre⟩
      rw [(lexicallyNormal q).up_eq_zero (by rw [rooted_lexicallyNormal, hq]),
        (lexicallyNormal dir).up_eq_zero (by rw [rooted_lexicallyNormal, hr])]
  · have hq' : isAbsolute q = false := by simpa using hq
    have hrel : (Normal.start false).follow (q.splitOn slash) = lexicallyNormal q := by
      rw [lexicallyNormal, hq']
    rw [if_neg hq, lexicallyNormal_join dir hq', Normal.follow_eq,
      Normal.within_climb_enter_iff, hrel, rooted_lexicallyNormal]

end Path
