import PacPrism.Foundations.Exceptions

/-!
# Foundations/Search — searches in a text put together from pieces

    a ++ b :: c      find:   the first occurrence in `a`, else the first in `c`
                     rfind:  the separator itself, if `c` has none

A search for a pattern passes over a byte the pattern does not contain
(`search_append_cons_of_notMem`), and a search for a pattern passes over a text that lacks its first
byte (`search_append_of_notMem`).  `trySubstr` and `tryCompare` throw where `std::string` does.
-/

namespace Bytes

/-! ## Searching from the end -/

/-- The last position, at most `i`, at which `pat` occurs in `s`. -/
def rsearch (pat s : Bytes) : Nat → Option Nat
  | 0 => if pat.isPrefixOf s then some 0 else none
  | i + 1 => if pat.isPrefixOf (s.drop (i + 1)) then some (i + 1) else rsearch pat s i

/-- `s.rfind(pat, pos)`: the last occurrence that starts at `pos` or before; no position asks for
the last of all. -/
def rfind (s pat : Bytes) (pos : Nat := s.length) : Option Nat := rsearch pat s (min pos s.length)

theorem rsearch_zero_eq_some_iff {pat s : Bytes} : rsearch pat s 0 = some 0 ↔ pat <+: s := by
  rw [rsearch, ← List.isPrefixOf_iff_prefix]
  split_ifs with h <;> simp [h]

theorem rsearch_of_prefix_drop {pat s : Bytes} {i : Nat} (h : pat <+: s.drop i) :
    rsearch pat s i = some i := by
  cases i with
  | zero => exact rsearch_zero_eq_some_iff.2 h
  | succ i => rw [rsearch, if_pos (List.isPrefixOf_iff_prefix.2 h)]

theorem rsearch_succ_of_not_prefix_drop {pat s : Bytes} {i : Nat} (h : ¬ pat <+: s.drop (i + 1)) :
    rsearch pat s (i + 1) = rsearch pat s i := by
  rw [rsearch, if_neg (by rwa [List.isPrefixOf_iff_prefix])]

/-- What the search finds is the last occurrence. -/
theorem rsearch_eq_some_iff {pat s : Bytes} {i j : Nat} : rsearch pat s i = some j
    ↔ j ≤ i ∧ pat <+: s.drop j ∧ ∀ k, j < k → k ≤ i → ¬ pat <+: s.drop k := by
  induction i with
  | zero =>
    rw [rsearch, Nat.le_zero]
    constructor
    · intro h
      split_ifs at h with hpre
      obtain rfl := Option.some.inj h
      exact ⟨rfl, List.isPrefixOf_iff_prefix.1 hpre, fun k hk hle => absurd hk (by omega)⟩
    · rintro ⟨rfl, hpre, -⟩
      exact if_pos (List.isPrefixOf_iff_prefix.2 hpre)
  | succ i ih =>
    by_cases hpre : pat <+: s.drop (i + 1)
    · rw [rsearch_of_prefix_drop hpre, Option.some.injEq]
      constructor
      · rintro rfl
        exact ⟨le_rfl, hpre, fun k hk hle => absurd hk (by omega)⟩
      · rintro ⟨hle, -, hlast⟩
        by_contra hne
        exact hlast (i + 1) (by omega) le_rfl hpre
    · rw [rsearch_succ_of_not_prefix_drop hpre, ih]
      constructor
      · rintro ⟨hle, hfound, hlast⟩
        refine ⟨by omega, hfound, fun k hk hki => ?_⟩
        rcases Nat.le_or_eq_of_le_succ hki with hki | rfl
        exacts [hlast k hk hki, hpre]
      · rintro ⟨hle, hfound, hlast⟩
        have hne : j ≠ i + 1 := by
          rintro rfl
          exact hpre hfound
        exact ⟨by omega, hfound, fun k hk hki => hlast k hk (by omega)⟩

/-- **The last separator is found**, if the text behind it has none. -/
theorem rfind_append_cons {s : Bytes} {b : UInt8} (a c : Bytes) (hs : s = a ++ b :: c)
    (h : b ∉ c) : rfind s [b] = some a.length := by
  subst hs
  rw [rfind, min_self, rsearch_eq_some_iff]
  refine ⟨by simp, by rw [List.drop_left]; exact ⟨c, rfl⟩, fun k hk _ hpre => ?_⟩
  have hdrop : (a ++ b :: c).drop k = c.drop (k - a.length - 1) := by
    rw [List.drop_append, List.drop_of_length_le (by omega), List.nil_append,
      show k - a.length = k - a.length - 1 + 1 by omega, List.drop_succ_cons, Nat.add_sub_cancel]
  rw [hdrop] at hpre
  exact h (List.mem_of_mem_drop (hpre.subset (List.mem_singleton_self b)))

/-! ## Searching from the front -/

/-- A pattern is not found exactly if it does not occur. -/
theorem search_eq_none_iff_absent {pat s : Bytes} (hpat : pat ≠ []) :
    search pat s = none ↔ ¬ pat <:+: s := by
  rw [search_eq_none_iff hpat, ← not_exists, not_iff_not]
  constructor
  · rintro ⟨j, hj⟩
    exact hj.isInfix.trans (List.drop_suffix j s).isInfix
  · rintro ⟨a, c, rfl⟩
    exact ⟨a.length, by rw [List.append_assoc, List.drop_left]; exact List.prefix_append pat c⟩

/-- What is found occurs. -/
theorem infix_of_search {pat s : Bytes} {i : Nat} (hpat : pat ≠ []) (h : search pat s = some i) :
    pat <:+: s :=
  ((search_eq_some_iff hpat).1 h).1.isInfix.trans (List.drop_suffix i s).isInfix

theorem search_cons (pat : Bytes) (b : UInt8) (s : Bytes) : search pat (b :: s)
    = if pat.isPrefixOf (b :: s) then some 0 else (search pat s).map (· + 1) := rfl

/-- An occurrence at the front ends before a byte that the pattern does not contain. -/
theorem prefix_append_cons_iff {pat : Bytes} {b : UInt8} (hb : b ∉ pat) (a c : Bytes) :
    pat <+: a ++ b :: c ↔ pat <+: a := by
  induction pat generalizing a with
  | nil => simp
  | cons x pat ih =>
    obtain ⟨hbx, hb⟩ := not_or.1 (mt List.mem_cons.2 hb)
    cases a with
    | nil => simp [List.cons_prefix_cons, Ne.symm hbx]
    | cons y a => rw [List.cons_append, List.cons_prefix_cons, List.cons_prefix_cons, ih hb]

theorem infix_append_cons_iff {pat : Bytes} (hpat : pat ≠ []) {b : UInt8} (hb : b ∉ pat)
    (a c : Bytes) : pat <:+: a ++ b :: c ↔ pat <:+: a ∨ pat <:+: c := by
  induction a with
  | nil =>
    have hfront : ¬ pat <+: b :: c := fun h =>
      hpat (List.prefix_nil.1 ((prefix_append_cons_iff hb [] c).1 h))
    rw [List.nil_append, List.infix_cons_iff, List.infix_nil, or_iff_right hfront,
      or_iff_right hpat]
  | cons x a ih =>
    have hcons : pat <:+: x :: a ↔ pat <+: x :: a ∨ pat <:+: a := List.infix_cons_iff
    rw [List.cons_append, List.infix_cons_iff, ih, hcons, or_assoc, ← List.cons_append,
      prefix_append_cons_iff hb]

/-! A word that repeats its first byte nowhere occurs on one side of that byte. -/

theorem cons_prefix_append_cons_iff {pat : Bytes} {b : UInt8} (hb : b ∉ pat) (a c : Bytes) :
    b :: pat <+: a ++ b :: c ↔ b :: pat <+: a ∨ a = [] ∧ pat <+: c := by
  cases a with
  | nil => simp [List.cons_prefix_cons]
  | cons x a =>
    rw [List.cons_append, List.cons_prefix_cons, List.cons_prefix_cons, prefix_append_cons_iff hb]
    simp

theorem cons_infix_append_cons_iff {pat : Bytes} {b : UInt8} (hb : b ∉ pat) (a c : Bytes) :
    b :: pat <:+: a ++ b :: c ↔ b :: pat <:+: a ∨ b :: pat <:+: b :: c := by
  induction a with
  | nil => simp
  | cons x a ih =>
    have hcons : b :: pat <:+: x :: a ↔ b :: pat <+: x :: a ∨ b :: pat <:+: a :=
      List.infix_cons_iff
    rw [List.cons_append, List.infix_cons_iff, ih, hcons, ← or_assoc]
    refine or_congr_left (or_congr_left ?_)
    rw [← List.cons_append, cons_prefix_append_cons_iff hb]
    simp

theorem cons_infix_append_of_notMem {b : UInt8} {a : Bytes} (h : b ∉ a) (pat c : Bytes) :
    b :: pat <:+: a ++ c ↔ b :: pat <:+: c := by
  induction a with
  | nil => rfl
  | cons x a ih =>
    obtain ⟨hbx, ha⟩ := not_or.1 (mt List.mem_cons.2 h)
    rw [List.cons_append, List.infix_cons_iff, List.cons_prefix_cons, ih ha, or_iff_right]
    exact fun hpre => hbx hpre.1

/-- **A search passes over a byte that the pattern does not contain.** -/
theorem search_append_cons_of_notMem {pat : Bytes} (hpat : pat ≠ []) {b : UInt8} (hb : b ∉ pat)
    (a c : Bytes) : search pat (a ++ b :: c)
      = (search pat a).or ((search pat c).map (a.length + 1 + ·)) := by
  have hfront (a : Bytes) : pat.isPrefixOf (a ++ b :: c) = pat.isPrefixOf a := by
    rw [Bool.eq_iff_iff, List.isPrefixOf_iff_prefix, List.isPrefixOf_iff_prefix,
      prefix_append_cons_iff hb]
  induction a with
  | nil =>
    have hnot : ¬ pat.isPrefixOf ([] ++ b :: c) = true := fun h =>
      hpat (List.prefix_nil.1 (List.isPrefixOf_iff_prefix.1 ((hfront []).symm.trans h)))
    rw [List.nil_append] at hnot ⊢
    rw [search_cons, if_neg hnot, search, if_neg hpat, Option.none_or]
    exact congrArg (Option.map · _) (funext fun i => by simp [Nat.add_comm])
  | cons x a ih =>
    rw [List.cons_append, search_cons, ← List.cons_append, hfront, search_cons, ih]
    split_ifs with h
    · rfl
    · cases search pat a <;> simp [Function.comp_def, Nat.add_comm, Nat.add_left_comm]

/-- A word that repeats its first byte nowhere is found behind a text that lacks the word. -/
theorem search_append_word {pat : Bytes} {b : UInt8} (hb : b ∉ pat) {a : Bytes}
    (ha : ¬ b :: pat <:+: a) (c : Bytes) :
    search (b :: pat) (a ++ b :: (pat ++ c)) = some a.length := by
  refine (search_eq_some_iff (List.cons_ne_nil b pat)).2 ⟨?_, fun j hj hpre => ?_⟩
  · rw [List.drop_left]
    exact ⟨c, rfl⟩
  · rw [List.drop_append_of_le_length hj.le, cons_prefix_append_cons_iff hb] at hpre
    rcases hpre with hpre | ⟨hnil, -⟩
    · exact ha (hpre.isInfix.trans (List.drop_suffix j a).isInfix)
    · rw [List.drop_eq_nil_iff] at hnil
      omega

/-- **A search passes over a text that lacks the first byte of the pattern.** -/
theorem search_append_of_notMem {b : UInt8} {a : Bytes} (h : b ∉ a) (pat c : Bytes) :
    search (b :: pat) (a ++ c) = (search (b :: pat) c).map (a.length + ·) := by
  induction a with
  | nil => simp
  | cons x a ih =>
    have hnot : ¬ (b :: pat).isPrefixOf (x :: a ++ c) = true := by
      rw [List.isPrefixOf_iff_prefix]
      exact fun hpre => h (List.mem_cons.2 (.inl (List.cons_prefix_cons.1 hpre).1))
    rw [List.cons_append, search, ← List.cons_append, if_neg hnot,
      ih fun hmem => h (List.mem_cons_of_mem x hmem), Option.map_map]
    refine congrArg (Option.map · _) (funext fun i => ?_)
    rw [Function.comp_apply, List.length_cons]
    omega

/-- A word that occurs has a last occurrence. -/
theorem exists_last_infix {pat s : Bytes} (hpat : pat ≠ []) (h : pat <:+: s) :
    ∃ a c, s = a ++ (pat ++ c) ∧ ¬ pat <:+: c := by
  obtain ⟨a, c, rfl⟩ := h
  induction hlength : c.length using Nat.strong_induction_on generalizing a c with
  | h n ih =>
    by_cases hc : pat <:+: c
    · obtain ⟨a', c', rfl⟩ := hc
      have hpos := List.length_pos_iff.2 hpat
      simp only [List.length_append] at hlength
      obtain ⟨a'', c'', heq, hlast⟩ := ih c'.length (by omega) (a ++ pat ++ a') c' rfl
      exact ⟨a'', c'', by rw [← heq]; simp only [List.append_assoc], hlast⟩
    · exact ⟨a, c, by rw [List.append_assoc], hc⟩

/-- It has a first one, too, and whatever follows that, it is found. -/
theorem exists_first_infix {pat s : Bytes} (hpat : pat ≠ []) (h : pat <:+: s) :
    ∃ a c, s = a ++ (pat ++ c) ∧ ∀ c', search pat (a ++ (pat ++ c')) = some a.length := by
  cases hsearch : search pat s with
  | none => exact absurd h ((search_eq_none_iff_absent hpat).1 hsearch)
  | some i =>
    have hle := search_add_length_le hsearch
    obtain ⟨c, hc⟩ := ((search_eq_some_iff hpat).1 hsearch).1
    have hlength : (s.take i).length = i := List.length_take_of_le (by omega)
    refine ⟨s.take i, c, by rw [hc, List.take_append_drop], fun c' => ?_⟩
    rw [hlength, ← search_take_append hpat hsearch c', List.take_add, ← hc, List.take_left,
      List.append_assoc]

/-- A separator that occurs has a last occurrence. -/
theorem exists_last_cons {b : UInt8} {s : Bytes} (h : b ∈ s) :
    ∃ a c, s = a ++ b :: c ∧ b ∉ c := by
  obtain ⟨a, c, rfl⟩ := List.append_of_mem h
  have hinfix : [b] <:+: a ++ b :: c := ⟨a, c, by simp⟩
  obtain ⟨a', c', hs, hlast⟩ := exists_last_infix (List.cons_ne_nil b []) hinfix
  refine ⟨a', c', hs, fun hb => hlast ?_⟩
  obtain ⟨x, y, rfl⟩ := List.append_of_mem hb
  exact ⟨x, y, by simp⟩

/-- The first separator is found, if the text before it has none. -/
theorem search_append_cons {b : UInt8} {a : Bytes} (h : b ∉ a) (c : Bytes) :
    search [b] (a ++ b :: c) = some a.length := by
  rw [search_append_of_notMem h, search, if_pos (by simp)]
  rfl

/-- `s.find(pat, pos)`, as a plain position. -/
def findFrom (s pat : Bytes) (pos : Nat := 0) : Option Nat := (find s pat pos).map Subtype.val

theorem findFrom_zero (s pat : Bytes) : findFrom s pat = search pat s := map_val_find s pat

theorem findFrom_eq {s : Bytes} {pos : Nat} (h : pos ≤ s.length) (pat : Bytes) :
    findFrom s pat pos = (search pat (s.drop pos)).map (pos + ·) := by
  rw [findFrom, find, dif_pos h, Option.map_pmap, Option.pmap_eq_map]

/-- A search from the end of a piece searches what is behind it. -/
theorem findFrom_append {s : Bytes} (a c : Bytes) (hs : s = a ++ c) {pos : Nat}
    (hpos : pos = a.length) (pat : Bytes) :
    findFrom s pat pos = (search pat c).map (a.length + ·) := by
  subst hs hpos
  rw [findFrom_eq (by simp), List.drop_left]

/-- The text before the first separator. -/
theorem takeWhile_ne (b : UInt8) (s : Bytes) :
    s.takeWhile (· ≠ b) = ((search [b] s).map s.take).getD s := by
  induction s with
  | nil => rfl
  | cons x s ih =>
    rw [search_cons]
    by_cases hx : x = b
    · simp [hx]
    · have hnot : ¬ [b].isPrefixOf (x :: s) = true := by simp [Ne.symm hx]
      rw [if_neg hnot, List.takeWhile_cons_of_pos (by simpa using hx), ih]
      cases search [b] s <;> rfl

/-! ## Cuts at the first separator -/

theorem exists_find_cons {b : UInt8} {a : Bytes} (h : b ∉ a) (c : Bytes) :
    ∃ p : Position (a ++ b :: c) 0 [b].length, find (a ++ b :: c) [b] = some p
      ∧ before (a ++ b :: c) p = a ∧ after (a ++ b :: c) p = c := by
  rw [List.append_cons]
  obtain ⟨p, hp, -, hbefore, hafter⟩ := exists_find_append (a ++ [b]) [b] a.length
    (List.cons_ne_nil b []) (search_append_cons h []) (by simp) c
  exact ⟨p, hp, by rw [hbefore, List.take_left], hafter⟩

/-- A text is put together again from what is before and behind its first separator. -/
theorem eq_of_find {b : UInt8} {s : Bytes} {p : Position s 0 [b].length}
    (h : find s [b] = some p) : b ∉ before s p ∧ s = before s p ++ b :: after s p := by
  have hsearch : search [b] s = some p.1 := by rw [← map_val_find, h, Option.map_some]
  have hbefore : before s p = s.take p.1 := rfl
  have hafter : after s p = s.drop (p.1 + 1) := List.take_of_length_le (by simp)
  rw [hbefore, hafter]
  generalize p.1 = i at hsearch
  obtain ⟨rest, hrest⟩ := ((search_eq_some_iff (List.cons_ne_nil b [])).1 hsearch).1
  have hfront : s.takeWhile (· ≠ b) = s.take i := by rw [takeWhile_ne, hsearch]; rfl
  constructor
  · intro hb
    rw [← hfront] at hb
    simpa using List.all_eq_true.1 List.all_takeWhile b hb
  · calc s = s.take i ++ s.drop i := (List.take_append_drop i s).symm
      _ = s.take i ++ b :: s.drop (i + 1) := by rw [← List.drop_drop, ← hrest]; rfl

/-- There is one way to cut at the first separator. -/
theorem append_cons_inj {b : UInt8} {a a' c c' : Bytes} (h : b ∉ a) (h' : b ∉ a')
    (heq : a ++ b :: c = a' ++ b :: c') : a = a' ∧ c = c' := by
  have hlength : a.length = a'.length :=
    Option.some.inj ((search_append_cons h c).symm.trans (heq ▸ search_append_cons h' c'))
  obtain ⟨rfl, hcons⟩ := List.append_inj heq hlength
  exact ⟨rfl, (List.cons.inj hcons).2⟩

/-- There is one way to cut at the last separator. -/
theorem append_cons_inj_last {b : UInt8} {a a' c c' : Bytes} (h : b ∉ c) (h' : b ∉ c')
    (heq : a ++ b :: c = a' ++ b :: c') : a = a' ∧ c = c' := by
  have hlength : a.length = a'.length :=
    Option.some.inj ((rfind_append_cons a c rfl h).symm.trans (rfind_append_cons a' c' heq h'))
  obtain ⟨rfl, hcons⟩ := List.append_inj heq hlength
  exact ⟨rfl, (List.cons.inj hcons).2⟩

/-! ## Cuts that may throw -/

/-- `s.substr(pos, count)`, which throws if it starts behind the end. -/
def trySubstr (s : Bytes) (pos : Nat) (count : Nat := s.length) : Except Exn Bytes :=
  if h : pos ≤ s.length then pure (substr s pos h count)
  else throw ⟨.outOfRange, lit "basic_string::substr"⟩

/-- `s.compare(pos, count, t) == 0`, which throws if it starts behind the end. -/
def tryCompare (s : Bytes) (pos count : Nat) (t : Bytes) : Except Exn Bool :=
  if h : pos ≤ s.length then pure (decide (substr s pos h count = t))
  else throw ⟨.outOfRange, lit "basic_string::compare"⟩

/-- **The middle of three pieces is cut out** at its place. -/
theorem trySubstr_middle {s : Bytes} (a m c : Bytes) (hs : s = a ++ (m ++ c)) {pos count : Nat}
    (hpos : pos = a.length) (hcount : count = m.length) : trySubstr s pos count = pure m := by
  subst hs hpos hcount
  rw [trySubstr, dif_pos (by simp), substr, List.drop_left, List.take_left]

/-- The last of two pieces is cut out at its place. -/
theorem trySubstr_last {s : Bytes} (a m : Bytes) (hs : s = a ++ m) {pos : Nat}
    (hpos : pos = a.length) : trySubstr s pos = pure m := by
  subst hs hpos
  rw [trySubstr, dif_pos (by simp), substr, List.drop_left, List.take_of_length_le (by simp)]

/-- What stands at the place of the last of two pieces is the front of that piece. -/
theorem tryCompare_last {s : Bytes} (a m : Bytes) (hs : s = a ++ m) {pos : Nat}
    (hpos : pos = a.length) (count : Nat) (t : Bytes) :
    tryCompare s pos count t = pure (decide (m.take count = t)) := by
  subst hs hpos
  rw [tryCompare, dif_pos (by simp), substr, List.drop_left]

end Bytes
