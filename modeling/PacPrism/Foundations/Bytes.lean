import Mathlib.Data.List.Infix

/-!
# Foundations/Bytes — byte strings

A C++ string is a sequence of bytes: no encoding, no terminator.  `find` and `substr` are those of
`std::string`.  A position found carries the proof that it lies in the string, and `substr` asks for
the proof that it starts there: it never throws.
-/

/-- A string of bytes. -/
abbrev Bytes := List UInt8

/-- The bytes of an ASCII literal. -/
def lit (s : String) : Bytes := s.toList.map fun c => UInt8.ofNat c.toNat

namespace Bytes

/-- The first position at which `pat` occurs in `s`. -/
def search (pat : Bytes) : Bytes → Option Nat
  | [] => if pat = [] then some 0 else none
  | b :: s => if pat.isPrefixOf (b :: s) then some 0 else (search pat s).map (· + 1)

theorem search_add_length_le {pat : Bytes} : ∀ {s : Bytes} {i : Nat}, search pat s = some i →
    i + pat.length ≤ s.length
  | [], i, h => by
    rw [search] at h
    split_ifs at h with hpat
    obtain rfl := Option.some.inj h
    rw [hpat]
    exact le_rfl
  | b :: s, i, h => by
    rw [search] at h
    split_ifs at h with hpat
    · obtain rfl := Option.some.inj h
      rw [Nat.zero_add]
      exact (List.isPrefixOf_iff_prefix.1 hpat).length_le
    · obtain ⟨j, hj, rfl⟩ := Option.map_eq_some_iff.1 h
      have := search_add_length_le hj
      rw [List.length_cons]
      omega

/-- What the search finds is the first occurrence. -/
theorem search_eq_some_iff {pat : Bytes} (hpat : pat ≠ []) {s : Bytes} {i : Nat} :
    search pat s = some i ↔ pat <+: s.drop i ∧ ∀ j < i, ¬ pat <+: s.drop j := by
  induction s generalizing i with
  | nil =>
    rw [search, if_neg hpat]
    exact iff_of_false nofun fun h => hpat (List.prefix_nil.1 (List.drop_nil ▸ h.1))
  | cons b s ih =>
    rw [search]
    by_cases hhead : pat.isPrefixOf (b :: s) = true
    · rw [if_pos hhead]
      have hfront : pat <+: (b :: s).drop 0 := List.isPrefixOf_iff_prefix.1 hhead
      constructor
      · rintro h
        obtain rfl := Option.some.inj h
        exact ⟨hfront, fun j hj => nomatch hj⟩
      · rintro ⟨-, hfirst⟩
        rcases Nat.eq_zero_or_pos i with rfl | hpos
        exacts [rfl, absurd hfront (hfirst 0 hpos)]
    · rw [if_neg hhead]
      have hnot : ¬ pat <+: (b :: s).drop 0 := fun h => hhead (List.isPrefixOf_iff_prefix.2 h)
      constructor
      · intro h
        obtain ⟨i, hi, rfl⟩ := Option.map_eq_some_iff.1 h
        obtain ⟨hfront, hfirst⟩ := ih.1 hi
        refine ⟨hfront, fun j hj => ?_⟩
        cases j with
        | zero => exact hnot
        | succ j => exact hfirst j (by omega)
      · rintro ⟨hfront, hfirst⟩
        cases i with
        | zero => exact absurd hfront hnot
        | succ i =>
          exact Option.map_eq_some_iff.2
            ⟨i, ih.2 ⟨hfront, fun j hj => hfirst (j + 1) (by omega)⟩, rfl⟩

theorem search_eq_none_iff {pat : Bytes} (hpat : pat ≠ []) {s : Bytes} :
    search pat s = none ↔ ∀ j, ¬ pat <+: s.drop j := by
  induction s with
  | nil =>
    rw [search, if_neg hpat]
    exact iff_of_true rfl fun j h => hpat (List.prefix_nil.1 (List.drop_nil ▸ h))
  | cons b s ih =>
    rw [search]
    by_cases hhead : pat.isPrefixOf (b :: s) = true
    · rw [if_pos hhead]
      exact iff_of_false nofun fun h => h 0 (List.isPrefixOf_iff_prefix.1 hhead)
    · rw [if_neg hhead, Option.map_eq_none_iff, ih]
      constructor
      · intro h j
        cases j with
        | zero => exact fun hp => hhead (List.isPrefixOf_iff_prefix.2 hp)
        | succ j => exact h j
      · exact fun h j => h (j + 1)

/-- Whatever follows the first occurrence, it is found. -/
theorem search_take_append {pat : Bytes} (hpat : pat ≠ []) {s : Bytes} {i : Nat}
    (h : search pat s = some i) (rest : Bytes) :
    search pat (s.take (i + pat.length) ++ rest) = some i := by
  have hlength := search_add_length_le h
  obtain ⟨hfront, hfirst⟩ := (search_eq_some_iff hpat).1 h
  have hdrop : ∀ j ≤ i, (s.take (i + pat.length) ++ rest).drop j
      = (s.drop j).take (i + pat.length - j) ++ rest := fun j hj => by
    rw [List.drop_append_of_le_length (by rw [List.length_take]; omega), List.drop_take]
  refine (search_eq_some_iff hpat).2 ⟨?_, fun j hj hpre => hfirst j hj ?_⟩
  · rw [hdrop i le_rfl, Nat.add_sub_cancel_left]
    exact (List.prefix_take_iff.2 ⟨hfront, le_rfl⟩).trans (List.prefix_append _ rest)
  · rw [hdrop j hj.le] at hpre
    have htake := List.prefix_of_prefix_length_le hpre (List.prefix_append _ rest) (by
      rw [List.length_take, List.length_drop]
      omega)
    exact htake.trans (List.take_prefix _ _)

/-- Before the first occurrence is complete, none is found. -/
theorem search_take_of_lt {pat : Bytes} (hpat : pat ≠ []) {s : Bytes} {i k : Nat}
    (h : search pat s = some i) (hk : k < i + pat.length) : search pat (s.take k) = none := by
  obtain ⟨-, hfirst⟩ := (search_eq_some_iff hpat).1 h
  refine (search_eq_none_iff hpat).2 fun j hpre => ?_
  rw [List.drop_take] at hpre
  have hlong := hpre.length_le
  have hpatLength := List.length_pos_iff.2 hpat
  rw [List.length_take] at hlong
  exact hfirst j (by omega) (hpre.trans (List.take_prefix _ _))

/-- What is kept of `s` is `s` and more only if all is kept and nothing is more. -/
theorem take_eq_append_iff {s rest : Bytes} {n : Nat} :
    s.take n = s ++ rest ↔ s.length ≤ n ∧ rest = [] := by
  constructor
  · intro h
    have hlength := congrArg List.length h
    rw [List.length_take, List.length_append] at hlength
    exact ⟨by omega, List.length_eq_zero_iff.1 (by omega)⟩
  · rintro ⟨hle, rfl⟩
    rw [List.append_nil, List.take_of_length_le hle]

/-- A position of `s`, from `pos` on, with `n` bytes at it. -/
abbrev Position (s : Bytes) (pos n : Nat) := {i : Nat // pos ≤ i ∧ i + n ≤ s.length}

/-- `s.find(pat, pos)`: the first occurrence from `pos` on; `none` is `npos`. -/
def find (s pat : Bytes) (pos : Nat := 0) : Option (Position s pos pat.length) :=
  if hpos : pos ≤ s.length then
    (search pat (s.drop pos)).pmap (fun i hi => ⟨pos + i, by omega, by
        rw [List.length_drop] at hi
        omega⟩) fun _ => search_add_length_le
  else none

/-- `s.substr(pos, count)`; no count reaches to the end. -/
def substr (s : Bytes) (pos : Nat) (_ : pos ≤ s.length) (count : Nat := s.length) : Bytes :=
  (s.drop pos).take count

theorem zero_le_length (s : Bytes) : 0 ≤ s.length := Nat.zero_le _

/-- `s.substr(0, p)`: what comes before a position. -/
def before (s : Bytes) {pos n : Nat} (p : Position s pos n) : Bytes :=
  substr s 0 (zero_le_length s) p

/-- `s.substr(p + n)`: what comes behind the bytes found at a position. -/
def after (s : Bytes) {pos n : Nat} (p : Position s pos n) : Bytes := substr s (p + n) p.2.2

/-! ## Cutting at the first occurrence -/

@[simp] theorem map_val_find (s pat : Bytes) : (find s pat).map Subtype.val = search pat s := by
  rw [find, dif_pos (Nat.zero_le _), Option.map_pmap]
  simp

theorem find_eq_none {s pat : Bytes} {pos : Nat} (h : search pat (s.drop pos) = none) :
    find s pat pos = none := by
  rw [find]
  split_ifs
  · simp [h]
  · rfl

/-- A single byte is found exactly if it occurs. -/
theorem search_singleton_eq_none_iff {b : UInt8} {s : Bytes} : search [b] s = none ↔ b ∉ s := by
  rw [search_eq_none_iff (List.cons_ne_nil b [])]
  constructor
  · intro h hb
    obtain ⟨j, hj, rfl⟩ := List.mem_iff_getElem.1 hb
    refine h j ⟨s.drop (j + 1), ?_⟩
    rw [List.singleton_append, List.getElem_cons_drop]
  · rintro h j ⟨rest, hrest⟩
    refine h (List.mem_of_mem_drop (i := j) ?_)
    rw [← hrest]
    exact List.mem_cons_self

/-- **A text whose first occurrence of `pat` ends where `w` ends is cut there.** -/
theorem exists_find_append (w pat : Bytes) (i : Nat) (hpat : pat ≠ []) (h : search pat w = some i)
    (hend : w.length = i + pat.length) (t : Bytes) :
    ∃ p : Position (w ++ t) 0 pat.length, find (w ++ t) pat = some p ∧ p.1 = i
      ∧ before (w ++ t) p = w.take i ∧ after (w ++ t) p = t := by
  have hsearch : search pat (w ++ t) = some i := by
    have := search_take_append hpat h t
    rwa [List.take_of_length_le hend.le] at this
  have hfind : ∃ p : Position (w ++ t) 0 pat.length, find (w ++ t) pat = some p ∧ p.1 = i := by
    rw [find, dif_pos (Nat.zero_le _)]
    simp [hsearch]
  obtain ⟨p, hp, rfl⟩ := hfind
  refine ⟨p, hp, rfl, ?_, ?_⟩
  · rw [before, substr, List.drop_zero, List.take_append_of_le_length (by omega)]
  · rw [after, substr, ← hend, List.drop_left, List.take_of_length_le (by simp)]

end Bytes
