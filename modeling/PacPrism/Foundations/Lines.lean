import Mathlib.Data.List.DropRight
import PacPrism.Foundations.Bytes

/-!
# Foundations/Lines — the lines of a text, and the characters around them

`getline` ends a line at a newline or at the end of the text.  `findFirstNotOf` and `findLastNotOf`
find the ends of what is left of a text without the characters of a set around it.
-/

namespace Bytes

/-- What ends a line. -/
def newline : UInt8 := 0x0a

/-- The lines that `std::getline` delivers until it fails.  What is behind the last newline is a
line unless it is empty. -/
def lines : Bytes → List Bytes
  | [] => []
  | b :: s =>
    if b = newline then [] :: lines s
    else match lines s with
      | [] => [[b]]
      | line :: rest => (b :: line) :: rest

/-- A line is read up to its newline. -/
theorem lines_append_cons {line : Bytes} (h : newline ∉ line) (s : Bytes) :
    lines (line ++ newline :: s) = line :: lines s := by
  induction line with
  | nil => rw [List.nil_append, lines, if_pos rfl]
  | cons b line ih =>
    obtain ⟨hb, hline⟩ := not_or.1 (mt List.mem_cons.2 h)
    rw [List.cons_append, lines, if_neg (Ne.symm hb), ih hline]

/-- **The lines written are the lines read.** -/
theorem lines_flatMap {ls : List Bytes} (h : ∀ line ∈ ls, newline ∉ line) :
    lines (ls.flatMap fun line => line ++ [newline]) = ls := by
  induction ls with
  | nil => rfl
  | cons line ls ih =>
    obtain ⟨hline, hls⟩ := List.forall_mem_cons.1 h
    rw [List.flatMap_cons, List.append_assoc, List.singleton_append, lines_append_cons hline,
      ih hls]

/-! ## What is around a text -/

/-- `s.find_first_not_of(set)`. -/
def findFirstNotOf (s set : Bytes) : Option Nat := s.findIdx? fun b => decide (b ∉ set)

/-- `s.find_last_not_of(set)`. -/
def findLastNotOf (s set : Bytes) : Option Nat :=
  (s.reverse.findIdx? fun b => decide (b ∉ set)).map (s.length - 1 - ·)

/-- A text that neither begins nor ends with a character of the set. -/
def Trimmed (set s : Bytes) : Prop := (∀ b ∈ s.head?, b ∉ set) ∧ ∀ b ∈ s.getLast?, b ∉ set

/-- The ends of a text are those of its first and its last part. -/
theorem Trimmed.append {set a c : Bytes} (ha : ∀ b ∈ a.head?, b ∉ set) (hane : a ≠ [])
    (hc : ∀ b ∈ c.getLast?, b ∉ set) (hcne : c ≠ []) : Trimmed set (a ++ c) := by
  refine ⟨fun b hb => ha b ?_, fun b hb => hc b ?_⟩
  · rwa [List.head?_append_of_ne_nil _ hane] at hb
  · rwa [List.getLast?_append_of_ne_nil _ hcne] at hb

variable {set l m r : Bytes}

theorem findIdx?_notMem_eq_none (h : ∀ b ∈ l, b ∈ set) :
    (l.findIdx? fun b => decide (b ∉ set)) = none := by
  rw [List.findIdx?_eq_none_iff]
  exact fun b hb => by simpa using h b hb

theorem findFirstNotOf_eq_none (h : ∀ b ∈ l, b ∈ set) : findFirstNotOf l set = none :=
  findIdx?_notMem_eq_none h

/-- The first character that is not of the set is behind those around the text. -/
theorem findIdx?_append_of_head (hl : ∀ b ∈ l, b ∈ set) (hm : ∀ b ∈ m.head?, b ∉ set)
    (hne : m ≠ []) (r : Bytes) :
    ((l ++ (m ++ r)).findIdx? fun b => decide (b ∉ set)) = some l.length := by
  obtain ⟨b, m, rfl⟩ := List.exists_cons_of_ne_nil hne
  have hb : b ∉ set := hm b rfl
  rw [List.findIdx?_append, findIdx?_notMem_eq_none hl, List.cons_append, List.findIdx?_cons,
    if_pos (by simpa using hb)]
  simp

theorem findFirstNotOf_append (hl : ∀ b ∈ l, b ∈ set) (hm : Trimmed set m) (hne : m ≠ [])
    (r : Bytes) : findFirstNotOf (l ++ (m ++ r)) set = some l.length :=
  findIdx?_append_of_head hl hm.1 hne r

theorem findLastNotOf_append (hr : ∀ b ∈ r, b ∈ set) (hm : Trimmed set m) (hne : m ≠ [])
    (l : Bytes) : findLastNotOf (l ++ (m ++ r)) set = some (l.length + m.length - 1) := by
  have hreverse : (l ++ (m ++ r)).reverse = r.reverse ++ (m.reverse ++ l.reverse) := by simp
  have hpos := List.length_pos_iff.2 hne
  rw [findLastNotOf, hreverse, findIdx?_append_of_head (by simpa using hr) (by simpa using hm.2)
    (by simpa using hne), Option.map_some, List.length_append, List.length_append,
    List.length_reverse]
  congr 1
  omega

/-- **Every text is a trimmed one with characters of the set around it.** -/
theorem exists_trimmed (set s : Bytes) :
    ∃ l m r, s = l ++ (m ++ r) ∧ (∀ b ∈ l, b ∈ set) ∧ (∀ b ∈ r, b ∈ set) ∧ Trimmed set m := by
  let p (b : UInt8) : Bool := decide (b ∈ set)
  refine ⟨s.takeWhile p, (s.dropWhile p).rdropWhile p, (s.dropWhile p).rtakeWhile p, ?_,
    fun b hb => ?_, fun b hb => ?_, fun b hb => ?_, fun b hb => ?_⟩
  · rw [List.rdropWhile_append_rtakeWhile, List.takeWhile_append_dropWhile]
  · simpa [p] using List.mem_takeWhile_imp hb
  · simpa [p] using List.mem_rtakeWhile_imp hb
  · obtain ⟨t, ht⟩ := List.rdropWhile_prefix p (s.dropWhile p)
    have hhead : (s.dropWhile p).head? = some b := by
      rw [← ht, List.head?_append, hb]
      rfl
    have hnot := List.head?_dropWhile_not p s
    rw [hhead] at hnot
    simpa [p] using hnot
  · have hne : (s.dropWhile p).rdropWhile p ≠ [] := by
      rintro hnil
      rw [hnil] at hb
      cases hb
    have hlast := List.rdropWhile_last_not p (s.dropWhile p) hne
    rw [List.getLast?_eq_getLast_of_ne_nil hne] at hb
    obtain rfl := Option.some.inj hb
    simpa [p] using hlast

end Bytes
