import Mathlib.Data.List.Lex
import Mathlib.Data.List.Sort
import Mathlib.Data.Prod.Lex

/-!
# Foundations/OrdSet — ordered sets compared through a key

An `OrdSet α key` is a strictly `key`-sorted list: the ordered set whose comparison looks only at
`key`.  Two elements with one key are equivalent, and inserting keeps the one already there.  The
sortedness is a field, so a set *is* its members (`OrdSet.ext`) and an iteration that stops at the
first element failing a test has visited exactly the elements passing it (`takeWhile_elems`).
-/

/-! ## Orders on machine words -/

/-- Bytes, ordered as unsigned numbers. -/
instance instLinearOrderUInt8 : LinearOrder UInt8 where
  le_refl := UInt8.le_refl
  le_trans _ _ _ := UInt8.le_trans
  le_antisymm _ _ := UInt8.le_antisymm
  le_total := UInt8.le_total
  lt_iff_le_not_ge a b := by rw [UInt8.not_le]; exact ⟨fun h => ⟨UInt8.le_of_lt h, h⟩, And.right⟩
  toDecidableLE := inferInstance

/-- Signed 64-bit words, in two's complement order. -/
instance instLinearOrderInt64 : LinearOrder Int64 where
  le_refl := Int64.le_refl
  le_trans _ _ _ := Int64.le_trans
  le_antisymm _ _ := Int64.le_antisymm
  le_total := Int64.le_total
  lt_iff_le_not_ge a b := by rw [Int64.not_le]; exact ⟨fun h => ⟨Int64.le_of_lt h, h⟩, And.right⟩
  toDecidableLE := inferInstance

/-! ## Sets as sorted lists -/

/-- The set of elements compared through `key`: a strictly increasing list. -/
structure OrdSet (α : Type*) {κ : Type*} [LinearOrder κ] (key : α → κ) where
  /-- The elements, in iteration order. -/
  elems : List α
  /-- No two elements are equivalent, and iteration is increasing. -/
  sorted : elems.Pairwise fun a b => key a < key b

namespace OrdSet

variable {α κ : Type*} [LinearOrder κ] {key : α → κ}

instance : Membership α (OrdSet α key) := ⟨fun s a => a ∈ s.elems⟩

instance : EmptyCollection (OrdSet α key) := ⟨⟨[], List.Pairwise.nil⟩⟩

instance : Inhabited (OrdSet α key) := ⟨∅⟩

instance [DecidableEq α] : DecidableEq (OrdSet α key) := fun s t =>
  decidable_of_iff (s.elems = t.elems) (by cases s; cases t; simp)

instance [DecidableEq α] (a : α) (s : OrdSet α key) : Decidable (a ∈ s) :=
  inferInstanceAs (Decidable (a ∈ s.elems))

theorem mem_def {a : α} {s : OrdSet α key} : a ∈ s ↔ a ∈ s.elems := Iff.rfl

@[simp] theorem notMem_empty (a : α) : a ∉ (∅ : OrdSet α key) := List.not_mem_nil

/-- **A set is its members.** -/
@[ext] theorem ext {s t : OrdSet α key} (h : ∀ a, a ∈ s ↔ a ∈ t) : s = t := by
  obtain ⟨l, hl⟩ := s
  obtain ⟨l', hl'⟩ := t
  have hnodup : l.Nodup := hl.imp fun hab => ne_of_apply_ne key hab.ne
  have hnodup' : l'.Nodup := hl'.imp fun hab => ne_of_apply_ne key hab.ne
  have hperm : l.Perm l' := (List.perm_ext_iff_of_nodup hnodup hnodup').2 h
  obtain rfl : l = l' := hperm.eq_of_pairwise (fun _ _ _ _ h₁ h₂ => absurd h₁ h₂.asymm) hl hl'
  rfl

/-! ## Insertion -/

/-- Insert `x` before the first element above it, unless an equivalent element is met first. -/
def insertInto (key : α → κ) (x : α) : List α → List α
  | [] => [x]
  | y :: ys =>
    if key x < key y then x :: y :: ys
    else if key y < key x then y :: insertInto key x ys
    else y :: ys

/-- `x` enters unless an element equivalent to it is already there. -/
theorem mem_insertInto {x : α} {l : List α} (hl : l.Pairwise fun a b => key a < key b) {a : α} :
    a ∈ insertInto key x l ↔ a ∈ l ∨ a = x ∧ ∀ b ∈ l, key b ≠ key x := by
  induction l with
  | nil => simp [insertInto]
  | cons y ys ih =>
    obtain ⟨hy, hys⟩ := List.pairwise_cons.1 hl
    rw [insertInto]
    split_ifs with hxy hyx
    · have hfresh : ∀ b ∈ y :: ys, key b ≠ key x := by
        rintro b (_ | ⟨_, hb⟩)
        · exact hxy.ne'
        · exact (hxy.trans (hy b hb)).ne'
      simp only [List.mem_cons (a := a) (b := x)]
      exact ⟨fun h => h.elim (fun h => .inr ⟨h, hfresh⟩) .inl,
        fun h => h.elim .inr fun h => .inl h.1⟩
    · rw [List.mem_cons, ih hys, List.mem_cons, or_assoc]
      simp only [List.forall_mem_cons, ne_eq, hyx.ne, not_false_eq_true, true_and]
    · have hkey : key y = key x := le_antisymm (not_lt.1 hxy) (not_lt.1 hyx)
      exact ⟨.inl, fun h => h.elim id fun h => absurd hkey (h.2 y List.mem_cons_self)⟩

theorem sorted_insertInto {x : α} {l : List α} (hl : l.Pairwise fun a b => key a < key b) :
    (insertInto key x l).Pairwise fun a b => key a < key b := by
  induction l with
  | nil => exact List.pairwise_singleton _ _
  | cons y ys ih =>
    obtain ⟨hy, hys⟩ := List.pairwise_cons.1 hl
    rw [insertInto]
    split_ifs with hxy hyx
    · refine List.pairwise_cons.2 ⟨?_, hl⟩
      rintro b (_ | ⟨_, hb⟩)
      · exact hxy
      · exact hxy.trans (hy b hb)
    · refine List.pairwise_cons.2 ⟨fun b hb => ?_, ih hys⟩
      rcases (mem_insertInto hys).1 hb with hb | ⟨rfl, -⟩
      · exact hy b hb
      · exact hyx
    · exact hl

/-- Insert an element, keeping the equivalent one already there if there is one. -/
def insert (x : α) (s : OrdSet α key) : OrdSet α key :=
  ⟨insertInto key x s.elems, sorted_insertInto s.sorted⟩

theorem mem_insert {x a : α} {s : OrdSet α key} :
    a ∈ s.insert x ↔ a ∈ s ∨ a = x ∧ ∀ b ∈ s, key b ≠ key x :=
  mem_insertInto s.sorted

/-- When distinct elements have distinct keys, inserting adds exactly the element. -/
theorem mem_insert_of_injective (hkey : Function.Injective key) {x a : α} {s : OrdSet α key} :
    a ∈ s.insert x ↔ a = x ∨ a ∈ s := by
  rw [mem_insert]
  constructor
  · rintro (h | ⟨h, -⟩)
    exacts [.inr h, .inl h]
  · rintro (rfl | h)
    · by_cases hmem : ∃ b ∈ s, key b = key a
      · obtain ⟨b, hb, hba⟩ := hmem
        exact .inl (hkey hba ▸ hb)
      · exact .inr ⟨rfl, fun b hb hba => hmem ⟨b, hb, hba⟩⟩
    · exact .inl h

@[simp] theorem mem_insert_id [LinearOrder α] {x a : α} {s : OrdSet α (id : α → α)} :
    a ∈ s.insert x ↔ a = x ∨ a ∈ s :=
  mem_insert_of_injective Function.injective_id

@[simp] theorem mem_insert_toLex {β : Type*} [LinearOrder α] [LinearOrder β] {x a : α × β}
    {s : OrdSet (α × β) toLex} : a ∈ s.insert x ↔ a = x ∨ a ∈ s :=
  mem_insert_of_injective toLex.injective

/-! ## Erasure -/

/-- Remove the element of key `k`, if any. -/
def erase (k : κ) (s : OrdSet α key) : OrdSet α key :=
  ⟨s.elems.filter fun a => key a ≠ k, s.sorted.filter _⟩

@[simp] theorem mem_erase {k : κ} {a : α} {s : OrdSet α key} :
    a ∈ s.erase k ↔ a ∈ s ∧ key a ≠ k := by
  simp [mem_def, erase]

/-! ## Iteration -/

theorem mem_foldl_insert [LinearOrder α] {β : Type*} (f : β → α) (l : List β)
    (s : OrdSet α (id : α → α)) (a : α) :
    a ∈ l.foldl (fun v x => v.insert (f x)) s ↔ a ∈ s ∨ ∃ x ∈ l, a = f x := by
  induction l generalizing s with
  | nil => simp
  | cons x l ih =>
    rw [List.foldl_cons, ih, mem_insert_id, List.exists_mem_cons_iff]
    tauto

/-- Elements with different keys all enter. -/
theorem mem_foldl_insert_of_pairwise {l : List α} (hl : l.Pairwise fun a b => key a ≠ key b)
    {s : OrdSet α key} (hs : ∀ b ∈ s, ∀ a ∈ l, key b ≠ key a) (a : α) :
    a ∈ l.foldl (fun v x => v.insert x) s ↔ a ∈ s ∨ a ∈ l := by
  induction l generalizing s with
  | nil => simp
  | cons x l ih =>
    obtain ⟨hx, hl⟩ := List.pairwise_cons.1 hl
    have hfresh : ∀ b ∈ s, key b ≠ key x := fun b hb => hs b hb x List.mem_cons_self
    have hins : ∀ b, b ∈ s.insert x ↔ b ∈ s ∨ b = x := fun b => by
      rw [mem_insert]
      exact or_congr_right (and_iff_left hfresh)
    rw [List.foldl_cons, ih hl, hins, List.mem_cons, or_assoc]
    intro b hb c hc
    rcases (hins b).1 hb with hb | rfl
    exacts [hs b hb c (List.mem_cons_of_mem x hc), hx c hc]

/-- **A set built from elements with different keys** is the elements, in whatever order. -/
theorem mem_foldl_insert_empty {l : List α} (hl : l.Pairwise fun a b => key a ≠ key b) (a : α) :
    a ∈ l.foldl (fun v x => v.insert x) (∅ : OrdSet α key) ↔ a ∈ l := by
  rw [mem_foldl_insert_of_pairwise hl fun b hb => absurd hb (notMem_empty b)]
  exact or_iff_right (notMem_empty a)

theorem foldl_insert_eq_of_perm {l l' : List α} (hl : l.Pairwise fun a b => key a ≠ key b)
    (h : l.Perm l') : l.foldl (fun v x => v.insert x) (∅ : OrdSet α key)
      = l'.foldl (fun v x => v.insert x) ∅ :=
  ext fun a => by
    rw [mem_foldl_insert_empty hl, mem_foldl_insert_empty (h.pairwise hl Ne.symm), h.mem_iff]

/-- A set is rebuilt from its iteration. -/
theorem foldl_insert_elems (s : OrdSet α key) :
    s.elems.foldl (fun v x => v.insert x) (∅ : OrdSet α key) = s :=
  ext fun a => by
    rw [mem_foldl_insert_empty (s.sorted.imp fun h => h.ne)]
    rfl

theorem mem_foldl_erase {β : Type*} (k : κ) (l : List β) (s : OrdSet α key) (a : α) :
    a ∈ l.foldl (fun v _ => v.erase k) s ↔ a ∈ s ∧ (l ≠ [] → key a ≠ k) := by
  induction l generalizing s with
  | nil => simp
  | cons x l ih =>
    rw [List.foldl_cons, ih, mem_erase]
    simp only [ne_eq, reduceCtorEq, not_false_eq_true, forall_const]
    tauto

/-- **A scan that stops at the first failure has found everything**, when the test only ever turns
from true to false along the set. -/
theorem takeWhile_elems (s : OrdSet α key) (p : α → Bool)
    (hp : ∀ a b, key a < key b → p b = true → p a = true) :
    s.elems.takeWhile p = s.elems.filter p := by
  obtain ⟨l, hl⟩ := s
  change l.takeWhile p = l.filter p
  induction l with
  | nil => rfl
  | cons a l ih =>
    obtain ⟨ha, hl⟩ := List.pairwise_cons.1 hl
    by_cases hpa : p a = true
    · rw [List.takeWhile_cons_of_pos hpa, List.filter_cons_of_pos hpa, ih hl]
    · rw [List.takeWhile_cons_of_neg hpa, List.filter_cons_of_neg hpa, eq_comm,
        List.filter_eq_nil_iff]
      exact fun b hb hpb => hpa (hp a b (ha b hb) hpb)

/-- What such a scan leaves is the elements failing the test. -/
theorem dropWhile_elems (s : OrdSet α key) (p : α → Bool)
    (hp : ∀ a b, key a < key b → p b = true → p a = true) :
    s.elems.dropWhile p = s.elems.filter fun a => !p a := by
  obtain ⟨l, hl⟩ := s
  change l.dropWhile p = l.filter fun a => !p a
  induction l with
  | nil => rfl
  | cons a l ih =>
    obtain ⟨ha, hl⟩ := List.pairwise_cons.1 hl
    by_cases hpa : p a = true
    · rw [List.dropWhile_cons_of_pos hpa, List.filter_cons_of_neg (by simp [hpa]), ih hl]
    · rw [List.dropWhile_cons_of_neg hpa, eq_comm, List.filter_eq_self, List.forall_mem_cons]
      exact ⟨by simpa using hpa, fun b hb => by simpa using mt (hp a b (ha b hb)) hpa⟩

/-- A scan, and then a scan of the rest under a weaker test, are one scan under the weaker test. -/
theorem takeWhile_append_takeWhile_dropWhile {p q : α → Bool} (h : ∀ a, p a = true → q a = true)
    (l : List α) : l.takeWhile p ++ (l.dropWhile p).takeWhile q = l.takeWhile q := by
  induction l with
  | nil => rfl
  | cons a l ih =>
    by_cases hpa : p a = true
    · rw [List.takeWhile_cons_of_pos hpa, List.dropWhile_cons_of_pos hpa,
        List.takeWhile_cons_of_pos (h a hpa), List.cons_append, ih]
    · rw [List.takeWhile_cons_of_neg hpa, List.dropWhile_cons_of_neg hpa, List.nil_append]

end OrdSet
