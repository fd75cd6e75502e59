import Mathlib.Data.Finmap

/-!
# Foundations/Table — hash tables as finite maps

A hash table that is never iterated is a finite map, and `Finmap` has the lookups, insertions and
erasures.  What it lacks is the *subscript* of the C++ containers, which inserts a default value
under an absent key even when it is only read (`touch`), and the removal of every binding failing a
test (`filter`).  Every operation gets the one lemma that reads it back, as a `simp` rule.
-/

/-- A finite map from keys to values. -/
abbrev Table (κ α : Type*) := Finmap fun _ : κ => α

namespace Table

variable {κ α : Type*} [DecidableEq κ]

@[simp] theorem lookup_insert_eq_ite (m : Table κ α) (k k' : κ) (v : α) :
    Finmap.lookup k (Finmap.insert k' v m) = if k = k' then some v else Finmap.lookup k m := by
  split_ifs with h
  · rw [h, Finmap.lookup_insert]
  · rw [Finmap.lookup_insert_of_ne m h]

@[simp] theorem lookup_erase_eq_ite (m : Table κ α) (k k' : κ) :
    Finmap.lookup k (Finmap.erase k' m) = if k = k' then none else Finmap.lookup k m := by
  split_ifs with h
  · rw [h, Finmap.lookup_erase]
  · rw [Finmap.lookup_erase_ne h]

theorem lookup_foldl_erase (l : List κ) (m : Table κ α) (k : κ) :
    Finmap.lookup k (l.foldl (fun t k' => Finmap.erase k' t) m)
      = if k ∈ l then none else Finmap.lookup k m := by
  induction l generalizing m with
  | nil => rfl
  | cons k' l ih =>
    rw [List.foldl_cons, ih, lookup_erase_eq_ite]
    by_cases hl : k ∈ l <;> by_cases hk : k = k' <;> simp [hl, hk]

theorem erase_of_notMem {m : Table κ α} {k : κ} (h : k ∉ m) : Finmap.erase k m = m :=
  Finmap.ext_lookup fun k' => by
    rw [lookup_erase_eq_ite]
    split_ifs with hk
    exacts [hk ▸ (Finmap.lookup_eq_none.2 h).symm, rfl]

theorem insert_erase (m : Table κ α) (k : κ) (v : α) :
    Finmap.insert k v (Finmap.erase k m) = Finmap.insert k v m :=
  Finmap.ext_lookup fun k' => by
    rw [lookup_insert_eq_ite, lookup_insert_eq_ite, lookup_erase_eq_ite]
    split_ifs <;> rfl

/-! ## What is read of a value -/

section Read

variable {β : Type*} (m : Table κ α) (f : α → β) (P : α → Prop) (k k' : κ)

theorem map_lookup_erase :
    (Finmap.lookup k (Finmap.erase k' m)).map f = if k = k' then none else (m.lookup k).map f := by
  rw [lookup_erase_eq_ite]
  split_ifs <;> rfl

theorem map_lookup_insert (v : α) :
    (Finmap.lookup k (Finmap.insert k' v m)).map f
      = if k = k' then some (f v) else (m.lookup k).map f := by
  rw [lookup_insert_eq_ite]
  split_ifs <;> rfl

variable {m f} in
/-- A table read off another stays so when both lose a key. -/
theorem lookup_erase_of_map {t : Table κ β} (h : ∀ k, t.lookup k = (m.lookup k).map f) :
    Finmap.lookup k (Finmap.erase k' t) = (Finmap.lookup k (Finmap.erase k' m)).map f := by
  rw [lookup_erase_eq_ite, h, map_lookup_erase]

variable {m f} in
/-- It stays so when both get a key. -/
theorem lookup_insert_of_map {t : Table κ β} (h : ∀ k, t.lookup k = (m.lookup k).map f) (v : α) :
    Finmap.lookup k (Finmap.insert k' (f v) t)
      = (Finmap.lookup k (Finmap.insert k' v m)).map f := by
  rw [lookup_insert_eq_ite, h, map_lookup_insert]

theorem exists_lookup_erase :
    (∃ v ∈ Finmap.lookup k (Finmap.erase k' m), P v) ↔ (∃ v ∈ m.lookup k, P v) ∧ k ≠ k' := by
  rw [lookup_erase_eq_ite]
  split_ifs with hk <;> simp [hk]

theorem exists_lookup_insert {k' : κ} (hnew : k' ∉ m) (v : α) :
    (∃ v' ∈ Finmap.lookup k (Finmap.insert k' v m), P v')
      ↔ (∃ v' ∈ m.lookup k, P v') ∨ k = k' ∧ P v := by
  rw [lookup_insert_eq_ite]
  split_ifs with hk
  · subst hk
    simp [Finmap.lookup_eq_none.2 hnew]
  · simp [hk]

end Read

/-! ## The subscript -/

section Subscript

variable [Inhabited α]

/-- The value a subscript yields: the one bound, or the default it has just bound. -/
def subscript (m : Table κ α) (k : κ) : α := (m.lookup k).getD default

/-- What reading a subscript leaves behind: the key is bound, to the default if it was not. -/
def touch (m : Table κ α) (k : κ) : Table κ α := if k ∈ m then m else m.insert k default

/-- Updating through a subscript, in place. -/
def modify (m : Table κ α) (k : κ) (f : α → α) : Table κ α := m.insert k (f (m.subscript k))

@[simp] theorem lookup_touch (m : Table κ α) (k k' : κ) :
    (m.touch k').lookup k = if k = k' then some (m.subscript k') else m.lookup k := by
  rw [touch, subscript]
  by_cases hk : k' ∈ m
  · obtain ⟨v, hv⟩ := Finmap.mem_iff.1 hk
    rw [if_pos hk, hv]
    split_ifs with h
    exacts [h ▸ hv, rfl]
  · rw [if_neg hk, lookup_insert_eq_ite, Finmap.lookup_eq_none.2 hk]
    rfl

@[simp] theorem subscript_touch (m : Table κ α) (k k' : κ) :
    (m.touch k').subscript k = m.subscript k := by
  rw [subscript, lookup_touch]
  split_ifs with h
  exacts [h ▸ rfl, rfl]

@[simp] theorem lookup_modify (m : Table κ α) (k k' : κ) (f : α → α) :
    (m.modify k' f).lookup k = if k = k' then some (f (m.subscript k')) else m.lookup k :=
  lookup_insert_eq_ite m k k' _

@[simp] theorem subscript_modify (m : Table κ α) (k k' : κ) (f : α → α) :
    (m.modify k' f).subscript k = if k = k' then f (m.subscript k') else m.subscript k := by
  rw [subscript, lookup_modify]
  split_ifs <;> rfl

theorem subscript_of_lookup {m : Table κ α} {k : κ} {v : α} (h : m.lookup k = some v) :
    m.subscript k = v := by rw [subscript, h]; rfl

theorem lookup_of_mem {m : Table κ α} {k : κ} (h : k ∈ m) : m.lookup k = some (m.subscript k) := by
  obtain ⟨v, hv⟩ := Finmap.mem_iff.1 h
  rw [subscript_of_lookup hv, hv]

/-- What a subscript inserted is gone once its key is erased. -/
@[simp] theorem erase_touch (m : Table κ α) (k : κ) : (m.touch k).erase k = m.erase k :=
  Finmap.ext_lookup fun k' => by
    rw [lookup_erase_eq_ite, lookup_erase_eq_ite, lookup_touch]
    split_ifs <;> rfl

/-! ## A loop of updates through subscripts

Only the iterations under a key reach its value, in the order of the loop. -/

theorem subscript_foldl_modify {β : Type*} (key : β → κ) (g : β → α → α) (l : List β)
    (m : Table κ α) (k : κ) :
    (l.foldl (fun t x => t.modify (key x) (g x)) m).subscript k
      = (l.filter fun x => key x = k).foldl (fun v x => g x v) (m.subscript k) := by
  induction l generalizing m with
  | nil => rfl
  | cons x l ih =>
    rw [List.foldl_cons, ih, subscript_modify]
    by_cases h : key x = k
    · rw [if_pos h.symm, List.filter_cons_of_pos (by simpa using h), List.foldl_cons, h]
    · rw [if_neg (Ne.symm h), List.filter_cons_of_neg (by simpa using h)]

theorem mem_modify (m : Table κ α) (k k' : κ) (f : α → α) :
    k ∈ m.modify k' f ↔ k = k' ∨ k ∈ m := Finmap.mem_insert

theorem mem_foldl_modify {β : Type*} (key : β → κ) (g : β → α → α) (l : List β)
    (m : Table κ α) (k : κ) :
    k ∈ l.foldl (fun t x => t.modify (key x) (g x)) m ↔ k ∈ m ∨ ∃ x ∈ l, key x = k := by
  induction l generalizing m with
  | nil => simp
  | cons x l ih =>
    rw [List.foldl_cons, ih, mem_modify, List.exists_mem_cons_iff, eq_comm (a := k)]
    tauto

end Subscript

/-! ## Restriction -/

/-- The bindings passing a test. -/
def filter (p : κ → α → Prop) [∀ k v, Decidable (p k v)] (m : Table κ α) : Table κ α where
  entries := m.entries.filter fun e => p e.1 e.2
  nodupKeys := Multiset.nodup_keys.1
    (Multiset.nodup_of_le (Multiset.map_le_map (Multiset.filter_le _ _)) m.nodupKeys.nodup_keys)

theorem lookup_filter (p : κ → α → Prop) [∀ k v, Decidable (p k v)] (m : Table κ α) (k : κ) :
    (m.filter p).lookup k = (m.lookup k).filter fun v => p k v :=
  Option.ext fun v => by
    rw [← Option.mem_def, Finmap.mem_lookup_iff, Option.filter_eq_some_iff,
      Finmap.lookup_eq_some_iff]
    simp [filter]

theorem lookup_filter_eq_some {p : κ → α → Prop} [∀ k v, Decidable (p k v)] {m : Table κ α}
    {k : κ} {v : α} : (m.filter p).lookup k = some v ↔ m.lookup k = some v ∧ p k v := by
  rw [lookup_filter, Option.filter_eq_some_iff, decide_eq_true_iff]

/-! ## Tables that grow -/

/-- What is in the one table is in the other, unchanged. -/
def Extends (t t' : Table κ α) : Prop := ∀ k v, t.lookup k = some v → t'.lookup k = some v

theorem Extends.refl (t : Table κ α) : Extends t t := fun _ _ h => h

theorem Extends.trans {t t' t'' : Table κ α} (h : Extends t t') (h' : Extends t' t'') :
    Extends t t'' := fun k v hk => h' k v (h k v hk)

/-- A change at a key that was free extends the table. -/
theorem extends_of_forall_ne {t t' : Table κ α} {k : κ} (hk : k ∉ t)
    (h : ∀ j, j ≠ k → t'.lookup j = t.lookup j) : Extends t t' := fun j v hj => by
  have hne : j ≠ k := by
    rintro rfl
    exact hk (Finmap.mem_of_lookup_eq_some hj)
  rwa [h j hne]

end Table
