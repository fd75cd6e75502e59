import PacPrism.Foundations.Runs
import PacPrism.Foundations.Table

/-!
# Foundations/Register — maps whose keys keep their newest entry

The specification of a store with timestamps: a finite map in which an entry replaces the one under
its key exactly when it is strictly newer, and from which the entries failing a test are dropped.

`lookup_run_store` reads a run of stores off the list of entries stored, so that their order does
not matter (`run_store_eq_of_perm`).
-/

namespace Register

variable {κ ε τ : Type*} [DecidableEq κ] [LinearOrder τ] (key : ε → κ) (stamp : ε → τ)

/-- `e` is stored: its key is free, or bound to a strictly older entry. -/
def Accepts (m : Table κ ε) (e : ε) : Prop := ∀ old ∈ m.lookup (key e), stamp old < stamp e

instance (m : Table κ ε) (e : ε) : Decidable (Accepts key stamp m e) :=
  inferInstanceAs (Decidable (∀ old ∈ m.lookup (key e), _))

/-- Bind `key e` to `e` unless the entry bound there is as new. -/
def store (m : Table κ ε) (e : ε) : Table κ ε :=
  if Accepts key stamp m e then m.insert (key e) e else m

/-- Drop the entries satisfying a test. -/
def clean (gone : ε → Prop) [DecidablePred gone] (m : Table κ ε) : Table κ ε :=
  Table.filter (fun _ e => ¬ gone e) m

/-- The entry, if it is newer than what is there. -/
def newer (bound : Option ε) (e : ε) : Option ε :=
  if ∀ old ∈ bound, stamp old < stamp e then some e else bound

/-- Every entry is bound under its own key. -/
def WellKeyed (m : Table κ ε) : Prop := ∀ k e, m.lookup k = some e → key e = k

variable {key stamp}

theorem newer_comm (bound : Option ε) {a b : ε} (h : stamp a = stamp b → a = b) :
    newer stamp (newer stamp bound a) b = newer stamp (newer stamp bound b) a := by
  simp only [newer]
  rcases lt_trichotomy (stamp a) (stamp b) with hlt | heq | hlt
  · cases bound with
    | none => simp [hlt, hlt.not_gt]
    | some old => grind
  · rw [h heq]
  · cases bound with
    | none => simp [hlt, hlt.not_gt]
    | some old => grind

theorem lookup_clean {gone : ε → Prop} [DecidablePred gone] {m : Table κ ε} {k : κ} {e : ε} :
    (clean gone m).lookup k = some e ↔ m.lookup k = some e ∧ ¬ gone e :=
  Table.lookup_filter_eq_some

theorem wellKeyed_empty : WellKeyed key (∅ : Table κ ε) := fun _ _ h => by simp at h

theorem WellKeyed.insert {m : Table κ ε} (hm : WellKeyed key m) (e : ε) :
    WellKeyed key (m.insert (key e) e) := by
  intro k e' h
  rw [Table.lookup_insert_eq_ite] at h
  split_ifs at h with hk
  · rw [← Option.some.inj h, hk]
  · exact hm k e' h

theorem WellKeyed.erase {m : Table κ ε} (hm : WellKeyed key m) (k : κ) :
    WellKeyed key (Finmap.erase k m) := by
  intro k' e h
  rw [Table.lookup_erase_eq_ite] at h
  split_ifs at h
  exact hm k' e h

theorem WellKeyed.clean {gone : ε → Prop} [DecidablePred gone] {m : Table κ ε}
    (hm : WellKeyed key m) : WellKeyed key (clean gone m) :=
  fun k e h => hm k e (lookup_clean.1 h).1

/-! ## Runs of stores

After a run of stores every entry is *covered*, by itself or by a newer one under its key, and
nothing is bound that was not stored.  The two facts determine the map. -/

section Stores

variable (key stamp)

/-- The key of `e` is bound to an entry at least as new. -/
def Covers (m : Table κ ε) (e : ε) : Prop := ∃ e' ∈ m.lookup (key e), stamp e ≤ stamp e'

/-- `e` is the newest of the entries under the key `k`. -/
def Newest (l : List ε) (k : κ) (e : ε) : Prop :=
  e ∈ l ∧ key e = k ∧ ∀ e' ∈ l, key e' = k → stamp e' ≤ stamp e

/-- Entries under one key are told apart by their stamps. -/
def Separated (l : List ε) : Prop :=
  ∀ a ∈ l, ∀ b ∈ l, key a = key b → stamp a = stamp b → a = b

variable {key stamp}

theorem WellKeyed.store {m : Table κ ε} (hm : WellKeyed key m) (e : ε) :
    WellKeyed key (store key stamp m e) := by
  rw [Register.store]
  split_ifs
  exacts [hm.insert e, hm]

/-- What is bound after a store is the entry stored, or was bound before. -/
theorem eq_or_lookup_of_lookup_store {m : Table κ ε} {e e' : ε} {k : κ}
    (h : (store key stamp m e).lookup k = some e') : e' = e ∨ m.lookup k = some e' := by
  rw [store] at h
  split_ifs at h
  · rw [Table.lookup_insert_eq_ite] at h
    split_ifs at h
    exacts [.inl (Option.some.inj h).symm, .inr h]
  · exact .inr h

/-- A store covers the entry stored. -/
theorem covers_store_self (m : Table κ ε) (e : ε) : Covers key stamp (store key stamp m e) e := by
  rw [store]
  split_ifs with hacc
  · exact ⟨e, Finmap.lookup_insert m, le_rfl⟩
  · simp only [Accepts, not_forall, not_lt] at hacc
    obtain ⟨old, hold, hle⟩ := hacc
    exact ⟨old, hold, hle⟩

theorem lookup_store_of_ne {m : Table κ ε} {e : ε} {k : κ} (hk : k ≠ key e) :
    (store key stamp m e).lookup k = m.lookup k := by
  rw [store]
  split_ifs
  · exact Finmap.lookup_insert_of_ne m hk
  · rfl

theorem lookup_store_self {m : Table κ ε} {e : ε} {k : κ} (hk : key e = k) :
    (store key stamp m e).lookup k = newer stamp (m.lookup k) e := by
  subst hk
  rw [store, newer]
  split_ifs with hacc hlt hlt
  exacts [Finmap.lookup_insert m, absurd hacc hlt, absurd hlt hacc, rfl]

/-- What is found after a store is the entry stored, or was found before and is as new. -/
theorem eq_or_le_of_lookup_store {m : Table κ ε} {a e : ε}
    (h : (store key stamp m a).lookup (key e) = some e) :
    a = e ∨ m.lookup (key e) = some e ∧ (key a = key e → stamp a ≤ stamp e) := by
  by_cases hkey : key a = key e
  · rw [lookup_store_self hkey, newer] at h
    split_ifs at h with hnewer
    · exact .inl (Option.some.inj h)
    · refine .inr ⟨h, fun _ => ?_⟩
      by_contra hlt
      exact hnewer fun old hold => by
        rw [h] at hold
        obtain rfl := Option.some.inj hold
        exact not_le.1 hlt
  · rw [lookup_store_of_ne (Ne.symm hkey)] at h
    exact .inr ⟨h, fun hyes => absurd hyes hkey⟩

/-- An entry is found after its store if it is newer than what was found before. -/
theorem lookup_store_self_of_newer {m : Table κ ε} {e : ε}
    (h : ∀ old ∈ m.lookup (key e), old = e ∨ stamp old < stamp e) :
    (store key stamp m e).lookup (key e) = some e := by
  rw [lookup_store_self rfl, newer]
  split_ifs with hnewer
  · rfl
  · simp only [not_forall] at hnewer
    obtain ⟨old, hold, hle⟩ := hnewer
    obtain rfl := (h old hold).resolve_right hle
    exact hold

/-- It is still found after the store of another that is older. -/
theorem lookup_store_of_newer {m : Table κ ε} {a e : ε} (h : m.lookup (key e) = some e)
    (ha : key a = key e → a = e ∨ stamp a < stamp e) :
    (store key stamp m a).lookup (key e) = some e := by
  by_cases hkey : key a = key e
  · rw [lookup_store_self hkey, newer]
    split_ifs with hnewer
    · obtain rfl := (ha hkey).resolve_right (hnewer e h).not_gt
      rfl
    · exact h
  · rwa [lookup_store_of_ne (Ne.symm hkey)]

/-- A store keeps the keys bound. -/
theorem mem_store {m : Table κ ε} (e : ε) {k : κ} (h : k ∈ m) : k ∈ store key stamp m e := by
  rw [store]
  split_ifs
  · exact Finmap.mem_insert.2 (.inr h)
  · exact h

theorem mem_store_self (m : Table κ ε) (e : ε) : key e ∈ store key stamp m e := by
  have hcovers : Covers key stamp (store key stamp m e) e := covers_store_self m e
  obtain ⟨e', he', -⟩ := hcovers
  exact Finmap.mem_of_lookup_eq_some he'

/-- A store keeps covered what was covered. -/
theorem Covers.store {m : Table κ ε} {a : ε} (h : Covers key stamp m a) (e : ε) :
    Covers key stamp (store key stamp m e) a := by
  obtain ⟨b, hb, hle⟩ := h
  rw [Register.store]
  split_ifs with hacc
  · by_cases hkey : key a = key e
    · exact ⟨e, by rw [hkey]; exact Finmap.lookup_insert m, hle.trans (hacc b (hkey ▸ hb)).le⟩
    · exact ⟨b, by rwa [Finmap.lookup_insert_of_ne m hkey], hle⟩
  · exact ⟨b, hb, hle⟩

theorem wellKeyed_run_store (l : List ε) : WellKeyed key (Runs.run (store key stamp) ∅ l) :=
  Runs.invariant_run _ (fun _ e hm => hm.store e) wellKeyed_empty l

theorem mem_of_lookup_run_store {l : List ε} {k : κ} {e : ε}
    (h : (Runs.run (store key stamp) ∅ l).lookup k = some e) : e ∈ l := by
  induction l using List.reverseRecOn with
  | nil => simp at h
  | append_singleton l a ih =>
    rw [Runs.run_append, Runs.run_cons, Runs.run_nil] at h
    rcases eq_or_lookup_of_lookup_store h with rfl | h
    exacts [List.mem_concat_self, List.mem_append_left _ (ih h)]

theorem covers_run_store {l : List ε} {e : ε} (he : e ∈ l) :
    Covers key stamp (Runs.run (store key stamp) ∅ l) e := by
  induction l using List.reverseRecOn with
  | nil => simp at he
  | append_singleton l a ih =>
    rw [Runs.run_append, Runs.run_cons, Runs.run_nil]
    rcases List.mem_append.1 he with he | he
    · exact (ih he).store a
    · rw [List.mem_singleton.1 he]
      exact covers_store_self _ a

/-- The keys bound are those of the entries stored. -/
theorem mem_run_store {l : List ε} {k : κ} :
    k ∈ Runs.run (store key stamp) ∅ l ↔ ∃ e ∈ l, key e = k := by
  rw [Finmap.mem_iff]
  constructor
  · rintro ⟨e, he⟩
    exact ⟨e, mem_of_lookup_run_store he, wellKeyed_run_store l k e he⟩
  · rintro ⟨e, he, rfl⟩
    obtain ⟨b, hb, -⟩ : Covers key stamp (Runs.run (store key stamp) ∅ l) e := covers_run_store he
    exact ⟨b, hb⟩

/-- **A run of stores binds every key to its newest entry.** -/
theorem lookup_run_store {l : List ε} (hl : Separated key stamp l) (k : κ) (e : ε) :
    (Runs.run (store key stamp) ∅ l).lookup k = some e ↔ Newest key stamp l k e := by
  constructor
  · intro h
    refine ⟨mem_of_lookup_run_store h, wellKeyed_run_store l k e h, fun a ha hak => ?_⟩
    obtain ⟨b, hb, hle⟩ : Covers key stamp (Runs.run (store key stamp) ∅ l) a := covers_run_store ha
    rw [hak] at hb
    obtain rfl : e = b := Option.some.inj (h.symm.trans hb)
    exact hle
  · rintro ⟨he, rfl, hmax⟩
    obtain ⟨b, hb, hle⟩ : Covers key stamp (Runs.run (store key stamp) ∅ l) e := covers_run_store he
    have hbl : b ∈ l := mem_of_lookup_run_store hb
    have hkey : key b = key e := wellKeyed_run_store l _ b hb
    obtain rfl : e = b := hl e he b hbl hkey.symm (le_antisymm hle (hmax b hbl hkey))
    exact hb

/-- **The order of a run of stores does not matter.** -/
theorem run_store_eq_of_perm {l l' : List ε} (hl : Separated key stamp l) (h : l.Perm l') :
    Runs.run (store key stamp) ∅ l = Runs.run (store key stamp) ∅ l' := by
  have hl' : Separated key stamp l' := fun a ha b hb =>
    hl a (h.mem_iff.2 ha) b (h.mem_iff.2 hb)
  refine Finmap.ext_lookup fun k => Option.ext fun e => ?_
  rw [lookup_run_store hl, lookup_run_store hl', Newest, Newest, h.mem_iff]
  simp only [h.mem_iff]

/-- **Nor do repetitions**: runs that store the same entries lead to the same map. -/
theorem run_store_eq_of_mem_iff {l l' : List ε} (hl : Separated key stamp l)
    (h : ∀ e, e ∈ l ↔ e ∈ l') :
    Runs.run (store key stamp) ∅ l = Runs.run (store key stamp) ∅ l' := by
  have hl' : Separated key stamp l' := fun a ha b hb => hl a ((h a).2 ha) b ((h b).2 hb)
  refine Finmap.ext_lookup fun k => Option.ext fun e => ?_
  rw [lookup_run_store hl, lookup_run_store hl', Newest, Newest, h]
  simp only [h]

/-- **Two stores commute**, unless they are different entries with one key and one stamp. -/
theorem store_comm {m : Table κ ε} {a b : ε} (h : key a = key b → stamp a = stamp b → a = b) :
    Register.store key stamp (Register.store key stamp m a) b
      = Register.store key stamp (Register.store key stamp m b) a := by
  refine Finmap.ext_lookup fun k => ?_
  by_cases ha : key a = k <;> by_cases hb : key b = k
  · rw [lookup_store_self hb, lookup_store_self ha, lookup_store_self ha, lookup_store_self hb]
    exact newer_comm _ (h (ha.trans hb.symm))
  · rw [lookup_store_of_ne (Ne.symm hb), lookup_store_self ha, lookup_store_self ha,
      lookup_store_of_ne (Ne.symm hb)]
  · rw [lookup_store_self hb, lookup_store_of_ne (Ne.symm ha), lookup_store_of_ne (Ne.symm ha),
      lookup_store_self hb]
  · rw [lookup_store_of_ne (Ne.symm hb), lookup_store_of_ne (Ne.symm ha),
      lookup_store_of_ne (Ne.symm ha), lookup_store_of_ne (Ne.symm hb)]

end Stores

/-! ## Stores and cleanups -/

section Cleanups

variable {gone : ε → Prop} [DecidablePred gone]

/-- What is stored and survives the cleanup is accepted behind it as before it. -/
theorem accepts_clean_iff {m : Table κ ε} {e : ε}
    (h : key e ∈ clean gone (store key stamp m e)) :
    Accepts key stamp (clean gone m) e ↔ Accepts key stamp m e := by
  refine ⟨fun hacc => ?_, fun hacc old hold => hacc old (lookup_clean.1 hold).1⟩
  by_contra hnot
  -- Then the store has left the entry there was, and that has survived.
  rw [store, if_neg hnot] at h
  obtain ⟨old, hold⟩ := Finmap.mem_iff.1 h
  refine hnot fun old' hold' => ?_
  obtain rfl := Option.some.inj ((lookup_clean.1 hold).1.symm.trans hold')
  exact hacc _ hold

/-- **A store and a cleanup commute exactly if the key survives the cleanup.**  Otherwise the
cleanup takes away what would have held the entry off, or the entry itself. -/
theorem clean_store_eq_iff {m : Table κ ε} {e : ε} :
    clean gone (store key stamp m e) = store key stamp (clean gone m) e
      ↔ key e ∈ clean gone (store key stamp m e) := by
  constructor
  · intro h
    rw [h]
    exact mem_store_self (clean gone m) e
  · intro h
    obtain ⟨winner, hwinner⟩ := Finmap.mem_iff.1 h
    obtain ⟨hstored, hlasts⟩ := lookup_clean.1 hwinner
    have hkey : (store key stamp (clean gone m) e).lookup (key e) = some winner := by
      rw [store] at hstored ⊢
      simp only [accepts_clean_iff h]
      split_ifs at hstored ⊢
      · rw [← hstored, Finmap.lookup_insert, Finmap.lookup_insert]
      · exact lookup_clean.2 ⟨hstored, hlasts⟩
    refine Finmap.ext_lookup fun k => ?_
    by_cases hk : k = key e
    · rw [hk, hwinner, hkey]
    · refine Option.ext fun e' => ?_
      rw [lookup_clean, lookup_store_of_ne hk, lookup_store_of_ne hk, lookup_clean]

end Cleanups

end Register
