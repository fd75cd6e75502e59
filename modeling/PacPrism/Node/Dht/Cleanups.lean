import PacPrism.Node.Dht.IpIndex

/-!
# Node/Dht/Cleanups — cleanups compose

    elems  ──takeWhile (≤ t)──▸ removed now
           ──dropWhile (≤ t)──▸ left for the next cleanup

The pairs a cleanup leaves are those its scan did not reach (`expiries_cleanByExpiryTime`), so the
ids that two cleanups collect one after the other are, in order, those the later clock collects.
The nine tables are then the same fold of the same removals.
-/

namespace PacPrism

open DhtOperation (Call)

namespace Refines

variable {m : Registry} {d : DhtOperation}

/-- **What a cleanup leaves of the ordered pairs** is what its scan did not reach. -/
theorem expiries_cleanByExpiryTime (h : Refines m d) (nowSec : Int) :
    (d.cleanByExpiryTime nowSec).expiryTimestampToNodeIdEntries.elems
      = d.expiryTimestampToNodeIdEntries.elems.dropWhile fun p => p.1.toInt ≤ nowSec := by
  let rest : OrdSet (Int64 × Bytes) toLex :=
    ⟨d.expiryTimestampToNodeIdEntries.elems.filter fun p => !decide (p.1.toInt ≤ nowSec),
      d.expiryTimestampToNodeIdEntries.sorted.filter _⟩
  have hrest : (d.cleanByExpiryTime nowSec).expiryTimestampToNodeIdEntries = rest := by
    ext ⟨t, n⟩
    rw [(h.cleanByExpiryTime nowSec).expiries, OrdSet.mem_def, List.mem_filter, ← OrdSet.mem_def,
      h.expiries]
    simp only [Option.map_eq_some_iff, Register.lookup_clean, Bool.not_eq_true',
      decide_eq_false_iff_not]
    constructor
    · rintro ⟨e, ⟨he, hexp⟩, rfl⟩
      exact ⟨⟨e, he, rfl⟩, hexp⟩
    · rintro ⟨⟨e, he, rfl⟩, hexp⟩
      exact ⟨e, ⟨he, hexp⟩, rfl⟩
  rw [hrest, OrdSet.dropWhile_elems _ _ (DhtOperation.expired_of_toLex_lt nowSec)]

/-- The ids two cleanups collect one after the other are those the later clock collects. -/
theorem entriesToRemove_append (h : Refines m d) {t₁ t₂ : Int} (hle : t₁ ≤ t₂) :
    d.entriesToRemove t₁ ++ (d.cleanByExpiryTime t₁).entriesToRemove t₂ = d.entriesToRemove t₂ := by
  rw [DhtOperation.entriesToRemove, DhtOperation.entriesToRemove, h.expiries_cleanByExpiryTime,
    ← List.map_append, OrdSet.takeWhile_append_takeWhile_dropWhile]
  · rfl
  · intro p hp
    rw [decide_eq_true_iff] at hp ⊢
    exact hp.trans hle

/-- A cleanup at an earlier clock finds nothing left to remove. -/
theorem entriesToRemove_cleanByExpiryTime (h : Refines m d) {t₁ t₂ : Int} (hle : t₂ ≤ t₁) :
    (d.cleanByExpiryTime t₁).entriesToRemove t₂ = [] := by
  rw [List.eq_nil_iff_forall_not_mem]
  intro n hn
  obtain ⟨e, he, hexp⟩ := ((h.cleanByExpiryTime t₁).mem_entriesToRemove t₂ n).1 hn
  exact (Register.lookup_clean.1 he).2 (hexp.trans hle)

/-- **Two cleanups are one**, at the later of their clocks. -/
theorem cleanByExpiryTime_cleanByExpiryTime (h : Refines m d) (t₁ t₂ : Int) :
    (d.cleanByExpiryTime t₁).cleanByExpiryTime t₂ = d.cleanByExpiryTime (max t₁ t₂) := by
  rcases le_total t₁ t₂ with hle | hle
  · rw [max_eq_right hle]
    calc (d.cleanByExpiryTime t₁).cleanByExpiryTime t₂
      _ = (d.entriesToRemove t₁ ++ (d.cleanByExpiryTime t₁).entriesToRemove t₂).foldl
            DhtOperation.removeEntry d := List.foldl_append.symm
      _ = d.cleanByExpiryTime t₂ := by rw [h.entriesToRemove_append hle]; rfl
  · rw [max_eq_left hle, DhtOperation.cleanByExpiryTime, h.entriesToRemove_cleanByExpiryTime hle,
      List.foldl_nil]

end Refines

/-- **Cleanups compose in every reachable state**, all nine tables exactly. -/
theorem cleanByExpiryTime_run (calls : List Call) (t₁ t₂ : Int) :
    ((DhtOperation.run calls).cleanByExpiryTime t₁).cleanByExpiryTime t₂
      = (DhtOperation.run calls).cleanByExpiryTime (max t₁ t₂) :=
  (Refines.run calls).cleanByExpiryTime_cleanByExpiryTime t₁ t₂

end PacPrism
