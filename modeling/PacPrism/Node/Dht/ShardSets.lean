import PacPrism.Node.Dht.IpIndex

/-!
# Node/Dht/ShardSets — when the query of a shard is answered with the null pointer

A removal takes a node out of the sets of its shards and leaves the sets, so a shard that has lost
its last holder keeps an empty one: a query of it is answered with a pointer.  No call ever takes a
key out of the shard table, so the null pointer means what it should exactly
as long as no shard loses its last holder; what it says in every state is that no entry that was
ever admitted has carried the shard.
-/

namespace PacPrism

open DhtOperation (Call)

/-- **The null pointer says that nobody holds the shard.** -/
def NullMeansNobody (d : DhtOperation) : Prop :=
  ∀ shardId, d.queryNodeIdsByShardId shardId = none
    ↔ ¬ ∃ n, d.verifyEntry n = true ∧ shardId ∈ d.nodeIdToShardIdsEntries.subscript n

/-- **No shard loses its last holder**: an entry that replaces another carries the shards of the
latter that nobody else holds, and a cleanup leaves one of the holders of each shard. -/
def KeepsHolders (d : DhtOperation) : Call → Prop
  | .storeEntry e => d.Supersedes e → ∀ shardId,
      e.nodeId ∈ d.shardIdToNodeIdsEntries.subscript shardId →
      e.Carries shardId ∨ ∃ n ∈ d.shardIdToNodeIdsEntries.subscript shardId, n ≠ e.nodeId
  | .cleanByExpiryTime nowSec => ∀ shardId, ∀ n ∈ d.shardIdToNodeIdsEntries.subscript shardId,
      ∃ k ∈ d.shardIdToNodeIdsEntries.subscript shardId, ¬ d.Expired nowSec k

/-- The call admits an entry that carries the shard. -/
def DhtOperation.Brings (shardId : Bytes) (d : DhtOperation) : Call → Prop
  | .storeEntry e => d.Admits e ∧ e.Carries shardId
  | .cleanByExpiryTime _ => False

namespace DhtOperation

/-! ## The keys of the shard table -/

theorem mem_shardIds_of_holder {d : DhtOperation} {shardId n : Bytes}
    (h : n ∈ d.shardIdToNodeIdsEntries.subscript shardId) :
    shardId ∈ d.shardIdToNodeIdsEntries := by
  by_contra hnot
  rw [Table.subscript, Finmap.lookup_eq_none.2 hnot] at h
  exact OrdSet.notMem_empty n h

theorem mem_shardIds_updateTables (d : DhtOperation) (e : DhtEntry) (shardId : Bytes) :
    shardId ∈ (d.updateTables e).shardIdToNodeIdsEntries
      ↔ shardId ∈ d.shardIdToNodeIdsEntries ∨ e.Carries shardId := by
  rw [updateTables_eq]
  exact Table.mem_foldl_modify Shard.shardId (fun _ (v : StringSet) => v.insert e.nodeId) _ _ _

end DhtOperation

namespace Refines

variable {m : Registry} {d : DhtOperation}

/-- A removal subscripts the sets of its node's shards only, and these are there. -/
theorem mem_shardIds_removeEntry (h : Refines m d) (n shardId : Bytes) :
    shardId ∈ (d.removeEntry n).shardIdToNodeIdsEntries ↔ shardId ∈ d.shardIdToNodeIdsEntries := by
  by_cases hlive : d.verifyEntry n = true
  case neg => rw [DhtOperation.removeEntry_of_not_live (by simpa using hlive)]
  case pos =>
    rw [DhtOperation.removeEntry_of_live hlive]
    dsimp only
    rw [Table.mem_foldl_modify (fun shardId => shardId) (fun _ (v : StringSet) => v.erase n)]
    refine or_iff_left_of_imp ?_
    rintro ⟨_, hmem, rfl⟩
    rw [← OrdSet.mem_def, h.carried, ← h.holders] at hmem
    exact DhtOperation.mem_shardIds_of_holder hmem

theorem mem_shardIds_foldl_removeEntry (h : Refines m d) (ids : List Bytes) (shardId : Bytes) :
    shardId ∈ (ids.foldl DhtOperation.removeEntry d).shardIdToNodeIdsEntries
      ↔ shardId ∈ d.shardIdToNodeIdsEntries := by
  induction ids generalizing m d with
  | nil => exact Iff.rfl
  | cons n ids ih => rw [List.foldl_cons, ih (h.erase n), h.mem_shardIds_removeEntry]

/-- A cleanup leaves the set of every shard in the table. -/
theorem mem_shardIds_cleanByExpiryTime (h : Refines m d) (nowSec : Int) (shardId : Bytes) :
    shardId ∈ (d.cleanByExpiryTime nowSec).shardIdToNodeIdsEntries
      ↔ shardId ∈ d.shardIdToNodeIdsEntries :=
  h.mem_shardIds_foldl_removeEntry (d.entriesToRemove nowSec) shardId

/-- An entry that is admitted adds its shards. -/
theorem mem_shardIds_storeEntry (h : Refines m d) {e : DhtEntry} (hadm : d.Admits e)
    (shardId : Bytes) : shardId ∈ (d.storeEntry e).shardIdToNodeIdsEntries
      ↔ shardId ∈ d.shardIdToNodeIdsEntries ∨ e.Carries shardId := by
  rw [DhtOperation.storeEntry]
  rcases hadm with hnew | ⟨hlive, hgen⟩
  · rw [if_neg hnew, DhtOperation.mem_shardIds_updateTables]
  · rw [if_pos hlive, if_pos hgen, DhtOperation.mem_shardIds_updateTables,
      h.mem_shardIds_removeEntry]

/-- **One call** leaves the shards of the table there, and adds those of an entry it admits. -/
theorem mem_shardIds_apply (h : Refines m d) (call : Call) (shardId : Bytes) :
    shardId ∈ (d.apply call).shardIdToNodeIdsEntries
      ↔ shardId ∈ d.shardIdToNodeIdsEntries ∨ d.Brings shardId call := by
  cases call with
  | cleanByExpiryTime nowSec =>
    exact (h.mem_shardIds_cleanByExpiryTime nowSec shardId).trans (or_iff_left id).symm
  | storeEntry e =>
    by_cases hadm : d.Admits e
    · have hbrings : e.Carries shardId ↔ d.Brings shardId (.storeEntry e) :=
        (and_iff_right hadm).symm
      exact (h.mem_shardIds_storeEntry hadm shardId).trans (or_congr_right hbrings)
    · rw [DhtOperation.apply, DhtOperation.storeEntry_of_not_admits hadm]
      exact (or_iff_left fun hbrings : d.Admits e ∧ e.Carries shardId => hadm hbrings.1).symm

/-! ## The holders of a shard -/

/-- The holders a cleanup leaves are those that are not expired. -/
theorem mem_holders_cleanByExpiryTime (h : Refines m d) (nowSec : Int) (shardId n : Bytes) :
    n ∈ (d.cleanByExpiryTime nowSec).shardIdToNodeIdsEntries.subscript shardId
      ↔ n ∈ d.shardIdToNodeIdsEntries.subscript shardId ∧ ¬ d.Expired nowSec n := by
  rw [(h.cleanByExpiryTime nowSec).holders, h.holders]
  simp only [Option.mem_def, Register.lookup_clean]
  constructor
  · rintro ⟨e, ⟨he, hexp⟩, hs⟩
    exact ⟨⟨e, he, hs⟩, by rwa [DhtOperation.Expired, h.subscript_expiry he]⟩
  · rintro ⟨⟨e, he, hs⟩, hexp⟩
    exact ⟨e, ⟨he, by rwa [DhtOperation.Expired, h.subscript_expiry he] at hexp⟩, hs⟩

/-- A store that is admitted replaces the shards of its node. -/
theorem mem_holders_storeEntry (h : Refines m d) {e : DhtEntry} (hadm : d.Admits e)
    (shardId n : Bytes) : n ∈ (d.storeEntry e).shardIdToNodeIdsEntries.subscript shardId
      ↔ if n = e.nodeId then e.Carries shardId
        else n ∈ d.shardIdToNodeIdsEntries.subscript shardId := by
  rw [(h.storeEntry e).holders, Register.store, if_pos (h.admits_iff.1 hadm),
    Table.lookup_insert_eq_ite, h.holders]
  split_ifs <;> simp

/-- The null pointer means nobody exactly if every set of the table has an element. -/
theorem nullMeansNobody_iff (h : Refines m d) : NullMeansNobody d
    ↔ ∀ shardId ∈ d.shardIdToNodeIdsEntries,
      ∃ n, n ∈ d.shardIdToNodeIdsEntries.subscript shardId := by
  have hheld (shardId : Bytes) :
      (∃ n, d.verifyEntry n = true ∧ shardId ∈ d.nodeIdToShardIdsEntries.subscript n)
        ↔ ∃ n, n ∈ d.shardIdToNodeIdsEntries.subscript shardId := by
    refine exists_congr fun n => ?_
    rw [h.carried, ← h.holders]
    refine and_iff_right_of_imp fun hn => ?_
    obtain ⟨e, he, -⟩ := (h.holders shardId n).1 hn
    exact (h.verifyEntry_iff n).2 (Finmap.mem_of_lookup_eq_some he)
  refine forall_congr' fun shardId => ?_
  rw [hheld, DhtOperation.queryNodeIdsByShardId]
  by_cases hkey : shardId ∈ d.shardIdToNodeIdsEntries
  · simp [hkey]
  · have hnobody : ¬ ∃ n, n ∈ d.shardIdToNodeIdsEntries.subscript shardId := by
      rintro ⟨n, hn⟩
      exact hkey (DhtOperation.mem_shardIds_of_holder hn)
    simp [hkey, hnobody]

/-! ## One call -/

/-- An entry that replaces another empties no set exactly if each shard it drops has a holder
left. -/
theorem nullMeansNobody_storeEntry_iff (h : Refines m d) (hd : NullMeansNobody d)
    {e : DhtEntry} (hsup : d.Supersedes e) :
    NullMeansNobody (d.storeEntry e) ↔ KeepsHolders d (.storeEntry e) := by
  rw [h.nullMeansNobody_iff] at hd
  rw [(h.storeEntry e).nullMeansNobody_iff]
  simp only [h.mem_shardIds_storeEntry (.inr hsup), h.mem_holders_storeEntry (.inr hsup)]
  constructor
  · intro hst _ shardId hmem
    obtain ⟨n, hn⟩ := hst shardId (.inl (DhtOperation.mem_shardIds_of_holder hmem))
    by_cases hne : n = e.nodeId
    · exact .inl (by rwa [if_pos hne] at hn)
    · exact .inr ⟨n, by rwa [if_neg hne] at hn, hne⟩
  · intro hcond shardId hmem
    by_cases hcarry : e.Carries shardId
    · exact ⟨e.nodeId, by rwa [if_pos rfl]⟩
    · obtain ⟨n, hn⟩ := hd shardId (hmem.resolve_right hcarry)
      by_cases hne : n = e.nodeId
      · obtain ⟨k, hk, hkne⟩ := (hcond hsup shardId (hne ▸ hn)).resolve_left hcarry
        exact ⟨k, by rwa [if_neg hkne]⟩
      · exact ⟨n, by rwa [if_neg hne]⟩

/-- A new node empties no set. -/
theorem nullMeansNobody_storeEntry_of_new (h : Refines m d) (hd : NullMeansNobody d)
    {e : DhtEntry} (hnew : ¬ d.verifyEntry e.nodeId = true) :
    NullMeansNobody (d.storeEntry e) := by
  rw [h.nullMeansNobody_iff] at hd
  rw [(h.storeEntry e).nullMeansNobody_iff]
  simp only [h.mem_shardIds_storeEntry (.inl hnew), h.mem_holders_storeEntry (.inl hnew)]
  rintro shardId (hmem | hcarry)
  · obtain ⟨n, hn⟩ := hd shardId hmem
    obtain ⟨old, hold, -⟩ := (h.holders shardId n).1 hn
    have hne : n ≠ e.nodeId := fun heq =>
      hnew ((h.verifyEntry_iff _).2 (Finmap.mem_of_lookup_eq_some (heq ▸ hold)))
    exact ⟨n, by rwa [if_neg hne]⟩
  · exact ⟨e.nodeId, by rwa [if_pos rfl]⟩

/-- A cleanup empties no set exactly if it leaves a holder of each shard that has one. -/
theorem nullMeansNobody_cleanByExpiryTime_iff (h : Refines m d) (hd : NullMeansNobody d)
    (nowSec : Int) :
    NullMeansNobody (d.cleanByExpiryTime nowSec) ↔ KeepsHolders d (.cleanByExpiryTime nowSec) := by
  rw [h.nullMeansNobody_iff] at hd
  rw [(h.cleanByExpiryTime nowSec).nullMeansNobody_iff]
  simp only [h.mem_shardIds_cleanByExpiryTime, h.mem_holders_cleanByExpiryTime]
  constructor
  · exact fun hcl shardId n hn => hcl shardId (DhtOperation.mem_shardIds_of_holder hn)
  · intro hcond shardId hmem
    obtain ⟨n, hn⟩ := hd shardId hmem
    exact hcond shardId n hn

/-- **A call keeps the null pointer meaningful exactly when no shard loses its last holder.** -/
theorem nullMeansNobody_apply_iff (h : Refines m d) (hd : NullMeansNobody d) (call : Call) :
    NullMeansNobody (d.apply call) ↔ KeepsHolders d call := by
  cases call with
  | cleanByExpiryTime nowSec => exact h.nullMeansNobody_cleanByExpiryTime_iff hd nowSec
  | storeEntry e =>
    rcases d.storeEntry_cases e with hnew | hsup | ⟨hnot, hsame⟩
    · exact iff_of_true (h.nullMeansNobody_storeEntry_of_new hd hnew)
        fun hsup => absurd hsup.1 hnew
    · exact h.nullMeansNobody_storeEntry_iff hd hsup
    · rw [DhtOperation.apply, hsame]
      exact iff_of_true hd fun hsup => absurd hsup hnot

end Refines

/-! ## The law, along runs -/

/-- The shards of the table are those that some call of the run has brought. -/
theorem mem_shardIds_run (calls : List Call) (shardId : Bytes) :
    shardId ∈ (DhtOperation.run calls).shardIdToNodeIdsEntries
      ↔ ∃ before call, before ++ [call] <+: calls
        ∧ (DhtOperation.run before).Brings shardId call :=
  (Runs.run_iff_or_exists (I := fun d => ∃ m, Refines m d)
    (P := fun d => shardId ∈ d.shardIdToNodeIdsEntries) DhtOperation.apply
    (fun _ call ⟨_, h⟩ => ⟨_, h.apply call⟩)
    (fun _ call ⟨_, h⟩ => h.mem_shardIds_apply call shardId) ⟨_, Refines.empty⟩ calls).trans
    (or_iff_right Finmap.notMem_empty)

/-- **When the null pointer is answered**: as long as no entry that was admitted has carried the
shard.  Whoever holds it, or has held it, and whatever is cleaned up: from the first such entry on
it is answered with a pointer. -/
theorem queryNodeIdsByShardId_run_eq_none_iff (calls : List Call) (shardId : Bytes) :
    (DhtOperation.run calls).queryNodeIdsByShardId shardId = none
      ↔ ∀ before e, before ++ [.storeEntry e] <+: calls → (DhtOperation.run before).Admits e →
        ¬ e.Carries shardId := by
  have hkey : (DhtOperation.run calls).queryNodeIdsByShardId shardId = none
      ↔ shardId ∉ (DhtOperation.run calls).shardIdToNodeIdsEntries := by
    rw [DhtOperation.queryNodeIdsByShardId]
    split_ifs with hmem <;> simp [hmem]
  rw [hkey, mem_shardIds_run]
  constructor
  · exact fun hnot before e hpre hadm hcarries => hnot ⟨before, _, hpre, hadm, hcarries⟩
  · rintro hnone ⟨before, call, hpre, hbrings⟩
    cases call with
    | storeEntry e => exact hnone before e hpre hbrings.1 hbrings.2
    | cleanByExpiryTime nowSec => exact hbrings

/-- **Which runs keep the null pointer meaningful**: those in which no shard loses its last
holder. -/
theorem nullMeansNobody_run_iff (calls : List Call) :
    (∀ pre, pre <+: calls → NullMeansNobody (DhtOperation.run pre))
      ↔ Runs.Meets DhtOperation.apply KeepsHolders ∅ calls :=
  Runs.forall_prefix_iff (I := fun d => ∃ m, Refines m d) DhtOperation.apply
    (fun _ call ⟨_, h⟩ => ⟨_, h.apply call⟩)
    (fun _ call ⟨_, h⟩ hd => h.nullMeansNobody_apply_iff hd call) ⟨_, Refines.empty⟩
    (Refines.empty.nullMeansNobody_iff.2 fun _ h => absurd h Finmap.notMem_empty) calls

/-- Two calls after which a shard that nobody holds is answered with a pointer: its only holder
expires. -/
theorem nullMeansNobody_run_fails : ¬ ∀ calls, NullMeansNobody (DhtOperation.run calls) := by
  intro hall
  let calls : List Call := [
    .storeEntry ⟨lit "a", lit "10.0.0.1", OrdSet.insert ⟨lit "s", []⟩ ∅, 1, 10, []⟩,
    .cleanByExpiryTime 10]
  obtain ⟨n, hn⟩ :=
    (Refines.run calls).nullMeansNobody_iff.1 (hall calls) (lit "s") (by decide)
  have hempty : (DhtOperation.run calls).shardIdToNodeIdsEntries.subscript (lit "s") = ∅ := by
    decide
  exact OrdSet.notMem_empty n (hempty ▸ hn)

end PacPrism
