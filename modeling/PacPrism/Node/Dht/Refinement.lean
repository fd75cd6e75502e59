import PacPrism.Foundations.Register
import PacPrism.Node.Dht.Operation

/-!
# Node/Dht/Refinement — the nine tables are one map

    calls ──Registry.run──▸ Registry
      ‖                        │ Refines
      ‖                        ▾
    calls ──DhtOperation.run──▸ DhtOperation

The specification is a map from node ids to entries.  `Refines` reads every table but the IP index
off it; a removal erases a key (`Refines.erase`), an update binds one (`Refines.insert`), and the
collect-then-remove cleanup is the restriction to the entries not expired.
-/

namespace PacPrism

open DhtOperation (Call)

/-- The abstract DHT: the entry of each node. -/
abbrev Registry := Table Bytes DhtEntry

/-- The abstract effect of a call: a store keeps the newest entry of each node, a cleanup drops the
entries whose expiry is not after the clock. -/
def Registry.apply (m : Registry) : Call → Registry
  | .storeEntry e => Register.store DhtEntry.nodeId DhtEntry.generationTimestamp m e
  | .cleanByExpiryTime nowSec => Register.clean (fun e => e.expiryTimestamp.toInt ≤ nowSec) m

/-- The abstract state a sequence of calls leads to. -/
abbrev Registry.run (calls : List Call) : Registry := Runs.run Registry.apply ∅ calls

/-- **The simulation relation**: every table but the IP index, read off the map. -/
structure Refines (m : Registry) (d : DhtOperation) : Prop where
  wellKeyed : Register.WellKeyed DhtEntry.nodeId m
  nodeIp : ∀ n, d.nodeIdToNodeIpEntries.lookup n = (m.lookup n).map (·.nodeIp)
  generation : ∀ n,
    d.nodeIdToGenerationTimestampEntries.lookup n = (m.lookup n).map (·.generationTimestamp)
  expiry : ∀ n, d.nodeIdToExpiryTimestampEntries.lookup n = (m.lookup n).map (·.expiryTimestamp)
  information : ∀ n, d.nodeIdToInformationEntries.lookup n = (m.lookup n).map (·.information)
  liveness : ∀ n, d.nodeIdToLivenessEntries.lookup n = (m.lookup n).map fun _ => 0
  expiries : ∀ t n, (t, n) ∈ d.expiryTimestampToNodeIdEntries
    ↔ (m.lookup n).map (·.expiryTimestamp) = some t
  holders : ∀ shardId n, n ∈ d.shardIdToNodeIdsEntries.subscript shardId
    ↔ ∃ e ∈ m.lookup n, e.Carries shardId
  carried : ∀ shardId n, shardId ∈ d.nodeIdToShardIdsEntries.subscript n
    ↔ ∃ e ∈ m.lookup n, e.Carries shardId
  carrying : ∀ n, n ∈ d.nodeIdToShardIdsEntries ↔ ∃ e ∈ m.lookup n, ∃ shardId, e.Carries shardId

namespace Refines

variable {m : Registry} {d : DhtOperation}

/-- The empty object is the empty map. -/
theorem empty : Refines ∅ ∅ where
  wellKeyed := Register.wellKeyed_empty
  nodeIp _ := rfl
  generation _ := rfl
  expiry _ := rfl
  information _ := rfl
  liveness _ := rfl
  expiries _ _ := by simp; exact OrdSet.notMem_empty _
  holders _ _ := by simp; exact OrdSet.notMem_empty _
  carried _ _ := by simp; exact OrdSet.notMem_empty _
  carrying _ := by simp; exact Finmap.notMem_empty

theorem verifyEntry_eq (h : Refines m d) (n : Bytes) :
    d.verifyEntry n = (m.lookup n).isSome := by
  rw [DhtOperation.verifyEntry, Bool.eq_iff_iff, decide_eq_true_iff, ← Finmap.lookup_isSome,
    h.generation, Option.isSome_map]

theorem verifyEntry_iff (h : Refines m d) (n : Bytes) : d.verifyEntry n = true ↔ n ∈ m := by
  rw [h.verifyEntry_eq, Finmap.lookup_isSome]

/-! ## What a removal and an update do to the map -/

/-- **A removal erases the node from the map.** -/
theorem erase (h : Refines m d) (n : Bytes) : Refines (Finmap.erase n m) (d.removeEntry n) := by
  by_cases hlive : d.verifyEntry n = true
  case neg =>
    have hn : n ∉ m := fun hn => hlive ((h.verifyEntry_iff n).2 hn)
    rwa [DhtOperation.removeEntry_of_not_live (by simpa using hlive), Table.erase_of_notMem hn]
  case pos =>
    have hremove := DhtOperation.removeEntry_of_live hlive
    rw [hremove]
    refine ⟨h.wellKeyed.erase n, fun k => Table.lookup_erase_of_map k n h.nodeIp,
      fun k => Table.lookup_erase_of_map k n h.generation,
      fun k => Table.lookup_erase_of_map k n h.expiry,
      fun k => Table.lookup_erase_of_map k n h.information,
      fun k => Table.lookup_erase_of_map k n h.liveness, ?_, ?_, ?_, ?_⟩
    · -- The pair erased is the node's, because its recorded expiry is read before it is erased.
      intro t k
      obtain ⟨e, he⟩ := Finmap.mem_iff.1 ((h.verifyEntry_iff n).1 hlive)
      have hexp : d.nodeIdToExpiryTimestampEntries.subscript n = e.expiryTimestamp :=
        Table.subscript_of_lookup (by rw [h.expiry, he]; rfl)
      rw [Table.map_lookup_erase]
      dsimp only
      rw [OrdSet.mem_erase, h.expiries, hexp]
      split_ifs with hk
      · subst hk
        simp only [he, Option.map_some, Option.some.injEq, iff_false, not_and, ne_eq,
          not_not]
        exact fun heq => heq ▸ rfl
      · exact and_iff_left fun heq => hk (congrArg (fun p => (ofLex p).2) heq)
    · intro shardId k
      rw [← hremove, DhtOperation.mem_shardIdToNodeIds_removeEntry hlive,
        Table.exists_lookup_erase, h.holders, h.carried]
      exact and_congr_right fun hk => ⟨fun hne heq => hne (heq ▸ hk) heq, fun hne _ => hne⟩
    · intro shardId k
      rw [Table.exists_lookup_erase, ← h.carried]
      dsimp only
      rw [Table.subscript, Table.lookup_erase_eq_ite]
      split_ifs with hk
      · simp [hk]; exact OrdSet.notMem_empty _
      · simp [hk, Table.subscript]
    · intro k
      rw [Table.exists_lookup_erase, ← h.carrying]
      exact Finmap.mem_erase.trans and_comm

/-- **An update binds a new node in the map.** -/
theorem insert (h : Refines m d) {e : DhtEntry} (hnew : e.nodeId ∉ m) :
    Refines (Finmap.insert e.nodeId e m) (d.updateTables e) := by
  have hupdate := d.updateTables_eq e
  rw [hupdate]
  refine ⟨h.wellKeyed.insert e, fun k => Table.lookup_insert_of_map k _ h.nodeIp e,
    fun k => Table.lookup_insert_of_map k _ h.generation e,
    fun k => Table.lookup_insert_of_map k _ h.expiry e,
    fun k => Table.lookup_insert_of_map k _ h.information e,
    fun k => Table.lookup_insert_of_map k _ h.liveness e, ?_, ?_, ?_, ?_⟩
  · intro t k
    rw [Table.map_lookup_insert]
    dsimp only
    rw [OrdSet.mem_insert_toLex, h.expiries]
    split_ifs with hk
    · subst hk
      simp [Finmap.lookup_eq_none.2 hnew, eq_comm]
    · simp [hk]
  · intro shardId k
    rw [← hupdate, DhtOperation.mem_shardIdToNodeIds_updateTables,
      Table.exists_lookup_insert _ _ _ hnew, h.holders]
  · intro shardId k
    rw [← hupdate, DhtOperation.mem_nodeIdToShardIds_updateTables,
      Table.exists_lookup_insert _ _ _ hnew, h.carried]
  · intro k
    rw [← hupdate, DhtOperation.mem_keys_nodeIdToShardIds_updateTables,
      Table.exists_lookup_insert _ _ _ hnew, h.carrying]

/-! ## What a call does to the map -/

/-- **A store is the abstract store.** -/
theorem storeEntry (h : Refines m d) (e : DhtEntry) :
    Refines (Register.store DhtEntry.nodeId DhtEntry.generationTimestamp m e) (d.storeEntry e) := by
  rw [DhtOperation.storeEntry, Register.store]
  cases hold : m.lookup e.nodeId with
  | none =>
    have hnew : e.nodeId ∉ m := Finmap.lookup_eq_none.1 hold
    have hlive : ¬ d.verifyEntry e.nodeId = true := by rwa [h.verifyEntry_iff]
    have hacc : Register.Accepts DhtEntry.nodeId DhtEntry.generationTimestamp m e := by
      simp [Register.Accepts, hold]
    rw [if_neg hlive, if_pos hacc]
    exact h.insert hnew
  | some old =>
    have hgen : d.nodeIdToGenerationTimestampEntries.subscript e.nodeId
        = old.generationTimestamp := Table.subscript_of_lookup (by rw [h.generation, hold]; rfl)
    have hacc : Register.Accepts DhtEntry.nodeId DhtEntry.generationTimestamp m e
        ↔ old.generationTimestamp < e.generationTimestamp := by simp [Register.Accepts, hold]
    rw [if_pos ((h.verifyEntry_iff _).2 (Finmap.mem_of_lookup_eq_some hold)), hgen]
    simp only [hacc]
    split_ifs with hlt
    · -- A newer entry: the node is removed, so it is new again.
      have hins := (h.erase e.nodeId).insert (e := e) Finmap.notMem_erase_self
      rwa [Table.insert_erase] at hins
    · exact h

/-- **The ids collected are those of the expired entries** — the scan of the ordered pairs misses
none by stopping early. -/
theorem mem_entriesToRemove (h : Refines m d) (nowSec : Int) (n : Bytes) :
    n ∈ d.entriesToRemove nowSec ↔ ∃ e ∈ m.lookup n, e.expiryTimestamp.toInt ≤ nowSec := by
  rw [DhtOperation.entriesToRemove, OrdSet.takeWhile_elems _ _
    (DhtOperation.expired_of_toLex_lt nowSec)]
  simp only [List.mem_map, List.mem_filter, decide_eq_true_iff, Prod.exists,
    exists_eq_right, ← OrdSet.mem_def]
  simp only [h.expiries, Option.map_eq_some_iff, Option.mem_def]
  constructor
  · rintro ⟨_, ⟨e, he, rfl⟩, hle⟩
    exact ⟨e, he, hle⟩
  · rintro ⟨e, he, hle⟩
    exact ⟨_, ⟨e, he, rfl⟩, hle⟩

/-- **A cleanup is the abstract cleanup.** -/
theorem cleanByExpiryTime (h : Refines m d) (nowSec : Int) :
    Refines (Register.clean (fun e => e.expiryTimestamp.toInt ≤ nowSec) m)
      (d.cleanByExpiryTime nowSec) := by
  have hfold : Refines ((d.entriesToRemove nowSec).foldl (fun t n => Finmap.erase n t) m)
      (d.cleanByExpiryTime nowSec) :=
    List.foldl_rel h fun n _ _ _ hr => hr.erase n
  have heq : (d.entriesToRemove nowSec).foldl (fun t n => Finmap.erase n t) m
      = Register.clean (fun e => e.expiryTimestamp.toInt ≤ nowSec) m := by
    refine Finmap.ext_lookup fun k => Option.ext fun e => ?_
    rw [Table.lookup_foldl_erase, Register.lookup_clean]
    simp only [h.mem_entriesToRemove, Option.mem_def]
    split_ifs with hk
    · obtain ⟨e', he', hle⟩ := hk
      simp only [he', Option.some.injEq, false_iff, not_and, not_not]
      exact fun heq => heq ▸ hle
    · exact ⟨fun he => ⟨he, fun hle => hk ⟨e, he, hle⟩⟩, And.left⟩
  rwa [heq] at hfold

/-- One call preserves the simulation. -/
theorem apply (h : Refines m d) (call : Call) : Refines (m.apply call) (d.apply call) :=
  match call with
  | .storeEntry e => h.storeEntry e
  | .cleanByExpiryTime nowSec => h.cleanByExpiryTime nowSec

/-- **The simulation holds along every run.** -/
theorem run (calls : List Call) : Refines (Registry.run calls) (DhtOperation.run calls) :=
  List.foldl_rel empty fun call _ _ _ h => h.apply call

end Refines

/-! ## The record of a node -/

/-- The tables record of the entry's node what the entry says, and no shard that it lacks. -/
structure DhtOperation.Records (d : DhtOperation) (e : DhtEntry) : Prop where
  live : d.verifyEntry e.nodeId = true
  nodeIp : d.nodeIdToNodeIpEntries.lookup e.nodeId = some e.nodeIp
  generation :
    d.nodeIdToGenerationTimestampEntries.lookup e.nodeId = some e.generationTimestamp
  expiry : d.nodeIdToExpiryTimestampEntries.lookup e.nodeId = some e.expiryTimestamp
  information : d.nodeIdToInformationEntries.lookup e.nodeId = some e.information
  liveness : d.nodeIdToLivenessEntries.lookup e.nodeId = some 0
  expiries : ∀ t, (t, e.nodeId) ∈ d.expiryTimestampToNodeIdEntries ↔ t = e.expiryTimestamp
  holders : ∀ shardId,
    e.nodeId ∈ (d.queryNodeIdsByShardId shardId).getD ∅ ↔ e.Carries shardId
  carried : ∀ shardId,
    shardId ∈ d.nodeIdToShardIdsEntries.subscript e.nodeId ↔ e.Carries shardId

/-- The entry the map binds to a node is what the tables record of it. -/
theorem Refines.records {m : Registry} {d : DhtOperation} (h : Refines m d) {e : DhtEntry}
    (he : m.lookup e.nodeId = some e) : d.Records e where
  live := (h.verifyEntry_iff _).2 (Finmap.mem_of_lookup_eq_some he)
  nodeIp := by rw [h.nodeIp, he]; rfl
  generation := by rw [h.generation, he]; rfl
  expiry := by rw [h.expiry, he]; rfl
  information := by rw [h.information, he]; rfl
  liveness := by rw [h.liveness, he]; rfl
  expiries t := by rw [h.expiries, he, Option.map_some, Option.some.injEq, eq_comm]
  holders shardId := by
    rw [DhtOperation.queryNodeIdsByShardId_getD, h.holders, he]
    simp
  carried shardId := by
    rw [h.carried, he]
    simp

/-! ## What the observers see -/

/-- **`DHT_operation` refines the map from node ids to entries.**  Membership, the holders of each
shard, and every field recorded of a node are those of the abstract entry. -/
theorem dht_refines_registry (calls : List Call) :
    (∀ n, (DhtOperation.run calls).verifyEntry n = true ↔ n ∈ Registry.run calls)
    ∧ (∀ shardId n, n ∈ ((DhtOperation.run calls).queryNodeIdsByShardId shardId).getD ∅
        ↔ ∃ e ∈ (Registry.run calls).lookup n, e.Carries shardId)
    ∧ ∀ n,
      (DhtOperation.run calls).nodeIdToNodeIpEntries.lookup n
          = ((Registry.run calls).lookup n).map (·.nodeIp)
      ∧ (DhtOperation.run calls).nodeIdToGenerationTimestampEntries.lookup n
          = ((Registry.run calls).lookup n).map (·.generationTimestamp)
      ∧ (DhtOperation.run calls).nodeIdToExpiryTimestampEntries.lookup n
          = ((Registry.run calls).lookup n).map (·.expiryTimestamp)
      ∧ (DhtOperation.run calls).nodeIdToInformationEntries.lookup n
          = ((Registry.run calls).lookup n).map (·.information) := by
  have h := Refines.run calls
  refine ⟨h.verifyEntry_iff, fun shardId n => ?_, fun n =>
    ⟨h.nodeIp n, h.generation n, h.expiry n, h.information n⟩⟩
  rw [DhtOperation.queryNodeIdsByShardId_getD, h.holders]

/-- **The node-keyed and inverse indexes agree in every reachable state.** -/
theorem indexes_agree (calls : List Call) :
    let d := DhtOperation.run calls
    (d.nodeIdToNodeIpEntries.keys = d.nodeIdToGenerationTimestampEntries.keys
      ∧ d.nodeIdToExpiryTimestampEntries.keys = d.nodeIdToGenerationTimestampEntries.keys
      ∧ d.nodeIdToInformationEntries.keys = d.nodeIdToGenerationTimestampEntries.keys
      ∧ d.nodeIdToLivenessEntries.keys = d.nodeIdToGenerationTimestampEntries.keys)
    ∧ (∀ t n, (t, n) ∈ d.expiryTimestampToNodeIdEntries
        ↔ d.nodeIdToExpiryTimestampEntries.lookup n = some t)
    ∧ (∀ shardId n, n ∈ d.shardIdToNodeIdsEntries.subscript shardId
        ↔ shardId ∈ d.nodeIdToShardIdsEntries.subscript n)
    ∧ ∀ n ∈ d.nodeIdToShardIdsEntries,
        d.verifyEntry n = true ∧ ∃ shardId, shardId ∈ d.nodeIdToShardIdsEntries.subscript n := by
  intro d
  have h : Refines (Registry.run calls) d := Refines.run calls
  have hkeys {β γ : Type} {t : Table Bytes β} {t' : Table Bytes γ} {f : DhtEntry → β}
      {g : DhtEntry → γ} (ht : ∀ n, t.lookup n = ((Registry.run calls).lookup n).map f)
      (ht' : ∀ n, t'.lookup n = ((Registry.run calls).lookup n).map g) : t.keys = t'.keys := by
    ext n
    rw [Finmap.mem_keys, Finmap.mem_keys, ← Finmap.lookup_isSome, ← Finmap.lookup_isSome, ht, ht',
      Option.isSome_map, Option.isSome_map]
  refine ⟨⟨hkeys h.nodeIp h.generation, hkeys h.expiry h.generation,
    hkeys h.information h.generation, hkeys h.liveness h.generation⟩, fun t n => ?_,
    fun shardId n => ?_, fun n hn => ?_⟩
  · rw [h.expiries, h.expiry]
  · rw [h.holders, h.carried]
  · obtain ⟨e, he, shardId, hs⟩ := (h.carrying n).1 hn
    exact ⟨(h.verifyEntry_iff n).2 (Finmap.mem_of_lookup_eq_some he), shardId,
      (h.carried shardId n).2 ⟨e, he, hs⟩⟩

end PacPrism
