import PacPrism.Foundations.Runs
import PacPrism.Foundations.Table
import PacPrism.Node.Dht.Types

/-!
# Node/Dht/Operation — the nine tables of `DHT_operation`, updated one by one

The statements of the source are kept in their order, and a subscript that may insert is a `touch`
of its table.  Only `nodeIpToNodeIdEntries` is ever touched at a key that may be absent.
-/

namespace PacPrism

/-- The tables of `DHT_operation`. -/
structure DhtOperation where
  /-- Node IP to node ID. -/
  nodeIpToNodeIdEntries : Table Bytes Bytes := ∅
  /-- Node ID to node IP. -/
  nodeIdToNodeIpEntries : Table Bytes Bytes := ∅
  /-- Node ID to generation timestamp. -/
  nodeIdToGenerationTimestampEntries : Table Bytes Int64 := ∅
  /-- Expiry timestamp to node ID. -/
  expiryTimestampToNodeIdEntries : OrdSet (Int64 × Bytes) toLex := ∅
  /-- Node ID to expiry timestamp. -/
  nodeIdToExpiryTimestampEntries : Table Bytes Int64 := ∅
  /-- Shard ID to node IDs. -/
  shardIdToNodeIdsEntries : Table Bytes StringSet := ∅
  /-- Node ID to shard IDs. -/
  nodeIdToShardIdsEntries : Table Bytes StringSet := ∅
  /-- Node ID to information. -/
  nodeIdToInformationEntries : Table Bytes Bytes := ∅
  /-- Node ID to liveness. -/
  nodeIdToLivenessEntries : Table Bytes Int := ∅

namespace DhtOperation

instance : EmptyCollection DhtOperation := ⟨{}⟩

/-- Check if an entry exists. -/
def verifyEntry (d : DhtOperation) (nodeId : Bytes) : Bool :=
  decide (nodeId ∈ d.nodeIdToGenerationTimestampEntries)

/-- Remove a node by ID from all entries. -/
def removeEntry (d : DhtOperation) (nodeId : Bytes) : DhtOperation :=
  if d.verifyEntry nodeId = false then d else
  let d := { d with nodeIdToNodeIpEntries := d.nodeIdToNodeIpEntries.touch nodeId }
  let nodeIp := d.nodeIdToNodeIpEntries.subscript nodeId
  -- The ownership test subscripts the IP table: an IP without owner gets the empty node ID.
  let d := { d with nodeIpToNodeIdEntries := d.nodeIpToNodeIdEntries.touch nodeIp }
  let d := if d.nodeIpToNodeIdEntries.subscript nodeIp = nodeId then
      { d with nodeIpToNodeIdEntries := d.nodeIpToNodeIdEntries.erase nodeIp }
    else d
  let d := { d with nodeIdToNodeIpEntries := d.nodeIdToNodeIpEntries.erase nodeId }
  let d := { d with
    nodeIdToGenerationTimestampEntries := d.nodeIdToGenerationTimestampEntries.erase nodeId }
  let d := { d with nodeIdToShardIdsEntries := d.nodeIdToShardIdsEntries.touch nodeId }
  let d := { d with
    shardIdToNodeIdsEntries := (d.nodeIdToShardIdsEntries.subscript nodeId).elems.foldl
      (fun t shardId => t.modify shardId (·.erase nodeId)) d.shardIdToNodeIdsEntries }
  let d := { d with
    nodeIdToExpiryTimestampEntries := d.nodeIdToExpiryTimestampEntries.touch nodeId }
  let d := { d with
    expiryTimestampToNodeIdEntries := d.expiryTimestampToNodeIdEntries.erase
      (toLex (d.nodeIdToExpiryTimestampEntries.subscript nodeId, nodeId)) }
  let d := { d with
    nodeIdToExpiryTimestampEntries := d.nodeIdToExpiryTimestampEntries.erase nodeId }
  let d := { d with nodeIdToShardIdsEntries := d.nodeIdToShardIdsEntries.erase nodeId }
  let d := { d with nodeIdToInformationEntries := d.nodeIdToInformationEntries.erase nodeId }
  { d with nodeIdToLivenessEntries := d.nodeIdToLivenessEntries.erase nodeId }

/-- The table updates that end `store_entry`. -/
def updateTables (d : DhtOperation) (entry : DhtEntry) : DhtOperation :=
  let d := { d with
    nodeIpToNodeIdEntries := d.nodeIpToNodeIdEntries.insert entry.nodeIp entry.nodeId }
  let d := { d with
    nodeIdToNodeIpEntries := d.nodeIdToNodeIpEntries.insert entry.nodeId entry.nodeIp }
  let d := { d with
    nodeIdToGenerationTimestampEntries :=
      d.nodeIdToGenerationTimestampEntries.insert entry.nodeId entry.generationTimestamp }
  let d := { d with
    expiryTimestampToNodeIdEntries :=
      d.expiryTimestampToNodeIdEntries.insert (entry.expiryTimestamp, entry.nodeId) }
  let d := { d with
    nodeIdToExpiryTimestampEntries :=
      d.nodeIdToExpiryTimestampEntries.insert entry.nodeId entry.expiryTimestamp }
  let d := entry.nodeShard.elems.foldl (fun d shard => { d with
    shardIdToNodeIdsEntries := d.shardIdToNodeIdsEntries.modify shard.shardId (·.insert entry.nodeId)
    nodeIdToShardIdsEntries := d.nodeIdToShardIdsEntries.modify entry.nodeId (·.insert shard.shardId)
    }) d
  let d := { d with
    nodeIdToInformationEntries := d.nodeIdToInformationEntries.insert entry.nodeId entry.information }
  { d with nodeIdToLivenessEntries := d.nodeIdToLivenessEntries.insert entry.nodeId 0 }

/-- Store an entry: a new node's, or one newer than the entry stored for its node. -/
def storeEntry (d : DhtOperation) (entry : DhtEntry) : DhtOperation :=
  if d.verifyEntry entry.nodeId then
    if d.nodeIdToGenerationTimestampEntries.subscript entry.nodeId < entry.generationTimestamp then
      (d.removeEntry entry.nodeId).updateTables entry
    else d
  else d.updateTables entry

/-- Query node IDs by shard ID; `none` is the null pointer. -/
def queryNodeIdsByShardId (d : DhtOperation) (shardId : Bytes) : Option StringSet :=
  if shardId ∈ d.shardIdToNodeIdsEntries then some (d.shardIdToNodeIdsEntries.subscript shardId)
  else none

/-- The ids `clean_by_expiry_time` collects: the scan breaks at the first pair not yet expired. -/
def entriesToRemove (d : DhtOperation) (nowSec : Int) : List Bytes :=
  (d.expiryTimestampToNodeIdEntries.elems.takeWhile fun p => p.1.toInt ≤ nowSec).map Prod.snd

/-- Along the ordered pairs, the test of the scan only ever turns from true to false. -/
theorem expired_of_toLex_lt (nowSec : Int) (a b : Int64 × Bytes) (hab : toLex a < toLex b)
    (hb : decide (b.1.toInt ≤ nowSec) = true) : decide (a.1.toInt ≤ nowSec) = true := by
  rw [decide_eq_true_iff] at hb ⊢
  have hle : a.1 ≤ b.1 := (Prod.Lex.lt_iff.1 hab).elim le_of_lt fun h => h.1.le
  exact (Int64.le_iff_toInt_le.1 hle).trans hb

/-- Remove expired nodes based on expiry time. -/
def cleanByExpiryTime (d : DhtOperation) (nowSec : Int) : DhtOperation :=
  (d.entriesToRemove nowSec).foldl removeEntry d

/-! ## What one removal does -/

/-- What a removal does to the IP table: an IP the node owns is released, an IP without owner is
left bound to the empty node ID. -/
def releaseIp (t : Table Bytes Bytes) (nodeIp nodeId : Bytes) : Table Bytes Bytes :=
  if t.subscript nodeIp = nodeId then t.erase nodeIp else t.touch nodeIp

theorem lookup_releaseIp (t : Table Bytes Bytes) (nodeIp nodeId ip : Bytes) :
    (releaseIp t nodeIp nodeId).lookup ip = if ip = nodeIp then
      if t.subscript nodeIp = nodeId then none else some (t.subscript nodeIp) else t.lookup ip := by
  rw [releaseIp]
  split_ifs with h hip hip <;> simp [hip]

theorem removeEntry_of_not_live {d : DhtOperation} {n : Bytes} (h : d.verifyEntry n = false) :
    d.removeEntry n = d := if_pos h

/-- **A removal, in closed form** — every subscript but the one on the IP table is undone by the
erasure of its key. -/
theorem removeEntry_of_live {d : DhtOperation} {n : Bytes} (h : d.verifyEntry n = true) :
    d.removeEntry n =
      { nodeIpToNodeIdEntries :=
          releaseIp d.nodeIpToNodeIdEntries (d.nodeIdToNodeIpEntries.subscript n) n
        nodeIdToNodeIpEntries := d.nodeIdToNodeIpEntries.erase n
        nodeIdToGenerationTimestampEntries := d.nodeIdToGenerationTimestampEntries.erase n
        expiryTimestampToNodeIdEntries := d.expiryTimestampToNodeIdEntries.erase
          (toLex (d.nodeIdToExpiryTimestampEntries.subscript n, n))
        nodeIdToExpiryTimestampEntries := d.nodeIdToExpiryTimestampEntries.erase n
        shardIdToNodeIdsEntries := (d.nodeIdToShardIdsEntries.subscript n).elems.foldl
          (fun t shardId => t.modify shardId (·.erase n)) d.shardIdToNodeIdsEntries
        nodeIdToShardIdsEntries := d.nodeIdToShardIdsEntries.erase n
        nodeIdToInformationEntries := d.nodeIdToInformationEntries.erase n
        nodeIdToLivenessEntries := d.nodeIdToLivenessEntries.erase n } := by
  rw [removeEntry, if_neg (by simp [h])]
  simp only [Table.subscript_touch, Table.erase_touch]
  rw [releaseIp]
  split_ifs <;> simp only [Table.erase_touch]

/-- The node leaves the sets of the shards recorded for it, and no other set changes. -/
theorem mem_shardIdToNodeIds_removeEntry {d : DhtOperation} {n : Bytes}
    (h : d.verifyEntry n = true) (shardId a : Bytes) :
    a ∈ (d.removeEntry n).shardIdToNodeIdsEntries.subscript shardId
      ↔ a ∈ d.shardIdToNodeIdsEntries.subscript shardId
        ∧ (shardId ∈ d.nodeIdToShardIdsEntries.subscript n → a ≠ n) := by
  rw [removeEntry_of_live h]
  dsimp only
  rw [Table.subscript_foldl_modify (fun shardId => shardId) (fun _ (v : StringSet) => v.erase n),
    OrdSet.mem_foldl_erase]
  simp [List.filter_eq_nil_iff, OrdSet.mem_def]

/-! ## What one update does -/

/-- **The table updates, in closed form** — the loop over the shards fills two tables apart. -/
theorem updateTables_eq (d : DhtOperation) (e : DhtEntry) :
    d.updateTables e =
      { nodeIpToNodeIdEntries := d.nodeIpToNodeIdEntries.insert e.nodeIp e.nodeId
        nodeIdToNodeIpEntries := d.nodeIdToNodeIpEntries.insert e.nodeId e.nodeIp
        nodeIdToGenerationTimestampEntries :=
          d.nodeIdToGenerationTimestampEntries.insert e.nodeId e.generationTimestamp
        expiryTimestampToNodeIdEntries :=
          d.expiryTimestampToNodeIdEntries.insert (e.expiryTimestamp, e.nodeId)
        nodeIdToExpiryTimestampEntries :=
          d.nodeIdToExpiryTimestampEntries.insert e.nodeId e.expiryTimestamp
        shardIdToNodeIdsEntries := e.nodeShard.elems.foldl
          (fun t shard => t.modify shard.shardId (·.insert e.nodeId)) d.shardIdToNodeIdsEntries
        nodeIdToShardIdsEntries := e.nodeShard.elems.foldl
          (fun t shard => t.modify e.nodeId (·.insert shard.shardId)) d.nodeIdToShardIdsEntries
        nodeIdToInformationEntries := d.nodeIdToInformationEntries.insert e.nodeId e.information
        nodeIdToLivenessEntries := d.nodeIdToLivenessEntries.insert e.nodeId 0 } := by
  have hloop : ∀ (l : List Shard) (d : DhtOperation),
      l.foldl (fun d shard => { d with
        shardIdToNodeIdsEntries := d.shardIdToNodeIdsEntries.modify shard.shardId (·.insert e.nodeId)
        nodeIdToShardIdsEntries := d.nodeIdToShardIdsEntries.modify e.nodeId (·.insert shard.shardId)
        }) d
      = { d with
        shardIdToNodeIdsEntries := l.foldl
          (fun t shard => t.modify shard.shardId (·.insert e.nodeId)) d.shardIdToNodeIdsEntries
        nodeIdToShardIdsEntries := l.foldl
          (fun t shard => t.modify e.nodeId (·.insert shard.shardId)) d.nodeIdToShardIdsEntries } := by
    intro l
    induction l with
    | nil => exact fun _ => rfl
    | cons shard l ih => exact fun d => ih _
  rw [updateTables]
  simp only [hloop]

/-- The node enters the sets of the shards its entry carries, and no other set changes. -/
theorem mem_shardIdToNodeIds_updateTables (d : DhtOperation) (e : DhtEntry) (shardId a : Bytes) :
    a ∈ (d.updateTables e).shardIdToNodeIdsEntries.subscript shardId
      ↔ a ∈ d.shardIdToNodeIdsEntries.subscript shardId ∨ a = e.nodeId ∧ e.Carries shardId := by
  rw [updateTables_eq]
  dsimp only
  rw [Table.subscript_foldl_modify Shard.shardId (fun _ (v : StringSet) => v.insert e.nodeId),
    OrdSet.mem_foldl_insert (fun _ => e.nodeId)]
  simp only [List.mem_filter, decide_eq_true_iff, DhtEntry.Carries]
  tauto

/-- The ids of the entry's shards are added under its node. -/
theorem mem_nodeIdToShardIds_updateTables (d : DhtOperation) (e : DhtEntry) (n shardId : Bytes) :
    shardId ∈ (d.updateTables e).nodeIdToShardIdsEntries.subscript n
      ↔ shardId ∈ d.nodeIdToShardIdsEntries.subscript n ∨ n = e.nodeId ∧ e.Carries shardId := by
  rw [updateTables_eq]
  dsimp only
  rw [Table.subscript_foldl_modify (fun _ => e.nodeId)
    (fun (shard : Shard) (v : StringSet) => v.insert shard.shardId),
    OrdSet.mem_foldl_insert Shard.shardId]
  simp only [List.mem_filter, decide_eq_true_iff, DhtEntry.Carries, eq_comm (a := shardId),
    eq_comm (a := n)]
  tauto

/-- A key is bound for the node only if its entry carries a shard. -/
theorem mem_keys_nodeIdToShardIds_updateTables (d : DhtOperation) (e : DhtEntry) (n : Bytes) :
    n ∈ (d.updateTables e).nodeIdToShardIdsEntries
      ↔ n ∈ d.nodeIdToShardIdsEntries ∨ n = e.nodeId ∧ ∃ shardId, e.Carries shardId := by
  rw [updateTables_eq]
  dsimp only
  rw [Table.mem_foldl_modify (fun _ => e.nodeId)
    (fun (shard : Shard) (v : StringSet) => v.insert shard.shardId)]
  simp only [DhtEntry.Carries, eq_comm (a := n)]
  constructor
  · rintro (h | ⟨s, hs, h⟩)
    exacts [.inl h, .inr ⟨h, s.shardId, s, hs, rfl⟩]
  · rintro (h | ⟨h, _, s, hs, -⟩)
    exacts [.inl h, .inr ⟨s, hs, h⟩]

/-- The answer of a query, the null pointer read as the empty set. -/
theorem queryNodeIdsByShardId_getD (d : DhtOperation) (shardId : Bytes) :
    (d.queryNodeIdsByShardId shardId).getD ∅ = d.shardIdToNodeIdsEntries.subscript shardId := by
  rw [queryNodeIdsByShardId]
  split_ifs with h
  · rfl
  · rw [Table.subscript, Finmap.lookup_eq_none.2 h]
    rfl

/-! ## Runs -/

/-- A call of the public interface that can change the tables. -/
inductive Call where
  | storeEntry (entry : DhtEntry)
  | cleanByExpiryTime (nowSec : Int)

/-- The effect of a call. -/
def apply (d : DhtOperation) : Call → DhtOperation
  | .storeEntry entry => d.storeEntry entry
  | .cleanByExpiryTime nowSec => d.cleanByExpiryTime nowSec

/-- The state a sequence of calls on a fresh object leads to. -/
abbrev run (calls : List Call) : DhtOperation := Runs.run apply ∅ calls

end DhtOperation

end PacPrism
