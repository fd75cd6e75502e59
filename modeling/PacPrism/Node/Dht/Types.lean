import PacPrism.Foundations.Bytes
import PacPrism.Foundations.OrdSet

/-!
# Node/Dht/Types — shards and DHT entries

`shard` is ordered by its id alone, so a `std::set<shard>` holds at most one shard of each id,
whatever the package lists are.
-/

namespace PacPrism

/-- A sharding entry: its id and the packages linked to it. -/
structure Shard where
  shardId : Bytes
  packages : List Bytes
  deriving DecidableEq

/-- A `std::set<std::string>`. -/
abbrev StringSet := OrdSet Bytes (id : Bytes → Bytes)

/-- An entry of the DHT: a node's address, its shards, and the two times of the entry. -/
structure DhtEntry where
  nodeId : Bytes
  nodeIp : Bytes
  nodeShard : OrdSet Shard Shard.shardId
  generationTimestamp : Int64
  expiryTimestamp : Int64
  information : Bytes
  deriving DecidableEq

/-- The entry contains a shard of this id. -/
def DhtEntry.Carries (e : DhtEntry) (shardId : Bytes) : Prop :=
  ∃ s ∈ e.nodeShard.elems, s.shardId = shardId

instance (e : DhtEntry) (shardId : Bytes) : Decidable (e.Carries shardId) :=
  inferInstanceAs (Decidable (∃ s ∈ e.nodeShard.elems, s.shardId = shardId))

end PacPrism
