import PacPrism.Foundations.Json
import PacPrism.Node.Dht.Types

/-!
# Node/Dht/Codec — shards and DHT entries as JSON

A set of shards is written as an array in iteration order, and read by inserting the decoded
elements one by one, so of several shards with one id the first is kept.
-/

namespace PacPrism

variable (nlohmann : Nlohmann)

/-- `from_json` of a shard. -/
def Shard.fromJson (j : Json) : Except Exn Shard := do
  let shardId ← (← j.at (lit "shard_id")).getString
  let packages ← (← j.at (lit "packages")).getArray Json.getString
  pure { shardId, packages }

/-- `from_json` of an entry. -/
def DhtEntry.fromJson (j : Json) : Except Exn DhtEntry := do
  let nodeId ← (← j.at (lit "node_id")).getString
  let nodeIp ← (← j.at (lit "node_ip")).getString
  let shards ← (← j.at (lit "node_shard")).getArray Shard.fromJson
  let nodeShard := shards.foldl (·.insert ·) ∅
  let generationTimestamp ← nlohmann.getInt64 (← j.at (lit "generation_timestamp"))
  let expiryTimestamp ← nlohmann.getInt64 (← j.at (lit "expiry_timestamp"))
  let information ← (← j.at (lit "information")).getString
  pure { nodeId, nodeIp, nodeShard, generationTimestamp, expiryTimestamp, information }

/-- `to_json` of a shard. -/
def Shard.toJson (s : Shard) : Json :=
  .object [(lit "shard_id", .string s.shardId), (lit "packages", .array (s.packages.map .string))]

/-- `to_json` of an entry. -/
def DhtEntry.toJson (e : DhtEntry) : Json :=
  .object [(lit "node_id", .string e.nodeId), (lit "node_ip", .string e.nodeIp),
    (lit "node_shard", .array (e.nodeShard.elems.map Shard.toJson)),
    (lit "generation_timestamp", .numberInteger e.generationTimestamp),
    (lit "expiry_timestamp", .numberInteger e.expiryTimestamp),
    (lit "information", .string e.information)]

theorem Shard.failsBy_fromJson (j : Json) : Exn.FailsBy .jsonException (Shard.fromJson j) :=
  (j.failsBy_at _).bind fun shardId => shardId.failsBy_getString.bind fun _ =>
    (j.failsBy_at _).bind fun packages =>
      (packages.failsBy_getArray Json.failsBy_getString).bind fun _ => Exn.failsBy_ok _ _

/-- **A body that is no entry is refused by an exception of the JSON library**, whatever is wrong
with it. -/
theorem DhtEntry.failsBy_fromJson (j : Json) :
    Exn.FailsBy .jsonException (DhtEntry.fromJson nlohmann j) :=
  (j.failsBy_at _).bind fun nodeId => nodeId.failsBy_getString.bind fun _ =>
  (j.failsBy_at _).bind fun nodeIp => nodeIp.failsBy_getString.bind fun _ =>
  (j.failsBy_at _).bind fun shards => (shards.failsBy_getArray Shard.failsBy_fromJson).bind fun _ =>
  (j.failsBy_at _).bind fun generation => (nlohmann.failsBy_getInt64 generation).bind fun _ =>
  (j.failsBy_at _).bind fun expiry => (nlohmann.failsBy_getInt64 expiry).bind fun _ =>
  (j.failsBy_at _).bind fun information => information.failsBy_getString.bind fun _ =>
    Exn.failsBy_ok _ _

/-- The node ID of an entry is a string of the body. -/
theorem DhtEntry.valid_nodeId_of_fromJson {j : Json} {e : DhtEntry} (hj : j.valid = true)
    (h : DhtEntry.fromJson nlohmann j = .ok e) : Utf8.valid e.nodeId = true := by
  rw [DhtEntry.fromJson] at h
  obtain ⟨member, hmember, h⟩ := Exn.bind_eq_ok h
  obtain ⟨nodeId, hnodeId, h⟩ := Exn.bind_eq_ok h
  have hvalid := Json.valid_of_getString (Json.valid_of_at hj hmember) hnodeId
  repeat obtain ⟨_, -, h⟩ := Exn.bind_eq_ok h
  cases h
  exact hvalid

/-- The timestamps of an entry are those found under the two keys. -/
theorem DhtEntry.timestamps_of_fromJson {j : Json} {e : DhtEntry}
    (h : DhtEntry.fromJson nlohmann j = .ok e) :
    (∃ v, j.at (lit "generation_timestamp") = .ok v
        ∧ nlohmann.getInt64 v = .ok e.generationTimestamp)
      ∧ ∃ v, j.at (lit "expiry_timestamp") = .ok v
        ∧ nlohmann.getInt64 v = .ok e.expiryTimestamp := by
  rw [DhtEntry.fromJson] at h
  iterate 6 obtain ⟨_, -, h⟩ := Exn.bind_eq_ok h
  obtain ⟨v, hv, h⟩ := Exn.bind_eq_ok h
  obtain ⟨t, ht, h⟩ := Exn.bind_eq_ok h
  obtain ⟨v', hv', h⟩ := Exn.bind_eq_ok h
  obtain ⟨t', ht', h⟩ := Exn.bind_eq_ok h
  iterate 2 obtain ⟨_, -, h⟩ := Exn.bind_eq_ok h
  cases h
  exact ⟨⟨v, hv, ht⟩, v', hv', ht'⟩

end PacPrism
