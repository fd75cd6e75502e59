import Mathlib.Data.List.Perm.Basic
import PacPrism.Node.Dht.Codec

/-!
# Node/Dht/RoundTrip — an entry survives the wire

    DhtEntry ──toJson──▸ Json ──fromJson──▸ DhtEntry

What is decoded depends on the values under the keys an entry is read from, and on the shards as a
collection: `Shard.Agree` and `DhtEntry.Agree` relate the JSON values between which the decoder does
not tell.  The set of shards is ordered by the ids alone, so that rests on the ids being different.
-/

namespace PacPrism

variable (nlohmann : Nlohmann)

/-! ## Shards -/

theorem Shard.fromJson_toJson (s : Shard) : Shard.fromJson s.toJson = .ok s := by
  have hpackages : (s.packages.map Json.string).mapM Json.getString = .ok s.packages := by
    rw [Exn.mapM_eq_ok_iff, List.forall₂_map_left_iff, List.forall₂_same]
    exact fun _ _ => rfl
  rw [Shard.fromJson]
  change (do
    let packages ← (s.packages.map Json.string).mapM Json.getString
    pure { shardId := s.shardId, packages } : Except Exn Shard) = _
  rw [hpackages]
  rfl

/-- The two values have the same members under the keys a shard is read from. -/
structure Shard.Agree (j j' : Json) : Prop where
  shardId : j.at (lit "shard_id") = j'.at (lit "shard_id")
  packages : j.at (lit "packages") = j'.at (lit "packages")

theorem Shard.Agree.fromJson_eq {j j' : Json} (h : Shard.Agree j j') :
    Shard.fromJson j = Shard.fromJson j' := by
  rw [Shard.fromJson, Shard.fromJson, h.shardId, h.packages]

/-- The shard ID of a JSON object. -/
def Shard.idOf (j : Json) : Except Exn Bytes := j.at (lit "shard_id") >>= Json.getString

theorem Shard.idOf_of_fromJson {j : Json} {s : Shard} (h : Shard.fromJson j = .ok s) :
    Shard.idOf j = .ok s.shardId := by
  rw [Shard.fromJson] at h
  obtain ⟨v, hv, h⟩ := Exn.bind_eq_ok h
  obtain ⟨shardId, hid, h⟩ := Exn.bind_eq_ok h
  iterate 2 obtain ⟨_, -, h⟩ := Exn.bind_eq_ok h
  cases h
  exact Exn.bind_eq_ok_iff.2 ⟨v, hv, hid⟩

/-- No two of the values have one shard ID. -/
def Shard.IdsDistinct (elems : List Json) : Prop :=
  elems.Pairwise fun j j' => ∀ shardId, Shard.idOf j = .ok shardId → Shard.idOf j' ≠ .ok shardId

theorem Shard.IdsDistinct.pairwise {elems : List Json} (h : Shard.IdsDistinct elems)
    {shards : List Shard}
    (hdecode : List.Forall₂ (fun j s => Shard.fromJson j = .ok s) elems shards) :
    shards.Pairwise fun s s' => s.shardId ≠ s'.shardId := by
  induction hdecode with
  | nil => exact .nil
  | @cons j s elems shards hj hdecode ih =>
    obtain ⟨hhead, htail⟩ := List.pairwise_cons.1 h
    refine List.pairwise_cons.2 ⟨fun s' hs' heq => ?_, ih htail⟩
    obtain ⟨i, hi, rfl⟩ := List.mem_iff_getElem.1 hs'
    have hlength := hdecode.length_eq
    have hdecoded := hdecode.get (i := i) (by omega) hi
    exact hhead _ (List.getElem_mem (by omega)) _ (Shard.idOf_of_fromJson hj)
      (heq ▸ Shard.idOf_of_fromJson hdecoded)

theorem Shard.mapM_fromJson_of_agree {elems elems' : List Json}
    (h : List.Forall₂ Shard.Agree elems elems') :
    elems.mapM Shard.fromJson = elems'.mapM Shard.fromJson := by
  induction h with
  | nil => rfl
  | cons hj _ ih => rw [List.mapM_cons, List.mapM_cons, hj.fromJson_eq, ih]

/-- **The set decoded does not depend on the order of the array**, nor on what else its objects
hold. -/
theorem Shard.foldl_insert_iff {elems elems' mid : List Json} (hids : Shard.IdsDistinct elems)
    (hperm : elems.Perm mid) (hagree : List.Forall₂ Shard.Agree mid elems')
    (set : OrdSet Shard Shard.shardId) :
    (∃ shards, elems.mapM Shard.fromJson = .ok shards ∧ shards.foldl (·.insert ·) ∅ = set)
      ↔ ∃ shards, elems'.mapM Shard.fromJson = .ok shards ∧ shards.foldl (·.insert ·) ∅ = set := by
  rw [← Shard.mapM_fromJson_of_agree hagree]
  simp only [Exn.mapM_eq_ok_iff]
  constructor
  · rintro ⟨shards, hdecode, rfl⟩
    obtain ⟨shards', hdecode', hshards⟩ := List.perm_comp_forall₂ hperm.symm hdecode
    exact ⟨shards', hdecode',
      (OrdSet.foldl_insert_eq_of_perm (hids.pairwise hdecode) hshards.symm).symm⟩
  · rintro ⟨shards', hdecode', rfl⟩
    obtain ⟨shards, hdecode, hshards⟩ := List.perm_comp_forall₂ hperm hdecode'
    exact ⟨shards, hdecode, OrdSet.foldl_insert_eq_of_perm (hids.pairwise hdecode) hshards⟩

/-! ## Entries -/

/-- An entry is decoded member by member. -/
theorem DhtEntry.fromJson_eq_ok_iff {j : Json} {elems : List Json}
    (hshards : j.at (lit "node_shard") = .ok (.array elems)) (e : DhtEntry) :
    DhtEntry.fromJson nlohmann j = .ok e
      ↔ (j.at (lit "node_id") >>= Json.getString) = .ok e.nodeId
        ∧ (j.at (lit "node_ip") >>= Json.getString) = .ok e.nodeIp
        ∧ (∃ shards, elems.mapM Shard.fromJson = .ok shards
          ∧ shards.foldl (·.insert ·) ∅ = e.nodeShard)
        ∧ (j.at (lit "generation_timestamp") >>= nlohmann.getInt64) = .ok e.generationTimestamp
        ∧ (j.at (lit "expiry_timestamp") >>= nlohmann.getInt64) = .ok e.expiryTimestamp
        ∧ (j.at (lit "information") >>= Json.getString) = .ok e.information := by
  rw [DhtEntry.fromJson, hshards]
  simp only [Exn.bind_eq_ok_iff]
  constructor
  · rintro ⟨v₁, h₁, nodeId, hnodeId, v₂, h₂, nodeIp, hnodeIp, v₃, h₃, shards, hdecode, v₄, h₄,
      generation, hgeneration, v₅, h₅, expiry, hexpiry, v₆, h₆, information, hinformation, h⟩
    obtain rfl := Except.ok.inj h₃
    cases h
    exact ⟨⟨v₁, h₁, hnodeId⟩, ⟨v₂, h₂, hnodeIp⟩, ⟨shards, hdecode, rfl⟩, ⟨v₄, h₄, hgeneration⟩,
      ⟨v₅, h₅, hexpiry⟩, v₆, h₆, hinformation⟩
  · rintro ⟨⟨v₁, h₁, hnodeId⟩, ⟨v₂, h₂, hnodeIp⟩, ⟨shards, hdecode, hset⟩, ⟨v₄, h₄, hgeneration⟩,
      ⟨v₅, h₅, hexpiry⟩, v₆, h₆, hinformation⟩
    refine ⟨v₁, h₁, _, hnodeId, v₂, h₂, _, hnodeIp, _, rfl, shards, hdecode, v₄, h₄, _, hgeneration,
      v₅, h₅, _, hexpiry, v₆, h₆, _, hinformation, ?_⟩
    rw [hset]
    rfl

/-- The two values have the same members under the keys an entry is read from, the shards in any
order. -/
structure DhtEntry.Agree (j j' : Json) : Prop where
  member : ∀ key ∈ [lit "node_id", lit "node_ip", lit "generation_timestamp",
    lit "expiry_timestamp", lit "information"], j.at key = j'.at key
  shards : ∃ elems elems' mid, j.at (lit "node_shard") = .ok (.array elems)
    ∧ j'.at (lit "node_shard") = .ok (.array elems')
    ∧ Shard.IdsDistinct elems ∧ elems.Perm mid ∧ List.Forall₂ Shard.Agree mid elems'

theorem DhtEntry.fromJson_toJson (e : DhtEntry) :
    DhtEntry.fromJson nlohmann e.toJson = .ok e := by
  have hshards : (e.nodeShard.elems.map Shard.toJson).mapM Shard.fromJson
      = .ok e.nodeShard.elems := by
    rw [Exn.mapM_eq_ok_iff, List.forall₂_map_left_iff, List.forall₂_same]
    exact fun s _ => s.fromJson_toJson
  rw [DhtEntry.fromJson_eq_ok_iff nlohmann rfl]
  exact ⟨rfl, rfl, ⟨_, hshards, OrdSet.foldl_insert_elems _⟩, rfl, rfl, rfl⟩

/-- **The codec is lossless.**  What is encoded is decoded as it was, the package lists of the
shards included; and decoding does not depend on the order of the shards, if their ids are
different, nor on additional members. -/
theorem codec_lossless :
    (∀ e, DhtEntry.fromJson nlohmann e.toJson = .ok e)
    ∧ ∀ j j', DhtEntry.Agree j j' →
      ∀ e, DhtEntry.fromJson nlohmann j = .ok e ↔ DhtEntry.fromJson nlohmann j' = .ok e := by
  refine ⟨DhtEntry.fromJson_toJson nlohmann, fun j j' hagree e => ?_⟩
  obtain ⟨hmember, elems, elems', mid, hj, hj', hids, hperm, hmid⟩ := hagree
  simp only [List.forall_mem_cons, List.not_mem_nil, false_implies, implies_true, and_true]
    at hmember
  obtain ⟨hnodeId, hnodeIp, hgeneration, hexpiry, hinformation⟩ := hmember
  rw [DhtEntry.fromJson_eq_ok_iff nlohmann hj, DhtEntry.fromJson_eq_ok_iff nlohmann hj',
    Shard.foldl_insert_iff hids hperm hmid, hnodeId, hnodeIp, hgeneration, hexpiry, hinformation]

/-- The shards in the other order, and a member that is not read. -/
theorem codec_lossless_reordered :
    let shards : List Shard := [⟨lit "s", [lit "p", lit "q"]⟩, ⟨lit "t", []⟩]
    let e : DhtEntry := ⟨lit "a", lit "10.0.0.1", ⟨shards, by simp +decide [shards]⟩, 1, 20, []⟩
    let j : Json := .object [(lit "comment", .null), (lit "expiry_timestamp", .numberInteger 20),
      (lit "generation_timestamp", .numberInteger 1), (lit "information", .string []),
      (lit "node_id", .string (lit "a")), (lit "node_ip", .string (lit "10.0.0.1")),
      (lit "node_shard", .array (shards.reverse.map Shard.toJson))]
    DhtEntry.fromJson .withoutParser j = .ok e := by
  intro shards e j
  refine ((codec_lossless .withoutParser).2 e.toJson j ⟨?_, ?_⟩ e).1
    ((codec_lossless .withoutParser).1 e)
  · simp +decide [Json.at, DhtEntry.toJson, e, j]
  · refine ⟨shards.map Shard.toJson, shards.reverse.map Shard.toJson, _, rfl, rfl, ?_,
      (shards.reverse_perm.map Shard.toJson).symm, List.forall₂_same.2 fun _ _ => ⟨rfl, rfl⟩⟩
    refine List.pairwise_pair.2 fun shardId hs ht => ?_
    have heq : lit "s" = lit "t" := (Except.ok.inj hs).trans (Except.ok.inj ht).symm
    exact absurd heq (by decide)

end PacPrism
