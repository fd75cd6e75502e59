import PacPrism.Node.Dht.IpIndex

/-!
# Node/Dht/Convergence — the order in which entries arrive does not matter

    entries ──perm──▸ entries'
       │                 │ storeAll
       ▾                 ▾
       d       =         d'

Every table but the IP index is read off the map the run refines (`Refines.tables_eq`), and that map
binds each node to its newest entry, whatever the order.  The IP index is not part of the
refinement: it converges because, as long as no IP is shared, it is the inverse of the recorded IPs
(`ownersRecorded_storeAll`).
-/

namespace PacPrism

/-- Entries stored one after another on a fresh object. -/
abbrev DhtOperation.storeAll (entries : List DhtEntry) : DhtOperation :=
  DhtOperation.run (entries.map .storeEntry)

/-- The abstract counterpart is a run of stores of the register. -/
theorem Registry.run_map_storeEntry (entries : List DhtEntry) :
    Registry.run (entries.map .storeEntry)
      = Runs.run (Register.store DhtEntry.nodeId DhtEntry.generationTimestamp) ∅ entries :=
  List.foldl_map

/-- The tables kept for single nodes and for shards agree: all but the IP index, the sets of a shard
table that has the shard and of one that does not if the set is empty. -/
structure DhtOperation.Agrees (d d' : DhtOperation) : Prop where
  nodeIp : d.nodeIdToNodeIpEntries = d'.nodeIdToNodeIpEntries
  generation : d.nodeIdToGenerationTimestampEntries = d'.nodeIdToGenerationTimestampEntries
  expiries : d.expiryTimestampToNodeIdEntries = d'.expiryTimestampToNodeIdEntries
  expiry : d.nodeIdToExpiryTimestampEntries = d'.nodeIdToExpiryTimestampEntries
  holders : ∀ shardId,
    (d.queryNodeIdsByShardId shardId).getD ∅ = (d'.queryNodeIdsByShardId shardId).getD ∅
  carried : d.nodeIdToShardIdsEntries = d'.nodeIdToShardIdsEntries
  information : d.nodeIdToInformationEntries = d'.nodeIdToInformationEntries
  liveness : d.nodeIdToLivenessEntries = d'.nodeIdToLivenessEntries

/-- **The map determines the tables.** -/
theorem Refines.agrees {m : Registry} {d d' : DhtOperation} (h : Refines m d)
    (h' : Refines m d') : d.Agrees d' where
  nodeIp := Finmap.ext_lookup fun n => by rw [h.nodeIp, h'.nodeIp]
  generation := Finmap.ext_lookup fun n => by rw [h.generation, h'.generation]
  expiries := OrdSet.ext fun ⟨t, n⟩ => by rw [h.expiries, h'.expiries]
  expiry := Finmap.ext_lookup fun n => by rw [h.expiry, h'.expiry]
  holders shardId := OrdSet.ext fun n => by
    rw [DhtOperation.queryNodeIdsByShardId_getD, DhtOperation.queryNodeIdsByShardId_getD, h.holders,
      h'.holders]
  carried := Finmap.ext_lookup fun n => by
    have hsub : d.nodeIdToShardIdsEntries.subscript n = d'.nodeIdToShardIdsEntries.subscript n :=
      OrdSet.ext fun shardId => by rw [h.carried, h'.carried]
    by_cases hn : n ∈ d.nodeIdToShardIdsEntries
    · have hn' : n ∈ d'.nodeIdToShardIdsEntries := (h'.carrying n).2 ((h.carrying n).1 hn)
      rw [Table.lookup_of_mem hn, Table.lookup_of_mem hn', hsub]
    · have hn' : n ∉ d'.nodeIdToShardIdsEntries := fun hn' =>
        hn ((h.carrying n).2 ((h'.carrying n).1 hn'))
      rw [Finmap.lookup_eq_none.2 hn, Finmap.lookup_eq_none.2 hn']
  information := Finmap.ext_lookup fun n => by rw [h.information, h'.information]
  liveness := Finmap.ext_lookup fun n => by rw [h.liveness, h'.liveness]

/-! ## The IP index without shared IPs -/

/-- The IP index is the inverse of the recorded IPs. -/
def OwnersRecorded (d : DhtOperation) : Prop :=
  ∀ ip n, d.owner ip = some n ↔ d.recordedIp n = some ip

/-- No IP occurs with two node ids. -/
def IpsUnshared (entries : List DhtEntry) : Prop :=
  ∀ a ∈ entries, ∀ b ∈ entries, a.nodeIp = b.nodeIp → a.nodeId = b.nodeId

/-- What an accepted store does to the index, if it was the inverse: the node leaves its old IP and
owns the new one. -/
theorem OwnersRecorded.owner_storeEntry {m : Registry} {d : DhtOperation} (h : Refines m d)
    (ho : OwnersRecorded d) {e : DhtEntry} (hadm : d.Admits e) (ip : Bytes) :
    (d.storeEntry e).owner ip = if ip = e.nodeIp then some e.nodeId
      else if d.recordedIp e.nodeId = some ip then none else d.owner ip := by
  rcases hadm with hnew | hsup
  · have hnone : d.recordedIp e.nodeId ≠ some ip := fun hip =>
      hnew (h.verifyEntry_of_recordedIp hip)
    rw [Refines.owner_storeEntry_of_new hnew, if_neg hnone]
  · obtain ⟨old, hold⟩ := h.exists_recordedIp hsup.1
    rw [Refines.owner_storeEntry_of_supersedes hsup hold]
    by_cases hip : d.recordedIp e.nodeId = some ip
    · obtain rfl : old = ip := Option.some.inj (hold.symm.trans hip)
      rw [if_pos rfl, if_pos hip, (ho old e.nodeId).2 hip, DhtOperation.release, Option.getD_some,
        if_pos rfl]
    · rw [if_neg hip, if_neg fun heq : ip = old => hip (heq ▸ hold)]

theorem Refines.recordedIp_storeEntry {m : Registry} {d : DhtOperation} (h : Refines m d)
    {e : DhtEntry} (hadm : d.Admits e) (n : Bytes) :
    (d.storeEntry e).recordedIp n = if n = e.nodeId then some e.nodeIp else d.recordedIp n := by
  rcases hadm with hnew | hsup
  exacts [recordedIp_storeEntry_of_new hnew n, h.recordedIp_storeEntry_of_supersedes hsup n]

/-- **A store keeps the index the inverse**, if no other node records the IP of its entry. -/
theorem OwnersRecorded.storeEntry {m : Registry} {d : DhtOperation} (h : Refines m d)
    (ho : OwnersRecorded d) {e : DhtEntry}
    (hfree : ∀ n, d.recordedIp n = some e.nodeIp → n = e.nodeId) :
    OwnersRecorded (d.storeEntry e) := by
  by_cases hadm : d.Admits e
  case neg => rwa [DhtOperation.storeEntry_of_not_admits hadm]
  case pos =>
    intro ip n
    rw [ho.owner_storeEntry h hadm, h.recordedIp_storeEntry hadm]
    by_cases hip : ip = e.nodeIp
    · subst hip
      rw [if_pos rfl]
      split_ifs with hn
      · simp [hn]
      · exact iff_of_false (fun heq => hn (Option.some.inj heq).symm) fun hrec => hn (hfree n hrec)
    · rw [if_neg hip]
      split_ifs with hrec hn hn
      · exact iff_of_false nofun fun heq => hip (Option.some.inj heq).symm
      · refine iff_of_false nofun fun hn' => hn ?_
        exact Option.some.inj (((ho ip n).2 hn').symm.trans ((ho ip e.nodeId).2 hrec))
      · subst hn
        exact iff_of_false (fun howner => hrec ((ho ip e.nodeId).1 howner))
          fun heq => hip (Option.some.inj heq).symm
      · exact ho ip n

theorem storeAll_concat (entries : List DhtEntry) (e : DhtEntry) :
    DhtOperation.storeAll (entries ++ [e]) = (DhtOperation.storeAll entries).storeEntry e := by
  rw [DhtOperation.storeAll, DhtOperation.run, List.map_append, Runs.run_append]
  rfl

/-- What is recorded was stored. -/
theorem mem_of_recordedIp_storeAll {entries : List DhtEntry} {n ip : Bytes}
    (h : (DhtOperation.storeAll entries).recordedIp n = some ip) :
    ∃ e ∈ entries, e.nodeId = n ∧ e.nodeIp = ip := by
  have hr := Refines.run (entries.map .storeEntry)
  rw [DhtOperation.recordedIp, hr.nodeIp, Option.map_eq_some_iff] at h
  obtain ⟨e, he, hip⟩ := h
  refine ⟨e, ?_, hr.wellKeyed n e he, hip⟩
  rw [Registry.run_map_storeEntry] at he
  exact Register.mem_of_lookup_run_store he

/-- **Without shared IPs the index is the inverse of the recorded IPs.** -/
theorem ownersRecorded_storeAll {entries : List DhtEntry} (hips : IpsUnshared entries) :
    OwnersRecorded (DhtOperation.storeAll entries) := by
  induction entries using List.reverseRecOn with
  | nil => exact fun ip n => iff_of_false nofun nofun
  | append_singleton entries e ih =>
    rw [storeAll_concat]
    refine (ih fun a ha b hb => hips a (List.mem_append_left _ ha) b
      (List.mem_append_left _ hb)).storeEntry (Refines.run _) fun n hn => ?_
    obtain ⟨e', he', rfl, hip⟩ := mem_of_recordedIp_storeAll hn
    exact hips e' (List.mem_append_left _ he') e List.mem_concat_self hip

/-! ## Convergence -/

/-- Entries of one node have different generation timestamps. -/
def GenerationsDistinct (entries : List DhtEntry) : Prop :=
  entries.Pairwise fun a b => a.nodeId = b.nodeId → a.generationTimestamp ≠ b.generationTimestamp

theorem GenerationsDistinct.separated {entries : List DhtEntry} (h : GenerationsDistinct entries) :
    Register.Separated DhtEntry.nodeId DhtEntry.generationTimestamp entries := by
  refine List.Pairwise.forall_of_forall_of_flip (fun _ _ _ _ => rfl) ?_ ?_
  · exact h.imp fun hab hnode hgen => absurd hgen (hab hnode)
  · exact h.imp fun hab hnode hgen => absurd hgen.symm (hab hnode.symm)

/-- What a run of stores records, read off the list. -/
theorem lookup_run_storeEntry {entries : List DhtEntry} (h : GenerationsDistinct entries)
    (n : Bytes) (e : DhtEntry) : (Registry.run (entries.map .storeEntry)).lookup n = some e
      ↔ Register.Newest DhtEntry.nodeId DhtEntry.generationTimestamp entries n e := by
  rw [Registry.run_map_storeEntry, Register.lookup_run_store h.separated]

/-- **Storing converges.**  Entries of which no two of one node have the same timestamp lead to the
same tables in whatever order they arrive: every node's record is its newest entry's, and the IP
index is the same too if no IP is shared. -/
theorem storeAll_converges {entries entries' : List DhtEntry} (h : GenerationsDistinct entries)
    (hperm : entries.Perm entries') :
    (DhtOperation.storeAll entries).Agrees (DhtOperation.storeAll entries')
    ∧ (∀ e ∈ entries,
        (∀ e' ∈ entries, e'.nodeId = e.nodeId → e'.generationTimestamp ≤ e.generationTimestamp) →
        (DhtOperation.storeAll entries).Records e)
    ∧ (∀ n, (DhtOperation.storeAll entries).verifyEntry n = true ↔ ∃ e ∈ entries, e.nodeId = n)
    ∧ (IpsUnshared entries →
        (DhtOperation.storeAll entries).nodeIpToNodeIdEntries
          = (DhtOperation.storeAll entries').nodeIpToNodeIdEntries) := by
  have hr : Refines (Registry.run (entries.map .storeEntry)) (DhtOperation.storeAll entries) :=
    Refines.run _
  have hr' : Refines (Registry.run (entries.map .storeEntry)) (DhtOperation.storeAll entries') := by
    rw [Registry.run_map_storeEntry, Register.run_store_eq_of_perm h.separated hperm,
      ← Registry.run_map_storeEntry]
    exact Refines.run _
  have hagrees := hr.agrees hr'
  refine ⟨hagrees, fun e he hmax => ?_, fun n => ?_, fun hips => ?_⟩
  · exact hr.records ((lookup_run_storeEntry h _ _).2 ⟨he, rfl, hmax⟩)
  · rw [hr.verifyEntry_iff, Registry.run_map_storeEntry, Register.mem_run_store]
  · have hips' : IpsUnshared entries' := fun a ha b hb =>
      hips a (hperm.mem_iff.2 ha) b (hperm.mem_iff.2 hb)
    refine Finmap.ext_lookup fun ip => Option.ext fun n => ?_
    have hown := ownersRecorded_storeAll hips ip n
    have hown' := ownersRecorded_storeAll hips' ip n
    rw [DhtOperation.recordedIp, ← hagrees.nodeIp] at hown'
    exact hown.trans hown'.symm

/-- A node moves to another IP and drops a shard; the news may overtake the olds. -/
theorem storeAll_converges_overtaken :
    let old : DhtEntry := ⟨lit "a", lit "10.0.0.1", ⟨[⟨lit "s", []⟩], by simp⟩, 1, 20, []⟩
    let new : DhtEntry := ⟨lit "a", lit "10.0.0.2", ∅, 2, 10, []⟩
    (DhtOperation.storeAll [old, new]).Agrees (DhtOperation.storeAll [new, old])
    ∧ (DhtOperation.storeAll [old, new]).Records new
    ∧ (DhtOperation.storeAll [old, new]).nodeIpToNodeIdEntries
        = (DhtOperation.storeAll [new, old]).nodeIpToNodeIdEntries := by
  intro old new
  have hgen : GenerationsDistinct [old, new] := by
    simp +decide [GenerationsDistinct, old, new]
  obtain ⟨hagrees, hrec, -, hip⟩ := storeAll_converges hgen (.swap new old [])
  refine ⟨hagrees, hrec new (by simp) ?_, hip ?_⟩
  · simp +decide [old, new]
  · simp +decide [IpsUnshared, old, new]

end PacPrism
