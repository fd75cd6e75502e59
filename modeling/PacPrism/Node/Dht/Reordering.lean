import PacPrism.Node.Dht.Convergence
import PacPrism.Node.Dht.ShardSets

/-!
# Node/Dht/Reordering — what a store may overtake

    store e, calls  ──▸  m
       │ delayed         ‖  as long as the node of e lives
       ▾                 ▾
    calls, store e  ──▸  m

Stores commute with each other, and a store commutes with a cleanup exactly if its node survives it
(`Register.clean_store_eq_iff`): otherwise the cleanup removes what is stored, or what would have
held it off, and the store that comes late brings the node back.
-/

namespace PacPrism

open DhtOperation (Call)

namespace Registry

variable {m : Registry} {e : DhtEntry}

/-- The entry has the timestamp of no other entry of its node. -/
def Separates (calls : List Call) (e : DhtEntry) : Prop :=
  ∀ b, Call.storeEntry b ∈ calls → b.nodeId = e.nodeId →
    b.generationTimestamp = e.generationTimestamp → b = e

/-- One call that the entry may wait for. -/
theorem apply_storeEntry_comm {call : Call} (hseparates : Separates [call] e)
    (hlive : e.nodeId ∈ (m.apply (.storeEntry e)).apply call) :
    (m.apply (.storeEntry e)).apply call = (m.apply call).apply (.storeEntry e) := by
  cases call with
  | storeEntry b =>
    exact Register.store_comm fun hnode hgen =>
      (hseparates b List.mem_cons_self hnode.symm hgen.symm).symm
  | cleanByExpiryTime nowSec => exact Register.clean_store_eq_iff.2 hlive

/-- **A store may wait as long as its node would live.** -/
theorem run_delayed {between : List Call} (hseparates : Separates between e)
    (hlive : ∀ calls, calls <+: between →
      e.nodeId ∈ Runs.run Registry.apply (m.apply (.storeEntry e)) calls) :
    Runs.run Registry.apply (m.apply (.storeEntry e)) between
      = (Runs.run Registry.apply m between).apply (.storeEntry e) := by
  induction between generalizing m with
  | nil => rfl
  | cons call between ih =>
    have hcomm : (m.apply (.storeEntry e)).apply call = (m.apply call).apply (.storeEntry e) :=
      apply_storeEntry_comm
        (fun b hb => hseparates b (List.mem_cons.2 (.inl (List.mem_singleton.1 hb))))
        (hlive [call] ⟨between, rfl⟩)
    rw [Runs.run_cons, Runs.run_cons, hcomm]
    refine ih (fun b hb => hseparates b (List.mem_cons_of_mem _ hb)) fun calls hcalls => ?_
    rw [← hcomm]
    exact hlive (call :: calls) (List.cons_prefix_cons.2 ⟨rfl, hcalls⟩)

end Registry

/-- The tables agree, and the shard tables have the same sets, the empty ones included. -/
structure DhtOperation.Matches (d d' : DhtOperation) : Prop extends d.Agrees d' where
  shards : d.shardIdToNodeIdsEntries = d'.shardIdToNodeIdsEntries

/-- What agrees on the shards of the table agrees on their sets. -/
theorem DhtOperation.Agrees.matches {d d' : DhtOperation} (h : d.Agrees d')
    (hkeys : ∀ shardId,
      shardId ∈ d.shardIdToNodeIdsEntries ↔ shardId ∈ d'.shardIdToNodeIdsEntries) :
    d.Matches d' where
  toAgrees := h
  shards := Finmap.ext_lookup fun shardId => by
    have hsets := h.holders shardId
    rw [queryNodeIdsByShardId_getD, queryNodeIdsByShardId_getD] at hsets
    by_cases hkey : shardId ∈ d.shardIdToNodeIdsEntries
    · rw [Table.lookup_of_mem hkey, Table.lookup_of_mem ((hkeys shardId).1 hkey), hsets]
    · rw [Finmap.lookup_eq_none.2 hkey, Finmap.lookup_eq_none.2 (mt (hkeys shardId).2 hkey)]

/-- A store brings the same shards behind a cleanup as before it, if its node survives. -/
theorem Refines.brings_cleanByExpiryTime_iff {m : Registry} {d : DhtOperation} (h : Refines m d)
    {e : DhtEntry} {nowSec : Int}
    (hlive : ((d.storeEntry e).cleanByExpiryTime nowSec).verifyEntry e.nodeId = true)
    (shardId : Bytes) : (d.cleanByExpiryTime nowSec).Brings shardId (.storeEntry e)
      ↔ d.Brings shardId (.storeEntry e) := by
  have hmem := (((h.storeEntry e).cleanByExpiryTime nowSec).verifyEntry_iff e.nodeId).1 hlive
  refine and_congr_left fun _ => ?_
  rw [(h.cleanByExpiryTime nowSec).admits_iff, h.admits_iff]
  exact Register.accepts_clean_iff hmem

/-- **When a store may overtake a cleanup**: in every state that calls lead to, exactly if its node
outlives the cleanup behind it; otherwise the late store brings the node back. -/
theorem store_clean_agrees_iff (calls : List Call) (e : DhtEntry) (nowSec : Int) :
    ((((DhtOperation.run calls).storeEntry e).cleanByExpiryTime nowSec).Matches
        (((DhtOperation.run calls).cleanByExpiryTime nowSec).storeEntry e)
      ↔ (((DhtOperation.run calls).storeEntry e).cleanByExpiryTime nowSec).verifyEntry e.nodeId
        = true)
      ∧ (((DhtOperation.run calls).cleanByExpiryTime nowSec).storeEntry e).verifyEntry e.nodeId
        = true := by
  have hr := Refines.run calls
  have hearly := (hr.storeEntry e).cleanByExpiryTime nowSec
  have hlate := (hr.cleanByExpiryTime nowSec).storeEntry e
  have hback := (hlate.verifyEntry_iff e.nodeId).2 (Register.mem_store_self _ e)
  refine ⟨⟨fun h => ?_, fun h => ?_⟩, hback⟩
  · rw [DhtOperation.verifyEntry, h.generation]
    exact hback
  · have hcomm := Register.clean_store_eq_iff.2 ((hearly.verifyEntry_iff e.nodeId).1 h)
    refine (hearly.agrees (hcomm ▸ hlate)).matches fun shardId => ?_
    have hearlier := hr.mem_shardIds_apply (.storeEntry e) shardId
    have hlater :=
      (hr.cleanByExpiryTime nowSec).mem_shardIds_apply (.storeEntry e) shardId
    rw [hr.brings_cleanByExpiryTime_iff h, hr.mem_shardIds_cleanByExpiryTime] at hlater
    exact ((hr.storeEntry e).mem_shardIds_cleanByExpiryTime nowSec shardId).trans
      (hearlier.trans hlater.symm)

/-- **A store may be late**, as long as its node would have lived: whatever is stored and cleaned up
in between, the tables agree in the end with those it would have led to in time. -/
theorem delayed_store_agrees (before between : List Call) (e : DhtEntry)
    (hseparates : Registry.Separates between e)
    (hlive : ∀ calls, calls <+: between →
      (DhtOperation.run (before ++ .storeEntry e :: calls)).verifyEntry e.nodeId = true) :
    (DhtOperation.run (before ++ .storeEntry e :: between)).Agrees
      (DhtOperation.run (before ++ between ++ [.storeEntry e])) := by
  have hrun (calls : List Call) : Registry.run (before ++ .storeEntry e :: calls)
      = Runs.run Registry.apply ((Registry.run before).apply (.storeEntry e)) calls :=
    Runs.run_append _ _ before _
  have hlate : Registry.run (before ++ between ++ [.storeEntry e])
      = (Runs.run Registry.apply (Registry.run before) between).apply (.storeEntry e) := by
    rw [Registry.run, Runs.run_append, Runs.run_append]
    rfl
  have hdelayed := Registry.run_delayed (m := Registry.run before) hseparates fun calls hcalls => by
    rw [← hrun]
    exact ((Refines.run _).verifyEntry_iff e.nodeId).1 (hlive calls hcalls)
  rw [← hrun, ← hlate] at hdelayed
  exact (Refines.run _).agrees (hdelayed ▸ Refines.run _)

/-- A store waits for the news of its own node and for a cleanup. -/
theorem delayed_store_agrees_superseded :
    let old : DhtEntry := ⟨lit "a", lit "10.0.0.1", ∅, 1, 5, []⟩
    let new : DhtEntry := ⟨lit "a", lit "10.0.0.2", ∅, 2, 20, []⟩
    (DhtOperation.run [.storeEntry old, .storeEntry new, .cleanByExpiryTime 10]).Agrees
      (DhtOperation.run [.storeEntry new, .cleanByExpiryTime 10, .storeEntry old]) := by
  intro old new
  have hlive : ∀ calls ∈ [Call.storeEntry new, .cleanByExpiryTime 10].inits,
      (DhtOperation.run ([] ++ .storeEntry old :: calls)).verifyEntry old.nodeId = true := by decide
  refine delayed_store_agrees [] [.storeEntry new, .cleanByExpiryTime 10] old ?_ fun calls hcalls =>
    hlive calls ((List.mem_inits _ _).2 hcalls)
  intro b hb _ hgen
  obtain rfl : b = new := by simpa using hb
  exact absurd hgen (by decide)

end PacPrism
