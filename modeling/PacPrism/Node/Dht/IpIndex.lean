import PacPrism.Node.Dht.Refinement

/-!
# Node/Dht/IpIndex — the owner of an IP, call by call

Several nodes may register one IP; the last to do so owns it.  A removal releases the IP its node
owns, and its ownership test *binds an IP without owner to the empty node id*.  Seen from one IP, a
removal is `release` on the owner, and a cleanup is a fold of `release` over the expired nodes that
record the IP, in the order of their expiry (`owner_cleanByExpiryTime`).  The fold is read off its
last element (`owner_cleanByExpiryTime_cases`).
-/

namespace PacPrism

/-! ## The owner of an IP under removals -/

namespace DhtOperation

/-- The node an IP is mapped to. -/
abbrev owner (d : DhtOperation) (ip : Bytes) : Option Bytes := d.nodeIpToNodeIdEntries.lookup ip

/-- The IP recorded of a node. -/
abbrev recordedIp (d : DhtOperation) (n : Bytes) : Option Bytes := d.nodeIdToNodeIpEntries.lookup n

/-- What removing node `n`, which records the IP, does to the owner of the IP. -/
def release (o : Option Bytes) (n : Bytes) : Option Bytes :=
  if o.getD [] = n then none else some (o.getD [])

/-- **Removals that end on an unowned IP leave the empty id as owner**, unless the last node removed
is the empty id itself. -/
theorem foldl_release_none (l : List Bytes) :
    l.foldl release none = l.getLast?.bind fun n => if n = [] then none else some [] := by
  induction l using List.reverseRecOn with
  | nil => rfl
  | append_singleton l n ih =>
    have hempty : (l.foldl release none).getD [] = [] := by
      rw [ih]
      cases l.getLast? with
      | none => rfl
      | some k => by_cases hk : k = [] <;> simp [hk]
    rw [List.foldl_append, List.foldl_cons, List.foldl_nil, release, hempty,
      List.getLast?_concat, Option.bind_some]
    simp only [eq_comm]

/-- **An owner is untouched until its own removal**, after which the IP has no owner. -/
theorem foldl_release_some {κ : Type*} [LinearOrder κ] (key : Bytes → κ) {l : List Bytes}
    (hl : l.Pairwise fun a b => key a < key b) (n : Bytes) :
    l.foldl release (some n)
      = if n ∈ l then (l.filter fun k => key n < key k).foldl release none else some n := by
  induction l with
  | nil => rfl
  | cons k l ih =>
    obtain ⟨hk, hl⟩ := List.pairwise_cons.1 hl
    rw [List.foldl_cons, release, Option.getD_some]
    by_cases hnk : n = k
    · subst hnk
      rw [if_pos rfl, if_pos List.mem_cons_self, List.filter_cons_of_neg (by simp),
        List.filter_eq_self.2 fun a ha => by simpa using hk a ha]
    · rw [if_neg hnk, ih hl]
      by_cases hn : n ∈ l
      · rw [if_pos hn, if_pos (List.mem_cons_of_mem _ hn),
          List.filter_cons_of_neg (by simpa using (hk n hn).le)]
      · rw [if_neg hn, if_neg (by simp [hnk, hn])]

/-- The owner an unowned IP ends with, and the last of the nodes removed. -/
theorem foldl_release_none_cases {κ : Type*} [LinearOrder κ] (key : Bytes → κ) {l : List Bytes}
    (hl : l.Pairwise fun a b => key a < key b) :
    l.foldl release none = none ∧ (l = [] ∨ [] ∈ l ∧ ∀ k ∈ l, key k ≤ key [])
    ∨ l.foldl release none = some [] ∧ ∃ n ∈ l, n ≠ [] ∧ ∀ k ∈ l, key k ≤ key n := by
  rw [foldl_release_none]
  rcases List.eq_nil_or_concat l with rfl | ⟨l, n, rfl⟩
  · exact .inl ⟨rfl, .inl rfl⟩
  · rw [List.concat_eq_append] at hl ⊢
    have hmax : ∀ k ∈ l ++ [n], key k ≤ key n := by
      intro k hk
      rcases List.mem_append.1 hk with hk | hk
      · exact ((List.pairwise_append.1 hl).2.2 k hk n (List.mem_singleton_self n)).le
      · rw [List.mem_singleton.1 hk]
    rw [List.getLast?_concat, Option.bind_some]
    split_ifs with hn
    · exact .inl ⟨rfl, .inr ⟨by simp [hn], fun k hk => hn ▸ hmax k hk⟩⟩
    · exact .inr ⟨rfl, n, by simp, hn, hmax⟩

theorem owner_removeEntry {d : DhtOperation} {n : Bytes} (hlive : d.verifyEntry n = true)
    {nodeIp : Bytes} (hip : d.recordedIp n = some nodeIp) (ip : Bytes) :
    (d.removeEntry n).owner ip
      = if d.recordedIp n = some ip then release (d.owner ip) n else d.owner ip := by
  rw [removeEntry_of_live hlive, owner, lookup_releaseIp, Table.subscript_of_lookup hip, hip]
  by_cases h : ip = nodeIp
  · subst h
    rw [if_pos rfl, if_pos rfl]
    rfl
  · rw [if_neg h, if_neg fun h' => h (Option.some.inj h').symm]

/-! ## The order of a cleanup -/

/-- A cleanup at this clock value removes the node. -/
def Expired (d : DhtOperation) (nowSec : Int) (n : Bytes) : Prop :=
  (d.nodeIdToExpiryTimestampEntries.subscript n).toInt ≤ nowSec

instance (d : DhtOperation) (nowSec : Int) (n : Bytes) : Decidable (d.Expired nowSec n) :=
  inferInstanceAs (Decidable (_ ≤ nowSec))

/-- The place of a node in the order in which a cleanup removes. -/
def expiryKey (d : DhtOperation) (n : Bytes) : Int64 ×ₗ Bytes :=
  toLex (d.nodeIdToExpiryTimestampEntries.subscript n, n)

theorem expiryKey_injective (d : DhtOperation) : Function.Injective d.expiryKey :=
  fun _ _ h => congrArg (fun p => (ofLex p).2) h

/-- Expired nodes come before the others. -/
theorem expiryKey_lt_of_expired {d : DhtOperation} {nowSec : Int} {n k : Bytes}
    (hn : d.Expired nowSec n) (hk : ¬ d.Expired nowSec k) : d.expiryKey n < d.expiryKey k :=
  Prod.Lex.toLex_lt_toLex.2 (.inl (Int64.lt_iff_toInt_lt.2 (hn.trans_lt (not_le.1 hk))))

/-- The nodes a cleanup removes that record an IP, in the order of removal. -/
def expiredAt (d : DhtOperation) (nowSec : Int) (ip : Bytes) : List Bytes :=
  (d.entriesToRemove nowSec).filter fun n => d.recordedIp n = some ip

/-- The entry replaces the one stored for its node. -/
def Supersedes (d : DhtOperation) (e : DhtEntry) : Prop :=
  d.verifyEntry e.nodeId = true
    ∧ d.nodeIdToGenerationTimestampEntries.subscript e.nodeId < e.generationTimestamp

/-- A store is of a new node, or replaces its entry, or changes nothing. -/
theorem storeEntry_cases (d : DhtOperation) (e : DhtEntry) :
    ¬ d.verifyEntry e.nodeId = true ∨ d.Supersedes e ∨ ¬ d.Supersedes e ∧ d.storeEntry e = d := by
  by_cases hlive : d.verifyEntry e.nodeId = true
  · by_cases hgen : d.nodeIdToGenerationTimestampEntries.subscript e.nodeId < e.generationTimestamp
    · exact .inr (.inl ⟨hlive, hgen⟩)
    · exact .inr (.inr ⟨fun hsup => hgen hsup.2, by rw [storeEntry, if_pos hlive, if_neg hgen]⟩)
  · exact .inl hlive

/-- The entry is stored: its node is new, or recorded with an older entry. -/
def Admits (d : DhtOperation) (e : DhtEntry) : Prop :=
  ¬ d.verifyEntry e.nodeId = true ∨ d.Supersedes e

/-- A store that is not admitted changes nothing. -/
theorem storeEntry_of_not_admits {d : DhtOperation} {e : DhtEntry} (h : ¬ d.Admits e) :
    d.storeEntry e = d := by
  rcases d.storeEntry_cases e with hnew | hsup | ⟨-, heq⟩
  exacts [absurd (.inl hnew) h, absurd (.inr hsup) h, heq]

end DhtOperation

namespace Refines

variable {m : Registry} {d : DhtOperation}

/-- **The entries that are admitted are those the map accepts.** -/
theorem admits_iff (h : Refines m d) {e : DhtEntry} :
    d.Admits e ↔ Register.Accepts DhtEntry.nodeId DhtEntry.generationTimestamp m e := by
  have hgen (old : DhtEntry) (hold : m.lookup e.nodeId = some old) :
      d.nodeIdToGenerationTimestampEntries.subscript e.nodeId = old.generationTimestamp :=
    Table.subscript_of_lookup (by rw [h.generation, hold]; rfl)
  constructor
  · rintro (hnew | ⟨-, hnewer⟩) old hold
    · exact absurd ((h.verifyEntry_iff _).2 (Finmap.mem_of_lookup_eq_some hold)) hnew
    · exact hgen old hold ▸ hnewer
  · intro hacc
    by_cases hlive : d.verifyEntry e.nodeId = true
    · obtain ⟨old, hold⟩ := Finmap.mem_iff.1 ((h.verifyEntry_iff _).1 hlive)
      exact .inr ⟨hlive, hgen old hold ▸ hacc old hold⟩
    · exact .inl hlive

/-- **An entry that is admitted is what the tables then record of its node.** -/
theorem records_storeEntry (h : Refines m d) {e : DhtEntry} (hadm : d.Admits e) :
    (d.storeEntry e).Records e := by
  refine (h.storeEntry e).records ?_
  rw [Register.store, if_pos (h.admits_iff.1 hadm)]
  exact Finmap.lookup_insert m

/-! ## Live nodes, their IP and their expiry -/

theorem verifyEntry_of_recordedIp (h : Refines m d) {n ip : Bytes}
    (hip : d.recordedIp n = some ip) :
    d.verifyEntry n = true := by
  rw [h.verifyEntry_eq, ← Option.isSome_map (f := (·.nodeIp)), ← h.nodeIp]
  exact Option.isSome_iff_exists.2 ⟨ip, hip⟩

theorem exists_recordedIp (h : Refines m d) {n : Bytes} (hlive : d.verifyEntry n = true) :
    ∃ ip, d.recordedIp n = some ip := by
  obtain ⟨e, he⟩ := Finmap.mem_iff.1 ((h.verifyEntry_iff n).1 hlive)
  exact ⟨e.nodeIp, by rw [DhtOperation.recordedIp, h.nodeIp, he]; rfl⟩

theorem subscript_expiry (h : Refines m d) {n : Bytes} {e : DhtEntry} (he : m.lookup n = some e) :
    d.nodeIdToExpiryTimestampEntries.subscript n = e.expiryTimestamp :=
  Table.subscript_of_lookup (by rw [h.expiry, he]; rfl)

/-- A cleanup collects the live nodes that are expired. -/
theorem mem_entriesToRemove_iff (h : Refines m d) (nowSec : Int) (n : Bytes) :
    n ∈ d.entriesToRemove nowSec ↔ d.verifyEntry n = true ∧ d.Expired nowSec n := by
  rw [h.mem_entriesToRemove, h.verifyEntry_iff, Finmap.mem_iff, DhtOperation.Expired]
  constructor
  · rintro ⟨e, he, hle⟩
    exact ⟨⟨e, he⟩, by rwa [h.subscript_expiry he]⟩
  · rintro ⟨⟨e, he⟩, hle⟩
    exact ⟨e, he, by rwa [h.subscript_expiry he] at hle⟩

theorem mem_expiredAt (h : Refines m d) (nowSec : Int) (ip n : Bytes) :
    n ∈ d.expiredAt nowSec ip ↔ d.recordedIp n = some ip ∧ d.Expired nowSec n := by
  rw [DhtOperation.expiredAt, List.mem_filter, h.mem_entriesToRemove_iff, decide_eq_true_iff]
  constructor
  · exact fun ⟨⟨_, hexp⟩, hip⟩ => ⟨hip, hexp⟩
  · exact fun ⟨hip, hexp⟩ => ⟨⟨h.verifyEntry_of_recordedIp hip, hexp⟩, hip⟩

/-- **A cleanup removes in the order of `expiryKey`.** -/
theorem sorted_entriesToRemove (h : Refines m d) (nowSec : Int) :
    (d.entriesToRemove nowSec).Pairwise fun a b => d.expiryKey a < d.expiryKey b := by
  have hkey : ∀ p ∈ d.expiryTimestampToNodeIdEntries.elems, d.expiryKey p.2 = toLex p := by
    rintro ⟨t, n⟩ hp
    obtain ⟨e, he, rfl⟩ := Option.map_eq_some_iff.1 ((h.expiries t n).1 hp)
    rw [DhtOperation.expiryKey, h.subscript_expiry he]
  rw [DhtOperation.entriesToRemove, List.pairwise_map]
  refine List.Pairwise.imp_of_mem (fun {p q} hp hq hpq => ?_)
    (d.expiryTimestampToNodeIdEntries.sorted.sublist (List.takeWhile_sublist _))
  rwa [hkey p ((List.takeWhile_sublist _).subset hp), hkey q ((List.takeWhile_sublist _).subset hq)]

theorem sorted_expiredAt (h : Refines m d) (nowSec : Int) (ip : Bytes) :
    (d.expiredAt nowSec ip).Pairwise fun a b => d.expiryKey a < d.expiryKey b :=
  (h.sorted_entriesToRemove nowSec).filter _

/-! ## A cleanup, seen from one IP -/

theorem recordedIp_removeEntry (h : Refines m d) (n k : Bytes) :
    (d.removeEntry n).recordedIp k = if k = n then none else d.recordedIp k := by
  rw [DhtOperation.recordedIp, (h.erase n).nodeIp, Table.lookup_erase_eq_ite]
  split_ifs
  exacts [rfl, (h.nodeIp k).symm]

/-- Removing distinct live nodes one after another releases the IP once for each that records
it. -/
theorem owner_foldl_removeEntry {ids : List Bytes} (h : Refines m d) (hids : ids.Nodup)
    (hlive : ∀ n ∈ ids, d.verifyEntry n = true) (ip : Bytes) :
    (ids.foldl DhtOperation.removeEntry d).owner ip
      = (ids.filter fun n => d.recordedIp n = some ip).foldl DhtOperation.release (d.owner ip) := by
  induction ids generalizing m d with
  | nil => rfl
  | cons n ids ih =>
    obtain ⟨hn, hids⟩ := List.nodup_cons.1 hids
    obtain ⟨nodeIp, hip⟩ := h.exists_recordedIp (hlive n List.mem_cons_self)
    have hne : ∀ k ∈ ids, (d.removeEntry n).recordedIp k = d.recordedIp k := fun k hk => by
      rw [h.recordedIp_removeEntry, if_neg (ne_of_mem_of_not_mem hk hn)]
    have hlive' : ∀ k ∈ ids, (d.removeEntry n).verifyEntry k = true := fun k hk => by
      obtain ⟨kip, hkip⟩ := h.exists_recordedIp (hlive k (List.mem_cons_of_mem _ hk))
      exact (h.erase n).verifyEntry_of_recordedIp ((hne k hk).trans hkip)
    rw [List.foldl_cons, ih (h.erase n) hids hlive',
      List.filter_congr fun k hk => by rw [hne k hk],
      DhtOperation.owner_removeEntry (hlive n List.mem_cons_self) hip]
    by_cases hrec : d.recordedIp n = some ip
    · rw [if_pos hrec, List.filter_cons_of_pos (by simpa using hrec), List.foldl_cons]
    · rw [if_neg hrec, List.filter_cons_of_neg (by simpa using hrec)]

/-- **A cleanup, seen from one IP**, releases it once for each expired node that records it. -/
theorem owner_cleanByExpiryTime (h : Refines m d) (nowSec : Int) (ip : Bytes) :
    (d.cleanByExpiryTime nowSec).owner ip
      = (d.expiredAt nowSec ip).foldl DhtOperation.release (d.owner ip) :=
  h.owner_foldl_removeEntry
    ((h.sorted_entriesToRemove nowSec).imp fun hab => ne_of_apply_ne _ hab.ne)
    (fun n hn => ((h.mem_entriesToRemove_iff nowSec n).1 hn).1) ip

/-- **The owner a cleanup leaves**: the old one if it stays, else what the removals after the
owner's (all of them, if there was no owner) make of an unowned IP. -/
theorem owner_cleanByExpiryTime_cases (h : Refines m d) (nowSec : Int) (ip : Bytes) :
    (∃ k, d.owner ip = some k ∧ k ∉ d.expiredAt nowSec ip
      ∧ (d.cleanByExpiryTime nowSec).owner ip = some k)
    ∨ ∃ l : List Bytes, (d.cleanByExpiryTime nowSec).owner ip = l.foldl DhtOperation.release none
      ∧ l.Pairwise (fun a b => d.expiryKey a < d.expiryKey b)
      ∧ (∀ k, d.owner ip = some k → k ∈ d.expiredAt nowSec ip)
      ∧ ∀ n, n ∈ l ↔ n ∈ d.expiredAt nowSec ip
          ∧ ∀ k, d.owner ip = some k → d.expiryKey k < d.expiryKey n := by
  have hsort := h.sorted_expiredAt nowSec ip
  rw [h.owner_cleanByExpiryTime]
  cases hown : d.owner ip with
  | none => exact .inr ⟨_, rfl, hsort, by simp, by simp⟩
  | some k =>
    rw [DhtOperation.foldl_release_some d.expiryKey hsort]
    by_cases hk : k ∈ d.expiredAt nowSec ip
    · rw [if_pos hk]
      exact .inr ⟨_, rfl, hsort.filter _, by simpa using hk, by simp⟩
    · rw [if_neg hk]
      exact .inl ⟨k, rfl, hk, rfl⟩

/-- The nodes recorded after a cleanup are those recorded before and not expired. -/
theorem recordedIp_cleanByExpiryTime (h : Refines m d) (nowSec : Int) (n ip : Bytes) :
    (d.cleanByExpiryTime nowSec).recordedIp n = some ip
      ↔ d.recordedIp n = some ip ∧ ¬ d.Expired nowSec n := by
  rw [DhtOperation.recordedIp, (h.cleanByExpiryTime nowSec).nodeIp, DhtOperation.recordedIp,
    h.nodeIp]
  simp only [Option.map_eq_some_iff, Register.lookup_clean]
  constructor
  · rintro ⟨e, ⟨he, hexp⟩, rfl⟩
    exact ⟨⟨e, he, rfl⟩, by rwa [DhtOperation.Expired, h.subscript_expiry he]⟩
  · rintro ⟨⟨e, he, rfl⟩, hexp⟩
    exact ⟨e, ⟨he, by rwa [DhtOperation.Expired, h.subscript_expiry he] at hexp⟩, rfl⟩

/-! ## A store, seen from one IP -/

theorem recordedIp_storeEntry_of_supersedes (h : Refines m d) {e : DhtEntry}
    (hs : d.Supersedes e) (n : Bytes) :
    (d.storeEntry e).recordedIp n = if n = e.nodeId then some e.nodeIp else d.recordedIp n := by
  rw [DhtOperation.storeEntry, if_pos hs.1, if_pos hs.2, DhtOperation.updateTables_eq,
    DhtOperation.recordedIp, Table.lookup_insert_eq_ite]
  have hrem := h.recordedIp_removeEntry e.nodeId n
  split_ifs with hn
  · rfl
  · rwa [if_neg hn] at hrem

theorem owner_storeEntry_of_supersedes {e : DhtEntry} (hs : d.Supersedes e) {nodeIp : Bytes}
    (hip : d.recordedIp e.nodeId = some nodeIp) (ip : Bytes) :
    (d.storeEntry e).owner ip = if ip = e.nodeIp then some e.nodeId
      else if ip = nodeIp then DhtOperation.release (d.owner ip) e.nodeId else d.owner ip := by
  have hrem := DhtOperation.owner_removeEntry hs.1 hip ip
  rw [DhtOperation.storeEntry, if_pos hs.1, if_pos hs.2, DhtOperation.updateTables_eq,
    DhtOperation.owner, Table.lookup_insert_eq_ite]
  split_ifs with he hip'
  · rfl
  · rwa [if_pos (hip'.symm ▸ hip)] at hrem
  · rwa [if_neg fun hc => hip' (Option.some.inj (hc.symm.trans hip))] at hrem

theorem recordedIp_storeEntry_of_new {e : DhtEntry} (hnew : ¬ d.verifyEntry e.nodeId = true)
    (n : Bytes) :
    (d.storeEntry e).recordedIp n = if n = e.nodeId then some e.nodeIp else d.recordedIp n := by
  rw [DhtOperation.storeEntry, if_neg hnew, DhtOperation.updateTables_eq, DhtOperation.recordedIp,
    Table.lookup_insert_eq_ite]

theorem owner_storeEntry_of_new {e : DhtEntry} (hnew : ¬ d.verifyEntry e.nodeId = true)
    (ip : Bytes) :
    (d.storeEntry e).owner ip = if ip = e.nodeIp then some e.nodeId else d.owner ip := by
  rw [DhtOperation.storeEntry, if_neg hnew, DhtOperation.updateTables_eq, DhtOperation.owner,
    Table.lookup_insert_eq_ite]

end Refines

end PacPrism
