import PacPrism.Node.Dht.IpIndex

/-!
# Node/Dht/IpLaws — when the two IP tables agree

Two laws of the IP index, each with the exact condition on a call under which it survives the call:

* `ipIndexSound_run_iff` — every mapping leads to a live node that records the IP, as long as no
  node is removed while the IP it records has no owner;
* `ipIndexComplete_run_iff` — every IP a live node records is mapped to such a node, as long as no
  owner is removed while another node that records its IP stays.
-/

namespace PacPrism

open DhtOperation (Call)

/-- No mapping dangles: an IP leads to a live node that records it. -/
def IpIndexSound (d : DhtOperation) : Prop :=
  ∀ ip n, d.owner ip = some n → d.verifyEntry n = true ∧ d.recordedIp n = some ip

/-- No live node is lost: the IP it records leads to a live node that records it. -/
def IpIndexComplete (d : DhtOperation) : Prop :=
  ∀ n ip, d.verifyEntry n = true → d.recordedIp n = some ip →
    ∃ k, d.owner ip = some k ∧ d.verifyEntry k = true ∧ d.recordedIp k = some ip

/-- **Every node removed has an IP that is owned.**  An update that changes the IP finds the old one
owned; a cleanup removes no node after the owner of its IP.  The empty node id stands in for an
owner where it records the IP, since that is what the ownership test binds. -/
def RemovesOwned (d : DhtOperation) : Call → Prop
  | .storeEntry e => ∀ ip, d.Supersedes e → d.recordedIp e.nodeId = some ip → ip ≠ e.nodeIp →
      (∃ k, d.owner ip = some k) ∨ d.recordedIp [] = some ip
  | .cleanByExpiryTime nowSec => ∀ n ip, d.recordedIp n = some ip → d.Expired nowSec n →
      ∃ k, (d.owner ip = some k ∨ k = []) ∧ d.recordedIp k = some ip
        ∧ d.expiryKey n ≤ d.expiryKey k

/-- **No owner goes while a node that shares its IP stays.**  An update that changes the IP of its
owner finds no other node recording it; a cleanup that leaves a node leaves the owner of its IP.
The exception is an IP the empty node id records: a later removal binds it to that id again. -/
def KeepsOwners (d : DhtOperation) : Call → Prop
  | .storeEntry e => ∀ ip, d.Supersedes e → d.recordedIp e.nodeId = some ip → ip ≠ e.nodeIp →
      d.owner ip = some e.nodeId → ∀ n, d.recordedIp n = some ip → n = e.nodeId
  | .cleanByExpiryTime nowSec => ∀ n ip k, d.recordedIp n = some ip → ¬ d.Expired nowSec n →
      d.owner ip = some k → d.Expired nowSec k →
      d.recordedIp [] = some ip ∧ ¬ d.Expired nowSec []
        ∧ ∃ n', d.recordedIp n' = some ip ∧ d.Expired nowSec n' ∧ d.expiryKey k < d.expiryKey n'

namespace Refines

variable {m : Registry} {d : DhtOperation}

theorem ipIndexSound_iff (h : Refines m d) :
    IpIndexSound d ↔ ∀ ip n, d.owner ip = some n → d.recordedIp n = some ip :=
  ⟨fun hs ip n hn => (hs ip n hn).2,
    fun hs ip n hn => ⟨h.verifyEntry_of_recordedIp (hs ip n hn), hs ip n hn⟩⟩

theorem ipIndexComplete_iff (h : Refines m d) :
    IpIndexComplete d ↔ ∀ n ip, d.recordedIp n = some ip →
      ∃ k, d.owner ip = some k ∧ d.recordedIp k = some ip := by
  constructor
  · intro hc n ip hn
    obtain ⟨k, hk, -, hkip⟩ := hc n ip (h.verifyEntry_of_recordedIp hn) hn
    exact ⟨k, hk, hkip⟩
  · intro hc n ip _ hn
    obtain ⟨k, hk, hkip⟩ := hc n ip hn
    exact ⟨k, hk, h.verifyEntry_of_recordedIp hkip, hkip⟩

/-! ## Mappings that dangle -/

/-- If a cleanup leaves no dangling mapping, then it removes no node after its IP's owner. -/
theorem removesOwned_of_clean (h : Refines m d) (hs : IpIndexSound d) {nowSec : Int}
    (hclean : IpIndexSound (d.cleanByExpiryTime nowSec)) :
    RemovesOwned d (.cleanByExpiryTime nowSec) := by
  rw [h.ipIndexSound_iff] at hs
  rw [(h.cleanByExpiryTime nowSec).ipIndexSound_iff] at hclean
  simp only [h.recordedIp_cleanByExpiryTime] at hclean
  intro n ip hn hexp
  have hmem : n ∈ d.expiredAt nowSec ip := (h.mem_expiredAt nowSec ip n).2 ⟨hn, hexp⟩
  rcases h.owner_cleanByExpiryTime_cases nowSec ip with ⟨k, hk, hkexp, -⟩ | ⟨l, hown, hl, -, hmeml⟩
  · have hkip := hs ip k hk
    have hknot : ¬ d.Expired nowSec k := fun hke =>
      hkexp ((h.mem_expiredAt nowSec ip k).2 ⟨hkip, hke⟩)
    exact ⟨k, .inl hk, hkip, (DhtOperation.expiryKey_lt_of_expired hexp hknot).le⟩
  · by_cases hnl : n ∈ l
    · -- The removals that find the IP unowned: the last of them decides the mapping left.
      rcases DhtOperation.foldl_release_none_cases d.expiryKey hl with
        ⟨-, rfl | ⟨hempty, hmax⟩⟩ | ⟨hsome, -⟩
      · exact absurd hnl List.not_mem_nil
      · exact ⟨[], .inr rfl, ((h.mem_expiredAt nowSec ip []).1 ((hmeml []).1 hempty).1).1,
          hmax n hnl⟩
      · obtain ⟨hip, hnot⟩ := hclean ip [] (hown.trans hsome)
        exact ⟨[], .inr rfl, hip, (DhtOperation.expiryKey_lt_of_expired hexp hnot).le⟩
    · have hnlt : ¬ ∀ k, d.owner ip = some k → d.expiryKey k < d.expiryKey n :=
        fun hall => hnl ((hmeml n).2 ⟨hmem, hall⟩)
      push Not at hnlt
      obtain ⟨k, hk, hle⟩ := hnlt
      exact ⟨k, .inl hk, hs ip k hk, hle⟩

/-- A cleanup that removes no node after its IP's owner leaves no dangling mapping. -/
theorem ipIndexSound_clean_of_removesOwned (h : Refines m d) (hs : IpIndexSound d) {nowSec : Int}
    (hcond : RemovesOwned d (.cleanByExpiryTime nowSec)) :
    IpIndexSound (d.cleanByExpiryTime nowSec) := by
  rw [h.ipIndexSound_iff] at hs
  rw [(h.cleanByExpiryTime nowSec).ipIndexSound_iff]
  simp only [h.recordedIp_cleanByExpiryTime]
  intro ip n hn
  rcases h.owner_cleanByExpiryTime_cases nowSec ip with
    ⟨k, hk, hkexp, hown⟩ | ⟨l, hown, hl, -, hmeml⟩
  · obtain rfl : k = n := Option.some.inj (hown.symm.trans hn)
    exact ⟨hs ip k hk, fun hke => hkexp ((h.mem_expiredAt nowSec ip k).2 ⟨hs ip k hk, hke⟩)⟩
  · rcases DhtOperation.foldl_release_none_cases d.expiryKey hl with
      ⟨hnone, -⟩ | ⟨hsome, x, hxl, hxne, hmax⟩
    · rw [hown, hnone] at hn
      cases hn
    · obtain rfl : [] = n := Option.some.inj (hsome.symm.trans (hown.symm.trans hn))
      obtain ⟨hxmem, hxafter⟩ := (hmeml x).1 hxl
      obtain ⟨hxip, hxexp⟩ := (h.mem_expiredAt nowSec ip x).1 hxmem
      obtain ⟨k, hk, hkip, hle⟩ := hcond x ip hxip hxexp
      rcases hk with hk | rfl
      · exact absurd (hxafter k hk) (not_lt.2 hle)
      · refine ⟨hkip, fun hexp => hxne ?_⟩
        have hel : [] ∈ l := (hmeml []).2 ⟨(h.mem_expiredAt nowSec ip []).2 ⟨hkip, hexp⟩,
          fun k hk => (hxafter k hk).trans_le hle⟩
        exact d.expiryKey_injective (le_antisymm hle (hmax [] hel))

/-- A new node takes its IP over and changes no other mapping. -/
theorem ipIndexSound_store_of_new (h : Refines m d) (hs : IpIndexSound d) {e : DhtEntry}
    (hnew : ¬ d.verifyEntry e.nodeId = true) : IpIndexSound (d.storeEntry e) := by
  rw [h.ipIndexSound_iff] at hs
  rw [(h.storeEntry e).ipIndexSound_iff]
  intro ip n hn
  rw [owner_storeEntry_of_new hnew] at hn
  rw [recordedIp_storeEntry_of_new hnew]
  split_ifs at hn with hip
  · rw [if_pos (Option.some.inj hn).symm, hip]
  · rw [if_neg fun hc => hnew (h.verifyEntry_of_recordedIp (hc ▸ hs ip n hn))]
    exact hs ip n hn

/-- A new entry leaves no dangling mapping exactly when the old IP has an owner. -/
theorem ipIndexSound_store_of_supersedes_iff (h : Refines m d) (hs : IpIndexSound d) {e : DhtEntry}
    (hsup : d.Supersedes e) :
    IpIndexSound (d.storeEntry e) ↔ RemovesOwned d (.storeEntry e) := by
  rw [h.ipIndexSound_iff] at hs
  obtain ⟨old, hold⟩ := h.exists_recordedIp hsup.1
  rw [(h.storeEntry e).ipIndexSound_iff]
  simp only [owner_storeEntry_of_supersedes hsup hold,
    h.recordedIp_storeEntry_of_supersedes hsup, RemovesOwned, hold, Option.some.injEq]
  constructor
  · rintro hst ip - rfl hne
    cases hown : d.owner old with
    | some k => exact .inl ⟨k, rfl⟩
    | none =>
      by_cases hempty : e.nodeId = []
      · exact .inr (hempty ▸ hold)
      · have hphantom := hst old []
        rw [if_neg hne, if_pos rfl, hown, DhtOperation.release,
          Option.getD_none, if_neg (Ne.symm hempty), if_neg (Ne.symm hempty)] at hphantom
        exact .inr (hphantom rfl)
  · intro hcond ip n hn
    split_ifs at hn with hip hold'
    · rw [if_pos (Option.some.inj hn).symm, hip]
    · subst hold'
      rw [DhtOperation.release] at hn
      split_ifs at hn with hrel
      obtain rfl := Option.some.inj hn
      rw [if_neg hrel]
      rcases hcond ip hsup rfl hip with ⟨k, hk⟩ | hempty
      · rw [hk]
        exact hs ip k hk
      · cases hown : d.owner ip with
        | some k => exact hs ip k hown
        | none => exact hempty
    · have hnip := hs ip n hn
      rw [if_neg fun hc => hold' (Option.some.inj ((hc ▸ hnip).symm.trans hold))]
      exact hnip

/-- A store leaves no dangling mapping exactly when the IP it leaves behind has an owner. -/
theorem ipIndexSound_store_iff (h : Refines m d) (hs : IpIndexSound d) (e : DhtEntry) :
    IpIndexSound (d.storeEntry e) ↔ RemovesOwned d (.storeEntry e) := by
  rcases d.storeEntry_cases e with hnew | hsup | ⟨hnot, hsame⟩
  · exact iff_of_true (h.ipIndexSound_store_of_new hs hnew) fun _ hsup => absurd hsup.1 hnew
  · exact h.ipIndexSound_store_of_supersedes_iff hs hsup
  · rw [hsame]
    exact iff_of_true hs fun _ hsup => absurd hsup hnot

/-- **A call keeps the mappings sound exactly when it removes only nodes whose IP is owned.** -/
theorem ipIndexSound_apply_iff (h : Refines m d) (hs : IpIndexSound d) (call : Call) :
    IpIndexSound (d.apply call) ↔ RemovesOwned d call :=
  match call with
  | .storeEntry e => h.ipIndexSound_store_iff hs e
  | .cleanByExpiryTime _ =>
    ⟨h.removesOwned_of_clean hs, h.ipIndexSound_clean_of_removesOwned hs⟩

/-! ## Live nodes that are lost -/

/-- If a cleanup loses no live node, then the owners it removes leave none behind. -/
theorem keepsOwners_of_clean (h : Refines m d) (hc : IpIndexComplete d) {nowSec : Int}
    (hclean : IpIndexComplete (d.cleanByExpiryTime nowSec)) :
    KeepsOwners d (.cleanByExpiryTime nowSec) := by
  rw [h.ipIndexComplete_iff] at hc
  rw [(h.cleanByExpiryTime nowSec).ipIndexComplete_iff] at hclean
  simp only [h.recordedIp_cleanByExpiryTime] at hclean
  intro n ip k hn hnot hk hkexp
  obtain ⟨k', hk', hkip', hknot'⟩ := hclean n ip ⟨hn, hnot⟩
  obtain ⟨k₀, hk₀, hkip⟩ := hc n ip hn
  obtain rfl : k = k₀ := Option.some.inj (hk.symm.trans hk₀)
  rcases h.owner_cleanByExpiryTime_cases nowSec ip with
    ⟨k₁, hk₁, hkexp₁, -⟩ | ⟨l, hown, hl, -, hmeml⟩
  · obtain rfl : k = k₁ := Option.some.inj (hk.symm.trans hk₁)
    exact absurd ((h.mem_expiredAt nowSec ip k).2 ⟨hkip, hkexp⟩) hkexp₁
  · rcases DhtOperation.foldl_release_none_cases d.expiryKey hl with
      ⟨hnone, -⟩ | ⟨hsome, x, hxl, -⟩
    · rw [hown, hnone] at hk'
      cases hk'
    · obtain rfl : [] = k' := Option.some.inj (hsome.symm.trans (hown.symm.trans hk'))
      obtain ⟨hxmem, hxafter⟩ := (hmeml x).1 hxl
      obtain ⟨hxip, hxexp⟩ := (h.mem_expiredAt nowSec ip x).1 hxmem
      exact ⟨hkip', hknot', x, hxip, hxexp, hxafter k hk⟩

/-- A cleanup loses no live node if the owners it removes leave none behind. -/
theorem ipIndexComplete_clean_of_keepsOwners (h : Refines m d) (hc : IpIndexComplete d)
    {nowSec : Int} (hcond : KeepsOwners d (.cleanByExpiryTime nowSec)) :
    IpIndexComplete (d.cleanByExpiryTime nowSec) := by
  rw [h.ipIndexComplete_iff] at hc
  rw [(h.cleanByExpiryTime nowSec).ipIndexComplete_iff]
  simp only [h.recordedIp_cleanByExpiryTime]
  rintro n ip ⟨hn, hnot⟩
  obtain ⟨k, hk, hkip⟩ := hc n ip hn
  rcases h.owner_cleanByExpiryTime_cases nowSec ip with
    ⟨k₁, hk₁, hkexp₁, hown⟩ | ⟨l, hown, hl, hin, hmeml⟩
  · obtain rfl : k = k₁ := Option.some.inj (hk.symm.trans hk₁)
    exact ⟨k, hown, hkip, fun hke => hkexp₁ ((h.mem_expiredAt nowSec ip k).2 ⟨hkip, hke⟩)⟩
  · have hkexp := ((h.mem_expiredAt nowSec ip k).1 (hin k hk)).2
    obtain ⟨hempty, hnotEmpty, x, hxip, hxexp, hlt⟩ := hcond n ip k hn hnot hk hkexp
    have hxl : x ∈ l := (hmeml x).2 ⟨(h.mem_expiredAt nowSec ip x).2 ⟨hxip, hxexp⟩,
      fun k₁ hk₁ => by rwa [Option.some.inj (hk₁.symm.trans hk)]⟩
    rcases DhtOperation.foldl_release_none_cases d.expiryKey hl with
      ⟨-, rfl | ⟨hel, -⟩⟩ | ⟨hsome, -⟩
    · exact absurd hxl List.not_mem_nil
    · exact absurd ((h.mem_expiredAt nowSec ip []).1 ((hmeml []).1 hel).1).2 hnotEmpty
    · exact ⟨[], hown.trans hsome, hempty, hnotEmpty⟩

/-- A new node is found by its IP, and no other node is lost. -/
theorem ipIndexComplete_store_of_new (h : Refines m d) (hc : IpIndexComplete d) {e : DhtEntry}
    (hnew : ¬ d.verifyEntry e.nodeId = true) : IpIndexComplete (d.storeEntry e) := by
  rw [h.ipIndexComplete_iff] at hc
  rw [(h.storeEntry e).ipIndexComplete_iff]
  simp only [owner_storeEntry_of_new hnew, recordedIp_storeEntry_of_new hnew]
  intro n ip hn
  by_cases hip : ip = e.nodeIp
  · exact ⟨e.nodeId, if_pos hip, by rw [if_pos rfl, hip]⟩
  · have hn' : d.recordedIp n = some ip := by
      split_ifs at hn
      · exact absurd (Option.some.inj hn).symm hip
      · exact hn
    obtain ⟨k, hk, hkip⟩ := hc n ip hn'
    refine ⟨k, by rw [if_neg hip, hk], ?_⟩
    rw [if_neg fun heq => hnew (h.verifyEntry_of_recordedIp (heq ▸ hkip)), hkip]

/-- A new entry loses no live node exactly when the old IP is not still in use. -/
theorem ipIndexComplete_store_of_supersedes_iff (h : Refines m d) (hc : IpIndexComplete d)
    {e : DhtEntry} (hsup : d.Supersedes e) :
    IpIndexComplete (d.storeEntry e) ↔ KeepsOwners d (.storeEntry e) := by
  rw [h.ipIndexComplete_iff] at hc
  obtain ⟨old, hold⟩ := h.exists_recordedIp hsup.1
  rw [(h.storeEntry e).ipIndexComplete_iff]
  simp only [owner_storeEntry_of_supersedes hsup hold,
    h.recordedIp_storeEntry_of_supersedes hsup, KeepsOwners, hold, Option.some.injEq]
  constructor
  · rintro hst ip - rfl hne hown n hn
    by_contra hnid
    obtain ⟨k, hk, -⟩ := hst n old (by rw [if_neg hnid, hn])
    rw [if_neg hne, if_pos rfl, hown, DhtOperation.release, Option.getD_some,
      if_pos rfl] at hk
    cases hk
  · intro hcond n ip hn
    by_cases hip : ip = e.nodeIp
    · exact ⟨e.nodeId, if_pos hip, by rw [if_pos rfl, hip]⟩
    · have hnid : n ≠ e.nodeId := fun heq => by
        rw [if_pos heq] at hn
        exact hip (Option.some.inj hn).symm
      rw [if_neg hnid] at hn
      obtain ⟨k, hk, hkip⟩ := hc n ip hn
      have hkid : k ≠ e.nodeId := fun heq => by
        subst heq
        obtain rfl : old = ip := Option.some.inj (hold.symm.trans hkip)
        exact hnid (hcond old hsup rfl hip hk n hn)
      refine ⟨k, ?_, by rw [if_neg hkid, hkip]⟩
      rw [if_neg hip, hk, DhtOperation.release, Option.getD_some, if_neg hkid, ite_self]

/-- A store loses no live node exactly when the IP it leaves behind is not still in use. -/
theorem ipIndexComplete_store_iff (h : Refines m d) (hc : IpIndexComplete d) (e : DhtEntry) :
    IpIndexComplete (d.storeEntry e) ↔ KeepsOwners d (.storeEntry e) := by
  rcases d.storeEntry_cases e with hnew | hsup | ⟨hnot, hsame⟩
  · exact iff_of_true (h.ipIndexComplete_store_of_new hc hnew) fun _ hsup => absurd hsup.1 hnew
  · exact h.ipIndexComplete_store_of_supersedes_iff hc hsup
  · rw [hsame]
    exact iff_of_true hc fun _ hsup => absurd hsup hnot

/-- **A call loses no live node exactly when no owner goes while a node sharing its IP stays.** -/
theorem ipIndexComplete_apply_iff (h : Refines m d) (hc : IpIndexComplete d) (call : Call) :
    IpIndexComplete (d.apply call) ↔ KeepsOwners d call :=
  match call with
  | .storeEntry e => h.ipIndexComplete_store_iff hc e
  | .cleanByExpiryTime _ =>
    ⟨h.keepsOwners_of_clean hc, h.ipIndexComplete_clean_of_keepsOwners hc⟩

/-! ## Owners that stay -/

/-- A cleanup leaves an IP to its owner unless it removes the owner. -/
theorem owner_clean_of_not_expired (h : Refines m d) {ip n : Bytes} (hown : d.owner ip = some n)
    {nowSec : Int} (hexp : ¬ d.Expired nowSec n) :
    (d.cleanByExpiryTime nowSec).owner ip = some n := by
  rcases h.owner_cleanByExpiryTime_cases nowSec ip with ⟨k, hk, -, hclean⟩ | ⟨_, -, -, hin, -⟩
  · rw [hclean, ← hk, hown]
  · exact absurd ((h.mem_expiredAt nowSec ip n).1 (hin n hown)).2 hexp

/-- A store leaves an IP to its owner unless it is of the owner or of the IP. -/
theorem owner_store_of_ne (h : Refines m d) {ip n : Bytes} (hown : d.owner ip = some n)
    {e : DhtEntry} (hid : e.nodeId ≠ n) (hip : e.nodeIp ≠ ip) :
    (d.storeEntry e).owner ip = some n := by
  rcases d.storeEntry_cases e with hnew | hsup | ⟨-, hsame⟩
  · rw [owner_storeEntry_of_new hnew, if_neg hip.symm, hown]
  · -- The removal of the old record tests who owns the old IP, and that is not the node.
    obtain ⟨old, hold⟩ := h.exists_recordedIp hsup.1
    rw [owner_storeEntry_of_supersedes hsup hold, if_neg hip.symm, hown, DhtOperation.release,
      Option.getD_some, if_neg hid.symm, ite_self]
  · rw [hsame, hown]

end Refines

/-! ## The two laws, along runs -/

/-- **Which runs keep the IP index free of dangling mappings**: those that remove only nodes whose
IP is owned. -/
theorem ipIndexSound_run_iff (calls : List Call) :
    (∀ pre, pre <+: calls → IpIndexSound (DhtOperation.run pre))
      ↔ Runs.Meets DhtOperation.apply RemovesOwned ∅ calls :=
  Runs.forall_prefix_iff (I := fun d => ∃ m, Refines m d) DhtOperation.apply
    (fun _ call ⟨_, h⟩ => ⟨_, h.apply call⟩)
    (fun _ call ⟨_, h⟩ hs => h.ipIndexSound_apply_iff hs call) ⟨_, Refines.empty⟩
    (fun _ _ h => nomatch h) calls

/-- Three calls that leave a dangling mapping: of two nodes with one IP, the owner expires first. -/
theorem ipIndexSound_run_fails : ¬ ∀ calls, IpIndexSound (DhtOperation.run calls) := by
  intro hall
  have hdangling := hall [
    .storeEntry ⟨lit "a", lit "10.0.0.1", ∅, 1, 20, []⟩,
    .storeEntry ⟨lit "b", lit "10.0.0.1", ∅, 1, 10, []⟩,
    .cleanByExpiryTime 20] (lit "10.0.0.1") []
  exact absurd (hdangling (by decide)).1 (by decide)

/-- **Which runs keep every live node reachable by its IP**: those in which no owner goes while a
node sharing its IP stays. -/
theorem ipIndexComplete_run_iff (calls : List Call) :
    (∀ pre, pre <+: calls → IpIndexComplete (DhtOperation.run pre))
      ↔ Runs.Meets DhtOperation.apply KeepsOwners ∅ calls :=
  Runs.forall_prefix_iff (I := fun d => ∃ m, Refines m d) DhtOperation.apply
    (fun _ call ⟨_, h⟩ => ⟨_, h.apply call⟩)
    (fun _ call ⟨_, h⟩ hc => h.ipIndexComplete_apply_iff hc call) ⟨_, Refines.empty⟩
    (fun _ _ _ h => nomatch h) calls

/-- Three calls that lose a live node: of two nodes with one IP, the owner expires and the other
stays. -/
theorem ipIndexComplete_run_fails : ¬ ∀ calls, IpIndexComplete (DhtOperation.run calls) := by
  intro hall
  obtain ⟨k, hk, -⟩ := hall [
    .storeEntry ⟨lit "a", lit "10.0.0.1", ∅, 1, 20, []⟩,
    .storeEntry ⟨lit "b", lit "10.0.0.1", ∅, 1, 10, []⟩,
    .cleanByExpiryTime 10] (lit "a") (lit "10.0.0.1") (by decide) (by decide)
  exact nomatch (show (none : Option Bytes) = some k from hk)

/-! ## Owners that stay, along runs -/

/-- **An IP is never taken from an owner that stays**: neither a cleanup that does not remove the
owner nor a store of another node under another IP changes the mapping. -/
theorem owner_kept (calls : List Call) (ip n : Bytes)
    (hown : (DhtOperation.run calls).owner ip = some n) :
    (∀ nowSec, ¬ (DhtOperation.run calls).Expired nowSec n →
      ((DhtOperation.run calls).cleanByExpiryTime nowSec).owner ip = some n)
    ∧ ∀ e : DhtEntry, e.nodeId ≠ n → e.nodeIp ≠ ip →
      ((DhtOperation.run calls).storeEntry e).owner ip = some n :=
  ⟨fun _ => (Refines.run calls).owner_clean_of_not_expired hown,
    fun _ => (Refines.run calls).owner_store_of_ne hown⟩

/-- Of two nodes with one IP the owner stays while the other expires, and keeps the IP when the
other moves. -/
theorem owner_kept_shared :
    let d := DhtOperation.run [
      .storeEntry ⟨lit "a", lit "10.0.0.1", ∅, 1, 10, []⟩,
      .storeEntry ⟨lit "b", lit "10.0.0.1", ∅, 1, 20, []⟩]
    (d.cleanByExpiryTime 10).owner (lit "10.0.0.1") = some (lit "b")
    ∧ (d.storeEntry ⟨lit "a", lit "10.0.0.2", ∅, 2, 30, []⟩).owner (lit "10.0.0.1")
      = some (lit "b") :=
  have h := owner_kept [
    .storeEntry ⟨lit "a", lit "10.0.0.1", ∅, 1, 10, []⟩,
    .storeEntry ⟨lit "b", lit "10.0.0.1", ∅, 1, 20, []⟩]
    (lit "10.0.0.1") (lit "b") (by decide)
  ⟨h.1 10 (by decide), h.2 _ (by decide) (by decide)⟩

end PacPrism
