import PacPrism.Network.NodeAnswers
import PacPrism.Node.Dht.IpIndex

/-!
# Network/StoreAnswers — what a store answered 201 has stored

The answer is made without a result of `store_entry`: an entry that is not newer than the one stored
for its node is dropped, and answered 201 like the others.
-/

namespace PacPrism

/-- The response has this status. -/
def RouterResponse.HasStatus (r : RouterResponse) (status : Status) : Prop :=
  ∃ response : Response Bytes, r = .stringBody (some response) ∧ response.status = status

theorem Router.Gives.hasStatus {nlohmann : Nlohmann} {answer : Json × Status} {r : RouterResponse}
    (h : Router.Gives nlohmann answer r) : r.HasStatus answer.2 := by
  obtain ⟨response, hr, hstatus, -⟩ := h
  exact ⟨response, hr, hstatus⟩

theorem RouterResponse.HasStatus.unique {r : RouterResponse} {status status' : Status}
    (h : r.HasStatus status) (h' : r.HasStatus status') : status = status' := by
  obtain ⟨response, rfl, rfl⟩ := h
  obtain ⟨response', hr, rfl⟩ := h'
  obtain rfl := Option.some.inj (RouterResponse.stringBody.inj hr)
  rfl

/-- **A store is answered 201 exactly if its body is an entry**, and the entry is then handed to
`store_entry`. -/
theorem Router.globalRouter_store_of_created {σ : Type} {sys : System σ} {nlohmann : Nlohmann}
    {router : Router} {request : Request} {s s' : Server σ} {r : RouterResponse}
    (h : Router.IsStore request) (hrun : router.globalRouter sys nlohmann request s = .ok r s')
    (hcreated : r.HasStatus .created) :
    ∃ entry, (nlohmann.parse request.body >>= DhtEntry.fromJson nlohmann) = .ok entry
      ∧ Router.Gives nlohmann (Router.storeSuccess entry.nodeId) r
      ∧ s'.dht = s.dht.storeEntry entry := by
  cases hbody : nlohmann.parse request.body >>= DhtEntry.fromJson nlohmann with
  | ok entry =>
    obtain ⟨r', hrun', hgives⟩ := Router.globalRouter_store sys router h hbody s
    obtain ⟨rfl, rfl⟩ := EStateM.Result.ok.inj (hrun.symm.trans hrun')
    exact ⟨entry, rfl, hgives, rfl⟩
  | error e =>
    obtain ⟨r', hrun', hgives⟩ := Router.globalRouter_store_refused sys router h hbody s
    obtain ⟨rfl, rfl⟩ := EStateM.Result.ok.inj (hrun.symm.trans hrun')
    exact absurd (hcreated.unique hgives.hasStatus) (by decide)

/-- A store leaves its node live, whether it is admitted or not. -/
theorem DhtOperation.verifyEntry_storeEntry {m : Registry} {d : DhtOperation} (h : Refines m d)
    (e : DhtEntry) : (d.storeEntry e).verifyEntry e.nodeId = true := by
  by_cases hadm : d.Admits e
  · exact (h.records_storeEntry hadm).live
  · rw [storeEntry_of_not_admits hadm]
    by_contra hnew
    exact hadm (.inl hnew)

/-- A body that is an entry without shards, with its parsed value: numbers of this size are
unsigned, and members are kept in the order of their keys. -/
def sampleBody (nodeId nodeIp generation : String) (parsed : Json) : Bytes × Json :=
  (lit "\x7b\"node_id\":\"" ++ lit nodeId ++ lit "\",\"node_ip\":\"" ++ lit nodeIp
      ++ lit "\",\"node_shard\":[],\"generation_timestamp\":" ++ lit generation
      ++ lit ",\"expiry_timestamp\":20,\"information\":\"\"\x7d",
    .object [(lit "expiry_timestamp", .numberUnsigned 20), (lit "generation_timestamp", parsed),
      (lit "information", .string []), (lit "node_id", .string (lit nodeId)),
      (lit "node_ip", .string (lit nodeIp)), (lit "node_shard", .array [])])

/-- A library that parses this body decodes it to the entry. -/
theorem decode_sampleBody {nlohmann : Nlohmann} {nodeId nodeIp generation : String} {n : UInt64}
    (h : nlohmann.parse (sampleBody nodeId nodeIp generation (.numberUnsigned n)).1
      = .ok (sampleBody nodeId nodeIp generation (.numberUnsigned n)).2) :
    (nlohmann.parse (sampleBody nodeId nodeIp generation (.numberUnsigned n)).1
        >>= DhtEntry.fromJson nlohmann)
      = .ok ⟨lit nodeId, lit nodeIp, ∅, n.toInt64, 20, []⟩ := by
  rw [h]
  rfl

/-- The texts of the answers to `store` and `verify`, for a node ID without escapes. -/
def samplePrint (answer : Json) : Bytes :=
  match answer.at (lit "node_id"), answer.at (lit "exists") with
  | .ok (.string nodeId), .ok (.boolean b) =>
    lit "\x7b\n    \"exists\": " ++ lit (if b then "true" else "false")
      ++ lit ",\n    \"node_id\": \"" ++ nodeId ++ lit "\",\n    \"operation\": \"verify\"\n\x7d"
  | .ok (.string nodeId), _ =>
    lit "\x7b\n    \"node_id\": \"" ++ nodeId
      ++ lit "\",\n    \"operation\": \"store\",\n    \"status\": \"success\"\n\x7d"
  | _, _ => []

/-- A store request of node `n` with this body. -/
def sampleStore (body : Bytes) : Request :=
  ⟨.post, lit "/api/dht/store", 11,
    [(lit "pacPrism_node_id", lit "n"), (lit "pacPrism_node_signature", lit "s")], body⟩

theorem isStore_sampleStore (body : Bytes) : Router.IsStore (sampleStore body) :=
  ⟨⟨rfl, rfl⟩, rfl, rfl⟩

/-- **What a store answered 201 has stored.**  Its node is live; if it was new, or recorded with an
older entry, the tables record the entry of the body, and otherwise they are as before. -/
theorem created_readsBack {σ : Type} (sys : System σ) (nlohmann : Nlohmann) (router : Router)
    (calls : List DhtOperation.Call) (world : σ) {request : Request}
    (hstore : Router.IsStore request) {r : RouterResponse} {s' : Server σ}
    (hrun : router.globalRouter sys nlohmann request ⟨DhtOperation.run calls, world⟩ = .ok r s')
    (hcreated : r.HasStatus .created) :
    ∃ entry, (nlohmann.parse request.body >>= DhtEntry.fromJson nlohmann) = .ok entry
      ∧ Router.Gives nlohmann (Router.storeSuccess entry.nodeId) r
      ∧ s'.dht.verifyEntry entry.nodeId = true
      ∧ ((DhtOperation.run calls).Admits entry → s'.dht.Records entry)
      ∧ (¬ (DhtOperation.run calls).Admits entry → s'.dht = DhtOperation.run calls) := by
  obtain ⟨entry, hbody, hgives, hdht⟩ := Router.globalRouter_store_of_created hstore hrun hcreated
  have hrefines := Refines.run calls
  rw [hdht]
  exact ⟨entry, hbody, hgives, DhtOperation.verifyEntry_storeEntry hrefines entry,
    hrefines.records_storeEntry, DhtOperation.storeEntry_of_not_admits⟩

/-- The body of a store of node `a`, with its parsed value. -/
def shardBody : Bytes × Json :=
  (lit "\x7b\"node_id\":\"a\",\"node_ip\":\"10.0.0.1\",\"node_shard\":["
      ++ lit "\x7b\"shard_id\":\"s\",\"packages\":[\"vim\"]\x7d],\"generation_timestamp\":1,"
      ++ lit "\"expiry_timestamp\":20,\"information\":\"\"\x7d",
    .object [(lit "expiry_timestamp", .numberUnsigned 20),
      (lit "generation_timestamp", .numberUnsigned 1), (lit "information", .string []),
      (lit "node_id", .string (lit "a")), (lit "node_ip", .string (lit "10.0.0.1")),
      (lit "node_shard", .array [.object [(lit "packages", .array [.string (lit "vim")]),
        (lit "shard_id", .string (lit "s"))]])])

def shardEntry : DhtEntry where
  nodeId := lit "a"
  nodeIp := lit "10.0.0.1"
  nodeShard := (∅ : OrdSet Shard Shard.shardId).insert ⟨lit "s", [lit "vim"]⟩
  generationTimestamp := 1
  expiryTimestamp := 20
  information := []

/-- A store is decoded as its body is. -/
theorem decode_sampleStore {nlohmann : Nlohmann} {d : Bytes × Json} {entry : DhtEntry}
    (hparse : nlohmann.parse d.1 = .ok d.2) (h : DhtEntry.fromJson nlohmann d.2 = .ok entry) :
    (nlohmann.parse (sampleStore d.1).body >>= DhtEntry.fromJson nlohmann) = .ok entry := by
  rw [sampleStore, hparse]
  exact h

/-- An entry with another address and another shard takes the place of an older one. -/
theorem created_readsBack_newer :
    let nlohmann : Nlohmann := .withDocuments [shardBody] (by decide) samplePrint
    let router : Router := ⟨⟨{}, lit "./cache", lit "ftp.debian.org"⟩, lit "0.1.0"⟩
    let older : DhtEntry :=
      ⟨lit "a", lit "10.0.0.2", OrdSet.insert ⟨lit "r", []⟩ ∅, 0, 10, []⟩
    ∃ r s', router.globalRouter (Disk.system (.tree []) (.offline .current)) nlohmann
        (sampleStore shardBody.1) ⟨DhtOperation.run [.storeEntry older], .empty []⟩ = .ok r s'
      ∧ r.HasStatus .created ∧ s'.dht.Records shardEntry := by
  intro nlohmann router older
  let sys := Disk.system (.tree []) (.offline .current)
  let calls : List DhtOperation.Call := [.storeEntry older]
  let start : Server TreeDisk := ⟨DhtOperation.run calls, .empty []⟩
  have hstore := isStore_sampleStore shardBody.1
  have hparse : nlohmann.parse shardBody.1 = .ok shardBody.2 := by
    rw [Nlohmann.parse_withDocuments_cons]
  have hdecode : DhtEntry.fromJson nlohmann shardBody.2 = .ok shardEntry := rfl
  have hbody := decode_sampleStore hparse hdecode
  obtain ⟨r, hrun, hgives⟩ := Router.globalRouter_store sys router hstore hbody start
  obtain ⟨entry, hentry, -, -, hrecords, -⟩ := created_readsBack sys nlohmann router calls
    (.empty []) hstore hrun hgives.hasStatus
  obtain rfl : shardEntry = entry := Except.ok.inj (hbody.symm.trans hentry)
  exact ⟨r, _, hrun, hgives.hasStatus, hrecords (.inr ⟨by decide, by decide⟩)⟩

/-- An entry with the timestamp of the one stored is answered 201 too, and not stored. -/
theorem created_not_readBack :
    ¬ ∀ (sys : System TreeDisk) (nlohmann : Nlohmann) (router : Router)
      (calls : List DhtOperation.Call) (world : TreeDisk) (request : Request)
      (r : RouterResponse) (s' : Server TreeDisk) (entry : DhtEntry),
      Router.IsStore request →
      router.globalRouter sys nlohmann request ⟨DhtOperation.run calls, world⟩ = .ok r s' →
      Router.Gives nlohmann (Router.storeSuccess entry.nodeId) r →
      (nlohmann.parse request.body >>= DhtEntry.fromJson nlohmann) = .ok entry →
      s'.dht.verifyEntry entry.nodeId = true
        ∧ s'.dht.nodeIdToNodeIpEntries.lookup entry.nodeId = some entry.nodeIp
        ∧ s'.dht.nodeIdToExpiryTimestampEntries.lookup entry.nodeId = some entry.expiryTimestamp
        ∧ s'.dht.nodeIdToInformationEntries.lookup entry.nodeId = some entry.information
        ∧ ∀ shardId, entry.nodeId ∈ (s'.dht.queryNodeIdsByShardId shardId).getD ∅
            ↔ entry.Carries shardId := by
  intro hall
  let body := sampleBody "a" "10.0.0.2" "1" (.numberUnsigned 1)
  let nlohmann : Nlohmann := .withDocuments [body] (by decide) samplePrint
  let router : Router := ⟨⟨{}, lit "./cache", lit "ftp.debian.org"⟩, lit "0.1.0"⟩
  let calls : List DhtOperation.Call := [.storeEntry ⟨lit "a", lit "10.0.0.1", ∅, 1, 20, []⟩]
  let entry : DhtEntry := ⟨lit "a", lit "10.0.0.2", ∅, 1, 20, []⟩
  have hbody : (nlohmann.parse body.1 >>= DhtEntry.fromJson nlohmann) = .ok entry :=
    decode_sampleBody rfl
  let start : Server TreeDisk := ⟨DhtOperation.run calls, .empty []⟩
  obtain ⟨r, hrun, hgives⟩ := Router.globalRouter_store
    (Disk.system (.tree []) (.offline .current)) router (isStore_sampleStore body.1) hbody start
  have hread := hall _ nlohmann router calls (.empty []) (sampleStore body.1) r _ entry
    (isStore_sampleStore body.1) hrun hgives hbody
  exact absurd hread.2.1 (by decide)

end PacPrism
