import PacPrism.Foundations.Percent
import PacPrism.Network.StoreAnswers

/-!
# Network/Lookups — what is looked up over HTTP

Ids enter as JSON strings and come back as part of a target, cut at delimiters and compared as they
are: nothing is decoded.  So a percent-encoded id is looked up in its encoded form, and is found
again exactly if it is its own encoding.
-/

namespace PacPrism

/-! ## The two targets -/

theorem apiPath_append (path : Bytes) : apiPath (lit "/api/dht/" ++ path) = some path := by
  obtain ⟨⟨i, hi⟩, hp, rfl, -, hafter⟩ :=
    Bytes.exists_find_append (lit "/api/dht/") (lit "/api/dht/") 0 (by decide) (by decide) rfl path
  rw [apiPath, hp]
  exact congrArg some hafter

/-- The id of a `verify` goes to the end of the target, unless a `?` comes first. -/
theorem operationOf_verify {id : Bytes} (h : 0x3f ∉ id) :
    operationOf (lit "verify/" ++ id) = (lit "verify", id) := by
  have hquery : Bytes.find (lit "verify/" ++ id) (lit "?") = none := by
    refine Bytes.find_eq_none ((Bytes.search_singleton_eq_none_iff (b := 0x3f)).2 ?_)
    rw [List.drop_zero, List.mem_append, not_or]
    exact ⟨by decide, h⟩
  have hclean : (Bytes.find (lit "verify/" ++ id) (lit "clean/")).map Subtype.val ≠ some 0 := by
    rw [Bytes.map_val_find]
    intro h
    obtain ⟨⟨rest, hrest⟩, -⟩ := (Bytes.search_eq_some_iff (by decide)).1 h
    have hhead : some (0x63 : UInt8) = some 0x76 := congrArg List.head? hrest
    exact absurd hhead (by decide)
  obtain ⟨p, hp, -, hbefore, hafter⟩ :=
    Bytes.exists_find_append (lit "verify/") (lit "/") 6 (by decide) (by decide) rfl id
  rw [operationOf, hquery]
  dsimp only
  rw [if_neg hclean, hp]
  dsimp only
  rw [hbefore, hafter]
  rfl

theorem operationOf_query (params : Bytes) :
    operationOf (lit "query?" ++ params) = (lit "query", params) := by
  obtain ⟨p, hp, -, hbefore, hafter⟩ :=
    Bytes.exists_find_append (lit "query?") (lit "?") 5 (by decide) (by decide) rfl params
  rw [operationOf, hp]
  dsimp only
  rw [hbefore, hafter]
  rfl

/-- The id of a `query` goes to the end of the target, unless a `&` comes first. -/
theorem shardParameter_append {id : Bytes} (h : 0x26 ∉ id) :
    shardParameter (lit "shard_id=" ++ id) = id :=
  queryValue_append_self (by decide) h

/-! ## The answers -/

namespace Router

variable {σ : Type} (sys : System σ) (nlohmann : Nlohmann)

/-- The answer to a `verify`. -/
def verifyAnswer (nodeId : Bytes) («exists» : Bool) : Json × Status :=
  (.object [(lit "operation", .string (lit "verify")), (lit "node_id", .string nodeId),
    (lit "exists", .boolean «exists»)], .ok)

/-- The answer to a `query`. -/
def queryAnswer (shardId : Bytes) (nodeIds : List Bytes) : Json × Status :=
  (.object [(lit "operation", .string (lit "query")), (lit "shard_id", .string shardId),
    (lit "node_ids", .array (nodeIds.map .string))], .ok)

theorem nodeAnswer_verify {request : Request} {id : Bytes}
    (htarget : request.target = lit "/api/dht/verify/" ++ id) (hne : id ≠ []) (hid : 0x3f ∉ id)
    (s : Server σ) :
    nodeAnswer sys nlohmann request s = .ok (verifyAnswer id (s.dht.verifyEntry id)) s := by
  have hpath : apiPath request.target = some (lit "verify/" ++ id) := by
    rw [htarget, ← apiPath_append]
    rfl
  rw [nodeAnswer, hpath]
  dsimp only
  rw [operationOf_verify hid, if_pos ⟨rfl, hne⟩]
  rfl

theorem nodeAnswer_query {request : Request} {id : Bytes}
    (htarget : request.target = lit "/api/dht/query?shard_id=" ++ id) (hne : id ≠ [])
    (hid : 0x26 ∉ id) (s : Server σ) :
    nodeAnswer sys nlohmann request s = .ok (queryAnswer id (listNodeIds s.dht id)) s := by
  have hpath : apiPath request.target = some (lit "query?" ++ (lit "shard_id=" ++ id)) := by
    rw [htarget, ← apiPath_append]
    rfl
  rw [nodeAnswer, hpath]
  dsimp only
  rw [operationOf_query, if_neg (by simp +decide), if_neg (by simp +decide), if_pos rfl,
    handleQuery, shardParameter_append hid, if_pos hne]
  rfl

theorem mem_listNodeIds (d : DhtOperation) (shardId n : Bytes) :
    n ∈ listNodeIds d shardId ↔ n ∈ (d.queryNodeIdsByShardId shardId).getD ∅ := by
  rw [listNodeIds]
  cases d.queryNodeIdsByShardId shardId with
  | none => exact iff_of_false List.not_mem_nil (OrdSet.notMem_empty n)
  | some nodeIds => rfl

end Router

/-- The nodes listed for a shard are the live ones recorded with it. -/
theorem Refines.mem_queryNodeIdsByShardId {m : Registry} {d : DhtOperation} (h : Refines m d)
    (shardId n : Bytes) : n ∈ (d.queryNodeIdsByShardId shardId).getD ∅
      ↔ d.verifyEntry n = true ∧ shardId ∈ d.nodeIdToShardIdsEntries.subscript n := by
  rw [DhtOperation.queryNodeIdsByShardId_getD, h.holders, ← h.carried]
  refine (and_iff_right_of_imp fun hs => ?_).symm
  obtain ⟨e, he, -⟩ := (h.carried shardId n).1 hs
  exact (h.verifyEntry_iff n).2 (Finmap.mem_of_lookup_eq_some he)

/-- A `GET` of a node. -/
def sampleLookup (target : Bytes) : Request :=
  ⟨.get, target, 11, [(lit "pacPrism_node_id", lit "n"), (lit "pacPrism_node_signature", lit "s")],
    []⟩

/-- **What is looked up is the id as it was sent.**  After any sequence of requests, the lookup of a
percent-encoded id is answered 200 for the encoded text, which is the id itself exactly if that
consists of unreserved characters. -/
theorem lookups_of_encoded {σ : Type} (sys : System σ) (nlohmann : Nlohmann) (router : Router)
    (world : σ) (requests : List Request) {request : Request}
    (hnode : Router.HasNodeHeaders request) {id : Bytes} (hid : id ≠ []) :
    let s := router.served sys nlohmann world requests
    let sent := Percent.encode id
    (request.target = lit "/api/dht/verify/" ++ sent →
      ∃ r, router.globalRouter sys nlohmann request s = .ok r s
        ∧ Router.Gives nlohmann (Router.verifyAnswer sent (s.dht.verifyEntry sent)) r)
    ∧ (request.target = lit "/api/dht/query?shard_id=" ++ sent →
      ∃ r nodeIds, router.globalRouter sys nlohmann request s = .ok r s
        ∧ Router.Gives nlohmann (Router.queryAnswer sent nodeIds) r
        ∧ ∀ n, n ∈ nodeIds
          ↔ s.dht.verifyEntry n = true ∧ sent ∈ s.dht.nodeIdToShardIdsEntries.subscript n)
    ∧ (sent = id ↔ ∀ b ∈ id, Percent.unreserved b = true) := by
  intro s sent
  have hsent : sent ≠ [] := Percent.encode_ne_nil hid
  have hvalid : Utf8.valid sent = true := Percent.valid_encode id
  rw [Router.globalRouter_of_node hnode]
  refine ⟨fun htarget => ?_, fun htarget => ?_, Percent.encode_eq_self_iff id⟩
  · refine Router.nodeResponseRouter_of_ok router (Router.nodeAnswer_verify sys nlohmann htarget
      hsent (Percent.notMem_encode (by decide) (by decide) id) s) ?_
    simp +decide [Router.verifyAnswer, Json.valid, Json.validMembers, hvalid]
  · have hrun := Router.nodeAnswer_query sys nlohmann htarget hsent
      (Percent.notMem_encode (by decide) (by decide) id) s
    have hutf8 : NodeIdsUtf8 s.dht := Router.nodeIdsUtf8_served world requests
    have hlist := (Json.valid_strings_iff _).2 (hutf8.listNodeIds sent)
    obtain ⟨r, hr, hgives⟩ := Router.nodeResponseRouter_of_ok router hrun (by
      simp +decide [Router.queryAnswer, Json.valid, Json.validMembers, hvalid, hlist])
    refine ⟨r, _, hr, hgives, fun n => ?_⟩
    obtain ⟨calls, hcalls⟩ : ∃ calls, s.dht = DhtOperation.run calls :=
      Router.exists_run_eq_served world requests
    rw [Router.mem_listNodeIds, hcalls, (Refines.run calls).mem_queryNodeIdsByShardId]

/-- A node with a plain id is found. -/
theorem lookups_of_encoded_stored :
    let body := sampleBody "a" "10.0.0.1" "1" (.numberUnsigned 1)
    let nlohmann : Nlohmann := .withDocuments [body] (by decide) samplePrint
    let router : Router := ⟨⟨{}, lit "./cache", lit "ftp.debian.org"⟩, lit "0.1.0"⟩
    let sys := Disk.system (.tree []) (.offline .current)
    let s := router.served sys nlohmann (.empty []) [sampleStore body.1]
    ∃ r, router.globalRouter sys nlohmann (sampleLookup (lit "/api/dht/verify/a")) s = .ok r s
      ∧ Router.Gives nlohmann (Router.verifyAnswer (lit "a") true) r := by
  intro body nlohmann router sys s
  have hbody : (nlohmann.parse body.1 >>= DhtEntry.fromJson nlohmann)
      = .ok ⟨lit "a", lit "10.0.0.1", ∅, 1, 20, []⟩ := decode_sampleBody rfl
  have hs : s = { dht := _, world := .empty [] } :=
    Router.serve_store sys router (isStore_sampleStore body.1) hbody { world := .empty [] }
  have hnode : Router.HasNodeHeaders (sampleLookup (lit "/api/dht/verify/a")) := ⟨rfl, rfl⟩
  have hid : lit "a" ≠ [] := by decide
  obtain ⟨hverify, -, -⟩ :=
    lookups_of_encoded sys nlohmann router (.empty []) [sampleStore body.1] hnode hid
  obtain ⟨r, hr, hgives⟩ := hverify (by decide)
  refine ⟨r, hr, ?_⟩
  have hlive : s.dht.verifyEntry (lit "a") = true := by rw [hs]; decide
  exact hlive ▸ hgives

/-- The node `a b` is stored, and not found under `a%20b`. -/
theorem lookups_not_decoded :
    ¬ ∀ (sys : System TreeDisk) (nlohmann : Nlohmann) (router : Router) (world : TreeDisk)
      (requests : List Request) (request : Request) (id : Bytes),
      Router.HasNodeHeaders request → request.method = .get → id ≠ [] → Utf8.valid id = true →
      request.target = lit "/api/dht/verify/" ++ Percent.encode id →
      ∃ r s' nodeId, router.globalRouter sys nlohmann request
          (router.served sys nlohmann world requests) = .ok r s'
        ∧ Router.Gives nlohmann (Router.verifyAnswer nodeId
          ((router.served sys nlohmann world requests).dht.verifyEntry id)) r := by
  intro hall
  let body := sampleBody "a b" "10.0.0.1" "1" (.numberUnsigned 1)
  let nlohmann : Nlohmann := .withDocuments [body] (by decide) samplePrint
  let router : Router := ⟨⟨{}, lit "./cache", lit "ftp.debian.org"⟩, lit "0.1.0"⟩
  let sys := Disk.system (.tree []) (.offline .current)
  let request := sampleLookup (lit "/api/dht/verify/a%20b")
  have hnode : Router.HasNodeHeaders request := ⟨rfl, rfl⟩
  let entry : DhtEntry := ⟨lit "a b", lit "10.0.0.1", ∅, 1, 20, []⟩
  let stored : Server TreeDisk := { dht := DhtOperation.storeEntry ∅ entry, world := .empty [] }
  have hbody : (nlohmann.parse body.1 >>= DhtEntry.fromJson nlohmann) = .ok entry :=
    decode_sampleBody rfl
  have hs : router.served sys nlohmann (.empty []) [sampleStore body.1] = stored :=
    Router.serve_store sys router (isStore_sampleStore body.1) hbody { world := .empty [] }
  obtain ⟨r, s', nodeId, hr, hgives⟩ := hall sys nlohmann router (.empty [])
    [sampleStore body.1] request (lit "a b") hnode rfl (by decide) (by decide) (by decide)
  rw [hs] at hr hgives
  rw [Router.globalRouter_of_node hnode] at hr
  have htarget : request.target = lit "/api/dht/verify/" ++ lit "a%20b" := rfl
  have hrun := Router.nodeAnswer_verify sys nlohmann htarget (by decide) (by decide) stored
  obtain ⟨r', hr', hgives'⟩ := Router.nodeResponseRouter_of_ok router hrun (by decide)
  obtain ⟨rfl, -⟩ := EStateM.Result.ok.inj (hr.symm.trans hr')
  -- One text would say both that the node exists and that it does not.
  obtain ⟨response, rfl, -, htext⟩ := hgives
  obtain ⟨response', hresponse, -, htext'⟩ := hgives'
  obtain rfl := Option.some.inj (RouterResponse.stringBody.inj hresponse)
  have heq := (Nlohmann.eq_of_dump_withDocuments htext).symm.trans
    (Nlohmann.eq_of_dump_withDocuments htext')
  rw [show stored.dht.verifyEntry (lit "a b") = true by decide,
    show stored.dht.verifyEntry (lit "a%20b") = false by decide] at heq
  have hletter : some (0x74 : UInt8) = some 0x66 := congrArg (fun text : Bytes => text[16]?) heq
  exact absurd hletter (by decide)

end PacPrism
