import Mathlib.Data.Finset.Sort
import PacPrism.Network.Lookups

/-!
# Network/Api — the DHT over HTTP, as the map from node ids to entries has it

    Registry ──answer, callOf──▸ Registry
       │ Refines                    │ Refines
       ▾                            ▾
    Server   ──nodeAnswer──────▸ Server

A request of a node is answered from the map alone (`Registry.answer`), and does to it what one call
does, or nothing (`Router.callOf`).  The router computes both from the tables, so tables that refine
one map cannot be told apart by requests: neither the IP index nor the empty sets that are left of
shards are to be seen.
-/

namespace PacPrism

open DhtOperation (Call)

/-! ## The map as a server -/

namespace Registry

/-- The nodes whose entries carry a shard. -/
def holders (m : Registry) (shardId : Bytes) : Finset Bytes :=
  m.keys.filter fun n => ∃ e ∈ m.lookup n, e.Carries shardId

/-- What a node is answered. -/
def answer (nlohmann : Nlohmann) (m : Registry) (request : Request) : Json × Status :=
  match apiPath request.target with
  | none => (Router.jsonTexts [("status", "error"), ("message", "Invalid API path")], .badRequest)
  | some path =>
    let operation := (operationOf path).1
    let params := (operationOf path).2
    let shardId := shardParameter params
    if operation = lit "verify" ∧ params ≠ [] then Router.verifyAnswer params (decide (params ∈ m))
    else if operation = lit "store" ∧ request.method = .post then
      match nlohmann.parse request.body >>= DhtEntry.fromJson nlohmann with
      | .ok entry => Router.storeSuccess entry.nodeId
      | .error _ => Router.storeFailure
    else if operation = lit "query" then
      if shardId ≠ [] then Router.queryAnswer shardId ((m.holders shardId).sort (· ≤ ·))
      else (Router.jsonTexts [("operation", "query"), ("status", "error"),
        ("message", "Missing shard_id parameter")], .badRequest)
    else if operation = lit "clean/expiry" ∧ request.method = .post then Router.cleanExpirySuccess
    else if operation = lit "clean/liveness" ∧ request.method = .post then
      (Router.jsonTexts [("operation", "clean/liveness"), ("status", "success"),
        ("message", "Unhealthy entries cleaned")], .ok)
    else (Router.jsonTexts [("status", "error"), ("message", "Unknown DHT operation")], .notFound)

/-- The map after a call, if there is one. -/
def after (m : Registry) (call : Option Call) : Registry := call.elim m m.apply

theorem mem_holders {m : Registry} {shardId n : Bytes} :
    n ∈ m.holders shardId ↔ ∃ e ∈ m.lookup n, e.Carries shardId := by
  rw [holders, Finset.mem_filter, Finmap.mem_keys, and_iff_right_iff_imp]
  rintro ⟨e, he, -⟩
  exact Finmap.mem_of_lookup_eq_some he

end Registry

/-- The tables after a call, if there is one. -/
def DhtOperation.after (d : DhtOperation) (call : Option Call) : DhtOperation := call.elim d d.apply

theorem Refines.after {m : Registry} {d : DhtOperation} (h : Refines m d) (call : Option Call) :
    Refines (m.after call) (d.after call) :=
  match call with
  | none => h
  | some call => h.apply call

namespace Router

variable {σ : Type} (sys : System σ) (nlohmann : Nlohmann) (router : Router)

/-- What a node's request does, at this time. -/
def callOf (request : Request) (nowSec : Int) : Option Call :=
  if operationNamed request.target = some (lit "store") ∧ request.method = .post then
    match nlohmann.parse request.body >>= DhtEntry.fromJson nlohmann with
    | .ok entry => some (.storeEntry entry)
    | .error _ => none
  else if operationNamed request.target = some (lit "clean/expiry") ∧ request.method = .post then
    some (.cleanByExpiryTime nowSec)
  else none

/-- The world after a node's request: a cleanup has read the clock. -/
def worldAfter (request : Request) (w : σ) : σ :=
  if operationNamed request.target = some (lit "clean/expiry") ∧ request.method = .post then
    (sys.systemClock w).2
  else w

/-- The server after a node's request. -/
def serverAfter (request : Request) (s : Server σ) : Server σ where
  dht := s.dht.after (callOf nlohmann request (toTimeT (sys.systemClock s.world).1))
  world := worldAfter sys request s.world

end Router

/-! ## The tables as a server -/

namespace Refines

variable {m : Registry} {d : DhtOperation}

/-- The nodes listed for a shard are those of the map, in order. -/
theorem listNodeIds_eq (h : Refines m d) (shardId : Bytes) :
    Router.listNodeIds d shardId = (m.holders shardId).sort (· ≤ ·) := by
  let nodeIds := d.shardIdToNodeIdsEntries.subscript shardId
  have helems : Router.listNodeIds d shardId = nodeIds.elems := by
    rw [Router.listNodeIds]
    dsimp only [nodeIds]
    rw [← d.queryNodeIdsByShardId_getD shardId]
    cases d.queryNodeIdsByShardId shardId <;> rfl
  have hholders : m.holders shardId = nodeIds.elems.toFinset := by
    ext n
    rw [Registry.mem_holders, ← h.holders, List.mem_toFinset]
    rfl
  have hle : nodeIds.elems.Pairwise (· ≤ ·) := nodeIds.sorted.imp fun hlt => le_of_lt hlt
  have hnodup : nodeIds.elems.Nodup := nodeIds.sorted.imp fun hlt => ne_of_lt hlt
  rw [helems, hholders]
  exact ((List.toFinset_sort (· ≤ ·) hnodup).2 hle).symm

/-- A request that does nothing is answered from the map. -/
theorem nodeAnswer_of_reading {σ : Type} {s : Server σ} (h : Refines m s.dht) (sys : System σ)
    (nlohmann : Nlohmann) {request : Request}
    (hstore : ¬ (operationNamed request.target = some (lit "store") ∧ request.method = .post))
    (hclean : ¬ (operationNamed request.target = some (lit "clean/expiry")
      ∧ request.method = .post)) :
    Router.nodeAnswer sys nlohmann request s = .ok (m.answer nlohmann request) s := by
  rw [operationNamed] at hstore hclean
  rw [Router.nodeAnswer, Registry.answer]
  cases hpath : apiPath request.target with
  | none => rfl
  | some path =>
    rw [hpath, Option.map_some, Option.some.injEq] at hstore hclean
    dsimp only
    rw [if_neg hstore, if_neg hstore, if_neg hclean, if_neg hclean]
    split_ifs with hverify hquery hshard hliveness
    · have hlive : s.dht.verifyEntry (operationOf path).2 = decide ((operationOf path).2 ∈ m) := by
        rw [Bool.eq_iff_iff, h.verifyEntry_iff, decide_eq_true_iff]
      rw [← hlive]
      rfl
    · rw [Router.handleQuery, if_pos hshard, ← h.listNodeIds_eq]
      rfl
    · rw [Router.handleQuery, if_neg hshard]
      rfl
    · rfl
    · rfl

/-- **A node is answered from the map**, and its request does to the tables what it does to the
map. -/
theorem nodeAnswer_eq {σ : Type} {s : Server σ} (h : Refines m s.dht) (sys : System σ)
    (nlohmann : Nlohmann) (request : Request) :
    Router.nodeAnswer sys nlohmann request s
      = .ok (m.answer nlohmann request) (Router.serverAfter sys nlohmann request s) := by
  by_cases hstore : operationNamed request.target = some (lit "store") ∧ request.method = .post
  · obtain ⟨path, hpath, hop⟩ := Option.map_eq_some_iff.1 hstore.1
    have hanswer : m.answer nlohmann request
        = match nlohmann.parse request.body >>= DhtEntry.fromJson nlohmann with
          | .ok entry => Router.storeSuccess entry.nodeId
          | .error _ => Router.storeFailure := by
      rw [Registry.answer, hpath]
      dsimp only
      rw [if_neg (by rw [hop]; simp +decide), if_pos ⟨hop, hstore.2⟩]
    have hworld : Router.worldAfter sys request s.world = s.world := by
      rw [Router.worldAfter, if_neg (by rw [hstore.1]; simp +decide)]
    rw [Router.nodeAnswer_store sys nlohmann hstore.1 hstore.2, hanswer, Router.serverAfter,
      Router.callOf, if_pos hstore, hworld]
    cases nlohmann.parse request.body >>= DhtEntry.fromJson nlohmann <;> rfl
  by_cases hclean : operationNamed request.target = some (lit "clean/expiry")
      ∧ request.method = .post
  · obtain ⟨path, hpath, hop⟩ := Option.map_eq_some_iff.1 hclean.1
    have hanswer : m.answer nlohmann request = Router.cleanExpirySuccess := by
      rw [Registry.answer, hpath]
      dsimp only
      rw [if_neg (by rw [hop]; simp +decide), if_neg (by rw [hop]; simp +decide),
        if_neg (by rw [hop]; simp +decide), if_pos ⟨hop, hclean.2⟩]
    rw [Router.nodeAnswer_cleanExpiry sys nlohmann hclean.1 hclean.2, hanswer, Router.serverAfter,
      Router.callOf, if_neg hstore, if_pos hclean, Router.worldAfter, if_pos hclean]
    rfl
  · have hserver : Router.serverAfter sys nlohmann request s = s := by
      rw [Router.serverAfter, Router.callOf, if_neg hstore, if_neg hclean, Router.worldAfter,
        if_neg hclean]
      rfl
    rw [hserver]
    exact h.nodeAnswer_of_reading sys nlohmann hstore hclean

end Refines

/-! ## Requests that are routed -/

/-- A program that returned on the world left the tables alone. -/
theorem Server.exists_of_onWorld {σ α : Type} {m : Io σ α} {s s' : Server σ} {a : α}
    (h : Server.onWorld m s = .ok a s') :
    ∃ world, m s.world = .ok a world ∧ s' = { s with world := world } := by
  rw [onWorld] at h
  cases hm : m s.world with
  | error e world =>
    rw [hm] at h
    cases h
  | ok b world =>
    rw [hm] at h
    obtain ⟨rfl, rfl⟩ := EStateM.Result.ok.inj h
    exact ⟨world, rfl, rfl⟩

namespace Router

variable {σ : Type} (sys : System σ) (nlohmann : Nlohmann) (router : Router)

/-- The response that carries a text. -/
def jsonResponse (version : Nat) (status : Status) (text : Bytes) : RouterResponse :=
  let response : Response Bytes := { status := status, version := version, body := [] }
  let response := response.set .contentType (lit "application/json")
  let response := response.set .server router.serverName
  .stringBody (some ({ response with body := text }.preparePayload sys.release))

/-- A node's request, served from the map: the response if its text can be printed. -/
def respond (m : Registry) (request : Request) : Except Exn RouterResponse :=
  (nlohmann.dump (m.answer nlohmann request).1).map
    (router.jsonResponse sys request.version (m.answer nlohmann request).2)

variable {sys nlohmann router}

/-- **A node's request is served as from the map.** -/
theorem globalRouter_of_refines {m : Registry} {s : Server σ} (h : Refines m s.dht)
    {request : Request} (hnode : HasNodeHeaders request) :
    router.globalRouter sys nlohmann request s
      = match router.respond sys nlohmann m request with
        | .ok response => .ok response (serverAfter sys nlohmann request s)
        | .error e => .error e (serverAfter sys nlohmann request s) := by
  rw [globalRouter_of_node hnode, nodeResponseRouter,
    Io.bind_of_ok (Io.tryCatch_of_ok (h.nodeAnswer_eq sys nlohmann request) _), respond]
  dsimp only
  cases nlohmann.dump (m.answer nlohmann request).1 <;> rfl

variable (sys nlohmann router) in
/-- What is not a node's request does not see the tables. -/
theorem globalRouter_of_not_node {request : Request} (hnode : ¬ HasNodeHeaders request) :
    ∃ program : Io σ RouterResponse,
      router.globalRouter sys nlohmann request = Server.onWorld program := by
  rw [← validateRequest_eq_node_iff] at hnode
  rw [globalRouter]
  cases hv : Validator.validateRequest request with
  | plainClient => exact ⟨_, rfl⟩
  | node => exact absurd hv hnode
  | invalid => exact ⟨pure _, rfl⟩

variable (sys nlohmann router)

/-- What a sequence of requests is answered, or ends in. -/
def outcomes (s : Server σ) : List Request → List (Except Exn RouterResponse)
  | [] => []
  | request :: requests =>
    Io.outcome (router.globalRouter sys nlohmann request s)
      :: outcomes (router.serve sys nlohmann s request) requests

variable {sys nlohmann router}

/-- Servers in one world, whose tables refine one map. -/
def Indistinguishable (s s' : Server σ) : Prop :=
  s.world = s'.world ∧ ∃ m, Refines m s.dht ∧ Refines m s'.dht

variable (sys nlohmann router) in
/-- **One request** is answered the same, and does not tell them apart. -/
theorem Indistinguishable.serve {s s' : Server σ} (h : Indistinguishable s s')
    (request : Request) :
    Io.outcome (router.globalRouter sys nlohmann request s)
        = Io.outcome (router.globalRouter sys nlohmann request s')
      ∧ Indistinguishable (router.serve sys nlohmann s request)
        (router.serve sys nlohmann s' request) := by
  obtain ⟨hworld, m, hm, hm'⟩ := h
  by_cases hnode : HasNodeHeaders request
  · have hafter : Indistinguishable (serverAfter sys nlohmann request s)
        (serverAfter sys nlohmann request s') := by
      refine ⟨congrArg (worldAfter sys request) hworld, _, hm.after _, ?_⟩
      rw [hworld]
      exact hm'.after _
    rw [Router.serve, Router.serve, globalRouter_of_refines hm hnode,
      globalRouter_of_refines hm' hnode]
    cases router.respond sys nlohmann m request <;> exact ⟨rfl, hafter⟩
  · obtain ⟨program, hprogram⟩ := globalRouter_of_not_node sys nlohmann router hnode
    rw [Router.serve, Router.serve, hprogram, Server.onWorld, Server.onWorld, hworld]
    cases program s'.world <;> exact ⟨rfl, rfl, m, hm, hm'⟩

theorem Indistinguishable.outcomes_eq {s s' : Server σ} (h : Indistinguishable s s')
    (requests : List Request) :
    router.outcomes sys nlohmann s requests = router.outcomes sys nlohmann s' requests := by
  induction requests generalizing s s' with
  | nil => rfl
  | cons request requests ih =>
    obtain ⟨houtcome, hnext⟩ := h.serve sys nlohmann router request
    rw [outcomes, outcomes, houtcome, ih hnext]

end Router

/-- **What cannot be seen over HTTP.**  Tables that calls have brought to one map are not told apart
by any sequence of requests: not by their IP index, nor by the empty sets left of shards. -/
theorem outcomes_eq_of_registry_eq {σ : Type} (sys : System σ) (nlohmann : Nlohmann)
    (router : Router) {calls calls' : List Call} (h : Registry.run calls = Registry.run calls')
    (world : σ) (requests : List Request) :
    router.outcomes sys nlohmann ⟨DhtOperation.run calls, world⟩ requests
      = router.outcomes sys nlohmann ⟨DhtOperation.run calls', world⟩ requests := by
  have hsame : Router.Indistinguishable (⟨DhtOperation.run calls, world⟩ : Server σ)
      ⟨DhtOperation.run calls', world⟩ := by
    refine ⟨rfl, Registry.run calls, Refines.run calls, ?_⟩
    rw [h]
    exact Refines.run calls'
  exact hsame.outcomes_eq requests

/-- An IP that was shared for a while is lost to its node in the IP index, and otherwise is not. -/
theorem outcomes_eq_of_shared :
    let entry (nodeId nodeIp : Bytes) (generation : Int64) : Call :=
      .storeEntry ⟨nodeId, nodeIp, ∅, generation, 20, []⟩
    let shared := [entry (lit "a") (lit "ip") 1, entry (lit "b") (lit "ip") 1,
      entry (lit "b") (lit "other") 2]
    let apart := [entry (lit "b") (lit "other") 2, entry (lit "a") (lit "ip") 1]
    let router : Router := ⟨⟨{}, lit "./cache", lit "ftp.debian.org"⟩, lit "0.1.0"⟩
    (DhtOperation.run shared).nodeIpToNodeIdEntries.lookup (lit "ip") = none
      ∧ (DhtOperation.run apart).nodeIpToNodeIdEntries.lookup (lit "ip") = some (lit "a")
      ∧ ∀ requests, router.outcomes (Disk.system (.tree []) (.offline .current)) .withoutParser
          ⟨DhtOperation.run shared, (.empty [] : TreeDisk)⟩ requests
        = router.outcomes (Disk.system (.tree []) (.offline .current)) .withoutParser
          ⟨DhtOperation.run apart, .empty []⟩ requests := by
  intro entry shared apart router
  have hregistry : Registry.run shared = Registry.run apart := by decide
  exact ⟨by decide, by decide,
    outcomes_eq_of_registry_eq _ _ router hregistry (.empty [] : TreeDisk)⟩

end PacPrism
