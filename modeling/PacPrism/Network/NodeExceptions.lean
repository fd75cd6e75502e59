import PacPrism.Console.Disk
import PacPrism.Foundations.Runs
import PacPrism.Network.Router

/-!
# Network/NodeExceptions — which node requests make the router throw

Whatever goes wrong inside the `try` blocks becomes an answer.  The answer is printed after them,
and printing throws where it echoes text of the target that is not UTF-8.  The texts that come from
the tables have passed the parser, so they are UTF-8 in every state that requests lead to.
-/

namespace PacPrism

/-- What a target has echoed in the answer is UTF-8: the parameters of `verify`, and the shard ID of
`query`. -/
def EchoesUtf8 (target : Bytes) : Prop :=
  ∀ path, apiPath target = some path →
    ((operationOf path).1 = lit "verify" → Utf8.valid (operationOf path).2 = true)
      ∧ ((operationOf path).1 = lit "query" →
        Utf8.valid (shardParameter (operationOf path).2) = true)

/-- The node IDs listed for the shards are UTF-8. -/
def NodeIdsUtf8 (d : DhtOperation) : Prop :=
  ∀ shardId, ∀ n ∈ d.shardIdToNodeIdsEntries.subscript shardId, Utf8.valid n = true

/-! ## The tables -/

namespace NodeIdsUtf8

theorem empty : NodeIdsUtf8 ∅ := fun _ _ hn => nomatch hn

variable {d : DhtOperation}

theorem updateTables (h : NodeIdsUtf8 d) {e : DhtEntry} (he : Utf8.valid e.nodeId = true) :
    NodeIdsUtf8 (d.updateTables e) := fun shardId n hn => by
  rcases (d.mem_shardIdToNodeIds_updateTables e shardId n).1 hn with hn | ⟨rfl, -⟩
  exacts [h shardId n hn, he]

theorem removeEntry (h : NodeIdsUtf8 d) (nodeId : Bytes) : NodeIdsUtf8 (d.removeEntry nodeId) := by
  by_cases hlive : d.verifyEntry nodeId = true
  · exact fun shardId n hn =>
      h shardId n ((DhtOperation.mem_shardIdToNodeIds_removeEntry hlive shardId n).1 hn).1
  · rwa [DhtOperation.removeEntry_of_not_live (by simpa using hlive)]

theorem storeEntry (h : NodeIdsUtf8 d) {e : DhtEntry} (he : Utf8.valid e.nodeId = true) :
    NodeIdsUtf8 (d.storeEntry e) := by
  rw [DhtOperation.storeEntry]
  split_ifs
  exacts [(h.removeEntry e.nodeId).updateTables he, h, h.updateTables he]

theorem cleanByExpiryTime (h : NodeIdsUtf8 d) (nowSec : Int) :
    NodeIdsUtf8 (d.cleanByExpiryTime nowSec) :=
  Runs.invariant_run DhtOperation.removeEntry (fun _ nodeId h => h.removeEntry nodeId) h _

/-- The answer to a query lists UTF-8 only. -/
theorem listNodeIds (h : NodeIdsUtf8 d) (shardId : Bytes) :
    ∀ n ∈ Router.listNodeIds d shardId, Utf8.valid n = true := by
  have hsubscript := d.queryNodeIdsByShardId_getD shardId
  rw [Router.listNodeIds]
  cases hquery : d.queryNodeIdsByShardId shardId with
  | none => exact nofun
  | some nodeIds =>
    rw [hquery, Option.getD_some] at hsubscript
    exact fun n hn => h shardId n (hsubscript ▸ hn)

end NodeIdsUtf8

namespace Router

variable {σ : Type} {sys : System σ} {nlohmann : Nlohmann} {router : Router}

/-! ## The operations -/

/-- A run returns an answer that can be printed exactly if `P`. -/
def AnswersUtf8 (m : Io (Server σ) (Json × Status)) (s : Server σ) (P : Prop) : Prop :=
  ∃ answer s', m s = .ok answer s' ∧ (answer.1.valid = true ↔ P)

theorem answersUtf8_handleVerify (params : Bytes) (s : Server σ) :
    AnswersUtf8 (handleVerify params) s (Utf8.valid params = true) := by
  refine ⟨_, s, rfl, ?_⟩
  simp +decide [Json.valid, Json.validMembers]

/-- **A store either stores the entry of its body, or answers 400 and changes nothing.** -/
theorem handleStore_apply (request : Request) (s : Server σ) :
    handleStore nlohmann request s
      = match nlohmann.parse request.body >>= DhtEntry.fromJson nlohmann with
        | .ok entry => .ok (.object [(lit "operation", .string (lit "store")),
            (lit "status", .string (lit "success")), (lit "node_id", .string entry.nodeId)],
            .created) { s with dht := s.dht.storeEntry entry }
        | .error _ => .ok (jsonTexts [("operation", "store"), ("status", "error"),
            ("message", "Invalid JSON body")], .badRequest) s := by
  have hrefused : ∀ {m : Io (Server σ) (Json × Status)} {e : Exn}, e.kind = .jsonException →
      m s = .error e s → tryCatch m (fun e =>
        if e.kind = .jsonException then
          pure (jsonTexts [("operation", "store"), ("status", "error"),
            ("message", "Invalid JSON body")], .badRequest)
        else throw e) s = .ok (jsonTexts [("operation", "store"), ("status", "error"),
            ("message", "Invalid JSON body")], .badRequest) s := fun hkind hm => by
    rw [Io.tryCatch_of_error hm, if_pos hkind]
    rfl
  rw [handleStore]
  cases hparse : nlohmann.parse request.body with
  | error e => exact hrefused (nlohmann.parse_error hparse) rfl
  | ok j =>
    change _ = match DhtEntry.fromJson nlohmann j with | .ok entry => _ | .error _ => _
    cases hentry : DhtEntry.fromJson nlohmann j with
    | error e =>
      refine hrefused (DhtEntry.failsBy_fromJson nlohmann j e hentry) ?_
      change (Io.ofExcept (DhtEntry.fromJson nlohmann j) >>= _) s = _
      rw [hentry]
      rfl
    | ok entry =>
      refine Io.tryCatch_of_ok ?_ _
      change (Io.ofExcept (DhtEntry.fromJson nlohmann j) >>= _) s = _
      rw [hentry]
      rfl

/-- The node ID of the entry that a store finds in its body. -/
theorem valid_nodeId_of_body {request : Request} {entry : DhtEntry}
    (h : (nlohmann.parse request.body >>= DhtEntry.fromJson nlohmann) = .ok entry) :
    Utf8.valid entry.nodeId = true := by
  obtain ⟨j, hparse, hentry⟩ := Exn.bind_eq_ok h
  exact DhtEntry.valid_nodeId_of_fromJson nlohmann (nlohmann.valid_of_parse hparse) hentry

variable (nlohmann) in
theorem answersUtf8_handleStore (request : Request) (s : Server σ) :
    AnswersUtf8 (handleStore nlohmann request) s True := by
  rw [AnswersUtf8, handleStore_apply]
  cases h : nlohmann.parse request.body >>= DhtEntry.fromJson nlohmann with
  | error e => exact ⟨_, _, rfl, by simp +decide⟩
  | ok entry =>
    refine ⟨_, _, rfl, ?_⟩
    simp +decide [Json.valid, Json.validMembers, valid_nodeId_of_body h]

theorem answersUtf8_handleQuery (params : Bytes) {s : Server σ} (hs : NodeIdsUtf8 s.dht) :
    AnswersUtf8 (handleQuery params) s (Utf8.valid (shardParameter params) = true) := by
  rw [AnswersUtf8, handleQuery]
  by_cases hshard : shardParameter params ≠ []
  · rw [if_pos hshard]
    refine ⟨_, s, rfl, ?_⟩
    have hlist := (Json.valid_strings_iff _).2 (hs.listNodeIds (shardParameter params))
    simp +decide [Json.valid, Json.validMembers, hlist]
  · rw [if_neg hshard]
    rw [ne_eq, not_not] at hshard
    exact ⟨_, s, rfl, by simp +decide [hshard]⟩

variable (sys nlohmann) in
/-- **An answer to a node can be printed exactly if what it echoes is UTF-8.** -/
theorem answersUtf8_nodeAnswer (request : Request) {s : Server σ} (hs : NodeIdsUtf8 s.dht) :
    AnswersUtf8 (nodeAnswer sys nlohmann request) s (EchoesUtf8 request.target) := by
  rw [nodeAnswer]
  cases hpath : apiPath request.target with
  | none =>
    refine ⟨_, s, rfl, iff_of_true (by decide) fun path h => ?_⟩
    cases hpath.symm.trans h
  | some path =>
    have hechoes : EchoesUtf8 request.target
        ↔ ((operationOf path).1 = lit "verify" → Utf8.valid (operationOf path).2 = true)
          ∧ ((operationOf path).1 = lit "query" →
            Utf8.valid (shardParameter (operationOf path).2) = true) := by
      rw [EchoesUtf8, hpath]
      simp only [Option.some.injEq, forall_eq']
    rw [hechoes]
    dsimp only
    split_ifs with hverify hstore hquery hexpiry hliveness
    · obtain ⟨answer, s', hrun, hvalid⟩ := answersUtf8_handleVerify (operationOf path).2 s
      refine ⟨answer, s', hrun, hvalid.trans ?_⟩
      simp +decide [hverify.1]
    · obtain ⟨answer, s', hrun, hvalid⟩ := answersUtf8_handleStore nlohmann request s
      refine ⟨answer, s', hrun, hvalid.trans ?_⟩
      simp +decide [hstore.1]
    · obtain ⟨answer, s', hrun, hvalid⟩ := answersUtf8_handleQuery (operationOf path).2 hs
      refine ⟨answer, s', hrun, hvalid.trans ?_⟩
      simp +decide [hquery]
    · refine ⟨_, _, rfl, iff_of_true (by decide) ?_⟩
      simp +decide [hexpiry.1]
    · refine ⟨_, s, rfl, iff_of_true (by decide) ?_⟩
      simp +decide [hliveness.1]
    · -- An operation without parameters echoes nothing.
      refine ⟨_, s, rfl, iff_of_true (by decide) ⟨fun h => ?_, fun h => absurd h hquery⟩⟩
      rw [not_and, ne_eq, not_not] at hverify
      rw [hverify h]
      decide

/-- The answer is printed outside of the `try` blocks, so the router returns exactly if that
succeeds. -/
theorem returns_iff (request : Request) {s : Server σ} (hs : NodeIdsUtf8 s.dht) :
    (∃ answer s', router.nodeResponseRouter sys nlohmann request s = .ok answer s')
      ↔ EchoesUtf8 request.target := by
  obtain ⟨answer, s₁, hrun, hvalid⟩ := answersUtf8_nodeAnswer sys nlohmann request hs
  rw [← hvalid, ← nlohmann.dump_ok_iff, nodeResponseRouter,
    Io.bind_of_ok (Io.tryCatch_of_ok hrun _)]
  cases hdump : nlohmann.dump answer.1 with
  | ok text => exact iff_of_true ⟨_, s₁, rfl⟩ ⟨text, rfl⟩
  | error e => exact iff_of_false nofun nofun

/-! ## Runs -/

variable (sys nlohmann router)

/-- The server after a request, whether the router returned or threw. -/
def serve (s : Server σ) (request : Request) : Server σ :=
  Io.finalState (router.globalRouter sys nlohmann request s)

/-- The server after a sequence of requests, the DHT being empty at first. -/
abbrev served (world : σ) (requests : List Request) : Server σ :=
  Runs.run (router.serve sys nlohmann) { world := world } requests

variable {sys nlohmann router}

theorem keeps_onWorld {α : Type} (I : DhtOperation → Prop) (m : Io σ α) :
    Io.Keeps (fun s : Server σ => I s.dht) (Server.onWorld m) := fun s hs => by
  rw [Server.onWorld]
  cases m s.world <;> exact hs

theorem keeps_nodeAnswer (request : Request) :
    Io.Keeps (fun s => NodeIdsUtf8 s.dht) (nodeAnswer sys nlohmann request) := by
  rw [nodeAnswer]
  cases apiPath request.target with
  | none => exact Io.keeps_pure _ _
  | some path =>
    dsimp only
    split_ifs
    · exact fun s hs => hs
    · intro s hs
      rw [handleStore_apply]
      cases h : nlohmann.parse request.body >>= DhtEntry.fromJson nlohmann with
      | error e => exact hs
      | ok entry => exact hs.storeEntry (valid_nodeId_of_body h)
    · rw [handleQuery]
      split_ifs
      exacts [fun s hs => hs, Io.keeps_pure _ _]
    · exact fun s hs => NodeIdsUtf8.cleanByExpiryTime hs _
    · exact Io.keeps_pure _ _
    · exact Io.keeps_pure _ _

/-- What the answering keeps of the tables, the printing keeps. -/
theorem keeps_nodeResponseRouter {I : DhtOperation → Prop} {request : Request}
    (h : Io.Keeps (fun s => I s.dht) (nodeAnswer sys nlohmann request)) :
    Io.Keeps (fun s => I s.dht) (router.nodeResponseRouter sys nlohmann request) :=
  Io.Keeps.bind (Io.Keeps.tryCatch h fun _ => Io.keeps_pure _ _)
    fun _ => Io.Keeps.bind (Io.keeps_ofExcept _ _) fun _ => Io.keeps_pure _ _

theorem keeps_globalRouter (request : Request) :
    Io.Keeps (fun s => NodeIdsUtf8 s.dht) (router.globalRouter sys nlohmann request) := by
  rw [globalRouter]
  cases Validator.validateRequest request with
  | plainClient => exact keeps_onWorld NodeIdsUtf8 _
  | node => exact keeps_nodeResponseRouter (keeps_nodeAnswer request)
  | invalid => exact Io.keeps_pure _ _

/-- **The node IDs stored over HTTP are UTF-8**, after any sequence of requests. -/
theorem nodeIdsUtf8_served (world : σ) (requests : List Request) :
    NodeIdsUtf8 (router.served sys nlohmann world requests).dht :=
  Runs.invariant_run (I := fun s : Server σ => NodeIdsUtf8 s.dht) (router.serve sys nlohmann)
    (fun s request hs => keeps_globalRouter request s hs) NodeIdsUtf8.empty requests

end Router

/-- **Which node requests do not make the router throw**: those whose echoes are UTF-8, after any
sequence of requests. -/
theorem nodeResponseRouter_returns_iff {σ : Type} (sys : System σ) (nlohmann : Nlohmann)
    (router : Router) (world : σ) (requests : List Request) (request : Request) :
    (∃ answer s', router.nodeResponseRouter sys nlohmann request
        (router.served sys nlohmann world requests) = .ok answer s')
      ↔ EchoesUtf8 request.target :=
  Router.returns_iff request (Router.nodeIdsUtf8_served world requests)

/-- A `verify` of a node ID that is the byte `0xff`: the answer cannot be printed. -/
theorem nodeResponseRouter_throws :
    ¬ ∀ (sys : System TreeDisk) (nlohmann : Nlohmann) (router : Router)
      (requests : List Request) (request : Request),
      ∃ answer s', router.nodeResponseRouter sys nlohmann request
        (router.served sys nlohmann (.empty []) requests) = .ok answer s' := by
  intro hall
  let request : Request := ⟨.get, lit "/api/dht/verify/\xff", 11,
    [(lit "pacPrism_node_id", lit "n"), (lit "pacPrism_node_signature", lit "s")], []⟩
  have hreturns := hall (Disk.system (.tree []) (.offline .current)) .withoutParser
    ⟨⟨{}, lit "./cache", lit "ftp.debian.org"⟩, lit "0.1.0"⟩ [] request
  have hechoes := (Router.returns_iff request NodeIdsUtf8.empty).1 hreturns
  exact absurd ((hechoes (lit "verify/\xff") (by decide)).1 (by decide)) (by decide)

end PacPrism
