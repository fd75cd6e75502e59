import PacPrism.Network.NodeExceptions

/-!
# Network/NodeAnswers — what a request does to the tables, and what it is answered

An answer is *given* when it can be printed; the response then carries its status and its text.
Only two of the branches behind the validator touch the tables, and both test the method
(`globalRouter_cases`); each says in its answer that it did.
-/

namespace PacPrism

/-- The operation a target names behind `/api/dht/`. -/
def operationNamed (target : Bytes) : Option Bytes :=
  (apiPath target).map fun path => (operationOf path).1

namespace Router

variable {σ : Type} {sys : System σ} {nlohmann : Nlohmann} {router : Router}

/-- The response gives this answer: its status, and its printed text as the body. -/
def Gives (nlohmann : Nlohmann) (answer : Json × Status) (r : RouterResponse) : Prop :=
  ∃ response : Response Bytes, r = .stringBody (some response)
    ∧ response.status = answer.2 ∧ nlohmann.dump answer.1 = .ok response.body

/-- The answer to a store that found an entry of this node in its body. -/
def storeSuccess (nodeId : Bytes) : Json × Status :=
  (.object [(lit "operation", .string (lit "store")), (lit "status", .string (lit "success")),
    (lit "node_id", .string nodeId)], .created)

/-- The answer to a store whose body is no entry. -/
def storeFailure : Json × Status :=
  (jsonTexts [("operation", "store"), ("status", "error"), ("message", "Invalid JSON body")],
    .badRequest)

/-- The answer to a cleanup. -/
def cleanExpirySuccess : Json × Status :=
  (jsonTexts [("operation", "clean/expiry"), ("status", "success"),
    ("message", "Expired entries cleaned")], .ok)

variable (router) in
/-- An answer that can be printed is given. -/
theorem nodeResponseRouter_of_ok {request : Request} {s s' : Server σ} {answer : Json × Status}
    (hrun : nodeAnswer sys nlohmann request s = .ok answer s') (hvalid : answer.1.valid = true) :
    ∃ r, router.nodeResponseRouter sys nlohmann request s = .ok r s' ∧ Gives nlohmann answer r := by
  obtain ⟨text, htext⟩ := (nlohmann.dump_ok_iff answer.1).2 hvalid
  rw [nodeResponseRouter, Io.bind_of_ok (Io.tryCatch_of_ok hrun _), htext]
  exact ⟨_, rfl, _, rfl, rfl, htext⟩

/-! ## The two operations that write -/

variable (sys nlohmann) in
/-- A store, with the two answers it can have. -/
theorem nodeAnswer_store {request : Request}
    (hop : operationNamed request.target = some (lit "store")) (hpost : request.method = .post)
    (s : Server σ) :
    nodeAnswer sys nlohmann request s
      = match nlohmann.parse request.body >>= DhtEntry.fromJson nlohmann with
        | .ok entry => .ok (storeSuccess entry.nodeId) { s with dht := s.dht.storeEntry entry }
        | .error _ => .ok storeFailure s := by
  obtain ⟨path, hpath, hop⟩ := Option.map_eq_some_iff.1 hop
  rw [nodeAnswer, hpath]
  dsimp only
  rw [if_neg (by rw [hop]; simp +decide), if_pos ⟨hop, hpost⟩]
  exact handleStore_apply request s

variable (sys nlohmann) in
/-- A cleanup reads the clock. -/
theorem nodeAnswer_cleanExpiry {request : Request}
    (hop : operationNamed request.target = some (lit "clean/expiry"))
    (hpost : request.method = .post) (s : Server σ) :
    nodeAnswer sys nlohmann request s = .ok cleanExpirySuccess
      { dht := s.dht.cleanByExpiryTime (toTimeT (sys.systemClock s.world).1)
        world := (sys.systemClock s.world).2 } := by
  obtain ⟨path, hpath, hop⟩ := Option.map_eq_some_iff.1 hop
  rw [nodeAnswer, hpath]
  dsimp only
  rw [if_neg (by rw [hop]; simp +decide), if_neg (by rw [hop]; simp +decide),
    if_neg (by rw [hop]; simp +decide), if_pos ⟨hop, hpost⟩]
  rfl

/-- **No other operation writes.** -/
theorem keeps_nodeAnswer_of_reading {request : Request}
    (hstore : ¬ (operationNamed request.target = some (lit "store") ∧ request.method = .post))
    (hclean : ¬ (operationNamed request.target = some (lit "clean/expiry")
      ∧ request.method = .post)) (I : DhtOperation → Prop) :
    Io.Keeps (fun s => I s.dht) (nodeAnswer sys nlohmann request) := by
  rw [operationNamed] at hstore hclean
  rw [nodeAnswer]
  cases hpath : apiPath request.target with
  | none => exact Io.keeps_pure _ _
  | some path =>
    rw [hpath, Option.map_some, Option.some.injEq] at hstore hclean
    dsimp only
    rw [if_neg hstore, if_neg hclean]
    split_ifs
    · exact fun s hs => hs
    · rw [handleQuery]
      split_ifs
      exacts [fun s hs => hs, Io.keeps_pure _ _]
    · exact Io.keeps_pure _ _
    · exact Io.keeps_pure _ _

/-! ## What a request that wrote was answered -/

/-- The request carries both node headers. -/
def HasNodeHeaders (request : Request) : Prop :=
  (request.find (lit "pacPrism_node_id")).isSome = true
    ∧ (request.find (lit "pacPrism_node_signature")).isSome = true

theorem validateRequest_eq_node_iff (request : Request) :
    Validator.validateRequest request = .node ↔ HasNodeHeaders request := by
  rw [Validator.validateRequest, HasNodeHeaders]
  cases request.find (lit "pacPrism_node_id") <;>
    cases request.find (lit "pacPrism_node_signature") <;>
    simp [Validator.verifyNodeIdentity]

/-- A node's request goes to the node's router. -/
theorem globalRouter_of_node {request : Request} (h : HasNodeHeaders request) :
    router.globalRouter sys nlohmann request = router.nodeResponseRouter sys nlohmann request := by
  rw [globalRouter, (validateRequest_eq_node_iff request).2 h]

/-- A `POST` of a node to `/api/dht/store`. -/
structure IsStore (request : Request) : Prop where
  headers : HasNodeHeaders request
  post : request.method = .post
  operation : operationNamed request.target = some (lit "store")

variable (sys router) in
/-- **A store whose body is an entry** stores it and is answered 201. -/
theorem globalRouter_store {request : Request} (h : IsStore request) {entry : DhtEntry}
    (hbody : (nlohmann.parse request.body >>= DhtEntry.fromJson nlohmann) = .ok entry)
    (s : Server σ) :
    ∃ r, router.globalRouter sys nlohmann request s
        = .ok r { s with dht := s.dht.storeEntry entry }
      ∧ Gives nlohmann (storeSuccess entry.nodeId) r := by
  have hrun := nodeAnswer_store sys nlohmann h.operation h.post s
  rw [hbody] at hrun
  have hvalid : (storeSuccess entry.nodeId).1.valid = true := by
    simp +decide [storeSuccess, Json.valid, Json.validMembers, valid_nodeId_of_body hbody]
  rw [globalRouter_of_node h.headers]
  exact nodeResponseRouter_of_ok router hrun hvalid

variable (sys router) in
/-- **A store whose body is no entry** changes nothing and is answered 400. -/
theorem globalRouter_store_refused {request : Request} (h : IsStore request) {e : Exn}
    (hbody : (nlohmann.parse request.body >>= DhtEntry.fromJson nlohmann) = .error e)
    (s : Server σ) :
    ∃ r, router.globalRouter sys nlohmann request s = .ok r s ∧ Gives nlohmann storeFailure r := by
  have hrun := nodeAnswer_store sys nlohmann h.operation h.post s
  rw [hbody] at hrun
  rw [globalRouter_of_node h.headers]
  exact nodeResponseRouter_of_ok router hrun (by decide)

/-- A `POST` of a node to `/api/dht/clean/expiry`. -/
structure IsCleanExpiry (request : Request) : Prop where
  headers : HasNodeHeaders request
  post : request.method = .post
  operation : operationNamed request.target = some (lit "clean/expiry")

variable (sys nlohmann router) in
/-- A cleanup is answered 200. -/
theorem globalRouter_cleanExpiry {request : Request} (h : IsCleanExpiry request) (s : Server σ) :
    ∃ r s', router.globalRouter sys nlohmann request s = .ok r s'
      ∧ Gives nlohmann cleanExpirySuccess r
      ∧ ∃ nowSec, s'.dht = s.dht.cleanByExpiryTime nowSec := by
  have hrun := nodeAnswer_cleanExpiry sys nlohmann h.operation h.post s
  rw [globalRouter_of_node h.headers]
  obtain ⟨r, hr, hgives⟩ := nodeResponseRouter_of_ok router hrun (by decide)
  exact ⟨r, _, hr, hgives, _, rfl⟩

variable (sys nlohmann router) in
/-- **What a request can do to the tables**: nothing, unless it is a store whose body is an entry,
or a cleanup. -/
theorem globalRouter_cases (request : Request) (s : Server σ) :
    (Io.finalState (router.globalRouter sys nlohmann request s)).dht = s.dht
    ∨ (IsStore request
        ∧ ∃ entry, (nlohmann.parse request.body >>= DhtEntry.fromJson nlohmann) = .ok entry)
    ∨ IsCleanExpiry request := by
  by_cases hnode : HasNodeHeaders request
  case neg =>
    left
    rw [← validateRequest_eq_node_iff] at hnode
    rw [globalRouter]
    cases hv : Validator.validateRequest request with
    | plainClient => exact keeps_onWorld (· = s.dht) _ s rfl
    | node => exact absurd hv hnode
    | invalid => rfl
  by_cases hstore : operationNamed request.target = some (lit "store") ∧ request.method = .post
  · have h : IsStore request := ⟨hnode, hstore.2, hstore.1⟩
    cases hbody : nlohmann.parse request.body >>= DhtEntry.fromJson nlohmann with
    | error e =>
      left
      obtain ⟨r, hr, -⟩ := globalRouter_store_refused sys router h hbody s
      rw [hr]
      rfl
    | ok entry => exact .inr (.inl ⟨h, entry, rfl⟩)
  by_cases hclean : operationNamed request.target = some (lit "clean/expiry")
      ∧ request.method = .post
  · exact .inr (.inr ⟨hnode, hclean.2, hclean.1⟩)
  · rw [globalRouter_of_node hnode]
    exact .inl (keeps_nodeResponseRouter (I := (· = s.dht))
      (keeps_nodeAnswer_of_reading hstore hclean (· = s.dht)) s rfl)

/-! ## Runs -/

variable (sys router) in
theorem serve_store {request : Request} (h : IsStore request) {entry : DhtEntry}
    (hbody : (nlohmann.parse request.body >>= DhtEntry.fromJson nlohmann) = .ok entry)
    (s : Server σ) :
    router.serve sys nlohmann s request = { s with dht := s.dht.storeEntry entry } := by
  obtain ⟨r, hr, -⟩ := globalRouter_store sys router h hbody s
  rw [serve, hr]
  rfl

variable (sys nlohmann router) in
/-- A request does to the tables what some call does, or nothing. -/
theorem serve_dht (s : Server σ) (request : Request) :
    (router.serve sys nlohmann s request).dht = s.dht
      ∨ ∃ call, (router.serve sys nlohmann s request).dht = s.dht.apply call := by
  rcases globalRouter_cases sys nlohmann router request s with h | ⟨h, entry, hbody⟩ | h
  · exact .inl h
  · exact .inr ⟨.storeEntry entry, by rw [serve_store sys router h hbody]; rfl⟩
  · obtain ⟨r, s', hr, -, nowSec, hdht⟩ := globalRouter_cleanExpiry sys nlohmann router h s
    exact .inr ⟨.cleanByExpiryTime nowSec, by rw [serve, hr]; exact hdht⟩

/-- **The states requests lead to are states calls lead to.** -/
theorem exists_run_eq_served (world : σ) (requests : List Request) :
    ∃ calls, (router.served sys nlohmann world requests).dht = DhtOperation.run calls := by
  refine Runs.invariant_run (I := fun s : Server σ => ∃ calls, s.dht = DhtOperation.run calls)
    (router.serve sys nlohmann) (fun s request hs => ?_) ⟨[], rfl⟩ requests
  obtain ⟨calls, hcalls⟩ := hs
  rcases serve_dht sys nlohmann router s request with h | ⟨call, h⟩
  · exact ⟨calls, h.trans hcalls⟩
  · refine ⟨calls ++ [call], ?_⟩
    rw [h, hcalls]
    exact (Runs.run_append DhtOperation.apply ∅ calls [call]).symm

end Router

/-- **Only a successful node `POST` changes a table.**  If a request changed anything, then it came
from a node, by `POST`, and was answered 201 for the entry stored, or 200 for a cleanup. -/
theorem globalRouter_changes {σ : Type} (sys : System σ) (nlohmann : Nlohmann) (router : Router)
    (s : Server σ) (request : Request) :
    (Io.finalState (router.globalRouter sys nlohmann request s)).dht = s.dht
    ∨ Router.HasNodeHeaders request ∧ request.method = .post
      ∧ ∃ r s', router.globalRouter sys nlohmann request s = .ok r s'
        ∧ (operationNamed request.target = some (lit "store")
            ∧ (∃ entry, (nlohmann.parse request.body >>= DhtEntry.fromJson nlohmann) = .ok entry
              ∧ Router.Gives nlohmann (Router.storeSuccess entry.nodeId) r
              ∧ s'.dht = s.dht.storeEntry entry)
          ∨ operationNamed request.target = some (lit "clean/expiry")
            ∧ Router.Gives nlohmann Router.cleanExpirySuccess r
            ∧ ∃ nowSec, s'.dht = s.dht.cleanByExpiryTime nowSec) := by
  rcases Router.globalRouter_cases sys nlohmann router request s with h | ⟨h, entry, hbody⟩ | h
  · exact .inl h
  · obtain ⟨r, hr, hgives⟩ := Router.globalRouter_store sys router h hbody s
    exact .inr ⟨h.headers, h.post, r, _, hr, .inl ⟨h.operation, entry, hbody, hgives, rfl⟩⟩
  · obtain ⟨r, s', hr, hgives, hdht⟩ := Router.globalRouter_cleanExpiry sys nlohmann router h s
    exact .inr ⟨h.headers, h.post, r, s', hr, .inr ⟨h.operation, hgives, hdht⟩⟩

end PacPrism
