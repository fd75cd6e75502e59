import PacPrism.Network.PlainRouter
import PacPrism.Node.Dht.Codec
import PacPrism.Node.Dht.Operation

/-!
# Network/NodeRouter — requests from nodes: the DHT over HTTP

Two `try` blocks are nested here.  The inner one, around the decoding of an entry, catches the
exceptions of the JSON library only; the outer one catches all.  The answer is printed after both.
-/

namespace PacPrism

/-- What a request can change: the tables of the DHT, and the world. -/
structure Server (σ : Type) where
  dht : DhtOperation := ∅
  world : σ

/-- A program on the world, run by the server. -/
def Server.onWorld {σ α : Type} (m : Io σ α) : Io (Server σ) α := fun s =>
  match m s.world with
  | .ok a world => .ok a { s with world := world }
  | .error e world => .error e { s with world := world }

/-- The path behind `/api/dht/`, if the target begins with that. -/
def apiPath (target : Bytes) : Option Bytes :=
  match Bytes.find target (lit "/api/dht/") with
  | some ⟨0, h⟩ => some (Bytes.substr target 9 ((Nat.zero_add _).symm.trans_le h.2))
  | _ => none

/-- The operation and the parameters in the path behind `/api/dht/`. -/
def operationOf (path : Bytes) : Bytes × Bytes :=
  match Bytes.find path (lit "?") with
  | some queryPos =>
    (Bytes.before path queryPos, Bytes.after path queryPos)
  | none =>
    -- A clean operation keeps its slash.
    if (Bytes.find path (lit "clean/")).map Subtype.val = some 0 then (path, [])
    else
      match Bytes.find path (lit "/") with
      | some slashPos =>
        (Bytes.before path slashPos, Bytes.after path slashPos)
      | none => (path, [])

/-- The shard ID of a query. -/
def shardParameter (params : Bytes) : Bytes := queryValue (lit "shard_id=") params

namespace Router

variable {σ : Type} (sys : System σ) (nlohmann : Nlohmann) (router : Router)

/-- A JSON object of texts. -/
def jsonTexts (members : List (String × String)) : Json :=
  .object (members.map fun m => (lit m.1, .string (lit m.2)))

/-- `GET /api/dht/verify/{node_id}`. -/
def handleVerify (params : Bytes) : Io (Server σ) (Json × Status) := do
  let «exists» := (← get).dht.verifyEntry params
  pure (.object [(lit "operation", .string (lit "verify")), (lit "node_id", .string params),
    (lit "exists", .boolean «exists»)], .ok)

/-- `POST /api/dht/store`. -/
def handleStore (request : Request) : Io (Server σ) (Json × Status) :=
  tryCatch (do
    let requestJson ← Io.ofExcept (nlohmann.parse request.body)
    let entry ← Io.ofExcept (DhtEntry.fromJson nlohmann requestJson)
    modify fun s => { s with dht := s.dht.storeEntry entry }
    pure (.object [(lit "operation", .string (lit "store")),
      (lit "status", .string (lit "success")), (lit "node_id", .string entry.nodeId)], .created))
    fun e =>
      if e.kind = .jsonException then
        pure (jsonTexts [("operation", "store"), ("status", "error"),
          ("message", "Invalid JSON body")], .badRequest)
      else throw e

/-- The node IDs listed for a shard; none for the null pointer. -/
def listNodeIds (d : DhtOperation) (shardId : Bytes) : List Bytes :=
  match d.queryNodeIdsByShardId shardId with
  | some nodeIds => nodeIds.elems
  | none => []

/-- `GET /api/dht/query?shard_id={id}`. -/
def handleQuery (params : Bytes) : Io (Server σ) (Json × Status) := do
  let shardId := shardParameter params
  if shardId ≠ [] then
    let nodeIds := listNodeIds (← get).dht shardId
    pure (.object [(lit "operation", .string (lit "query")), (lit "shard_id", .string shardId),
      (lit "node_ids", .array (nodeIds.map .string))], .ok)
  else
    pure (jsonTexts [("operation", "query"), ("status", "error"),
      ("message", "Missing shard_id parameter")], .badRequest)

/-- `POST /api/dht/clean/expiry`. -/
def handleCleanExpiry : Io (Server σ) (Json × Status) := do
  let now ← Server.onWorld (Io.noexcept sys.systemClock)
  modify fun s => { s with dht := s.dht.cleanByExpiryTime (toTimeT now) }
  pure (jsonTexts [("operation", "clean/expiry"), ("status", "success"),
    ("message", "Expired entries cleaned")], .ok)

/-- `POST /api/dht/clean/liveness`: `clean_by_liveness` does nothing yet. -/
def handleCleanLiveness : Io (Server σ) (Json × Status) :=
  pure (jsonTexts [("operation", "clean/liveness"), ("status", "success"),
    ("message", "Unhealthy entries cleaned")], .ok)

/-- The body of the outer `try` block: the answer to a DHT operation. -/
def nodeAnswer (request : Request) : Io (Server σ) (Json × Status) :=
  match apiPath request.target with
  | some path =>
    let operation := (operationOf path).1
    let params := (operationOf path).2
    if operation = lit "verify" ∧ params ≠ [] then handleVerify params
    else if operation = lit "store" ∧ request.method = .post then handleStore nlohmann request
    else if operation = lit "query" then handleQuery params
    else if operation = lit "clean/expiry" ∧ request.method = .post then handleCleanExpiry sys
    else if operation = lit "clean/liveness" ∧ request.method = .post then handleCleanLiveness
    else pure (jsonTexts [("status", "error"), ("message", "Unknown DHT operation")], .notFound)
  | none => pure (jsonTexts [("status", "error"), ("message", "Invalid API path")], .badRequest)

/-- Process requests from other nodes. -/
def nodeResponseRouter (request : Request) : Io (Server σ) RouterResponse := do
  let answer ← tryCatch (nodeAnswer sys nlohmann request) fun e =>
    pure (.object [(lit "status", .string (lit "error")), (lit "message", .string e.what)],
      .internalServerError)
  let response : Response Bytes := { status := answer.2, version := request.version, body := [] }
  let response := response.set .contentType (lit "application/json")
  let response := response.set .server router.serverName
  -- Printed outside of the `try` blocks: what is thrown here leaves the router.
  let text ← Io.ofExcept (nlohmann.dump answer.1)
  let response := { response with body := text }
  pure (.stringBody (some (response.preparePayload sys.release)))

end Router

end PacPrism
