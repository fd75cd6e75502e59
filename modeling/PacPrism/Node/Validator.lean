import PacPrism.Http.Message

/-!
# Node/Validator — the type of a request
-/

namespace PacPrism

/-- Request type classification. -/
inductive RequestType where
  | plainClient
  | node
  | invalid
  deriving DecidableEq

namespace Validator

/-- Verify node identity signature: every signature passes. -/
def verifyNodeIdentity (_nodeId _nodeSignature _body : Bytes) : Bool := true

/-- Classify a request by the two node headers. -/
def validateRequest (request : Request) : RequestType :=
  match request.find (lit "pacPrism_node_id"), request.find (lit "pacPrism_node_signature") with
  | none, none => .plainClient
  | some nodeId, some nodeSignature =>
    if verifyNodeIdentity nodeId nodeSignature request.body then .node else .invalid
  | _, _ => .invalid

end Validator

end PacPrism
