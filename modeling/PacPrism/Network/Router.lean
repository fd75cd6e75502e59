import PacPrism.Network.NodeRouter
import PacPrism.Node.Validator

/-!
# Network/Router — every request
-/

namespace PacPrism

namespace Router

variable {σ : Type} (sys : System σ) (nlohmann : Nlohmann) (router : Router)

/-- Route a request by its type. -/
def globalRouter (request : Request) : Io (Server σ) RouterResponse :=
  match Validator.validateRequest request with
  | .plainClient => Server.onWorld (router.plainResponseRouter sys request)
  | .node => router.nodeResponseRouter sys nlohmann request
  | .invalid =>
    pure (router.defaultResponseBuilder sys (lit "Invalid request.") request.version .badRequest)

end Router

end PacPrism
