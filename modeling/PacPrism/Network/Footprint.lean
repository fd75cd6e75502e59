import PacPrism.Console.Effects
import PacPrism.Network.Linearization

/-!
# Network/Footprint — what requests make the program do

    request ──plainRequestPath──▸ path ──Effect.On──▸ effects

A request of a node makes the program read the clock at most.  Any other names at most one path, and
makes it look at one file and contact one upstream server, so often and with pauses so long as the
configuration says.  In a whole run nothing is done that no request has asked for.
-/

namespace PacPrism

namespace Router

variable {σ : Type} (sys : System σ) (nlohmann : Nlohmann) (router : Router)

/-- How often a file may be fetched for a request. -/
def fetches (request : Request) : Nat :=
  if (request.find (lit "Range")).getD [] ≠ [] then 2 else 1

theorem fetches_le_two (request : Request) : fetches request ≤ 2 := by
  rw [fetches]
  split_ifs <;> omega

/-- The effect belongs to the path that a request names. -/
def Causes (request : Request) (x : Effect) : Prop :=
  ∃ path, plainRequestPath request.target = some path ∧ x.On router.cache path

/-- **What a plain request makes the program do.** -/
structure Footprint (request : Request) (l : List Effect) : Prop where
  causes : ∀ x ∈ l, router.Causes request x
  /-- All that is not a look is done by one fetch, or by two, one after the other. -/
  fetched : ∃ parts : List (List Effect), parts.length ≤ fetches request
    ∧ (∀ part ∈ parts, ∃ path result, plainRequestPath request.target = some path
      ∧ router.cache.Fetch path 0 router.cache.config.getMaxRetries.toNat result part)
    ∧ l.filter Effect.acts = parts.flatten
  contacts : Effect.total Effect.contacts l
    ≤ fetches request * router.cache.config.getMaxRetries.toNat
  seconds : Effect.total Effect.seconds l
    ≤ fetches request * (2 ^ (router.cache.config.getMaxRetries.toNat - 1) - 1)
  received : ∀ path buffer, Effect.writeStream path buffer ∈ l →
    ∃ upstream res, Effect.roundTrip upstream (.ok res) ∈ l ∧ res.result = 200
      ∧ buffer ∈ res.body

theorem footprint_nil (request : Request) : router.Footprint request [] :=
  ⟨nofun, ⟨[], Nat.zero_le _, nofun, rfl⟩, Nat.zero_le _, Nat.zero_le _, nofun⟩

theorem footprint_of_serves {request : Request} {path : Bytes}
    (hpath : plainRequestPath request.target = some path) {l : List Effect}
    (h : router.cache.Serves path (fetches request) l) : router.Footprint request l where
  causes x hx := ⟨path, hpath, h.1 x hx⟩
  fetched := by
    obtain ⟨-, parts, hlength, hparts, hacts⟩ := h
    refine ⟨parts, hlength, fun part hpart => ?_, hacts⟩
    obtain ⟨result, hfetch⟩ := hparts part hpart
    exact ⟨path, result, hpath, hfetch⟩
  contacts := h.contacts_le
  seconds := h.seconds_le
  received _ _ hmem := h.received hmem

/-- The operation a request selects. -/
theorem serving_serveFile (request : Request) (path : Bytes) :
    router.cache.Serving path (fetches request) (router.serveFile sys.recorded request path)
      (router.serveFile sys request path) := by
  rw [serveFile, serveFile, fetches]
  split_ifs with hrange hconditional
  · exact (router.cache.serving_getOrFetchWithRange sys path request.version _).map _
      (fun _ _ h => h) fun _ _ h => h
  · exact (router.cache.serving_getOrFetchWithConditional sys path request.version _ _).map _
      (fun _ _ h => h) fun _ _ h => h
  · exact (router.cache.serving_getOrFetch sys path request.version).map _
      (fun _ _ h => h) fun _ _ h => h

theorem logs_plainResponseRouter (request : Request) :
    Io.Logs (router.plainResponseRouter sys.recorded request)
      (router.plainResponseRouter sys request) fun _ l => router.Footprint request l := by
  rw [plainResponseRouter_eq, plainResponseRouter_eq]
  cases hpath : plainRequestPath request.target with
  | none => exact Io.logs_pure (router.footprint_nil request)
  | some path =>
    exact (router.serving_serveFile sys request path).mono fun _ _ h =>
      router.footprint_of_serves hpath h

variable {sys nlohmann router} in
/-- **A node's request has no effect** on files or upstream. -/
theorem log_globalRouter_of_node {m : Registry} {s : Server (σ × List Effect)}
    (h : Refines m s.dht) {request : Request} (hnode : HasNodeHeaders request) :
    (Io.finalState (router.globalRouter sys.recorded nlohmann request s)).world.2
      = s.world.2 := by
  have hafter : (serverAfter sys.recorded nlohmann request s).world.2 = s.world.2 := by
    rw [serverAfter]
    dsimp only
    rw [worldAfter]
    split_ifs <;> rfl
  rw [globalRouter_of_refines h hnode]
  cases router.respond sys.recorded nlohmann m request <;> exact hafter

/-- **What any request adds to the log.** -/
theorem log_globalRouter {m : Registry} {s : Server (σ × List Effect)} (h : Refines m s.dht)
    (request : Request) :
    ∃ l, (Io.finalState (router.globalRouter sys.recorded nlohmann request s)).world.2
        = s.world.2 ++ l
      ∧ router.Footprint request l
      ∧ (Validator.validateRequest request ≠ .plainClient → l = []) := by
  cases hv : Validator.validateRequest request with
  | node =>
    refine ⟨[], ?_, router.footprint_nil request, fun _ => rfl⟩
    rw [List.append_nil]
    exact log_globalRouter_of_node h ((validateRequest_eq_node_iff request).1 hv)
  | invalid =>
    refine ⟨[], ?_, router.footprint_nil request, fun _ => rfl⟩
    rw [globalRouter, hv, List.append_nil]
    rfl
  | plainClient =>
    obtain ⟨l, hrun, hfootprint⟩ :=
      router.logs_plainResponseRouter sys request s.world.1 s.world.2
    refine ⟨l, ?_, hfootprint, fun hne => absurd rfl hne⟩
    rw [globalRouter, hv]
    dsimp only
    rw [Server.onWorld, show s.world = (s.world.1, s.world.2) from rfl, hrun]
    cases router.plainResponseRouter sys request s.world.1 <;> rfl

end Router

/-- **What one plain request makes the program do**, whatever the surroundings: with a log it is
answered as without, and everything logged has to do with the one path that it names: looks at its
file, and one fetch at most, or two with a Range header.  The upstream server is contacted at most
`max_retries` times for a fetch, with pauses of less than `2 ^ (max_retries - 1)` seconds, and what
is written to a file was received with a 200 response. -/
theorem plainResponseRouter_footprint {σ : Type} (sys : System σ) (router : Router)
    (request : Request) (s : σ) (log : List Effect) :
    ∃ l, router.plainResponseRouter sys.recorded request (s, log)
        = Io.withLog (log ++ l) (router.plainResponseRouter sys request s)
      ∧ router.Footprint request l :=
  router.logs_plainResponseRouter sys request s log

/-! ## Runs -/

namespace Running

variable {σ : Type} {framing : Framing Request} {sys : System σ} {nlohmann : Nlohmann}
  {router : Router} {drift : σ × List Effect → σ × List Effect → Prop}

/-- **Everything that was done was asked for**, by a request of a plain client that names the path;
every byte written was received from upstream; and upstream is not contacted more often, nor the
program asleep for longer, than the requests handed over account for. -/
structure Contained (framing : Framing Request) (router : Router) (t : ServerTrans RouterResponse)
    (l : List Effect) : Prop where
  asked : ∀ x ∈ l, ∃ request, Handled framing t request
    ∧ Validator.validateRequest request = .plainClient ∧ router.Causes request x
  received : ∀ path buffer, Effect.writeStream path buffer ∈ l →
    ∃ upstream res, Effect.roundTrip upstream (.ok res) ∈ l ∧ res.result = 200
      ∧ buffer ∈ res.body
  contacts : Effect.total Effect.contacts l
    ≤ requestCount t * (2 * router.cache.config.getMaxRetries.toNat)
  seconds : Effect.total Effect.seconds l
    ≤ requestCount t * (2 * (2 ^ (router.cache.config.getMaxRetries.toNat - 1) - 1))

theorem contained_nil : Contained framing router ({} : ServerTrans RouterResponse) [] :=
  ⟨nofun, nofun, Nat.zero_le _, Nat.zero_le _⟩

/-- A step that routes nothing does nothing. -/
theorem Contained.mono {t t' : ServerTrans RouterResponse} {l : List Effect}
    (h : Contained framing router t l)
    (hkept : ∀ request, Handled framing t request → Handled framing t' request)
    (hcount : requestCount t ≤ requestCount t') : Contained framing router t' l where
  asked x hx := (h.asked x hx).imp fun request hasked => ⟨hkept request hasked.1, hasked.2⟩
  received := h.received
  contacts := h.contacts.trans (Nat.mul_le_mul_right _ hcount)
  seconds := h.seconds.trans (Nat.mul_le_mul_right _ hcount)

/-- A request that is routed adds what it causes. -/
theorem Contained.route {t t' : ServerTrans RouterResponse} {l l' : List Effect}
    (h : Contained framing router t l) {request : Request}
    (hfootprint : router.Footprint request l')
    (hplain : Validator.validateRequest request ≠ .plainClient → l' = [])
    (hhandled : Handled framing t' request)
    (hkept : ∀ request, Handled framing t request → Handled framing t' request)
    (hcount : requestCount t' = requestCount t + 1) : Contained framing router t' (l ++ l') where
  asked x hx := by
    rcases List.mem_append.1 hx with hx | hx
    · obtain ⟨asking, hasking, hcauses⟩ := h.asked x hx
      exact ⟨asking, hkept asking hasking, hcauses⟩
    · refine ⟨request, hhandled, ?_, hfootprint.causes x hx⟩
      by_contra hne
      rw [hplain hne] at hx
      cases hx
  received path buffer hmem := by
    rcases List.mem_append.1 hmem with hmem | hmem
    · obtain ⟨upstream, res, hin, hres⟩ := h.received path buffer hmem
      exact ⟨upstream, res, List.mem_append_left _ hin, hres⟩
    · obtain ⟨upstream, res, hin, hres⟩ := hfootprint.received path buffer hmem
      exact ⟨upstream, res, List.mem_append_right _ hin, hres⟩
  contacts := by
    rw [Effect.total_append, hcount, Nat.add_mul, Nat.one_mul]
    exact Nat.add_le_add h.contacts (hfootprint.contacts.trans
      (Nat.mul_le_mul_right _ (Router.fetches_le_two request)))
  seconds := by
    rw [Effect.total_append, hcount, Nat.add_mul, Nat.one_mul]
    exact Nat.add_le_add h.seconds (hfootprint.seconds.trans
      (Nat.mul_le_mul_right _ (Router.fetches_le_two request)))

/-- What was done since the start was asked for. -/
theorem Reachable.contained (hdrift : ∀ w w', drift w w' → w'.2 = w.2)
    {world : σ × List Effect} {s : Running (σ × List Effect)}
    (h : Reachable framing sys.recorded nlohmann router drift world s) :
    ∃ l, s.server.world.2 = world.2 ++ l ∧ Contained framing router s.transmission l := by
  refine h.invariant_of_reaches (I := fun s => ∃ l, s.server.world.2 = world.2 ++ l
      ∧ Contained framing router s.transmission l)
    (fun s completion s' hreach _ hstep ih => ?_) ⟨[], (List.append_nil _).symm, contained_nil⟩
  obtain ⟨m, -, hrefines⟩ := Reachable.exists_map hreach
  obtain ⟨l, hlog, hl⟩ := ih
  have hkept (request : Request) : Handled framing s.transmission request →
      Handled framing s'.transmission request := hstep.handled
  obtain ⟨hserver, -, hcount⟩ | ⟨request, w, hhandled, hcount, hdrifts, hserver, -⟩ :=
    hstep.server_cases
  · exact ⟨l, hserver ▸ hlog, hl.mono hkept hcount.ge⟩
  · obtain ⟨l', hlog', hfootprint, hplain⟩ := router.log_globalRouter sys nlohmann
      (s := ⟨s.server.dht, w⟩) hrefines request
    rw [hdrift _ _ hdrifts, hlog, List.append_assoc] at hlog'
    refine ⟨l ++ l', by rw [hserver]; exact hlog', ?_⟩
    exact hl.route hfootprint hplain hhandled hkept hcount

end Running

/-- **The program does nothing of its own accord.**  Whatever connections do, in whatever order
their operations complete: every file looked at or written, and every request sent upstream, belongs
to the path that a request of a plain client has named; and for each request handed over, upstream
is contacted at most `2 * max_retries` times. -/
theorem contained_of_reachable {σ : Type} {framing : Framing Request} {sys : System σ}
    {nlohmann : Nlohmann} {router : Router} {drift : σ × List Effect → σ × List Effect → Prop}
    (hdrift : ∀ w w', drift w w' → w'.2 = w.2) {world : σ} {s : Running (σ × List Effect)}
    (h : Running.Reachable framing sys.recorded nlohmann router drift (world, []) s) :
    Running.Contained framing router s.transmission s.server.world.2 := by
  obtain ⟨l, hlog, hl⟩ := h.contained hdrift
  rwa [hlog]

/-- A file that is not cached is asked for, and upstream is contacted in vain. -/
theorem contained_of_reachable_fetch :
    let router : Router := ⟨⟨{}, lit "./cache", lit "ftp.debian.org"⟩, lit "0.1.0"⟩
    let sys := (Disk.system (.tree []) (.offline .current)).recorded
    ∃ s : Running (TreeDisk × List Effect),
      Running.Reachable ServerTrans.getFraming sys .withoutParser router Eq (.empty [], []) s
      ∧ Effect.total Effect.contacts s.server.world.2 = 3
      ∧ Running.Contained ServerTrans.getFraming router s.transmission s.server.world.2 := by
  intro router sys
  let text := lit "GET /x HTTP/1.1\r\n\r\n"
  let start : Running (TreeDisk × List Effect) := .started (.empty [], [])
  obtain ⟨answer, server, hrun, hanswer, hcontacts⟩ := Io.exists_ok_of_check
    (m := router.globalRouter sys .withoutParser (ServerTrans.getFraming.decode text))
    (s := start.server)
    (fun answer server => answer.NonNull ∧ Effect.total Effect.contacts server.world.2 = 3)
    (by decide +kernel)
  have hserving : start.Serving := Running.serving_started _
  obtain ⟨s, hs, -, hserver, -, -⟩ := hserving.exists_exchange (fun _ => rfl) .refl (w := text)
    (by decide) hrun hanswer
  exact ⟨s, hs, by rw [hserver, hcontacts], contained_of_reachable (fun _ _ h => h ▸ rfl) hs⟩

end PacPrism
