import PacPrism.Network.Running

/-!
# Network/Linearization — the running program is one map

    exchanges ──Registry.Exchanges──▸ Registry
        │                               │ Refines
        ▾                               ▾
    connections, in any order ───────▸ tables

Whatever connections do, in whatever order their operations complete: there is one map, and the
exchanges are explained by it, one after another in the order in which they were handled.  Each
request is answered from the map that the earlier ones have left, and does to it what it should.
-/

namespace PacPrism

open Runs (Explains explains_append)

/-- **One exchange, as the map has it.**  A node is answered from the map, which is then changed by
what its request does; nobody else changes it. -/
structure Registry.Exchanges {σ : Type} (sys : System σ) (nlohmann : Nlohmann) (router : Router)
    (m : Registry) (x : Exchange) (m' : Registry) : Prop where
  of_node : Router.HasNodeHeaders x.request →
    router.respond sys nlohmann m x.request = .ok x.answer
      ∧ ∃ world, m' = m.after
        (Router.callOf nlohmann x.request (toTimeT (sys.systemClock world).1))
  of_other : ¬ Router.HasNodeHeaders x.request → m' = m

namespace Router

variable {σ : Type} {sys : System σ} {nlohmann : Nlohmann} {router : Router} {s s' : Server σ}
  {m : Registry} {request : Request}

/-- A request that is answered is an exchange with the map, at the time of the world. -/
theorem exchanges_of_globalRouter (h : Refines m s.dht) {answer : RouterResponse}
    (hrun : router.globalRouter sys nlohmann request s = .ok answer s') (i : Nat) :
    ∃ m', m.Exchanges sys nlohmann router ⟨i, request, answer⟩ m' ∧ Refines m' s'.dht
      ∧ (HasNodeHeaders request →
        m' = m.after (callOf nlohmann request (toTimeT (sys.systemClock s.world).1))) := by
  by_cases hnode : HasNodeHeaders request
  · rw [globalRouter_of_refines h hnode] at hrun
    cases hrespond : router.respond sys nlohmann m request with
    | error e =>
      rw [hrespond] at hrun
      cases hrun
    | ok response =>
      rw [hrespond] at hrun
      obtain ⟨rfl, rfl⟩ := EStateM.Result.ok.inj hrun
      exact ⟨_, ⟨fun _ => ⟨hrespond, s.world, rfl⟩, fun hnot => absurd hnode hnot⟩, h.after _,
        fun _ => rfl⟩
  · obtain ⟨program, hprogram⟩ := globalRouter_of_not_node sys nlohmann router hnode
    refine ⟨m, ⟨fun hyes => absurd hyes hnode, fun _ => rfl⟩, ?_, fun hyes => absurd hyes hnode⟩
    have hdht := keeps_onWorld (Refines m) program s h
    rw [← hprogram, hrun] at hdht
    exact hdht

/-- A response from the map gives its answer. -/
theorem gives_of_respond {answer : RouterResponse}
    (h : router.respond sys nlohmann m request = .ok answer) :
    Gives nlohmann (m.answer nlohmann request) answer := by
  rw [respond] at h
  cases htext : nlohmann.dump (m.answer nlohmann request).1 with
  | error e =>
    rw [htext] at h
    cases h
  | ok text =>
    rw [htext] at h
    obtain rfl := Except.ok.inj h
    exact ⟨_, rfl, rfl, htext⟩

/-- A request on which the router fails does not change the tables: what it writes, it answers. -/
theorem dht_serve_of_fails
    (hfails : ∀ answer s', router.globalRouter sys nlohmann request s = .ok answer s' →
      ¬ answer.NonNull) : (router.serve sys nlohmann s request).dht = s.dht := by
  rcases globalRouter_cases sys nlohmann router request s with h | ⟨h, entry, hbody⟩ | h
  · exact h
  · obtain ⟨r, hr, hgives⟩ := globalRouter_store sys router h hbody s
    exact absurd hgives.nonNull (hfails r _ hr)
  · obtain ⟨r, s', hr, hgives, -⟩ := globalRouter_cleanExpiry sys nlohmann router h s
    exact absurd hgives.nonNull (hfails r s' hr)

end Router

/-- **One map explains all answers.**  In every state the program can be in, there is a map that the
tables refine, and it explains the exchanges in the order in which the requests were handled. -/
theorem Running.Reachable.exists_map {σ : Type} {framing : Framing Request} {sys : System σ}
    {nlohmann : Nlohmann} {router : Router} {drift : σ → σ → Prop} {world : σ} {s : Running σ}
    (h : Running.Reachable framing sys nlohmann router drift world s) :
    ∃ m, Explains (Registry.Exchanges sys nlohmann router) ∅ s.exchanges m
      ∧ Refines m s.server.dht := by
  refine h.invariant (I := fun s : Running σ =>
    ∃ m, Explains (Registry.Exchanges sys nlohmann router) ∅ s.exchanges m
      ∧ Refines m s.server.dht) (fun s completion s' _ hstep ih => ?_) ⟨∅, rfl, Refines.empty⟩
  obtain ⟨m, hexplains, hrefines⟩ := ih
  cases hstep with
  | transmit => exact ⟨m, hexplains, hrefines⟩
  | @answer i c buffer n world answer server _ _ _ _ _ hrun =>
    obtain ⟨m', hexchange, hrefines', -⟩ :=
      Router.exchanges_of_globalRouter (s := ⟨s.server.dht, world⟩) hrefines hrun i
    exact ⟨m', hexplains.concat hexchange, hrefines'⟩
  | @fail i c buffer n world _ _ _ _ _ hfails =>
    refine ⟨m, hexplains, ?_⟩
    dsimp only
    rw [Router.dht_serve_of_fails hfails]
    exact hrefines

/-- A run in which a node is stored on the first connection and looked up on the second. -/
theorem Running.exists_storeThenVerify :
    let body := sampleBody "a" "10.0.0.1" "1" (.numberUnsigned 1)
    let nlohmann : Nlohmann := .withDocuments [body] (by decide) samplePrint
    let router : Router := ⟨⟨{}, lit "./cache", lit "ftp.debian.org"⟩, lit "0.1.0"⟩
    let sys := Disk.system (.tree []) (.offline .current)
    ∃ (s : Running TreeDisk) (stored found : RouterResponse),
      Running.Reachable (Running.nodeFraming body.1) sys nlohmann router Eq (.empty []) s
        ∧ s.Serving ∧ s.exchanges = [⟨0, sampleStore body.1, stored⟩,
          ⟨1, sampleLookup (lit "/api/dht/verify/a"), found⟩] := by
  intro body nlohmann router sys
  let lookup := sampleLookup (lit "/api/dht/verify/a")
  have hbody : (nlohmann.parse body.1 >>= DhtEntry.fromJson nlohmann)
      = .ok ⟨lit "a", lit "10.0.0.1", ∅, 1, 20, []⟩ := decode_sampleBody rfl
  obtain ⟨s, stored, hs, hserving, -, hlength, hexchanges⟩ :=
    (Running.serving_started (.empty [] : TreeDisk)).exists_store (fun _ => rfl) .refl hbody
  have htarget : lookup.target = lit "/api/dht/verify/" ++ lit "a" := rfl
  have hnode : Router.HasNodeHeaders lookup := ⟨rfl, rfl⟩
  obtain ⟨found, hfound, hgives⟩ := Router.nodeResponseRouter_of_ok router
    (Router.nodeAnswer_verify sys nlohmann htarget (by decide) (by decide) s.server)
    (by cases s.server.dht.verifyEntry (lit "a") <;> decide)
  rw [← Router.globalRouter_of_node hnode] at hfound
  obtain ⟨s', hs', hserving', -, -, hexchanges'⟩ := hserving.exists_exchange (fun _ => rfl) hs
    (w := lit "GET /api/dht/verify/a HTTP/1.1\r\n\r\n") rfl hfound hgives.nonNull
  rw [hexchanges, hlength] at hexchanges'
  exact ⟨s', stored, found, hs', hserving', hexchanges'⟩

/-- **The DHT is linearizable.**  As long as the program runs, each request handed over was answered
once and to its own connection, in order; and there is one map that explains all these answers, one
after another, and that the tables refine. -/
theorem linearizable {σ : Type} {framing : Framing Request} {sys : System σ}
    {nlohmann : Nlohmann} {router : Router} {drift : σ → σ → Prop} {world : σ} {s : Running σ}
    (h : Running.Reachable framing sys nlohmann router drift world s)
    (hrunning : s.transmission.escaped = false) :
    s.Attributed framing
      ∧ ∃ m, Explains (Registry.Exchanges sys nlohmann router) ∅ s.exchanges m
        ∧ Refines m s.server.dht :=
  ⟨h.attributed hrunning, h.exists_map⟩

/-- A store on the first connection and a lookup on the second: one map explains both answers. -/
theorem linearizable_connections :
    let body := sampleBody "a" "10.0.0.1" "1" (.numberUnsigned 1)
    let nlohmann : Nlohmann := .withDocuments [body] (by decide) samplePrint
    let router : Router := ⟨⟨{}, lit "./cache", lit "ftp.debian.org"⟩, lit "0.1.0"⟩
    let sys := Disk.system (.tree []) (.offline .current)
    ∃ (s : Running TreeDisk) (x y : Exchange) (m₁ m₂ : Registry),
      Running.Reachable (Running.nodeFraming body.1) sys nlohmann router Eq (.empty []) s
        ∧ s.exchanges = [x, y] ∧ x.connection = 0 ∧ y.connection = 1
        ∧ s.Attributed (Running.nodeFraming body.1)
        ∧ Registry.Exchanges sys nlohmann router ∅ x m₁
        ∧ Registry.Exchanges sys nlohmann router m₁ y m₂ ∧ Refines m₂ s.server.dht := by
  intro body nlohmann router sys
  obtain ⟨s, stored, found, hreach, hserving, hexchanges⟩ := Running.exists_storeThenVerify
  obtain ⟨hattributed, m₂, hexplains, hrefines⟩ := linearizable hreach hserving.running
  rw [hexchanges] at hexplains
  obtain ⟨m₁, hstored, _, hfound, rfl⟩ := hexplains
  exact ⟨s, _, _, m₁, _, hreach, hexchanges, rfl, rfl, hattributed, hstored, hfound, hrefines⟩

/-! ## What was stored is found -/

namespace Registry

variable {σ : Type} {sys : System σ} {nlohmann : Nlohmann} {router : Router} {m m' : Registry}
  {x : Exchange}

/-- A store of an entry leaves its node in the map. -/
theorem Exchanges.mem_of_store (h : m.Exchanges sys nlohmann router x m')
    (hstore : Router.IsStore x.request) {entry : DhtEntry}
    (hbody : (nlohmann.parse x.request.body >>= DhtEntry.fromJson nlohmann) = .ok entry) :
    entry.nodeId ∈ m' := by
  obtain ⟨-, world, rfl⟩ := h.of_node hstore.headers
  rw [Router.callOf, if_pos ⟨hstore.operation, hstore.post⟩, hbody]
  exact Register.mem_store_self m entry

/-- Only a cleanup takes a node out of the map. -/
theorem Exchanges.mem (h : m.Exchanges sys nlohmann router x m')
    (hclean : ¬ Router.IsCleanExpiry x.request) {n : Bytes} (hn : n ∈ m) : n ∈ m' := by
  by_cases hnode : Router.HasNodeHeaders x.request
  · obtain ⟨-, world, rfl⟩ := h.of_node hnode
    have hnot : ¬ (operationNamed x.request.target = some (lit "clean/expiry")
        ∧ x.request.method = .post) := fun ⟨hop, hpost⟩ => hclean ⟨hnode, hpost, hop⟩
    rw [Router.callOf, if_neg hnot]
    split_ifs
    · cases nlohmann.parse x.request.body >>= DhtEntry.fromJson nlohmann with
      | error => exact hn
      | ok entry => exact Register.mem_store entry hn
    · exact hn
  · rwa [h.of_other hnode]

/-- A node found in the map is reported. -/
theorem Exchanges.gives_verify (h : m.Exchanges sys nlohmann router x m')
    (hnode : Router.HasNodeHeaders x.request) {n : Bytes}
    (htarget : x.request.target = lit "/api/dht/verify/" ++ n) (hne : n ≠ []) (hn : 0x3f ∉ n)
    (hmem : n ∈ m) : Router.Gives nlohmann (Router.verifyAnswer n true) x.answer := by
  obtain ⟨hrespond, -⟩ := h.of_node hnode
  have hpath : apiPath x.request.target = some (lit "verify/" ++ n) := by
    rw [htarget, ← apiPath_append]
    rfl
  have hanswer : m.answer nlohmann x.request = Router.verifyAnswer n true := by
    rw [Registry.answer, hpath]
    dsimp only
    rw [operationOf_verify hn, if_pos ⟨rfl, hne⟩, decide_eq_true hmem]
  rw [← hanswer]
  exact Router.gives_of_respond hrespond

end Registry

/-- **What one client has stored, another finds.**  Wherever the two requests come from, and
whatever else is answered in between, a node whose store was answered is reported to exist, until
there is a cleanup. -/
theorem verify_after_store {σ : Type} {framing : Framing Request} {sys : System σ}
    {nlohmann : Nlohmann} {router : Router} {drift : σ → σ → Prop} {world : σ} {s : Running σ}
    (h : Running.Reachable framing sys nlohmann router drift world s)
    {before between after : List Exchange} {x y : Exchange}
    (horder : s.exchanges = before ++ x :: (between ++ y :: after))
    (hstore : Router.IsStore x.request) {entry : DhtEntry}
    (hbody : (nlohmann.parse x.request.body >>= DhtEntry.fromJson nlohmann) = .ok entry)
    (hclean : ∀ z ∈ between, ¬ Router.IsCleanExpiry z.request)
    (hnode : Router.HasNodeHeaders y.request)
    (htarget : y.request.target = lit "/api/dht/verify/" ++ entry.nodeId)
    (hne : entry.nodeId ≠ []) (hid : 0x3f ∉ entry.nodeId) :
    Router.Gives nlohmann (Router.verifyAnswer entry.nodeId true) y.answer := by
  obtain ⟨m, hexplains, -⟩ := h.exists_map
  rw [horder] at hexplains
  obtain ⟨m₀, -, m₁, hx, hrest⟩ := explains_append.1 hexplains
  obtain ⟨m₂, hbetween, m₃, hy, -⟩ := explains_append.1 hrest
  have hmem : entry.nodeId ∈ m₂ :=
    hbetween.invariant (fun z hz _ _ hstep hn => hstep.mem (hclean z hz) hn)
      (hx.mem_of_store hstore hbody)
  exact hy.gives_verify hnode htarget hne hid hmem

/-- Stored on the first connection, and found on the second. -/
theorem verify_after_store_elsewhere :
    let body := sampleBody "a" "10.0.0.1" "1" (.numberUnsigned 1)
    let nlohmann : Nlohmann := .withDocuments [body] (by decide) samplePrint
    let router : Router := ⟨⟨{}, lit "./cache", lit "ftp.debian.org"⟩, lit "0.1.0"⟩
    let sys := Disk.system (.tree []) (.offline .current)
    ∃ (s : Running TreeDisk) (x y : Exchange),
      Running.Reachable (Running.nodeFraming body.1) sys nlohmann router Eq (.empty []) s
      ∧ s.exchanges = [x, y] ∧ x.connection = 0 ∧ y.connection = 1
      ∧ Router.Gives nlohmann (Router.verifyAnswer (lit "a") true) y.answer := by
  intro body nlohmann router sys
  let entry : DhtEntry := ⟨lit "a", lit "10.0.0.1", ∅, 1, 20, []⟩
  have hbody : (nlohmann.parse body.1 >>= DhtEntry.fromJson nlohmann) = .ok entry :=
    decode_sampleBody rfl
  obtain ⟨s, stored, found, hs, -, hexchanges⟩ := Running.exists_storeThenVerify
  have horder : s.exchanges = [] ++ ⟨0, sampleStore body.1, stored⟩
      :: ([] ++ ⟨1, sampleLookup (lit "/api/dht/verify/a"), found⟩ :: []) := hexchanges
  exact ⟨s, _, _, hs, horder, rfl, rfl, verify_after_store hs horder
    (isStore_sampleStore body.1) hbody nofun ⟨rfl, rfl⟩ rfl (by decide) (by decide)⟩

end PacPrism
