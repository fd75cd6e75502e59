import PacPrism.Network.Immutable
import PacPrism.Network.Replicas

/-!
# Network/Listing — which nodes are listed for a shard

    store e  ──▸  …  ──▸  clean/expiry  ──▸  …  ──▸  query
                              │                        │
                          T < expiry of e          e is listed

A query is answered from what was posted before it: a node is listed for the entry that was the
newest of it when it was stored and still is, and after a cleanup only if that entry had not expired
by then, or was posted since.
-/

namespace PacPrism

open Runs (Explains Reaches)

/-- The entry was stored by one of the exchanges, and no later one has stored a newer entry of its
node. -/
def Stands (nlohmann : Nlohmann) (exchanges : List Exchange) (e : DhtEntry) : Prop :=
  ∃ earlier z later, exchanges = earlier ++ z :: later
    ∧ Router.entryOf nlohmann z.request = some e
    ∧ ∀ w ∈ later, ∀ e', Router.entryOf nlohmann w.request = some e' → e'.nodeId = e.nodeId →
      e'.generationTimestamp ≤ e.generationTimestamp

namespace Stands

variable {nlohmann : Nlohmann} {exchanges : List Exchange} {e : DhtEntry} {x : Exchange}

theorem of_store (h : Router.entryOf nlohmann x.request = some e) :
    Stands nlohmann (exchanges ++ [x]) e :=
  ⟨exchanges, x, [], rfl, h, nofun⟩

theorem concat (h : Stands nlohmann exchanges e)
    (hx : ∀ e', Router.entryOf nlohmann x.request = some e' → e'.nodeId = e.nodeId →
      e'.generationTimestamp ≤ e.generationTimestamp) : Stands nlohmann (exchanges ++ [x]) e := by
  obtain ⟨earlier, z, later, rfl, hz, hlater⟩ := h
  refine ⟨earlier, z, later ++ [x], by rw [List.append_assoc, List.cons_append], hz, ?_⟩
  rw [List.forall_mem_append, List.forall_mem_singleton]
  exact ⟨hlater, hx⟩

theorem exists_mem (h : Stands nlohmann exchanges e) :
    ∃ z ∈ exchanges, Router.entryOf nlohmann z.request = some e := by
  obtain ⟨earlier, z, later, rfl, hz, -⟩ := h
  exact ⟨z, List.mem_append_right _ List.mem_cons_self, hz⟩

end Stands

namespace Router

variable {nlohmann : Nlohmann} {request : Request}

/-- A cleanup stores nothing. -/
theorem entryOf_of_isCleanExpiry (h : IsCleanExpiry request) : entryOf nlohmann request = none := by
  rw [entryOf, if_neg]
  rintro ⟨-, hstore, -⟩
  rw [h.operation] at hstore
  exact absurd (Option.some.inj hstore) (by decide)

theorem callOf_of_isCleanExpiry (h : IsCleanExpiry request) (nowSec : Int) :
    callOf nlohmann request nowSec = some (.cleanByExpiryTime nowSec) := by
  rw [callOf, if_neg, if_pos ⟨h.operation, h.post⟩]
  rintro ⟨hstore, -⟩
  rw [h.operation] at hstore
  exact absurd (Option.some.inj hstore) (by decide)

end Router

namespace Registry

variable {σ : Type} {sys : System σ} {nlohmann : Nlohmann} {router : Router} {m m' : Registry}
  {x : Exchange}

/-- A cleanup drops what has expired at some time. -/
theorem Exchanges.eq_clean (h : m.Exchanges sys nlohmann router x m')
    (hclean : Router.IsCleanExpiry x.request) :
    ∃ nowSec, m' = m.apply (.cleanByExpiryTime nowSec) := by
  obtain ⟨-, world, rfl⟩ := h.of_node hclean.headers
  exact ⟨toTimeT (sys.systemClock world).1, by rw [Router.callOf_of_isCleanExpiry hclean]; rfl⟩

theorem Exchanges.wellKeyed (h : m.Exchanges sys nlohmann router x m')
    (hm : Register.WellKeyed DhtEntry.nodeId m) : Register.WellKeyed DhtEntry.nodeId m' := by
  by_cases hclean : Router.IsCleanExpiry x.request
  · obtain ⟨nowSec, rfl⟩ := h.eq_clean hclean
    exact hm.clean
  · rw [h.eq_store hclean]
    exact Runs.invariant_run _ (fun _ e ht => ht.store e) hm _

/-- **What is found after an exchange** was stored by it, or was found before and is as new as what
was stored. -/
theorem Exchanges.eq_or_le (h : m.Exchanges sys nlohmann router x m') {e : DhtEntry}
    (he : m'.lookup e.nodeId = some e) :
    Router.entryOf nlohmann x.request = some e
      ∨ m.lookup e.nodeId = some e
        ∧ ∀ e', Router.entryOf nlohmann x.request = some e' → e'.nodeId = e.nodeId →
          e'.generationTimestamp ≤ e.generationTimestamp := by
  by_cases hclean : Router.IsCleanExpiry x.request
  · obtain ⟨nowSec, rfl⟩ := h.eq_clean hclean
    rw [Router.entryOf_of_isCleanExpiry hclean]
    exact .inr ⟨(Register.lookup_clean.1 he).1, nofun⟩
  · rw [h.eq_store hclean] at he
    cases hentry : Router.entryOf nlohmann x.request with
    | none =>
      rw [hentry] at he
      exact .inr ⟨he, nofun⟩
    | some a =>
      rw [hentry] at he
      rcases Register.eq_or_le_of_lookup_store he with rfl | ⟨hold, hle⟩
      · exact .inl rfl
      · refine .inr ⟨hold, fun e' he' => ?_⟩
        obtain rfl := Option.some.inj he'
        exact hle

/-- **What is found stands.** -/
theorem stands_of_explains {exchanges : List Exchange}
    (h : Explains (Registry.Exchanges sys nlohmann router) ∅ exchanges m) {e : DhtEntry}
    (he : m.lookup e.nodeId = some e) : Stands nlohmann exchanges e := by
  induction exchanges using List.reverseRecOn generalizing m with
  | nil =>
    obtain rfl := h
    cases he
  | append_singleton exchanges x ih =>
    obtain ⟨t, ht, _, hx, rfl⟩ := Runs.explains_append.1 h
    rcases hx.eq_or_le he with hstore | ⟨hold, hle⟩
    · exact .of_store hstore
    · exact (ih ht hold).concat hle

/-- An entry is found after its store, if all that was posted of its node is older. -/
theorem Exchanges.lookup_of_store (h : m.Exchanges sys nlohmann router x m') {e : DhtEntry}
    (hstore : Router.entryOf nlohmann x.request = some e)
    (hnewest : ∀ old ∈ m.lookup e.nodeId,
      old = e ∨ old.generationTimestamp < e.generationTimestamp) :
    m'.lookup e.nodeId = some e := by
  have hclean : ¬ Router.IsCleanExpiry x.request := fun hclean => by
    rw [Router.entryOf_of_isCleanExpiry hclean] at hstore
    cases hstore
  rw [h.eq_store hclean, hstore]
  exact Register.lookup_store_self_of_newer hnewest

/-- It is still found after what is no cleanup, and stores nothing newer of its node. -/
theorem Exchanges.lookup_of_newer (h : m.Exchanges sys nlohmann router x m') {e : DhtEntry}
    (he : m.lookup e.nodeId = some e) (hclean : ¬ Router.IsCleanExpiry x.request)
    (hnewest : ∀ e', Router.entryOf nlohmann x.request = some e' → e'.nodeId = e.nodeId →
      e' = e ∨ e'.generationTimestamp < e.generationTimestamp) :
    m'.lookup e.nodeId = some e := by
  rw [h.eq_store hclean]
  cases hentry : Router.entryOf nlohmann x.request with
  | none => exact he
  | some a => exact Register.lookup_store_of_newer he (hnewest a hentry)

/-- A query is answered with the nodes whose entries carry the shard. -/
theorem Exchanges.gives_query (h : m.Exchanges sys nlohmann router x m')
    (hnode : Router.HasNodeHeaders x.request) {id : Bytes}
    (htarget : x.request.target = lit "/api/dht/query?shard_id=" ++ id) (hne : id ≠ [])
    (hid : 0x26 ∉ id) :
    Router.Gives nlohmann (Router.queryAnswer id ((m.holders id).sort (· ≤ ·))) x.answer := by
  obtain ⟨hrespond, -⟩ := h.of_node hnode
  have hpath : apiPath x.request.target = some (lit "query?" ++ (lit "shard_id=" ++ id)) := by
    rw [htarget, ← apiPath_append]
    rfl
  have hanswer : m.answer nlohmann x.request
      = Router.queryAnswer id ((m.holders id).sort (· ≤ ·)) := by
    rw [Registry.answer, hpath]
    dsimp only
    rw [operationOf_query, if_neg (by simp +decide), if_neg (by simp +decide), if_pos rfl,
      shardParameter_append hid, if_pos hne]
  rw [← hanswer]
  exact Router.gives_of_respond hrespond

end Registry

/-! ## One node with one shard -/

/-- The texts of the answers to a store, to a cleanup, and to a query with one node. -/
def shardPrint (answer : Json) : Bytes :=
  match answer.at (lit "node_ids"), answer.at (lit "message") with
  | .ok (.array [.string nodeId]), _ =>
    lit "\x7b\n    \"node_ids\": [\n        \"" ++ nodeId
      ++ lit "\"\n    ],\n    \"operation\": \"query\",\n    \"shard_id\": \"s\"\n\x7d"
  | _, .ok (.string message) =>
    lit "\x7b\n    \"message\": \"" ++ message
      ++ lit "\",\n    \"operation\": \"clean/expiry\",\n    \"status\": \"success\"\n\x7d"
  | _, _ => samplePrint answer

/-- The text of the answer to a query that lists node `a`. -/
def shardListing : Bytes :=
  lit "\x7b\n    \"node_ids\": [\n        \"a\"\n    ],"
    ++ lit "\n    \"operation\": \"query\",\n    \"shard_id\": \"s\"\n\x7d"

def shardNlohmann : Nlohmann := .withDocuments [shardBody] (by decide) shardPrint

/-- Posts with this body and lookups, all of node `n`. -/
def shardFraming : Framing Request :=
  .ofHeaders fun w =>
    if w.take 4 = lit "POST" then
      { sampleStore shardBody.1 with target := (w.drop 5).takeWhile (· ≠ 0x20) }
    else sampleLookup ((w.drop 4).takeWhile (· ≠ 0x20))

/-- The text of a response, if it has one. -/
def RouterResponse.text : RouterResponse → Option Bytes
  | .stringBody response => response.map Response.body
  | _ => none

theorem decode_shardBody : (shardNlohmann.parse (sampleStore shardBody.1).body
    >>= DhtEntry.fromJson shardNlohmann) = .ok shardEntry := by
  have hparse : shardNlohmann.parse shardBody.1 = .ok shardBody.2 := by
    rw [shardNlohmann, Nlohmann.parse_withDocuments_cons]
  have hdecode : DhtEntry.fromJson shardNlohmann shardBody.2 = .ok shardEntry := rfl
  exact decode_sampleStore hparse hdecode

/-! ## Queries -/

/-- **What queries list**, over all connections.  Each node listed has an entry with the shard that
was posted before the query, and that nobody has replaced by a newer one; and each node is listed
whose newest entry has the shard and was posted with no cleanup since. -/
theorem query_lists {σ : Type} {framing : Framing Request} {sys : System σ} {nlohmann : Nlohmann}
    {router : Router} {drift : σ → σ → Prop} {world : σ} {s : Running σ}
    (h : Running.Reachable framing sys nlohmann router drift world s)
    {before after : List Exchange} {y : Exchange} (horder : s.exchanges = before ++ y :: after)
    (hnode : Router.HasNodeHeaders y.request) {id : Bytes}
    (htarget : y.request.target = lit "/api/dht/query?shard_id=" ++ id) (hne : id ≠ [])
    (hid : 0x26 ∉ id) :
    ∃ ns : List Bytes, ns.Pairwise (· < ·)
      ∧ Router.Gives nlohmann (Router.queryAnswer id ns) y.answer
      ∧ (∀ n ∈ ns, ∃ e, e.nodeId = n ∧ e.Carries id ∧ Stands nlohmann before e)
      ∧ ∀ earlier z later e, before = earlier ++ z :: later →
        Router.entryOf nlohmann z.request = some e → e.Carries id →
        (∀ w ∈ before, ∀ e', Router.entryOf nlohmann w.request = some e' → e'.nodeId = e.nodeId →
          e' = e ∨ e'.generationTimestamp < e.generationTimestamp) →
        (∀ w ∈ later, ¬ Router.IsCleanExpiry w.request) → e.nodeId ∈ ns := by
  obtain ⟨_, hexplains, -⟩ := h.exists_map
  rw [horder] at hexplains
  obtain ⟨m, hbefore, _, hy, -⟩ := Runs.explains_append.1 hexplains
  have hkeyed : Register.WellKeyed DhtEntry.nodeId m :=
    hbefore.invariant (fun _ _ _ _ hx => hx.wellKeyed) Register.wellKeyed_empty
  refine ⟨(m.holders id).sort (· ≤ ·), Finset.sortedLT_sort _ |>.pairwise,
    hy.gives_query hnode htarget hne hid, fun n hn => ?_, ?_⟩
  · obtain ⟨e, he, hcarries⟩ := Registry.mem_holders.1 ((Finset.mem_sort _).1 hn)
    obtain rfl := hkeyed n e he
    exact ⟨e, rfl, hcarries, Registry.stands_of_explains hbefore he⟩
  · rintro earlier z later e rfl hstore hcarries hnewest hclean
    rw [Finset.mem_sort, Registry.mem_holders]
    obtain ⟨m₁, hearlier, m₂, hz, hlater⟩ := Runs.explains_append.1 hbefore
    have hstored : m₂.lookup e.nodeId = some e := hz.lookup_of_store hstore fun old hold => by
      have hnode : old.nodeId = e.nodeId :=
        hearlier.invariant (fun _ _ _ _ hx => hx.wellKeyed) Register.wellKeyed_empty _ old hold
      obtain ⟨w, hw, hposted⟩ :=
        (Registry.stands_of_explains hearlier (hnode.symm ▸ hold)).exists_mem
      exact hnewest w (List.mem_append_left _ hw) old hposted hnode
    refine ⟨e, hlater.invariant (I := fun t => t.lookup e.nodeId = some e)
      (fun w hw _ _ hx ht => hx.lookup_of_newer ht (hclean w hw) (hnewest w ?_)) hstored, hcarries⟩
    exact List.mem_append_right _ (List.mem_cons_of_mem z hw)

/-- Node `a` is listed once it has posted its shard. -/
theorem query_lists_shard :
    let router : Router := ⟨⟨{}, lit "./cache", lit "ftp.debian.org"⟩, lit "0.1.0"⟩
    let sys := Disk.system (.tree []) (.offline .current)
    ∃ (s : Running TreeDisk) (x y : Exchange) (ns : List Bytes),
      Running.Reachable shardFraming sys shardNlohmann router Eq (.empty []) s
      ∧ s.exchanges = [x, y]
      ∧ Router.Gives shardNlohmann (Router.queryAnswer (lit "s") ns) y.answer
      ∧ y.answer.text = some shardListing ∧ lit "a" ∈ ns
      ∧ ∀ n ∈ ns, ∃ e, e.nodeId = n ∧ e.Carries (lit "s") ∧ Stands shardNlohmann [x] e := by
  intro router sys
  let start : Running TreeDisk := .started (.empty [])
  let store := lit "POST /api/dht/store HTTP/1.1\r\n\r\n"
  let query := lit "GET /api/dht/query?shard_id=s HTTP/1.1\r\n\r\n"
  have hserving : start.Serving := Running.serving_started _
  have hstart : Running.Reachable shardFraming sys shardNlohmann router Eq (.empty []) start :=
    .refl
  obtain ⟨_, s, stored, listed, hs₁, hs, -, hexchanges, htext⟩ :=
    hserving.exists_exchanges_of_check (fun _ => rfl) hstart store query (by rfl) (by rfl)
    (fun _ _ listed _ => listed.text = some shardListing) (by decide +kernel)
  have hentry : Router.entryOf shardNlohmann (shardFraming.decode store) = some shardEntry := by
    rw [Router.entryOf, if_pos (by decide), show (shardFraming.decode store).body
      = (sampleStore shardBody.1).body from rfl, decode_shardBody]
  have horder : s.exchanges = [⟨0, shardFraming.decode store, stored⟩]
      ++ ⟨1, shardFraming.decode query, listed⟩ :: [] := hexchanges
  have htarget : (shardFraming.decode query).target = lit "/api/dht/query?shard_id=" ++ lit "s" :=
    rfl
  obtain ⟨ns, -, hgives, hsound, hcomplete⟩ :=
    query_lists (hs₁.trans hs) horder ⟨rfl, rfl⟩ htarget (by decide) (by decide)
  refine ⟨s, _, _, ns, hs₁.trans hs, hexchanges, hgives, htext, ?_, hsound⟩
  refine hcomplete [] _ [] shardEntry rfl hentry (by decide) (fun w hw e' he' _ => ?_)
    (List.forall_mem_nil _)
  rw [List.mem_singleton.1 hw, hentry] at he'
  exact .inl (Option.some.inj he').symm

/-! ## Time -/

/-- What the system clock shows, in seconds. -/
def System.now {σ : Type} (sys : System σ) (w : σ) : Int := toTimeT (sys.systemClock w).1

/-- An exchange with the map since a time: a cleanup reads a later one. -/
structure Registry.ExchangesSince {σ : Type} (sys : System σ) (nlohmann : Nlohmann)
    (router : Router) (since : Int) (m : Registry) (x : Exchange) (m' : Registry) : Prop where
  exchanges : m.Exchanges sys nlohmann router x m'
  cleaned : Router.IsCleanExpiry x.request →
    ∃ nowSec, since ≤ nowSec ∧ m' = m.apply (.cleanByExpiryTime nowSec)

section Time

variable {σ : Type} {framing : Framing Request} {sys : System σ} {nlohmann : Nlohmann}
  {router : Router} {drift : σ → σ → Prop} {world : σ} {s₀ s s' : Running σ}

/-- What nothing asked of the world changes, no request changes. -/
theorem Router.serve_keeps_world {I : σ → Prop} (h : sys.Preserves I) {m : Registry}
    {t : Server σ} (hm : Refines m t.dht) (request : Request) (ht : I t.world) :
    I (router.serve sys nlohmann t request).world := by
  refine Router.world_serve hm (fun _ => ?_) h.systemClock ht
  exact router.related_plainResponseRouter request (Io.keeping I) fun path _ =>
    ⟨h.looks _, router.cache.keeps_ensureCached h path⟩

/-- And no step, if it does not drift. -/
theorem Running.Step.keeps_world {I : σ → Prop} (h : sys.Preserves I)
    (hdrift : ∀ w w', drift w w' → I w → I w') {completion : Completion} {m : Registry}
    (hm : Refines m s.server.dht)
    (hstep : Running.Step framing sys nlohmann router drift s completion s')
    (hs : I s.server.world) : I s'.server.world := by
  obtain ⟨hserver, -, -⟩ | ⟨request, w, -, -, hw, hserver, -⟩ := hstep.server_cases
  · rwa [hserver]
  · rw [hserver]
    exact Router.serve_keeps_world (t := ⟨s.server.dht, w⟩) h hm request (hdrift _ _ hw hs)

/-- **One map explains all answers, at their times.** -/
theorem Running.Reachable.exists_map_since
    (hclock : ∀ t, sys.Preserves fun w => t ≤ sys.now w)
    (hdrift : ∀ w w', drift w w' → sys.now w ≤ sys.now w')
    (hs₀ : Running.Reachable framing sys nlohmann router drift world s₀)
    (hrun : Reaches (Running.Step framing sys nlohmann router drift) (fun _ => True) s₀ s) :
    ∃ m₀ later m, Explains (Registry.Exchanges sys nlohmann router) ∅ s₀.exchanges m₀
      ∧ s.exchanges = s₀.exchanges ++ later
      ∧ Explains (Registry.ExchangesSince sys nlohmann router (sys.now s₀.server.world)) m₀ later
        m := by
  obtain ⟨m₀, hexplains₀, hrefines₀⟩ := hs₀.exists_map
  let since := sys.now s₀.server.world
  have hdrifts (w w' : σ) (hw : drift w w') (hsince : since ≤ sys.now w) : since ≤ sys.now w' :=
    hsince.trans (hdrift w w' hw)
  have hinvariant : since ≤ sys.now s.server.world ∧ ∃ later m,
      s.exchanges = s₀.exchanges ++ later
        ∧ Explains (Registry.ExchangesSince sys nlohmann router since) m₀ later m
        ∧ Refines m s.server.dht := by
    refine hrun.invariant (I := fun s : Running σ => since ≤ sys.now s.server.world
      ∧ ∃ later m, s.exchanges = s₀.exchanges ++ later
        ∧ Explains (Registry.ExchangesSince sys nlohmann router since) m₀ later m
        ∧ Refines m s.server.dht) (fun s completion s' _ hstep ih => ?_)
      ⟨le_refl _, [], m₀, (List.append_nil _).symm, rfl, hrefines₀⟩
    obtain ⟨hnow, later, m, horder, hexplains, hrefines⟩ := ih
    refine ⟨hstep.keeps_world (hclock since) hdrifts hrefines hnow, ?_⟩
    cases hstep with
    | transmit => exact ⟨later, m, horder, hexplains, hrefines⟩
    | @answer i c buffer n world answer server _ _ _ _ hw hrun =>
      obtain ⟨m', hexchange, hrefines', hafter⟩ :=
        Router.exchanges_of_globalRouter (s := ⟨s.server.dht, world⟩) hrefines hrun i
      refine ⟨later ++ [_], m', by rw [horder, List.append_assoc],
        hexplains.concat ⟨hexchange, fun hclean => ?_⟩, hrefines'⟩
      refine ⟨sys.now world, hdrifts _ _ hw hnow, ?_⟩
      rw [hafter hclean.headers, Router.callOf_of_isCleanExpiry hclean]
      rfl
    | @fail i c buffer n world _ _ _ _ _ hfails =>
      refine ⟨later, m, horder, hexplains, ?_⟩
      dsimp only
      rw [Router.dht_serve_of_fails hfails]
      exact hrefines
  obtain ⟨-, later, m, horder, hexplains, -⟩ := hinvariant
  exact ⟨m₀, later, m, hexplains₀, horder, hexplains⟩

/-- **After a cleanup no expired node is listed.**  On a clock that never goes back: each node that
a query lists after an answered cleanup has an entry with the shard that stands, and that was posted
since the cleanup, or expires later than the time of any state before it. -/
theorem listed_after_clean (hclock : ∀ t, sys.Preserves fun w => t ≤ sys.now w)
    (hdrift : ∀ w w', drift w w' → sys.now w ≤ sys.now w')
    (hs₀ : Running.Reachable framing sys nlohmann router drift world s₀)
    (hrun : Reaches (Running.Step framing sys nlohmann router drift) (fun _ => True) s₀ s)
    {before between after : List Exchange} {x y : Exchange}
    (horder : s.exchanges = s₀.exchanges ++ (before ++ x :: (between ++ y :: after)))
    (hclean : Router.IsCleanExpiry x.request) (hnode : Router.HasNodeHeaders y.request) {id : Bytes}
    (htarget : y.request.target = lit "/api/dht/query?shard_id=" ++ id) (hne : id ≠ [])
    (hid : 0x26 ∉ id) :
    ∃ ns : List Bytes, Router.Gives nlohmann (Router.queryAnswer id ns) y.answer
      ∧ ∀ n ∈ ns, ∃ e, e.nodeId = n ∧ e.Carries id
        ∧ Stands nlohmann (s₀.exchanges ++ (before ++ x :: between)) e
        ∧ ((∃ z ∈ between, Router.entryOf nlohmann z.request = some e)
          ∨ sys.now s₀.server.world < e.expiryTimestamp.toInt) := by
  obtain ⟨m₀, later, _, hexplains₀, horder', hexplains⟩ :=
    hs₀.exists_map_since hclock hdrift hrun
  obtain rfl := List.append_cancel_left (horder'.symm.trans horder)
  obtain ⟨m₁, hbefore, m₂, hx, hrest⟩ := Runs.explains_append.1 hexplains
  obtain ⟨m₃, hbetween, _, hy, -⟩ := Runs.explains_append.1 hrest
  -- The map that the query is answered from is explained by all that was posted before.
  have hall : Explains (Registry.Exchanges sys nlohmann router) ∅
      (s₀.exchanges ++ (before ++ x :: between)) m₃ := by
    have hsince : Explains
        (Registry.ExchangesSince sys nlohmann router (sys.now s₀.server.world)) m₀
        (before ++ x :: between) m₃ := Runs.explains_append.2 ⟨m₁, hbefore, m₂, hx, hbetween⟩
    exact Runs.explains_append.2 ⟨m₀, hexplains₀, hsince.mono fun _ _ _ hz => hz.exchanges⟩
  have hkeyed : Register.WellKeyed DhtEntry.nodeId m₃ :=
    hall.invariant (fun _ _ _ _ hz => hz.wellKeyed) Register.wellKeyed_empty
  have hlive : ∀ e, m₃.lookup e.nodeId = some e →
      (∃ z ∈ between, Router.entryOf nlohmann z.request = some e)
        ∨ sys.now s₀.server.world < e.expiryTimestamp.toInt := by
    refine hbetween.invariant (I := fun t => ∀ e, t.lookup e.nodeId = some e →
      (∃ z ∈ between, Router.entryOf nlohmann z.request = some e)
        ∨ sys.now s₀.server.world < e.expiryTimestamp.toInt)
      (fun z hz _ _ hexchange ih e he => ?_) fun e he => ?_
    · rcases hexchange.exchanges.eq_or_le he with hstore | ⟨hold, -⟩
      exacts [.inl ⟨z, hz, hstore⟩, ih e hold]
    · obtain ⟨nowSec, hsince, rfl⟩ := hx.cleaned hclean
      obtain ⟨-, hnot⟩ := Register.lookup_clean.1 he
      exact .inr (hsince.trans_lt (not_le.1 hnot))
  refine ⟨(m₃.holders id).sort (· ≤ ·), hy.exchanges.gives_query hnode htarget hne hid,
    fun n hn => ?_⟩
  obtain ⟨e, he, hcarries⟩ := Registry.mem_holders.1 ((Finset.mem_sort _).1 hn)
  obtain rfl := hkeyed n e he
  exact ⟨e, rfl, hcarries, Registry.stands_of_explains hall he, hlive e he⟩

end Time

/-- The clock of a script stands still. -/
theorem Disk.preserves_now {δ κ : Type} [DecidableEq κ] (volume : Volume δ κ) (script : Script)
    (t : Int) : (system volume script).Preserves fun w => t ≤ (system volume script).now w where
  looks _ :=
    { fileExists := fun _ h => h
      isRegularFile := fun _ h => h
      fileSize := fun _ h => h
      lastWriteTime := fun _ h => h
      openFile := fun _ h => h
      seek := fun _ _ _ h => h
      readClocks := fun _ h => h
      time := rfl
      release := rfl }
  createDirectories _ _ h := h
  roundTrip _ _ h := h
  openStream _ _ h := h
  writeStream _ _ _ h := h
  closeStream _ _ h := h
  sleepFor _ _ h := h
  systemClock _ h := h

/-- Node `a` is listed after a cleanup ten seconds before its entry expires. -/
theorem listed_after_clean_shard :
    let router : Router := ⟨⟨{}, lit "./cache", lit "ftp.debian.org"⟩, lit "0.1.0"⟩
    let sys := Disk.system (.tree []) { Script.offline .current with systemClock := 10000000000 }
    ∃ (s : Running TreeDisk) (x z y : Exchange) (ns : List Bytes),
      Running.Reachable shardFraming sys shardNlohmann router Eq (.empty []) s
      ∧ s.exchanges = [x, z, y]
      ∧ Router.Gives shardNlohmann (Router.queryAnswer (lit "s") ns) y.answer
      ∧ y.answer.text = some shardListing
      ∧ ∀ n ∈ ns, ∃ e : DhtEntry, e.nodeId = n ∧ e.Carries (lit "s")
        ∧ Stands shardNlohmann [x, z] e ∧ 10 < e.expiryTimestamp.toInt := by
  intro router sys
  let start : Running TreeDisk := .started (.empty [])
  let store := lit "POST /api/dht/store HTTP/1.1\r\n\r\n"
  let clean := lit "POST /api/dht/clean/expiry HTTP/1.1\r\n\r\n"
  let query := lit "GET /api/dht/query?shard_id=s HTTP/1.1\r\n\r\n"
  obtain ⟨⟨stored, cleaned, listed⟩, server, hrun, hstored, hcleaned, hlisted, htext⟩ :=
    Io.exists_ok_of_check
    (m := do
      let stored ← router.globalRouter sys shardNlohmann (shardFraming.decode store)
      let cleaned ← router.globalRouter sys shardNlohmann (shardFraming.decode clean)
      let listed ← router.globalRouter sys shardNlohmann (shardFraming.decode query)
      pure (stored, cleaned, listed))
    (s := start.server)
    (fun x _ => x.1.NonNull ∧ x.2.1.NonNull ∧ x.2.2.NonNull ∧ x.2.2.text = some shardListing)
    (by decide +kernel)
  obtain ⟨_, _, hrun₁, hrun⟩ := Io.bind_eq_ok hrun
  obtain ⟨_, _, hrun₂, hrun⟩ := Io.bind_eq_ok hrun
  obtain ⟨_, _, hrun₃, hrun⟩ := Io.bind_eq_ok hrun
  obtain ⟨hvalues, -⟩ := EStateM.Result.ok.inj hrun
  cases hvalues
  have hserving : start.Serving := Running.serving_started _
  obtain ⟨s₀, hs₀, hserving₀, rfl, hlength, hexchanges₀⟩ :=
    hserving.exists_exchange (fun _ => rfl) .refl (w := store) (by rfl) hrun₁ hstored
  obtain ⟨_, s, hs₁, hs, -, -, -, hexchanges⟩ := hserving₀.exists_exchanges (fun _ => rfl) .refl
    clean query (by rfl) (by rfl) hrun₂ hrun₃ hcleaned hlisted
  have horder : s.exchanges = s₀.exchanges ++ ([]
      ++ ⟨s₀.transmission.connections.length, shardFraming.decode clean, cleaned⟩
      :: ([] ++ ⟨s₀.transmission.connections.length + 1, shardFraming.decode query, listed⟩
        :: [])) := hexchanges
  have htarget : (shardFraming.decode query).target = lit "/api/dht/query?shard_id=" ++ lit "s" :=
    rfl
  obtain ⟨ns, hgives, hlive⟩ := listed_after_clean (Disk.preserves_now (.tree []) _)
    (by rintro w _ rfl; rfl) hs₀ (hs₁.trans hs) horder ⟨⟨rfl, rfl⟩, rfl, rfl⟩ ⟨rfl, rfl⟩ htarget
    (by decide) (by decide)
  refine ⟨s, _, _, _, ns, hs₀.trans (hs₁.trans hs), by rw [horder, hexchanges₀]; rfl, hgives, htext,
    fun n hn => ?_⟩
  obtain ⟨e, hid, hcarries, hstands, ⟨z, hz, -⟩ | hlater⟩ := hlive n hn
  · cases hz
  · rw [hexchanges₀] at hstands
    exact ⟨e, hid, hcarries, hstands, hlater⟩

end PacPrism
