import PacPrism.Network.Api
import PacPrism.Network.Pipelining

/-!
# Network/Running — the program as it runs: connections, router and state together

    Running ──completion──▸ Running
       │ transmission          │ transmission
       ▾                       ▾
    ServerTrans ──completion──▸ ServerTrans

`ServerTrans` alone lets a request be answered by what the router returns in some state.  Here there
is one state, and a request is routed in it: by a handler that runs to its end before the next
completion is looked at.  Between two handlers the world drifts, as time passes and others use the
disk.

The exchanges are recorded in the order in which the requests are handled.
-/

namespace PacPrism

open Runs (Reaches)

/-- A request that was answered, and the connection it came from. -/
structure Exchange where
  connection : Nat
  request : Request
  answer : RouterResponse

/-- The transmission, the state the router works on, and the exchanges so far. -/
structure Running (σ : Type) where
  transmission : ServerTrans RouterResponse := {}
  server : Server σ
  exchanges : List Exchange := []

/-- The handler hands a request to the router. -/
def Completion.routes : Completion → Bool
  | .onConnection _ .requested => true
  | .onConnection _ .threw => true
  | _ => false

instance : DecidablePred RouterResponse.NonNull
  | .stringBody _ => inferInstanceAs (Decidable (_ = true))
  | .fileBody _ => inferInstanceAs (Decidable (_ = true))
  | .emptyBody _ => inferInstanceAs (Decidable (_ = true))

theorem Router.Gives.nonNull {nlohmann : Nlohmann} {answer : Json × Status} {r : RouterResponse}
    (h : Router.Gives nlohmann answer r) : r.NonNull := by
  obtain ⟨response, rfl, -⟩ := h
  rfl

namespace Running

variable {σ : Type}

/-- The program at its start. -/
def started (world : σ) : Running σ where
  server := { world := world }

section Step

variable (framing : Framing Request) (sys : System σ) (nlohmann : Nlohmann) (router : Router)
  (drift : σ → σ → Prop)

/-- A completion, and what its handler does. -/
inductive Step : Running σ → Completion → Running σ → Prop
  | transmit {s : Running σ} {completion : Completion} {t : ServerTrans RouterResponse}
      (hroutes : completion.routes = false)
      (hstep : ServerTrans.Step framing (router.service sys nlohmann) s.transmission completion t) :
      Step s completion { s with transmission := t }
  /-- The router is given the request, and the response is sent. -/
  | answer {s : Running σ} {i : Nat} {c : Connection RouterResponse} {buffer : Bytes} {n : Nat}
      {world : σ} {answer : RouterResponse} {server : Server σ}
      (hrunning : s.transmission.escaped = false)
      (hconnection : s.transmission.connections[i]? = some c)
      (hpending : c.pending = .read buffer) (hcomplete : framing.scan buffer = .complete n)
      (hdrift : drift s.server.world world)
      (hrun : router.globalRouter sys nlohmann (framing.decode (buffer.take n))
        { s.server with world := world } = .ok answer server)
      (hanswer : answer.NonNull) :
      Step s (.onConnection i .requested)
        { transmission := { s.transmission with
            connections := s.transmission.connections.set i { c with
              pending := .write answer
              handled := c.handled ++ [(c.delivered - buffer.length, buffer.take n)] }
            escaped := Event.requested.escapes }
          server := server
          exchanges := s.exchanges ++ [⟨i, framing.decode (buffer.take n), answer⟩] }
  /-- The router throws, or there is nothing to send. -/
  | fail {s : Running σ} {i : Nat} {c : Connection RouterResponse} {buffer : Bytes} {n : Nat}
      {world : σ}
      (hrunning : s.transmission.escaped = false)
      (hconnection : s.transmission.connections[i]? = some c)
      (hpending : c.pending = .read buffer) (hcomplete : framing.scan buffer = .complete n)
      (hdrift : drift s.server.world world)
      (hfails : ∀ answer server, router.globalRouter sys nlohmann (framing.decode (buffer.take n))
        { s.server with world := world } = .ok answer server → ¬ answer.NonNull) :
      Step s (.onConnection i .threw)
        { s with
          transmission := { s.transmission with
            connections := s.transmission.connections.set i { c with
              pending := .none
              handled := c.handled ++ [(c.delivered - buffer.length, buffer.take n)] }
            escaped := Event.threw.escapes }
          server := router.serve sys nlohmann { s.server with world := world }
            (framing.decode (buffer.take n)) }

/-- The states the program can be in. -/
abbrev Reachable (world : σ) (s : Running σ) : Prop :=
  Reaches (Step framing sys nlohmann router drift) (fun _ => True) (started world) s

end Step

variable {framing : Framing Request} {sys : System σ} {nlohmann : Nlohmann} {router : Router}
  {drift : σ → σ → Prop} {s s' : Running σ} {completion : Completion}

/-! ## The transmission -/

/-- **A step of the program is a step of its transmission**, with the router as the service. -/
theorem Step.transmission_step (h : Step framing sys nlohmann router drift s completion s') :
    ServerTrans.Step framing (router.service sys nlohmann) s.transmission completion
      s'.transmission := by
  cases h with
  | transmit hroutes hstep => exact hstep
  | answer hrunning hconnection hpending hcomplete hdrift hrun hanswer =>
    exact .complete hrunning hconnection
      (.request hpending hcomplete ⟨hanswer, _, _, hrun⟩)
  | @fail i c buffer n world hrunning hconnection hpending hcomplete hdrift hfails =>
    refine .complete hrunning hconnection
      (.throw hpending hcomplete ⟨{ s.server with world := world }, ?_⟩)
    cases hrun : router.globalRouter sys nlohmann (framing.decode (buffer.take n))
      { s.server with world := world } with
    | ok answer server => exact .inr ⟨answer, server, rfl, hfails answer server hrun⟩
    | error e server => exact .inl ⟨e, server, rfl⟩

/-- What is reached on the whole program is reached by its transmission. -/
theorem reaches_transmission {A : Completion → Prop}
    (h : Reaches (Step framing sys nlohmann router drift) A s s') :
    Reaches (ServerTrans.Step framing (router.service sys nlohmann)) A s.transmission
      s'.transmission :=
  h.lift transmission fun _ _ ⟨completion, hA, hstep⟩ => ⟨completion, hA, hstep.transmission_step⟩

/-! ## Requests handed over -/

/-- A request that a connection has handed over. -/
def Handled (framing : Framing Request) (t : ServerTrans RouterResponse) (request : Request) :
    Prop :=
  ∃ c ∈ t.connections, ∃ past ∈ c.handled, framing.decode past.2 = request

/-- A connection's step that routes no request handles none, and sends nothing new. -/
theorem handled_step {service : Service RouterResponse} {c c' : Connection RouterResponse}
    {event : Event} (h : Connection.Step framing service c event c')
    (hrequested : event ≠ .requested) (hthrew : event ≠ .threw) :
    c'.handled = c.handled ∧ ∀ answer, c'.pending = .write answer → c.pending = .write answer := by
  cases h with
  | request => exact absurd rfl hrequested
  | throw => exact absurd rfl hthrew
  | @write response hpending =>
    refine ⟨rfl, fun answer hwrite => ?_⟩
    cases hkeep : service.keepAlive response <;> rw [hkeep] at hwrite <;> cases hwrite
  | receive | reject | failRead | failWrite => exact ⟨rfl, nofun⟩

theorem Handled.set {t : ServerTrans RouterResponse} {request : Request}
    (h : Handled framing t request) {i : Nat} {d d' : Connection RouterResponse}
    (hconnection : t.connections[i]? = some d) (hhandled : d.handled ⊆ d'.handled)
    (escaped : Bool) :
    Handled framing { t with connections := t.connections.set i d', escaped := escaped }
      request := by
  obtain ⟨c, hc, past, hpast, hrequest⟩ := h
  obtain ⟨j, hj⟩ := List.mem_iff_getElem?.1 hc
  rcases eq_or_ne i j with rfl | hne
  · obtain rfl := Option.some.inj (hconnection.symm.trans hj)
    obtain ⟨hlt, -⟩ := List.getElem?_eq_some_iff.1 hj
    exact ⟨d', List.mem_set hlt d', past, hhandled hpast, hrequest⟩
  · exact ⟨c, List.mem_iff_getElem?.2 ⟨j, (List.getElem?_set_ne hne).trans hj⟩, past, hpast,
      hrequest⟩

/-- **What was handed over stays handed over.** -/
theorem Step.handled (hstep : Step framing sys nlohmann router drift s completion s')
    {request : Request} (h : Handled framing s.transmission request) :
    Handled framing s'.transmission request := by
  cases hstep with
  | transmit hroutes hstep =>
    cases hstep with
    | accept stream =>
      obtain ⟨c, hc, hpast⟩ := h
      exact ⟨c, List.mem_append_left _ hc, hpast⟩
    | failAccept => exact h
    | complete _ hconnection hstep =>
      obtain ⟨hhandled, -⟩ := handled_step hstep (by rintro rfl; cases hroutes)
        (by rintro rfl; cases hroutes)
      exact h.set hconnection (hhandled ▸ List.Subset.refl _) _
  | answer _ hconnection => exact h.set hconnection (List.subset_append_left _ _) _
  | fail _ hconnection => exact h.set hconnection (List.subset_append_left _ _) _

/-- A plain client has asked for this path. -/
def Asked (framing : Framing Request) (s : Running σ) (path : Bytes) : Prop :=
  ∃ request, Handled framing s.transmission request
    ∧ Validator.validateRequest request = .plainClient
    ∧ plainRequestPath request.target = some path

theorem Step.asked (hstep : Step framing sys nlohmann router drift s completion s') {path : Bytes}
    (h : s.Asked framing path) : s'.Asked framing path :=
  h.imp fun _ ⟨hhandled, hplain⟩ => ⟨hstep.handled hhandled, hplain⟩

/-- The files asked for are all on these paths. -/
def AsksOnly (framing : Framing Request) (cache : FileCache) (paths : Bytes → Prop)
    (s : Running σ) : Prop :=
  ∀ path, s.Asked framing path → paths (cache.getCachePath path)

theorem Step.asksOnly (hstep : Step framing sys nlohmann router drift s completion s')
    {cache : FileCache} {paths : Bytes → Prop} (h : s'.AsksOnly framing cache paths) :
    s.AsksOnly framing cache paths :=
  fun path hasked => h path (hstep.asked hasked)

/-- How many requests were handed over. -/
def requestCount (t : ServerTrans RouterResponse) : Nat :=
  (t.connections.flatMap Connection.handled).length

/-- A connection that has handed over more has that many more requests in the count. -/
theorem requestCount_set {t : ServerTrans RouterResponse} {i n : Nat}
    {c c' : Connection RouterResponse} (hconnection : t.connections[i]? = some c)
    (hhandled : c'.handled.length = c.handled.length + n) (escaped : Bool) :
    requestCount { t with connections := t.connections.set i c', escaped := escaped }
      = requestCount t + n := by
  obtain ⟨hlt, hget⟩ := List.getElem?_eq_some_iff.1 hconnection
  have hsplit : t.connections.set i c'
      = t.connections.take i ++ c' :: t.connections.drop (i + 1) := by
    rw [List.set_eq_take_append_cons_drop, if_pos hlt]
  have hwhole : t.connections = t.connections.take i ++ c :: t.connections.drop (i + 1) := by
    rw [← hget, List.getElem_cons_drop, List.take_append_drop]
  rw [requestCount, requestCount, hsplit]
  conv_rhs => rw [hwhole]
  simp only [List.flatMap_append, List.flatMap_cons, List.length_append, hhandled]
  omega

/-- **What a step does to the server**: nothing, or it serves a request that was handed over, once
the world has drifted, and records the answer if there is one. -/
theorem Step.server_cases (h : Step framing sys nlohmann router drift s completion s') :
    s'.server = s.server ∧ s'.exchanges = s.exchanges
        ∧ requestCount s'.transmission = requestCount s.transmission
      ∨ ∃ request world, Handled framing s'.transmission request
        ∧ requestCount s'.transmission = requestCount s.transmission + 1
        ∧ drift s.server.world world
        ∧ s'.server = router.serve sys nlohmann { s.server with world := world } request
        ∧ (s'.exchanges = s.exchanges
          ∨ ∃ i answer, answer.NonNull
            ∧ router.globalRouter sys nlohmann request { s.server with world := world }
              = .ok answer s'.server
            ∧ s'.exchanges = s.exchanges ++ [⟨i, request, answer⟩]) := by
  cases h with
  | transmit hroutes hstep =>
    refine .inl ⟨rfl, rfl, ?_⟩
    cases hstep with
    | accept stream => simp [requestCount, Connection.accepted]
    | failAccept => rfl
    | complete _ hconnection hstep =>
      obtain ⟨hhandled, -⟩ := handled_step hstep (by rintro rfl; cases hroutes)
        (by rintro rfl; cases hroutes)
      exact requestCount_set (n := 0) hconnection (by rw [hhandled, Nat.add_zero]) _
  | answer _ hconnection _ _ hdrift hrun hanswer =>
    obtain ⟨hlt, -⟩ := List.getElem?_eq_some_iff.1 hconnection
    exact .inr ⟨_, _, ⟨_, List.mem_set hlt _, _, List.mem_concat_self, rfl⟩,
      requestCount_set hconnection List.length_append _, hdrift, by rw [Router.serve, hrun]; rfl,
      .inr ⟨_, _, hanswer, hrun, rfl⟩⟩
  | fail _ hconnection _ _ hdrift _ =>
    obtain ⟨hlt, -⟩ := List.getElem?_eq_some_iff.1 hconnection
    exact .inr ⟨_, _, ⟨_, List.mem_set hlt _, _, List.mem_concat_self, rfl⟩,
      requestCount_set hconnection List.length_append _, hdrift, rfl, .inl rfl⟩

/-! ## Exchanges and connections -/

/-- The exchanges of one connection. -/
def exchangesOf (s : Running σ) (i : Nat) : List Exchange :=
  s.exchanges.filter fun x => x.connection = i

/-- **Every request handled was answered once**, in order and on its own connection: what a
connection is being sent is the answer to its last request. -/
structure Attributed (framing : Framing Request) (s : Running σ) : Prop where
  connection_lt : ∀ x ∈ s.exchanges, x.connection < s.transmission.connections.length
  requests : ∀ i c, s.transmission.connections[i]? = some c →
    (s.exchangesOf i).map Exchange.request = c.handled.map fun h => framing.decode h.2
  answer : ∀ i c answer, s.transmission.connections[i]? = some c → c.pending = .write answer →
    (s.exchangesOf i).getLast?.map Exchange.answer = some answer

/-- What happens to one connection leaves the others as they are attributed. -/
theorem Attributed.step_transmit (h : Attributed framing s) {t : ServerTrans RouterResponse}
    (hroutes : completion.routes = false)
    (hstep : ServerTrans.Step framing (router.service sys nlohmann) s.transmission completion t) :
    Attributed framing { s with transmission := t } := by
  cases hstep with
  | accept stream =>
    have hnone : s.exchangesOf s.transmission.connections.length = [] :=
      List.filter_eq_nil_iff.2 fun x hx => by simpa using (h.connection_lt x hx).ne
    have hcases {i : Nat} {c : Connection RouterResponse}
        (hc : (s.transmission.connections ++ [.accepted stream])[i]? = some c) :
        s.transmission.connections[i]? = some c
          ∨ i = s.transmission.connections.length ∧ c = .accepted stream := by
      rcases lt_or_ge i s.transmission.connections.length with hlt | hge
      · exact .inl ((List.getElem?_append_left hlt).symm.trans hc)
      · rw [List.getElem?_append_right hge, List.getElem?_singleton] at hc
        obtain ⟨hi, hc⟩ := Option.ite_none_right_eq_some.1 hc
        exact .inr ⟨by omega, (Option.some.inj hc).symm⟩
    refine ⟨fun x hx => ?_, fun i c hc => ?_, fun i c answer hc hpending => ?_⟩
    · rw [List.length_append]
      exact (h.connection_lt x hx).trans_le (Nat.le_add_right _ _)
    · rcases hcases hc with hc | ⟨rfl, rfl⟩
      · exact h.requests i c hc
      · exact congrArg (List.map Exchange.request) hnone
    · rcases hcases hc with hc | ⟨rfl, rfl⟩
      · exact h.answer i c answer hc hpending
      · cases hpending
  | failAccept => exact ⟨h.connection_lt, h.requests, h.answer⟩
  | @complete j d d' event hrunning hconnection hstep =>
    obtain ⟨hhandled, hpending⟩ := handled_step hstep (by rintro rfl; cases hroutes)
      (by rintro rfl; cases hroutes)
    have hcases {i : Nat} {c : Connection RouterResponse}
        (hc : (s.transmission.connections.set j d')[i]? = some c) :
        s.transmission.connections[i]? = some c ∨ i = j ∧ c = d' := by
      rcases eq_or_ne j i with rfl | hne
      · obtain ⟨hlt, -⟩ := List.getElem?_eq_some_iff.1 hconnection
        rw [List.getElem?_set_self hlt] at hc
        exact .inr ⟨rfl, (Option.some.inj hc).symm⟩
      · exact .inl ((List.getElem?_set_ne hne).symm.trans hc)
    refine ⟨fun x hx => ?_, fun i c hc => ?_, fun i c answer hc hwrite => ?_⟩
    · rw [List.length_set]
      exact h.connection_lt x hx
    · rcases hcases hc with hc | ⟨rfl, rfl⟩
      · exact h.requests i c hc
      · rw [hhandled]
        exact h.requests i d hconnection
    · rcases hcases hc with hc | ⟨rfl, rfl⟩
      · exact h.answer i c answer hc hwrite
      · exact h.answer i d answer hconnection (hpending answer hwrite)

/-- A request that is answered adds one exchange, on its own connection. -/
theorem Attributed.step_answer (h : Attributed framing s) {i : Nat} {c : Connection RouterResponse}
    {start : Nat} {request : Bytes} (answer : RouterResponse) (server : Server σ)
    (hconnection : s.transmission.connections[i]? = some c) :
    Attributed framing
      { transmission := { s.transmission with
          connections := s.transmission.connections.set i { c with
            pending := .write answer
            handled := c.handled ++ [(start, request)] }
          escaped := Event.requested.escapes }
        server := server
        exchanges := s.exchanges ++ [⟨i, framing.decode request, answer⟩] } := by
  obtain ⟨hlt, -⟩ := List.getElem?_eq_some_iff.1 hconnection
  refine ⟨fun x hx => ?_, fun j c' hc' => ?_, fun j c' answer' hc' hwrite => ?_⟩
  · rw [List.length_set]
    rcases List.mem_append.1 hx with hx | hx
    · exact h.connection_lt x hx
    · rw [List.mem_singleton.1 hx]
      exact hlt
  · rw [exchangesOf, List.filter_append]
    rcases eq_or_ne i j with rfl | hne
    · rw [List.getElem?_set_self hlt] at hc'
      obtain rfl := Option.some.inj hc'
      rw [List.filter_singleton, decide_eq_true rfl, List.map_append, List.map_append,
        ← h.requests i c hconnection]
      rfl
    · rw [List.getElem?_set_ne hne] at hc'
      rw [List.filter_singleton, decide_eq_false hne, ← h.requests j c' hc']
      simp [exchangesOf]
  · rw [exchangesOf, List.filter_append]
    rcases eq_or_ne i j with rfl | hne
    · rw [List.getElem?_set_self hlt] at hc'
      obtain rfl := Option.some.inj hc'
      obtain rfl := Pending.write.inj hwrite
      simp
    · rw [List.getElem?_set_ne hne] at hc'
      rw [List.filter_singleton, decide_eq_false hne, ← h.answer j c' answer' hc' hwrite]
      simp [exchangesOf]

/-! ## One request after another -/

/-- The program runs, and accepts connections. -/
structure Serving (s : Running σ) : Prop where
  running : s.transmission.escaped = false
  accepting : 0 < s.transmission.accepting

theorem serving_started (world : σ) : (started world).Serving := ⟨rfl, Nat.one_pos⟩

/-- **A request that can be answered is answered** on a new connection, whatever the others wait
for. -/
theorem Serving.exists_exchange {s₀ : Running σ} (hs : s.Serving) (hstill : ∀ w, drift w w)
    (h : Reaches (Step framing sys nlohmann router drift) (fun _ => True) s₀ s) {w : Bytes}
    (hw : framing.Complete w) {answer : RouterResponse} {server : Server σ}
    (hrun : router.globalRouter sys nlohmann (framing.decode w) s.server = .ok answer server)
    (hanswer : answer.NonNull) :
    ∃ s', Reaches (Step framing sys nlohmann router drift) (fun _ => True) s₀ s' ∧ s'.Serving
      ∧ s'.server = server
      ∧ s'.transmission.connections.length = s.transmission.connections.length + 1
      ∧ s'.exchanges = s.exchanges
        ++ [⟨s.transmission.connections.length, framing.decode w, answer⟩] := by
  let i := s.transmission.connections.length
  let accepted : Connection RouterResponse := .accepted [w]
  let received : Connection RouterResponse :=
    { accepted with incoming := [], pending := .read ([] ++ w), delivered := 0 + w.length }
  let t : ServerTrans RouterResponse :=
    { s.transmission with connections := s.transmission.connections ++ [accepted] }
  let t' : ServerTrans RouterResponse :=
    { t with connections := t.connections.set i received, escaped := Event.received.escapes }
  have hnew : t.connections[i]? = some accepted := List.getElem?_concat_length
  have hset : t'.connections[i]? = some received :=
    List.getElem?_set_self (List.getElem?_eq_some_iff.1 hnew).1
  have haccept : Step framing sys nlohmann router drift s .accepted { s with transmission := t } :=
    .transmit rfl (.accept [w] hs.running hs.accepting)
  have hreceive : Step framing sys nlohmann router drift { s with transmission := t }
      (.onConnection i .received) { s with transmission := t' } :=
    .transmit rfl (.complete hs.running hnew (.receive rfl framing.scan_nil rfl))
  have hrequest := @Step.answer σ framing sys nlohmann router drift { s with transmission := t' } i
    received w w.length s.server.world answer server rfl hset rfl hw (hstill s.server.world)
    (by rwa [List.take_length]) hanswer
  rw [List.take_length] at hrequest
  exact ⟨_, ((h.tail ⟨_, trivial, haccept⟩).tail ⟨_, trivial, hreceive⟩).tail
    ⟨_, trivial, hrequest⟩, ⟨rfl, hs.accepting⟩, rfl, by simp [t', t], rfl⟩

/-- Two requests are answered one after the other. -/
theorem Serving.exists_exchanges {s₀ : Running σ} (hs : s.Serving) (hstill : ∀ w, drift w w)
    (h : Reaches (Step framing sys nlohmann router drift) (fun _ => True) s₀ s) (w w' : Bytes)
    (hw : framing.Complete w) (hw' : framing.Complete w') {first second : RouterResponse}
    {server server' : Server σ}
    (hrun : router.globalRouter sys nlohmann (framing.decode w) s.server = .ok first server)
    (hrun' : router.globalRouter sys nlohmann (framing.decode w') server = .ok second server')
    (hfirst : first.NonNull) (hsecond : second.NonNull) :
    ∃ s₁ s₂, Reaches (Step framing sys nlohmann router drift) (fun _ => True) s₀ s₁
      ∧ Reaches (Step framing sys nlohmann router drift) (fun _ => True) s₁ s₂
      ∧ s₂.Serving ∧ s₁.server = server ∧ s₂.server = server'
      ∧ s₂.exchanges = s.exchanges
        ++ [⟨s.transmission.connections.length, framing.decode w, first⟩,
          ⟨s.transmission.connections.length + 1, framing.decode w', second⟩] := by
  obtain ⟨s₁, h₁, hs₁, rfl, hlength, hexchanges⟩ := hs.exists_exchange hstill h hw hrun hfirst
  obtain ⟨s₂, h₂, hs₂, hserver, -, hexchanges'⟩ :=
    hs₁.exists_exchange hstill .refl hw' hrun' hsecond
  refine ⟨s₁, s₂, h₁, h₂, hs₂, rfl, hserver, ?_⟩
  rw [hexchanges', hexchanges, hlength, List.append_assoc]
  rfl

/-- Two requests that were routed by evaluation are answered one after the other. -/
theorem Serving.exists_exchanges_of_check {s₀ : Running σ} (hs : s.Serving)
    (hstill : ∀ w, drift w w)
    (h : Reaches (Step framing sys nlohmann router drift) (fun _ => True) s₀ s) (w w' : Bytes)
    (hw : framing.Complete w) (hw' : framing.Complete w')
    (P : RouterResponse → Server σ → RouterResponse → Server σ → Prop)
    [∀ a t b t', Decidable (P a t b t')]
    (hcheck : (match router.globalRouter sys nlohmann (framing.decode w) s.server with
      | .error _ _ => false
      | .ok first server =>
        match router.globalRouter sys nlohmann (framing.decode w') server with
        | .error _ _ => false
        | .ok second server' =>
          decide (first.NonNull ∧ second.NonNull ∧ P first server second server')) = true) :
    ∃ s₁ s₂ first second, Reaches (Step framing sys nlohmann router drift) (fun _ => True) s₀ s₁
      ∧ Reaches (Step framing sys nlohmann router drift) (fun _ => True) s₁ s₂ ∧ s₂.Serving
      ∧ s₂.exchanges = s.exchanges
        ++ [⟨s.transmission.connections.length, framing.decode w, first⟩,
          ⟨s.transmission.connections.length + 1, framing.decode w', second⟩]
      ∧ P first s₁.server second s₂.server := by
  cases hrun : router.globalRouter sys nlohmann (framing.decode w) s.server with
  | error e server =>
    rw [hrun] at hcheck
    cases hcheck
  | ok first server =>
    rw [hrun] at hcheck
    dsimp only at hcheck
    cases hrun' : router.globalRouter sys nlohmann (framing.decode w') server with
    | error e server' =>
      rw [hrun'] at hcheck
      cases hcheck
    | ok second server' =>
      rw [hrun'] at hcheck
      obtain ⟨hfirst, hsecond, hP⟩ := of_decide_eq_true hcheck
      obtain ⟨s₁, s₂, h₁, h₂, hs₂, rfl, rfl, hexchanges⟩ :=
        hs.exists_exchanges hstill h w w' hw hw' hrun hrun' hfirst hsecond
      exact ⟨s₁, s₂, first, second, h₁, h₂, hs₂, hexchanges, hP⟩

/-- Stores of this body and lookups, all of node `n`. -/
def nodeFraming (body : Bytes) : Framing Request :=
  .ofHeaders fun w =>
    if w.take 4 = lit "POST" then sampleStore body
    else sampleLookup ((w.drop 4).takeWhile (· ≠ 0x20))

/-- A store is answered on a new connection. -/
theorem Serving.exists_store {body : Bytes} {world : σ} (hs : s.Serving) (hstill : ∀ w, drift w w)
    (h : Reachable (nodeFraming body) sys nlohmann router drift world s) {entry : DhtEntry}
    (hbody : (nlohmann.parse body >>= DhtEntry.fromJson nlohmann) = .ok entry) :
    ∃ s' answer, Reachable (nodeFraming body) sys nlohmann router drift world s' ∧ s'.Serving
      ∧ s'.server = { s.server with dht := s.server.dht.storeEntry entry }
      ∧ s'.transmission.connections.length = s.transmission.connections.length + 1
      ∧ s'.exchanges = s.exchanges
        ++ [⟨s.transmission.connections.length, sampleStore body, answer⟩] := by
  obtain ⟨answer, hrun, hgives⟩ :=
    Router.globalRouter_store sys router (isStore_sampleStore body) hbody s.server
  obtain ⟨s', hreach, hs', hserver, hlength, hexchanges⟩ := hs.exists_exchange hstill h
    (w := lit "POST /api/dht/store HTTP/1.1\r\n\r\n") rfl hrun hgives.nonNull
  exact ⟨s', answer, hreach, hs', hserver, hlength, hexchanges⟩

/-- **No request is lost, answered twice or answered to somebody else.**  Whatever the order of the
completions, as long as the program runs: the requests each connection has handed over were answered
one by one, and what it is being sent is the answer to the last of them. -/
theorem Reachable.attributed {world : σ}
    (h : Reachable framing sys nlohmann router drift world s)
    (hrunning : s.transmission.escaped = false) : s.Attributed framing := by
  refine h.invariant (I := fun s => s.transmission.escaped = false → s.Attributed framing)
    (fun s completion s' _ hstep ih hrunning' => ?_) (fun _ => ⟨nofun, nofun, nofun⟩) hrunning
  cases hstep with
  | transmit hroutes hstep =>
    refine (ih ?_).step_transmit hroutes hstep
    cases hstep with
    | accept _ hrunning | failAccept hrunning | complete hrunning => exact hrunning
  | answer hrunning hconnection =>
    exact (ih hrunning).step_answer _ _ hconnection
  | fail => cases hrunning'

theorem Attributed.exists_of_handled (h : s.Attributed framing) {request : Request}
    (hhandled : Handled framing s.transmission request) :
    ∃ x ∈ s.exchanges, x.request = request := by
  obtain ⟨c, hc, past, hpast, hrequest⟩ := hhandled
  obtain ⟨i, hi⟩ := List.mem_iff_getElem?.1 hc
  have hmem : request ∈ (s.exchangesOf i).map Exchange.request := by
    rw [h.requests i c hi]
    exact List.mem_map.2 ⟨past, hpast, hrequest⟩
  obtain ⟨x, hx, hrequest⟩ := List.mem_map.1 hmem
  exact ⟨x, (List.mem_filter.1 hx).1, hrequest⟩

/-- As long as the program runs, what is asked for is in the exchanges. -/
theorem Reachable.asksOnly {world : σ} (h : Reachable framing sys nlohmann router drift world s)
    (hs : s.Serving) {cache : FileCache} {paths : Bytes → Prop} (requests : List Request)
    (hrequests : s.exchanges.map Exchange.request = requests)
    (hpaths : ∀ request ∈ requests, ∀ path ∈ plainRequestPath request.target,
      paths (cache.getCachePath path)) : s.AsksOnly framing cache paths := by
  rintro path ⟨request, hhandled, -, hpath⟩
  obtain ⟨x, hx, rfl⟩ := (h.attributed hs.running).exists_of_handled hhandled
  exact hpaths x.request (hrequests ▸ List.mem_map_of_mem hx) path hpath

end Running

end PacPrism
