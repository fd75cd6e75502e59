import PacPrism.Node.Dht.Reordering
import PacPrism.Network.Linearization

/-!
# Network/Replicas — programs that have been told the same

    exchanges ──stored──▸ entries ──store──▸ Registry
        ‖                                       │ Refines
        ▾                                       ▾
    connections, in any order ───────────────▸ tables

Entries are posted to several nodes, over whatever connections, again when an answer is lost, and
they arrive in whatever order.  As long as nobody cleans up, the map is the run of the entries
stored (`Registry.run_stored`), and that depends on the set of them alone.
-/

namespace PacPrism

open Runs (Explains)

instance (request : Request) : Decidable (Router.HasNodeHeaders request) :=
  inferInstanceAs (Decidable (_ ∧ _))

/-- The entry a request stores, if it stores one. -/
def Router.entryOf (nlohmann : Nlohmann) (request : Request) : Option DhtEntry :=
  if HasNodeHeaders request
      ∧ operationNamed request.target = some (lit "store") ∧ request.method = .post then
    match nlohmann.parse request.body >>= DhtEntry.fromJson nlohmann with
    | .ok entry => some entry
    | .error _ => none
  else none

/-- The entries that have been stored, as they arrived. -/
def Running.stored {σ : Type} (nlohmann : Nlohmann) (s : Running σ) : List DhtEntry :=
  s.exchanges.filterMap fun x => Router.entryOf nlohmann x.request

namespace Registry

variable {σ : Type} {sys : System σ} {nlohmann : Nlohmann} {router : Router} {m m' : Registry}

/-- An exchange that is no cleanup stores its entry, if it has one. -/
theorem Exchanges.eq_store {x : Exchange} (h : m.Exchanges sys nlohmann router x m')
    (hclean : ¬ Router.IsCleanExpiry x.request) :
    m' = Runs.run (Register.store DhtEntry.nodeId DhtEntry.generationTimestamp) m
      (Router.entryOf nlohmann x.request).toList := by
  by_cases hnode : Router.HasNodeHeaders x.request
  case neg =>
    rw [h.of_other hnode, Router.entryOf, if_neg fun hstore => hnode hstore.1]
    rfl
  case pos =>
    obtain ⟨-, world, rfl⟩ := h.of_node hnode
    have hnot : ¬ (operationNamed x.request.target = some (lit "clean/expiry")
        ∧ x.request.method = .post) := fun ⟨hop, hpost⟩ => hclean ⟨hnode, hpost, hop⟩
    rw [Router.callOf, Router.entryOf, if_neg hnot]
    by_cases hstore : operationNamed x.request.target = some (lit "store")
        ∧ x.request.method = .post
    · rw [if_pos hstore, if_pos ⟨hnode, hstore⟩]
      cases nlohmann.parse x.request.body >>= DhtEntry.fromJson nlohmann <;> rfl
    · rw [if_neg hstore, if_neg fun hall => hstore hall.2]
      rfl

/-- **The map is the run of the entries stored**, as long as nothing is cleaned up. -/
theorem run_stored {exchanges : List Exchange}
    (h : Explains (Registry.Exchanges sys nlohmann router) m exchanges m')
    (hclean : ∀ x ∈ exchanges, ¬ Router.IsCleanExpiry x.request) :
    m' = Runs.run (Register.store DhtEntry.nodeId DhtEntry.generationTimestamp) m
      (exchanges.filterMap fun x => Router.entryOf nlohmann x.request) := by
  induction exchanges generalizing m with
  | nil => exact h
  | cons x exchanges ih =>
    obtain ⟨t, hx, h⟩ := h
    rw [List.forall_mem_cons] at hclean
    rw [ih h hclean.2, hx.eq_store hclean.1, ← Runs.run_append]
    congr 1
    rw [List.filterMap_cons]
    cases Router.entryOf nlohmann x.request <;> rfl

end Registry

/-- The tables of a program that nobody has cleaned up refine the run of the entries stored. -/
theorem Running.Reachable.refines_stored {σ : Type} {framing : Framing Request} {sys : System σ}
    {nlohmann : Nlohmann} {router : Router} {drift : σ → σ → Prop} {world : σ} {s : Running σ}
    (h : Running.Reachable framing sys nlohmann router drift world s)
    (hclean : ∀ x ∈ s.exchanges, ¬ Router.IsCleanExpiry x.request) :
    Refines (Runs.run (Register.store DhtEntry.nodeId DhtEntry.generationTimestamp) ∅
      (s.stored nlohmann)) s.server.dht := by
  obtain ⟨m, hexplains, hrefines⟩ := h.exists_map
  rwa [Registry.run_stored hexplains hclean] at hrefines

/-- **Replicas converge.**  Two programs to which the same entries have been posted, each as often
and in whatever order and over whatever connections, have the same tables: every node's record is
its newest entry's, and whatever a node asks next, both give it the same answer. -/
theorem replicas_agree {σ σ' : Type} {framing framing' : Framing Request} {sys : System σ}
    {sys' : System σ'} {nlohmann : Nlohmann} {router router' : Router} {drift : σ → σ → Prop}
    {drift' : σ' → σ' → Prop} {world : σ} {world' : σ'} {s : Running σ} {s' : Running σ'}
    (h : Running.Reachable framing sys nlohmann router drift world s)
    (h' : Running.Reachable framing' sys' nlohmann router' drift' world' s')
    (hclean : ∀ x ∈ s.exchanges, ¬ Router.IsCleanExpiry x.request)
    (hclean' : ∀ x ∈ s'.exchanges, ¬ Router.IsCleanExpiry x.request)
    (hseparated : Register.Separated DhtEntry.nodeId DhtEntry.generationTimestamp
      (s.stored nlohmann))
    (hsame : ∀ e, e ∈ s.stored nlohmann ↔ e ∈ s'.stored nlohmann) :
    s.server.dht.Agrees s'.server.dht
      ∧ (∀ e, Register.Newest DhtEntry.nodeId DhtEntry.generationTimestamp (s.stored nlohmann)
          e.nodeId e → s.server.dht.Records e ∧ s'.server.dht.Records e)
      ∧ ∀ request, Io.outcome (Router.nodeAnswer sys nlohmann request s.server)
        = Io.outcome (Router.nodeAnswer sys' nlohmann request s'.server) := by
  have hr := h.refines_stored hclean
  have hr' := h'.refines_stored hclean'
  rw [← Register.run_store_eq_of_mem_iff hseparated hsame] at hr'
  refine ⟨hr.agrees hr', fun e he => ?_, fun request => ?_⟩
  · have hlookup := (Register.lookup_run_store hseparated e.nodeId e).2 he
    exact ⟨hr.records hlookup, hr'.records hlookup⟩
  · rw [hr.nodeAnswer_eq sys nlohmann request, hr'.nodeAnswer_eq sys' nlohmann request]
    rfl

/-- One of them was told twice. -/
theorem replicas_agree_told_twice :
    let body := sampleBody "a" "10.0.0.1" "1" (.numberUnsigned 1)
    let nlohmann : Nlohmann := .withDocuments [body] (by decide) samplePrint
    let router : Router := ⟨⟨{}, lit "./cache", lit "ftp.debian.org"⟩, lit "0.1.0"⟩
    let sys := Disk.system (.tree []) (.offline .current)
    ∃ s s' : Running TreeDisk,
      Running.Reachable (Running.nodeFraming body.1) sys nlohmann router Eq (.empty []) s
      ∧ Running.Reachable (Running.nodeFraming body.1) sys nlohmann router Eq (.empty []) s'
      ∧ s.exchanges.length = 1 ∧ s'.exchanges.length = 2
      ∧ s.server.dht.Agrees s'.server.dht := by
  intro body nlohmann router sys
  let entry : DhtEntry := ⟨lit "a", lit "10.0.0.1", ∅, 1, 20, []⟩
  have hbody : (nlohmann.parse body.1 >>= DhtEntry.fromJson nlohmann) = .ok entry :=
    decode_sampleBody rfl
  obtain ⟨s, answer, hs, hserving, -, -, hexchanges⟩ :=
    (Running.serving_started (.empty [] : TreeDisk)).exists_store (fun _ => rfl) .refl hbody
  obtain ⟨s', answer', hs', -, -, -, hexchanges'⟩ :=
    hserving.exists_store (fun _ => rfl) hs hbody
  rw [hexchanges] at hexchanges'
  have hentry : Router.entryOf nlohmann (sampleStore body.1) = some entry := by
    rw [Router.entryOf, if_pos ⟨⟨rfl, rfl⟩, rfl, rfl⟩,
      show (sampleStore body.1).body = body.1 from rfl,
      hbody]
  have hstored : s.stored nlohmann = [entry] := by
    rw [Running.stored, hexchanges]
    simp [Running.started, hentry]
  have hstored' : s'.stored nlohmann = [entry, entry] := by
    rw [Running.stored, hexchanges']
    simp [Running.started, hentry]
  have hnot : ¬ Router.IsCleanExpiry (sampleStore body.1) := fun hclean =>
    absurd hclean.operation (by decide)
  obtain ⟨hagrees, -, -⟩ := replicas_agree hs hs'
    (by rw [hexchanges]; simpa [Running.started] using hnot)
    (by rw [hexchanges']; simpa [Running.started] using hnot)
    (by rw [hstored]; simp [Register.Separated]) (by rw [hstored, hstored']; simp)
  exact ⟨s, s', hs, hs', by rw [hexchanges]; rfl, by rw [hexchanges']; rfl, hagrees⟩

end PacPrism
