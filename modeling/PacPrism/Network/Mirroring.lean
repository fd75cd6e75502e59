import PacPrism.Console.Provenance
import PacPrism.Network.Immutable

/-!
# Network/Mirroring — the program as a mirror of upstream

    request ──plainRequestPath──▸ path ──upstreamRequest──▸ upstream
       │                                                       │ sent, stores
       ▾                                                       ▾
    answer ◂──────────── Whole, Part ──────────────────────  content

Whatever is served was there at the start, or is what the disk has stored of a body that upstream
has sent in this run for a path with the same file.  If the disk stores everything, and upstream has
one content for the paths that share a file, then the program cannot be told from upstream by what
it serves.
-/

namespace PacPrism

namespace Running

/-- Whoever is sent a file has asked for it. -/
theorem Reachable.asked {σ : Type} {framing : Framing Request} {sys : System σ}
    {nlohmann : Nlohmann} {router : Router} {drift : σ → σ → Prop} {world : σ} {s : Running σ}
    (hs : Reachable framing sys nlohmann router drift world s) {x : Exchange}
    (hx : x ∈ s.exchanges) {r : Response FileBody} (hr : x.answer = .fileBody (some r))
    {path : Bytes} (hpath : plainRequestPath x.request.target = some path) :
    s.Asked framing path := by
  let Plain (s : Running σ) (x : Exchange) : Prop := Handled framing s.transmission x.request
    ∧ Validator.validateRequest x.request = .plainClient
  suffices hx : Plain s x from ⟨x.request, hx.1, hx.2, hpath⟩
  refine hs.invariant_of_reaches (I := fun s => ∀ x ∈ s.exchanges, ∀ r,
    x.answer = .fileBody (some r) → Plain s x)
    (fun s completion s' hreach _ hstep ih => ?_) nofun x hx r hr
  obtain ⟨m, -, hm⟩ := Reachable.exists_map hreach
  have hold : ∀ x ∈ s.exchanges, ∀ r, x.answer = .fileBody (some r) → Plain s' x :=
    fun x hx r hr => (ih x hx r hr).imp_left hstep.handled
  obtain ⟨-, hexchanges, -⟩ | ⟨request, w, hhandled, -, -, -, hexchanges |
    ⟨i, answer, -, hrun, hexchanges⟩⟩ := hstep.server_cases
  · rwa [hexchanges]
  · rwa [hexchanges]
  · rw [hexchanges, List.forall_mem_append, List.forall_mem_singleton]
    refine ⟨hold, fun r hr => ⟨hhandled, ?_⟩⟩
    obtain rfl : answer = .fileBody (some r) := hr
    exact (Router.plain_of_fileBody (s := ⟨s.server.dht, w⟩) hm hrun).1

end Running

section

variable {σ κ : Type} [DecidableEq κ] {framing : Framing Request} {sys : System σ}
  {nlohmann : Nlohmann} {router : Router} {drift : σ × List Effect → σ × List Effect → Prop}
  {files : σ → Table κ Bytes} {locate : Bytes → κ} {paths : Bytes → Prop}
  {stores : Bytes → Bytes → Prop} {world : σ} {s : Running (σ × List Effect)}

/-- **Every file was there at the start, or was fetched** for a path that was asked for. -/
theorem Running.Reachable.sourced (h : sys.Files files locate paths)
    (hstreams : sys.Streams files locate paths stores)
    (hdrift : ∀ w w', drift w w' → files w'.1 = files w.1 ∧ w'.2 = w.2)
    (hs : Running.Reachable framing sys.recorded nlohmann router drift (world, []) s)
    (hpaths : s.AsksOnly framing router.cache paths) :
    router.cache.Sourced locate stores (files world) (s.Asked framing) (files s.server.world.1)
      s.server.world.2 := by
  refine hs.invariant_of_reaches (I := fun s => s.AsksOnly framing router.cache paths →
    router.cache.Sourced locate stores (files world) (s.Asked framing) (files s.server.world.1)
      s.server.world.2) (fun s completion s' hreach _ hstep ih hpaths => ?_)
    (fun _ k content hcontent => .inl hcontent) hpaths
  obtain ⟨m, -, hm⟩ := Running.Reachable.exists_map hreach
  have hkept := (ih (hstep.asksOnly hpaths)).mono (fun path => hstep.asked)
    (List.Subset.refl s.server.world.2)
  let I (w : σ × List Effect) : Prop :=
    router.cache.Sourced locate stores (files world) (s'.Asked framing) (files w.1) w.2
  obtain ⟨hserver, -, -⟩ | ⟨request, w, hhandled, -, hw, hserver, -⟩ := hstep.server_cases
  · rwa [hserver]
  · rw [hserver]
    refine Router.world_serve (I := I) (s := ⟨s.server.dht, w⟩) hm (fun hplain => ?_)
      (fun w' hw' => ?_) ?_
    · refine router.related_plainResponseRouter request (Io.keeping I) fun path hpath => ?_
      have hasked : s'.Asked framing path := ⟨request, hhandled, hplain, hpath⟩
      exact ⟨h.looksAlike_recorded _ fun t log l _ ht => ht.append l,
        h.sourced_ensureCached hstreams router.cache (hpaths path hasked) hasked⟩
    · change router.cache.Sourced locate stores _ _ (files (sys.systemClock w'.1).2) w'.2
      rwa [h.systemClock]
    · obtain ⟨hfiles, hlog⟩ := hdrift _ _ hw
      change router.cache.Sourced locate stores _ _ (files w.1) w.2
      rwa [hfiles, hlog]

/-- A response of who has this content: all of it, or the rest of it from where a range starts. -/
def Mirrors (content rangeHeader : Bytes) (r : Response FileBody) : Prop :=
  r.status = .ok ∧ r.body.sent = content
    ∨ r.status = .partialContent ∧ (parseRange rangeHeader content.length).valid = true
      ∧ r.body.sent = content.drop (parseRange rangeHeader content.length).start

end

end PacPrism
