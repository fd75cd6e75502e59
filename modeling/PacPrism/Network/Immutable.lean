import PacPrism.Console.Files
import PacPrism.Console.RangeResponse
import PacPrism.Network.Linearization

/-!
# Network/Immutable — files are written once

    t  ──any requests──▸  t'        Table.Extends t t'
    │                      │
    ▾                      ▾
    200, 206  ───────────  200, 206      one content

What is found in the cache is served from there and never fetched again.  So a file keeps the
content it was first stored with, and all that clients are sent of it, whole or in parts, at
whatever time and on whatever connection, is that content.
-/

namespace PacPrism

open Runs (Reaches)

/-! ## One request -/

namespace Router

variable {σ : Type} {sys : System σ} {nlohmann : Nlohmann} {router : Router} {m : Registry}
  {s s' : Server σ} {request : Request}

variable (router request) in
/-- What holds of the three operations on the path named holds of a plain request. -/
theorem related_plainResponseRouter (R : Io.Relation σ σ)
    (h : ∀ path, plainRequestPath request.target = some path →
      System.LooksAlike R sys sys (router.cache.getCachePath path)
        ∧ R.rel (router.cache.ensureCached sys path) (router.cache.ensureCached sys path)) :
    R.rel (router.plainResponseRouter sys request) (router.plainResponseRouter sys request) := by
  rw [plainResponseRouter_eq]
  cases hpath : plainRequestPath request.target with
  | none => exact R.pure _
  | some path =>
    obtain ⟨hlooks, hensure⟩ := h path hpath
    dsimp only
    rw [serveFile]
    split_ifs
    · exact R.map (router.cache.related_getOrFetchWithRange hlooks hensure _ _) _
    · exact R.map (router.cache.related_getOrFetchWithConditional hlooks hensure _ _ _) _
    · exact R.map (router.cache.related_getOrFetch hlooks hensure _) _

/-- **What plain requests and a look at the clock keep of the world, every request keeps.** -/
theorem world_serve {I : σ → Prop} (h : Refines m s.dht)
    (hplain : Validator.validateRequest request = .plainClient →
      Io.Keeps I (router.plainResponseRouter sys request))
    (hclock : ∀ w, I w → I (sys.systemClock w).2) (hs : I s.world) :
    I (router.serve sys nlohmann s request).world := by
  by_cases hnode : HasNodeHeaders request
  · have hafter : I (worldAfter sys request s.world) := by
      rw [worldAfter]
      split_ifs
      exacts [hclock _ hs, hs]
    rw [serve, globalRouter_of_refines h hnode]
    cases router.respond sys nlohmann m request <;> exact hafter
  · have hv : Validator.validateRequest request ≠ .node := by
      rwa [ne_eq, validateRequest_eq_node_iff]
    rw [serve, globalRouter]
    cases hv' : Validator.validateRequest request with
    | node => exact absurd hv' hv
    | invalid => exact hs
    | plainClient =>
      have hkept := hplain hv' s.world hs
      dsimp only
      rw [Server.onWorld]
      cases hrun : router.plainResponseRouter sys request s.world <;>
        rw [hrun] at hkept <;> exact hkept

/-- A file is the answer to a plain request. -/
theorem plain_of_fileBody {r : Response FileBody} (h : Refines m s.dht)
    (hrun : router.globalRouter sys nlohmann request s = .ok (.fileBody (some r)) s') :
    Validator.validateRequest request = .plainClient
      ∧ router.plainResponseRouter sys request s.world = .ok (.fileBody (some r)) s'.world := by
  by_cases hnode : HasNodeHeaders request
  · rw [globalRouter_of_refines h hnode, respond] at hrun
    cases htext : nlohmann.dump (m.answer nlohmann request).1 <;> rw [htext] at hrun <;> cases hrun
  · have hv : Validator.validateRequest request ≠ .node := by
      rwa [ne_eq, validateRequest_eq_node_iff]
    rw [globalRouter] at hrun
    cases hv' : Validator.validateRequest request with
    | node => exact absurd hv' hv
    | invalid =>
      rw [hv'] at hrun
      cases hrun
    | plainClient =>
      rw [hv'] at hrun
      obtain ⟨w, hplain, rfl⟩ := Server.exists_of_onWorld hrun
      exact ⟨rfl, hplain⟩

end Router

/-- The response with a file, if it is one. -/
def RouterResponse.file : RouterResponse → Option (Response FileBody)
  | .fileBody response => response
  | _ => none

theorem RouterResponse.eq_of_file {answer : RouterResponse} {r : Response FileBody}
    (h : answer.file = some r) : answer = .fileBody (some r) := by
  cases answer with
  | fileBody response => exact congrArg RouterResponse.fileBody h
  | stringBody | emptyBody => cases h

/-- The Range field of a request; empty if there is none. -/
def Request.range (request : Request) : Bytes := (request.find (lit "Range")).getD []

namespace System.Files

variable {σ κ : Type} [DecidableEq κ] {sys : System σ} {files : σ → Table κ Bytes}
  {locate : Bytes → κ} {paths : Bytes → Prop} (h : sys.Files files locate paths) (router : Router)
  (request : Request) (hpaths : ∀ path, plainRequestPath request.target = some path →
    paths (router.cache.getCachePath path))

include h hpaths

/-- A plain request leaves alone the files that are there. -/
theorem extends_plainResponseRouter (t : Table κ Bytes) :
    Io.Keeps (fun s => Table.Extends t (files s)) (router.plainResponseRouter sys request) :=
  router.related_plainResponseRouter request (Io.keeping _) fun path hpath =>
    ⟨h.looksAlike (Table.Extends t) _, h.extends_ensureCached router.cache (hpaths path hpath) t⟩

/-- **The file on the path named is served**, whole or the part asked for. -/
theorem ensures_plainResponseRouter :
    Io.Ensures (fun _ => True) (router.plainResponseRouter sys request) fun answer s =>
      ∀ r, answer = .fileBody (some r) → ∃ path, plainRequestPath request.target = some path
        ∧ (Whole (files s) (locate (router.cache.getCachePath path)) r
          ∨ Part (files s) (locate (router.cache.getCachePath path)) request.range r) := by
  rw [Router.plainResponseRouter_eq]
  cases hpath : plainRequestPath request.target with
  | none => exact Io.ensures_pure fun _ _ => nofun
  | some path =>
    have hfile := hpaths path hpath
    dsimp only
    rw [Router.serveFile]
    split_ifs with hrange hconditional
    · refine (h.ensures_getOrFetchWithRange router.cache hfile _ _).map
        fun answer s hanswer r hr => ?_
      cases answer with
      | none => cases hr
      | some r' =>
        cases hr
        exact ⟨path, rfl, hanswer r rfl⟩
    · refine (h.ensures_getOrFetchWithConditional router.cache hfile _ _ _).map
        fun answer s hanswer r hr => ?_
      cases answer with
      | emptyBody => cases hr
      | fileBody response =>
        cases hr
        exact ⟨path, rfl, .inl (hanswer r rfl)⟩
    · refine (h.ensures_getOrFetch router.cache hfile _).map fun answer s hanswer r hr => ?_
      cases answer with
      | none => cases hr
      | some r' =>
        cases hr
        exact ⟨path, rfl, .inl (hanswer r rfl)⟩

end System.Files

/-! ## Runs -/

/-- A file that was answered is one of these files. -/
def Exchange.Shows {κ : Type} [DecidableEq κ] (cache : FileCache) (locate : Bytes → κ)
    (t : Table κ Bytes) (x : Exchange) : Prop :=
  ∀ r, x.answer = .fileBody (some r) → ∃ path, plainRequestPath x.request.target = some path
    ∧ (Whole t (locate (cache.getCachePath path)) r
      ∨ Part t (locate (cache.getCachePath path)) x.request.range r)

theorem Exchange.Shows.mono {κ : Type} [DecidableEq κ] {cache : FileCache} {locate : Bytes → κ}
    {t t' : Table κ Bytes} {x : Exchange} (h : x.Shows cache locate t) (ht : t.Extends t') :
    x.Shows cache locate t' := fun r hr =>
  (h r hr).imp fun _ ⟨hpath, hfile⟩ => ⟨hpath, hfile.imp (·.mono ht) (·.mono ht)⟩

namespace Running

variable {σ κ : Type} [DecidableEq κ] {framing : Framing Request} {sys : System σ}
  {nlohmann : Nlohmann} {router : Router} {drift : σ → σ → Prop} {files : σ → Table κ Bytes}
  {locate : Bytes → κ} {paths : Bytes → Prop} {world : σ} {s s' : Running σ}

/-- One completion leaves alone the files that are there. -/
theorem Step.extends_files (h : sys.Files files locate paths)
    (hdrift : ∀ w w', drift w w' → (files w).Extends (files w')) {completion : Completion}
    {m : Registry} (hm : Refines m s.server.dht)
    (hstep : Step framing sys nlohmann router drift s completion s')
    (hpaths : s'.AsksOnly framing router.cache paths) :
    (files s.server.world).Extends (files s'.server.world) := by
  obtain ⟨hserver, -, -⟩ | ⟨request, w, hhandled, -, hw, hserver, -⟩ := hstep.server_cases
  · rw [hserver]
    exact .refl _
  · rw [hserver]
    refine Router.world_serve (I := fun w => (files s.server.world).Extends (files w))
      (s := ⟨s.server.dht, w⟩) hm (fun hplain => ?_) (fun w' hw' => ?_) (hdrift _ _ hw)
    · exact h.extends_plainResponseRouter router request
        (fun path hpath => hpaths path ⟨request, hhandled, hplain, hpath⟩) _
    · rwa [h.systemClock]

/-- Whatever file was answered is there. -/
theorem Reachable.shows (h : sys.Files files locate paths)
    (hdrift : ∀ w w', drift w w' → (files w).Extends (files w'))
    (hs : Reachable framing sys nlohmann router drift world s)
    (hpaths : s.AsksOnly framing router.cache paths) :
    ∀ x ∈ s.exchanges, x.Shows router.cache locate (files s.server.world) := by
  refine hs.invariant_of_reaches (I := fun s => s.AsksOnly framing router.cache paths →
    ∀ x ∈ s.exchanges, x.Shows router.cache locate (files s.server.world))
    (fun s completion s' hreach _ hstep ih hpaths => ?_) (fun _ => nofun) hpaths
  obtain ⟨m, -, hm⟩ := Reachable.exists_map hreach
  have hextends := hstep.extends_files h hdrift hm hpaths
  have hold : ∀ x ∈ s.exchanges, x.Shows router.cache locate (files s'.server.world) :=
    fun x hx => (ih (hstep.asksOnly hpaths) x hx).mono hextends
  obtain ⟨-, hexchanges, -⟩ | ⟨request, w, hhandled, -, -, -, hexchanges |
    ⟨i, answer, -, hrun, hexchanges⟩⟩ := hstep.server_cases
  · rwa [hexchanges]
  · rwa [hexchanges]
  · rw [hexchanges, List.forall_mem_append, List.forall_mem_singleton]
    refine ⟨hold, fun r hr => ?_⟩
    obtain rfl : answer = .fileBody (some r) := hr
    obtain ⟨hplain, hrun⟩ := Router.plain_of_fileBody (s := ⟨s.server.dht, w⟩) hm hrun
    exact h.ensures_plainResponseRouter router request
      (fun path hpath => hpaths path ⟨request, hhandled, hplain, hpath⟩) w trivial _ _ hrun r rfl

end Running

section

variable {σ κ : Type} [DecidableEq κ] {framing : Framing Request} {sys : System σ}
  {nlohmann : Nlohmann} {router : Router} {drift : σ → σ → Prop} {files : σ → Table κ Bytes}
  {locate : Bytes → κ} {paths : Bytes → Prop} {world : σ} {s s' : Running σ}

/-- The request of an exchange names this file. -/
def Exchange.Names (cache : FileCache) (locate : Bytes → κ) (k : κ) (x : Exchange) : Prop :=
  ∃ path, plainRequestPath x.request.target = some path ∧ locate (cache.getCachePath path) = k

end

end PacPrism
