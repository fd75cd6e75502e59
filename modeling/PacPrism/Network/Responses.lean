import PacPrism.Network.Immutable
import PacPrism.Network.NullResponse

/-!
# Network/Responses — what every response is like

All responses are built in one way: a version and a status, fields that replace one another, and
last the length of the body as it is then.
-/

namespace PacPrism

/-! ## Building a response -/

namespace Response

variable {β : Type} {r : Response β}

/-- No field is there twice. -/
def Simple (r : Response β) : Prop := (r.fields.map Prod.fst).Nodup

theorem simple_nil (status : Status) (version : Nat) (body : β) :
    ({ status := status, version := version, body := body } : Response β).Simple := List.nodup_nil

theorem Simple.set (h : r.Simple) (f : Field) (value : Bytes) : (r.set f value).Simple := by
  rw [Simple, Response.set, List.map_append, List.nodup_append]
  refine ⟨h.sublist (List.filter_sublist.map _), List.nodup_singleton _, fun g hg f' hf' => ?_⟩
  obtain ⟨p, hp, rfl⟩ := List.mem_map.1 hg
  obtain rfl := List.mem_singleton.1 hf'
  exact of_decide_eq_true (List.mem_filter.1 hp).2

/-- **A response to a version of HTTP**, which says who sends it and how long its body is, and sets
no field twice. -/
structure Proper [Body β] (release : BeastRelease) (version : Nat) (r : Response β) : Prop where
  version : r.version = version
  simple : r.Simple
  server : (r.find .server).isSome = true
  length : r.find .contentLength = some (Bytes.decimal (Body.size release r.body))

/-- Announcing the length comes last. -/
theorem proper_preparePayload [Body β] (release : BeastRelease) (hsimple : r.Simple)
    (hserver : (r.find .server).isSome = true) :
    (r.preparePayload release).Proper release r.version where
  version := rfl
  simple := hsimple.set _ _
  server := by simpa using hserver
  length := by simp

/-- The same, of a body that is put in after the fields. -/
theorem proper_withBody [Body β] (release : BeastRelease) (hsimple : r.Simple)
    (hserver : (r.find .server).isSome = true) (body : β) :
    ({ r with body := body }.preparePayload release).Proper release r.version :=
  proper_preparePayload (r := { r with body := body }) release hsimple hserver

end Response

/-! ## The operations of the cache -/

namespace FileCache

variable {σ : Type} (sys : System σ) (cache : FileCache) (requestPath : Bytes) (version : Nat)

/-- The response with a whole file. -/
theorem proper_wholeFile (file : FileBody) (lastModified etag : Bytes) :
    let response : Response FileBody := { status := .ok, version := version, body := file }
    let response := response.set .contentType (lit "application/octet-stream")
    let response := response.set .server serverName
    let response := response.set .lastModified lastModified
    let response := response.set .etag etag
    let response := response.setContentLength (Body.size sys.release response.body)
    (response.preparePayload sys.release).Proper sys.release version :=
  Response.proper_preparePayload sys.release
    (((((Response.simple_nil _ _ _).set _ _).set _ _).set _ _).set _ _ |>.set _ _)
    (by simp)

theorem proper_partialContent (range : RangeInfo) (file : FileBody) :
    (partialContent sys version range file).Proper sys.release version :=
  Response.proper_preparePayload sys.release
    (((((Response.simple_nil _ _ _).set _ _).set _ _).set _ _).set _ _ |>.set _ _)
    (by simp)

theorem proper_notModified (lastModified etag : Bytes) :
    (notModified sys version lastModified etag).Proper sys.release version :=
  Response.proper_preparePayload sys.release
    ((((Response.simple_nil _ _ _).set _ _).set _ _).set _ _) (by simp)

theorem yields_getOrFetch :
    Io.Yields
      (fun answer => ∀ r, answer = some r → r.Proper sys.release version ∧ r.status = .ok)
      (cache.getOrFetch sys requestPath version) := by
  refine Io.yields_bind fun cached => ?_
  split_ifs
  · refine Io.yields_bind fun opened => ?_
    cases opened with
    | none => exact Io.yields_pure nofun
    | some file =>
      refine Io.yields_bind fun lastModified => Io.yields_bind fun etag => Io.yields_pure ?_
      rintro r hr
      obtain rfl := Option.some.inj hr
      exact ⟨proper_wholeFile sys version file lastModified etag, rfl⟩
  · exact Io.yields_pure nofun

theorem yields_getOrFetchWithRange {rangeHeader : Bytes} (hrange : rangeHeader ≠ []) :
    Io.Yields (fun answer => ∀ r, answer = some r → r.Proper sys.release version
      ∧ (r.status = .ok ∨ r.status = .partialContent ∧ rangeHeader ≠ []))
      (cache.getOrFetchWithRange sys requestPath version rangeHeader) := by
  refine Io.yields_bind fun cached => ?_
  split_ifs
  · refine Io.yields_bind fun range => ?_
    split_ifs
    · exact (yields_getOrFetch sys cache requestPath version).mono fun answer h r hr =>
        (h r hr).imp_right .inl
    · refine Io.yields_bind fun opened => ?_
      cases opened with
      | none => exact Io.yields_pure nofun
      | some file =>
        refine Io.yields_bind fun sought => ?_
        cases sought with
        | none => exact Io.yields_pure nofun
        | some file =>
          refine Io.yields_pure ?_
          rintro r hr
          obtain rfl := Option.some.inj hr
          exact ⟨proper_partialContent sys version range file, .inr ⟨rfl, hrange⟩⟩
  · exact Io.yields_pure nofun

/-- What the conditional operation may answer. -/
def ConditionalProper (release : BeastRelease) (version : Nat) : FileCacheResponse → Prop
  | .fileBody response => ∀ r, response = some r → r.Proper release version ∧ r.status = .ok
  | .emptyBody response =>
    ∀ r, response = some r → r.Proper release version ∧ r.status = .notModified

theorem yields_getOrFetchWithConditional (ifModifiedSince ifNoneMatch : Bytes) :
    Io.Yields (ConditionalProper sys.release version)
      (cache.getOrFetchWithConditional sys requestPath version ifModifiedSince ifNoneMatch) := by
  have hnot (lastModified etag : Bytes) : ConditionalProper sys.release version
      (.emptyBody (some (notModified sys version lastModified etag))) := by
    rintro r hr
    obtain rfl := Option.some.inj hr
    exact ⟨proper_notModified sys version lastModified etag, rfl⟩
  refine Io.yields_bind fun cached => ?_
  split_ifs
  · refine Io.yields_bind fun modified => ?_
    split_ifs
    · exact Io.yields_bind fun _ => Io.yields_bind fun _ => Io.yields_pure (hnot _ _)
    · refine Io.yields_bind fun etag => ?_
      split_ifs
      · exact Io.yields_bind fun _ => Io.yields_pure (hnot _ _)
      · refine Io.yields_bind fun opened => ?_
        cases opened with
        | none => exact Io.yields_pure nofun
        | some file =>
          refine Io.yields_bind fun lastModified => Io.yields_bind fun etag => Io.yields_pure ?_
          rintro r hr
          obtain rfl := Option.some.inj hr
          exact ⟨proper_wholeFile sys version file lastModified etag, rfl⟩
  · exact Io.yields_pure nofun

end FileCache

/-! ## Every request -/

/-- **The answer fits the request**: it is proper, a part of a file is for who asked for a range,
and that nothing has changed is for who asked for that. -/
def RouterResponse.Fits (release : BeastRelease) (request : Request) : RouterResponse → Prop
  | .stringBody response => ∀ r, response = some r → r.Proper release request.version
    ∧ r.status ≠ .partialContent ∧ r.status ≠ .notModified
  | .fileBody response => ∀ r, response = some r → r.Proper release request.version
    ∧ (r.status = .ok ∨ r.status = .partialContent ∧ request.range ≠ [])
  | .emptyBody response => ∀ r, response = some r → r.Proper release request.version
    ∧ r.status = .notModified ∧ request.SelectsConditional

/-- A connection is kept for the next request as the version of this one says. -/
theorem RouterResponse.Fits.keepAlive {release : BeastRelease} {request : Request}
    {answer : RouterResponse} (h : answer.Fits release request) (hanswer : answer.NonNull) :
    answer.keepAlive = decide (11 ≤ request.version) := by
  cases answer with
  | stringBody response | fileBody response | emptyBody response =>
    obtain ⟨r, rfl⟩ := Option.isSome_iff_exists.1 hanswer
    rw [← (h r rfl).1.version]
    rfl

namespace Router

variable {σ : Type} (sys : System σ) (nlohmann : Nlohmann) (router : Router)

theorem fits_defaultResponseBuilder (request : Request) (text : Bytes) {status : Status}
    (hpart : status ≠ .partialContent) (hnotModified : status ≠ .notModified) :
    (router.defaultResponseBuilder sys text request.version status).Fits sys.release request := by
  rintro r hr
  obtain rfl := Option.some.inj hr
  exact ⟨Response.proper_preparePayload sys.release ((Response.simple_nil _ _ _).set _ _) (by simp),
    hpart, hnotModified⟩

theorem yields_plainResponseRouter (request : Request) :
    Io.Yields (RouterResponse.Fits sys.release request)
      (router.plainResponseRouter sys request) := by
  have hfile {answer : Option (Response FileBody)} (h : ∀ r, answer = some r →
      r.Proper sys.release request.version
        ∧ (r.status = .ok ∨ r.status = .partialContent ∧ request.range ≠ [])) :
      (router.fileOrBadGateway sys request.version answer).Fits sys.release request := by
    cases answer with
    | none => exact router.fits_defaultResponseBuilder sys request _ (by decide) (by decide)
    | some r => exact h
  rw [plainResponseRouter_eq]
  cases plainRequestPath request.target with
  | none =>
    exact Io.yields_pure (router.fits_defaultResponseBuilder sys request _ (by decide) (by decide))
  | some path =>
    dsimp only
    rw [serveFile]
    split_ifs with hrange hconditional
    · exact (FileCache.yields_getOrFetchWithRange sys router.cache path request.version hrange).map
        fun answer h => hfile h
    · refine (FileCache.yields_getOrFetchWithConditional sys router.cache path request.version _
        _).map fun answer h => ?_
      cases answer with
      | fileBody response => exact fun r hr => (h r hr).imp_right .inl
      | emptyBody response =>
        exact fun r hr => (h r hr).imp_right fun hstatus =>
          ⟨hstatus, not_not.1 hrange, hconditional⟩
    · exact (FileCache.yields_getOrFetch sys router.cache path request.version).map
        fun answer h => hfile fun r hr => (h r hr).imp_right .inl

/-- A node is never answered with a part of a file, nor that nothing has changed. -/
theorem status_answer (m : Registry) (request : Request) :
    (m.answer nlohmann request).2 ≠ .partialContent
      ∧ (m.answer nlohmann request).2 ≠ .notModified := by
  rw [Registry.answer]
  cases apiPath request.target with
  | none => simp
  | some path =>
    dsimp only
    split_ifs
    · simp [verifyAnswer]
    · cases nlohmann.parse request.body >>= DhtEntry.fromJson nlohmann <;>
        simp [storeSuccess, storeFailure]
    · simp [queryAnswer]
    · simp
    · simp [cleanExpirySuccess]
    · simp
    · simp

theorem fits_respond {m : Registry} {request : Request} {answer : RouterResponse}
    (h : router.respond sys nlohmann m request = .ok answer) :
    answer.Fits sys.release request := by
  rw [respond] at h
  cases htext : nlohmann.dump (m.answer nlohmann request).1 with
  | error e =>
    rw [htext] at h
    cases h
  | ok text =>
    rw [htext] at h
    obtain rfl := Except.ok.inj h
    rintro r hr
    obtain rfl := Option.some.inj hr
    refine ⟨Response.proper_withBody sys.release
      (((Response.simple_nil _ _ _).set _ _).set _ _) (by simp) text, ?_⟩
    exact status_answer nlohmann m request

/-- **Every answer fits its request.** -/
theorem fits_globalRouter {m : Registry} {s s' : Server σ} (h : Refines m s.dht) {request : Request}
    {answer : RouterResponse}
    (hrun : router.globalRouter sys nlohmann request s = .ok answer s') :
    answer.Fits sys.release request := by
  by_cases hnode : HasNodeHeaders request
  · rw [globalRouter_of_refines h hnode] at hrun
    cases hrespond : router.respond sys nlohmann m request with
    | error e =>
      rw [hrespond] at hrun
      cases hrun
    | ok response =>
      rw [hrespond] at hrun
      obtain ⟨rfl, -⟩ := EStateM.Result.ok.inj hrun
      exact router.fits_respond sys nlohmann hrespond
  · have hv : Validator.validateRequest request ≠ .node := by
      rwa [ne_eq, validateRequest_eq_node_iff]
    rw [globalRouter] at hrun
    cases hv' : Validator.validateRequest request with
    | node => exact absurd hv' hv
    | invalid =>
      rw [hv'] at hrun
      obtain ⟨rfl, -⟩ := EStateM.Result.ok.inj hrun
      exact router.fits_defaultResponseBuilder sys request _ (by decide) (by decide)
    | plainClient =>
      rw [hv'] at hrun
      obtain ⟨w, hplain, -⟩ := Server.exists_of_onWorld hrun
      exact router.yields_plainResponseRouter sys request _ _ _ hplain

end Router

/-- **Every response fits its request**, whatever connections do, in whatever order their operations
complete: it has the version of the request, names the server, announces the size of its body and
sets no field twice; only who asked for a range gets a part, and only who named a validator hears
that nothing has changed.  The connection is kept if the request was of HTTP/1.1. -/
theorem responses_fit {σ : Type} {framing : Framing Request} {sys : System σ} {nlohmann : Nlohmann}
    {router : Router} {drift : σ → σ → Prop} {world : σ} {s : Running σ}
    (hs : Running.Reachable framing sys nlohmann router drift world s) :
    ∀ x ∈ s.exchanges, x.answer.Fits sys.release x.request
      ∧ x.answer.keepAlive = decide (11 ≤ x.request.version) := by
  refine hs.invariant_of_reaches (I := fun s => ∀ x ∈ s.exchanges,
    x.answer.Fits sys.release x.request
      ∧ x.answer.keepAlive = decide (11 ≤ x.request.version))
    (fun s completion s' hreach _ hstep ih => ?_) nofun
  obtain ⟨m, -, hm⟩ := Running.Reachable.exists_map hreach
  obtain ⟨-, hexchanges, -⟩ | ⟨request, w, -, -, -, -, hexchanges |
    ⟨i, answer, hanswer, hrun, hexchanges⟩⟩ := hstep.server_cases
  · rwa [hexchanges]
  · rwa [hexchanges]
  · rw [hexchanges, List.forall_mem_append, List.forall_mem_singleton]
    have hfits := Router.fits_globalRouter sys nlohmann router (s := ⟨s.server.dht, w⟩) hm hrun
    exact ⟨ih, hfits, hfits.keepAlive hanswer⟩

/-- A request of HTTP/1.0 for a range that is at the end of a file: the connection is closed. -/
theorem responses_fit_old :
    let router : Router := ⟨⟨{}, lit "./cache", lit "ftp.debian.org"⟩, lit "0.1.0"⟩
    let sys := Disk.system (.tree []) (.offline .current)
    let framing : Framing Request := .ofHeaders fun _ =>
      ⟨.get, lit "/f", 10, [(lit "Range", lit "bytes=-4")], []⟩
    ∃ (s : Running TreeDisk) (r : Response FileBody),
      Running.Reachable framing sys .withoutParser router Eq tenBytes s
      ∧ s.exchanges.map Exchange.answer = [.fileBody (some r)] ∧ r.status = .partialContent
      ∧ r.version = 10 ∧ r.find .contentLength = some (lit "4")
      ∧ (RouterResponse.fileBody (some r)).keepAlive = false := by
  intro router sys framing
  let start : Running TreeDisk := .started tenBytes
  let text := lit "GET\r\n\r\n"
  obtain ⟨answer, server, hrun, hanswer⟩ := Io.exists_ok_of_check
    (m := router.globalRouter sys .withoutParser (framing.decode text)) (s := start.server)
    (fun answer _ => answer.file.any fun r =>
      r.status = .partialContent ∧ Body.size .current r.body = 4) (by decide +kernel)
  obtain ⟨r, hr, hpart⟩ := (Option.any_eq_true _ _).1 hanswer
  obtain ⟨hstatus, hsize⟩ := of_decide_eq_true hpart
  obtain rfl := RouterResponse.eq_of_file hr
  have hserving : start.Serving := Running.serving_started _
  obtain ⟨s, hs, -, -, -, hexchanges⟩ := hserving.exists_exchange (fun _ => rfl) .refl
    (w := text) (by decide) hrun rfl
  have hfits := responses_fit hs
  rw [hexchanges] at hfits
  obtain ⟨hfits, hkeep⟩ := hfits _ (.head _)
  obtain ⟨hproper, -⟩ := hfits r rfl
  refine ⟨s, r, hs, by rw [hexchanges]; rfl, hstatus, hproper.version, ?_, hkeep⟩
  rw [hproper.length, show sys.release = .current from rfl, hsize]
  decide

end PacPrism
