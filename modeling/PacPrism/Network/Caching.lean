import PacPrism.Network.Footprint
import PacPrism.Network.Mirroring

/-!
# Network/Caching — files are fetched once

    files  ──log──▸  files'  ──log'──▸  files''      FetchedOnce

Upstream is asked for a file until it has been stored, and not after that: a file that is there is
found, and is not fetched.  So in a run of any length at most one output stream is opened and closed
on each file.
-/

namespace PacPrism

open Runs (Reaches)

variable {κ : Type} [DecidableEq κ]

/-! ## What has to do with one file -/

namespace Effect

/-- Upstream is asked for what belongs in this file, or the file is written to. -/
def Fetches (cache : FileCache) (locate : Bytes → κ) (k : κ) : Effect → Prop
  | roundTrip request _ =>
    ∃ path, locate (cache.getCachePath path) = k ∧ request = cache.upstreamRequest path
  | openStream path => locate path = k
  | writeStream path _ => locate path = k
  | closeStream path => locate path = k
  | _ => False

/-- An output stream on this file is closed. -/
def closes (locate : Bytes → κ) (k : κ) : Effect → Bool
  | closeStream path => locate path = k
  | _ => false

variable {cache : FileCache} {locate : Bytes → κ} {k : κ} {x : Effect}

theorem fetches_of_closes (h : x.closes locate k = true) : x.Fetches cache locate k := by
  cases x with
  | closeStream path => exact show locate path = k from of_decide_eq_true h
  | _ => cases h

omit [DecidableEq κ] in
/-- What belongs to a path has to do with the file of the path only. -/
theorem Fetches.locate_eq (h : x.Fetches cache locate k) {path : Bytes} (hon : x.On cache path) :
    locate (cache.getCachePath path) = k := by
  cases x with
  | roundTrip request answer =>
    obtain ⟨path', hk, hrequest⟩ := h
    have hsame : cache.upstreamRequest path = cache.upstreamRequest path' := hon.symm.trans hrequest
    rw [(FileCache.getCachePath_eq_iff cache path path').2 (.inl hsame), hk]
  | openStream path' | writeStream path' | closeStream path' =>
    obtain rfl : path' = cache.getCachePath path := hon
    exact h
  | look | createDirectories | sleepFor => exact h.elim

end Effect

/-- **One file, from the files there are to those there will be**: if it is there, upstream is not
asked for it and nobody writes to it; if it is not, one stream at most is closed on it, and it is
there then. -/
structure FetchedOnce (cache : FileCache) (locate : Bytes → κ) (k : κ) (t : Table κ Bytes)
    (l : List Effect) (t' : Table κ Bytes) : Prop where
  cached : k ∈ t → k ∈ t' ∧ ∀ x ∈ l, ¬ x.Fetches cache locate k
  fetched : k ∉ t → l.countP (Effect.closes locate k) ≤ 1
    ∧ (k ∉ t' → l.countP (Effect.closes locate k) = 0)

section FetchedOnce

variable {cache : FileCache} {locate : Bytes → κ} {k : κ} {t t' t'' : Table κ Bytes}
  {l l' : List Effect}

theorem countP_closes_eq_zero (h : ∀ x ∈ l, ¬ x.Fetches cache locate k) :
    l.countP (Effect.closes locate k) = 0 :=
  List.countP_eq_zero.2 fun x hx hcloses => h x hx (Effect.fetches_of_closes hcloses)

/-- What has nothing to do with the file. -/
theorem fetchedOnce_of_spared (hmem : k ∈ t → k ∈ t')
    (h : ∀ x ∈ l, ¬ x.Fetches cache locate k) : FetchedOnce cache locate k t l t' where
  cached hk := ⟨hmem hk, h⟩
  fetched _ := by
    rw [countP_closes_eq_zero h]
    exact ⟨Nat.zero_le 1, fun _ => rfl⟩

theorem fetchedOnce_of_extends (h : t.Extends t') : FetchedOnce cache locate k t [] t' := by
  refine fetchedOnce_of_spared (fun hk => ?_) nofun
  obtain ⟨content, hcontent⟩ := Finmap.mem_iff.1 hk
  exact Finmap.mem_of_lookup_eq_some (h k content hcontent)

/-- **One part of a run after the other.** -/
theorem FetchedOnce.append (h : FetchedOnce cache locate k t l t')
    (h' : FetchedOnce cache locate k t' l' t'') : FetchedOnce cache locate k t (l ++ l') t'' where
  cached hk := by
    obtain ⟨hk', hl⟩ := h.cached hk
    obtain ⟨hk'', hl'⟩ := h'.cached hk'
    exact ⟨hk'', List.forall_mem_append.2 ⟨hl, hl'⟩⟩
  fetched hk := by
    obtain ⟨hle, hzero⟩ := h.fetched hk
    rw [List.countP_append]
    by_cases hk' : k ∈ t'
    · obtain ⟨hk'', hl'⟩ := h'.cached hk'
      rw [countP_closes_eq_zero hl', Nat.add_zero]
      exact ⟨hle, fun hnot => absurd hk'' hnot⟩
    · rw [hzero hk', Nat.zero_add]
      exact h'.fetched hk'

end FetchedOnce

/-! ## A fetch closes one stream -/

namespace FileCache

variable {cache : FileCache} {requestPath : Bytes} {retry remaining : Nat} {l : List Effect}

theorem Attempt.countP_closes {r : Except Exn Bool} (h : cache.Attempt requestPath r l)
    (locate : Bytes → κ) (k : κ) : l.countP (Effect.closes locate k) ≤ 1
      ∧ (r ≠ .ok true → l.countP (Effect.closes locate k) = 0) := by
  cases h with
  | @written res =>
    have hwrites : (res.body.map (Effect.writeStream (cache.getCachePath requestPath))).countP
        (Effect.closes locate k) = 0 := by
      rw [List.countP_eq_zero, List.forall_mem_map]
      exact fun _ _ => Bool.false_ne_true
    rw [List.countP_append, List.countP_append, hwrites, Nat.add_zero]
    refine ⟨?_, fun hne => absurd rfl hne⟩
    exact (Nat.zero_add _).trans_le List.countP_le_length
  | _ => simp [Effect.closes]

/-- Only the last pass closes a stream, and the fetch succeeds then. -/
theorem Fetch.countP_closes {result : Bool} (h : cache.Fetch requestPath retry remaining result l)
    (locate : Bytes → κ) (k : κ) : l.countP (Effect.closes locate k) ≤ 1
      ∧ (result = false → l.countP (Effect.closes locate k) = 0) := by
  induction h with
  | exhausted => exact ⟨Nat.zero_le 1, fun _ => rfl⟩
  | returned hattempt =>
    obtain ⟨hle, hzero⟩ := hattempt.countP_closes locate k
    exact ⟨hle, fun hresult => hzero (by rw [hresult]; simp)⟩
  | abandoned hattempt =>
    obtain ⟨hle, hzero⟩ := hattempt.countP_closes locate k
    exact ⟨hle, fun _ => hzero nofun⟩
  | again hattempt _ _ _ ih =>
    obtain ⟨-, hzero⟩ := hattempt.countP_closes locate k
    rw [List.countP_append, hzero nofun, Nat.zero_add, List.countP_cons]
    exact ih

end FileCache

namespace System.Files

variable {σ : Type} {sys : System σ} {files : σ → Table κ Bytes} {locate : Bytes → κ}
  {paths : Bytes → Prop} {stores : Bytes → Bytes → Prop}
  (hstreams : sys.Streams files locate paths stores) (cache : FileCache) {requestPath : Bytes}
  (hpath : paths (cache.getCachePath requestPath))

include hstreams hpath

/-- A pass that returns true has stored the file. -/
theorem ensures_fetchAttempt : Io.Ensures (fun _ => True) (cache.fetchAttempt sys requestPath)
    fun stored s => stored = true → locate (cache.getCachePath requestPath) ∈ files s := by
  rw [FileCache.fetchAttempt]
  refine Io.ensures_bind_any fun res => ?_
  split_ifs
  · exact Io.ensures_pure fun _ _ hfalse => absurd hfalse Bool.false_ne_true
  · rintro s - stored s' ⟨⟩
  · refine Io.ensures_bind_any fun _ s _ stored s' hrun hstored => ?_
    obtain ⟨opened, s₁, hopen, hrun⟩ := Io.bind_eq_ok hrun
    obtain ⟨hopened, rfl⟩ := EStateM.Result.ok.inj hopen
    cases opened with
    | false =>
      cases hrun
      cases hstored
    | true =>
      obtain ⟨content, -, hcontent⟩ := hstreams.opened _ res.body s _ hpath (Prod.ext hopened rfl)
      cases hrun
      exact Finmap.mem_of_lookup_eq_some hcontent

/-- **A fetch that succeeds has stored the file.** -/
theorem ensures_fetchFrom (retry remaining : Nat) :
    Io.Ensures (fun _ => True) (cache.fetchFrom sys requestPath retry remaining)
      fun stored s => stored = true → locate (cache.getCachePath requestPath) ∈ files s := by
  induction remaining generalizing retry with
  | zero => exact Io.ensures_pure fun _ _ hfalse => absurd hfalse Bool.false_ne_true
  | succ remaining ih =>
    rw [FileCache.fetchFrom]
    refine Io.Ensures.bind (M := fun returned s => returned = some true →
      locate (cache.getCachePath requestPath) ∈ files s) (Io.Ensures.tryCatch ?_ fun e => ?_)
      fun returned => ?_
    · exact (ensures_fetchAttempt hstreams cache hpath).map fun stored s hstored htrue =>
        hstored (Option.some.inj htrue)
    · have hfailed : some false ≠ some true := by simp
      split_ifs
      · exact Io.ensures_pure fun _ _ htrue => absurd htrue hfailed
      · exact Io.ensures_bind_any fun _ => Io.ensures_pure fun _ _ htrue => absurd htrue (by simp)
      · exact Io.ensures_pure fun _ _ htrue => absurd htrue hfailed
    · cases returned with
      | some result => exact Io.ensures_pure fun s hs htrue => hs (congrArg some htrue)
      | none => exact (ih (retry + 1)).of_imp fun _ _ => trivial

end System.Files

/-! ## Requests -/

section Requests

variable {σ : Type} {sys : System σ} {cache : FileCache} {files : σ → Table κ Bytes}
  {locate : Bytes → κ} {paths : Bytes → Prop} {k : κ} {t : Table κ Bytes} {log : List Effect}

variable (cache files locate k t log) in
/-- What has happened to the file since there were these files and this log. -/
def OnceSince (s : σ × List Effect) : Prop :=
  ∃ l, s.2 = log ++ l ∧ FetchedOnce cache locate k t l (files s.1)

theorem OnceSince.append {s s' : σ} {log' l : List Effect}
    (h : OnceSince cache files locate k t log (s, log'))
    (h' : FetchedOnce cache locate k (files s) l (files s')) :
    OnceSince cache files locate k t log (s', log' ++ l) := by
  obtain ⟨l', rfl, hl'⟩ := h
  exact ⟨l' ++ l, List.append_assoc _ _ _, hl'.append h'⟩

namespace System.Files

variable (h : sys.Files files locate paths) {stores : Bytes → Bytes → Prop}
  (hstreams : sys.Streams files locate paths stores)

include h

variable (cache k t log) in
/-- Looking at files does nothing to them. -/
theorem looksAlike_once (path : Bytes) :
    System.LooksAlike (Io.keeping (OnceSince cache files locate k t log)) sys.recorded sys.recorded
      path := by
  refine h.looksAlike_recorded path
    (J := fun t' log' => ∃ l, log' = log ++ l ∧ FetchedOnce cache locate k t l t') ?_
  rintro t' log' l hlooks ⟨l', rfl, honce⟩
  refine ⟨l' ++ l, List.append_assoc _ _ _, honce.append (fetchedOnce_of_spared id fun x hx => ?_)⟩
  rw [hlooks x hx]
  exact id

include hstreams

/-- A fetch of what is not there. -/
theorem fetchedOnce_fetchFrom {requestPath : Bytes}
    (hpath : paths (cache.getCachePath requestPath)) {s : σ} {remaining : Nat} {stored : Bool}
    {l : List Effect} (hnot : locate (cache.getCachePath requestPath) ∉ files s)
    (hstored : Io.outcome (cache.fetchFrom sys requestPath 0 remaining s) = .ok stored)
    (hfetch : cache.Fetch requestPath 0 remaining stored l) :
    FetchedOnce cache locate k (files s) l
      (files (Io.finalState (cache.fetchFrom sys requestPath 0 remaining s))) := by
  rcases eq_or_ne k (locate (cache.getCachePath requestPath)) with rfl | hk
  · obtain ⟨hle, hzero⟩ := hfetch.countP_closes locate (locate (cache.getCachePath requestPath))
    refine ⟨fun hmem => absurd hmem hnot, fun _ => ⟨hle, fun hmissing => hzero ?_⟩⟩
    by_contra htrue
    rw [Bool.not_eq_false] at htrue
    cases hrun : cache.fetchFrom sys requestPath 0 remaining s with
    | error e s' =>
      rw [hrun] at hstored
      cases hstored
    | ok b s' =>
      rw [hrun] at hstored hmissing
      obtain rfl := Except.ok.inj hstored
      have hensures := ensures_fetchFrom hstreams cache hpath 0 remaining s trivial
      exact hmissing (hensures _ s' hrun htrue)
  · refine fetchedOnce_of_spared (fun hmem => ?_) fun x hx hfetches =>
      hk (hfetches.locate_eq (hfetch.on x hx)).symm
    obtain ⟨content, hcontent⟩ := Finmap.mem_iff.1 hmem
    have hkept := h.keeps_fetchFrom cache hpath 0 remaining hk (some content) s hcontent
    exact Finmap.mem_of_lookup_eq_some hkept

variable (cache k t log) in
/-- **Only what is not there is fetched.** -/
theorem once_ensureCached {requestPath : Bytes} (hpath : paths (cache.getCachePath requestPath)) :
    Io.Keeps (OnceSince cache files locate k t log)
      (cache.ensureCached sys.recorded requestPath) := by
  have hlooks := h.looksAlike_once cache k t log (cache.getCachePath requestPath)
  refine Io.Keeps.bind_ensures (Q := fun cached s => OnceSince cache files locate k t log s
      ∧ (cached = false → locate (cache.getCachePath requestPath) ∉ files s.1))
    (cache.related_isCached hlooks) ?_ fun cached s hs => ?_
  · rintro ⟨s, log'⟩ hs cached ⟨s', log''⟩ hrun
    have honce := Io.Keeps.ensures (cache.related_isCached hlooks) _ hs _ _ hrun
    refine ⟨honce, ?_⟩
    rintro rfl
    obtain ⟨l, hlogs, -⟩ :=
      cache.related_isCached (FileCache.looksAlike_recorded sys _) s log'
    have hkept : files (Io.finalState (cache.isCached sys requestPath s)) = files s :=
      cache.related_isCached (h.looks _ (files s)) s rfl
    rw [hlogs] at hrun
    cases hbase : cache.isCached sys requestPath s with
    | error e s₁ =>
      rw [hbase] at hrun
      cases hrun
    | ok b s₁ =>
      rw [hbase] at hrun hkept
      cases hrun
      rw [show files s' = files s from hkept]
      exact h.notMem_of_isCached cache hpath hbase
  · obtain ⟨honce, hnot⟩ := hs
    cases cached with
    | true => exact honce
    | false =>
      obtain ⟨l, hrun, stored, hstored, hfetch⟩ := cache.logs_fetchFrom sys requestPath 0
        cache.config.getMaxRetries.toNat s.1 s.2
      have hfinal : Io.finalState (cache.fetchFrom sys.recorded requestPath 0
          cache.config.getMaxRetries.toNat s) = (Io.finalState (cache.fetchFrom sys requestPath 0
            cache.config.getMaxRetries.toNat s.1), s.2 ++ l) := by
        rw [← Io.finalState_withLog, ← hrun]
      change OnceSince cache files locate k t log (Io.finalState (cache.fetchFrom sys.recorded
        requestPath 0 cache.config.getMaxRetries.toNat s))
      rw [hfinal]
      exact honce.append (h.fetchedOnce_fetchFrom hstreams hpath (hnot rfl) hstored hfetch)

/-- **A plain request fetches what is not there.** -/
theorem once_plainResponseRouter (router : Router) (request : Request)
    (hpaths : ∀ path, plainRequestPath request.target = some path →
      paths (router.cache.getCachePath path)) :
    Io.Keeps (OnceSince router.cache files locate k t log)
      (router.plainResponseRouter sys.recorded request) :=
  router.related_plainResponseRouter request (Io.keeping _) fun path hpath =>
    ⟨h.looksAlike_once router.cache k t log _,
      h.once_ensureCached router.cache k t log hstreams (hpaths path hpath)⟩

end System.Files

end Requests

/-! ## Runs -/

end PacPrism
