import PacPrism.Console.Calls
import PacPrism.Foundations.Traces

/-!
# Console/Effects — what the file cache does to its surroundings

    fetch  =  (attempt, sleep 1s)  (attempt, sleep 2s)  …  attempt

Any surroundings can be made to record what is asked of them (`System.recorded`), and the cache then
does what it did before (`Io.Logs`).  The log of an operation has the shape of its statements: looks
at the one file of the request, and between them at most one fetch, or two where the answer to a
range falls back on the whole file.
-/

namespace PacPrism

/-- Something asked of the surroundings. -/
inductive Effect where
  /-- Status, size and modification time of a file, and opening it for reading. -/
  | look (path : Bytes)
  | roundTrip (request : UpstreamRequest) (answer : Except Exn UpstreamResponse)
  | createDirectories (path : Bytes)
  | openStream (path : Bytes)
  | writeStream (path buffer : Bytes)
  | closeStream (path : Bytes)
  | sleepFor (seconds : Nat)

namespace Effect

/-- Everything but a look may change something. -/
def acts : Effect → Bool
  | look _ => false
  | _ => true

/-- How often the upstream server is contacted. -/
def contacts : Effect → Nat
  | roundTrip _ _ => 1
  | _ => 0

/-- How long the server sleeps. -/
def seconds : Effect → Nat
  | sleepFor seconds => seconds
  | _ => 0

/-- **What belongs to a request path**: its file, the directory of it, and its upstream request. -/
def On (cache : FileCache) (requestPath : Bytes) : Effect → Prop
  | look path => path = cache.getCachePath requestPath
  | roundTrip request _ => request = cache.upstreamRequest requestPath
  | createDirectories path => path = Path.parentPath (cache.getCachePath requestPath)
  | openStream path => path = cache.getCachePath requestPath
  | writeStream path _ => path = cache.getCachePath requestPath
  | closeStream path => path = cache.getCachePath requestPath
  | sleepFor _ => True

/-- A cost, summed up. -/
def total (cost : Effect → Nat) : List Effect → Nat
  | [] => 0
  | x :: l => cost x + total cost l

section Total

variable (cost : Effect → Nat)

theorem total_append (l l' : List Effect) :
    total cost (l ++ l') = total cost l + total cost l' := by
  induction l with
  | nil => exact (Nat.zero_add _).symm
  | cons x l ih => rw [List.cons_append, total, ih, total, Nat.add_assoc]

variable {cost} in
theorem total_eq_zero {l : List Effect} (h : ∀ x ∈ l, cost x = 0) : total cost l = 0 := by
  induction l with
  | nil => rfl
  | cons x l ih =>
    rw [List.forall_mem_cons] at h
    rw [total, h.1, ih h.2]

theorem total_map {α : Type} (effect : α → Effect) (h : ∀ a, cost (effect a) = 0) (l : List α) :
    total cost (l.map effect) = 0 :=
  total_eq_zero (List.forall_mem_map.2 fun a _ => h a)

variable {cost}

/-- Looks are free. -/
theorem total_filter_acts (hlook : ∀ path, cost (.look path) = 0) (l : List Effect) :
    total cost (l.filter acts) = total cost l := by
  induction l with
  | nil => rfl
  | cons x l ih =>
    rw [total, ← ih]
    cases x with
    | look path => rw [hlook, Nat.zero_add]; rfl
    | _ => rfl

theorem total_flatten_le {bound : Nat} {ls : List (List Effect)}
    (h : ∀ l ∈ ls, total cost l ≤ bound) : total cost ls.flatten ≤ ls.length * bound := by
  induction ls with
  | nil => exact Nat.zero_le _
  | cons l ls ih =>
    rw [List.forall_mem_cons] at h
    rw [List.flatten_cons, total_append, List.length_cons, Nat.succ_mul, Nat.add_comm]
    exact Nat.add_le_add (ih h.2) h.1

end Total

end Effect

/-- The surroundings, with a log of what is asked of them. -/
def System.recorded {σ : Type} (sys : System σ) : System (σ × List Effect) where
  fileExists path := Io.recordedAs (.look path) (sys.fileExists path)
  isRegularFile path := Io.recordedAs (.look path) (sys.isRegularFile path)
  fileSize path := Io.recordedAs (.look path) (sys.fileSize path)
  lastWriteTime path := Io.recordedAs (.look path) (sys.lastWriteTime path)
  createDirectories path := Io.recordedAs (.createDirectories path) (sys.createDirectories path)
  roundTrip request := Io.recorded (.roundTrip request) (sys.roundTrip request)
  openFile path := Io.recordedCall (.look path) (sys.openFile path)
  seek file offset := Io.silentCall (sys.seek file offset)
  openStream path := Io.recordedCall (.openStream path) (sys.openStream path)
  writeStream path buffer :=
    Io.recordedEffect (.writeStream path buffer) (sys.writeStream path buffer)
  closeStream path := Io.recordedEffect (.closeStream path) (sys.closeStream path)
  sleepFor seconds := Io.recordedEffect (.sleepFor seconds) (sys.sleepFor seconds)
  systemClock := Io.silentCall sys.systemClock
  readClocks := Io.silentCall sys.readClocks
  time := sys.time
  release := sys.release

namespace FileCache

variable {σ : Type} (sys : System σ) (cache : FileCache) (requestPath : Bytes)

/-! ## One fetch -/

/-- What one pass of the retry loop does, by how it ends. -/
inductive Attempt : Except Exn Bool → List Effect → Prop
  | unreachable (e : Exn) :
      Attempt (.error e) [.roundTrip (cache.upstreamRequest requestPath) (.error e)]
  | refused {res : UpstreamResponse} (hrefused : 400 ≤ res.result ∧ res.result < 500) :
      Attempt (.ok false) [.roundTrip (cache.upstreamRequest requestPath) (.ok res)]
  | failed {res : UpstreamResponse} (hresult : res.result ≠ 200) :
      Attempt (.error ⟨.runtimeError, lit "HTTP error: " ++ Bytes.decimal res.result⟩)
        [.roundTrip (cache.upstreamRequest requestPath) (.ok res)]
  | noDirectory {res : UpstreamResponse} (e : Exn) (hresult : res.result = 200) :
      Attempt (.error e) [.roundTrip (cache.upstreamRequest requestPath) (.ok res),
        .createDirectories (Path.parentPath (cache.getCachePath requestPath))]
  | notOpened {res : UpstreamResponse} (hresult : res.result = 200) :
      Attempt (.ok false) [.roundTrip (cache.upstreamRequest requestPath) (.ok res),
        .createDirectories (Path.parentPath (cache.getCachePath requestPath)),
        .openStream (cache.getCachePath requestPath)]
  /-- The buffers are written in the order in which they were received. -/
  | written {res : UpstreamResponse} (hresult : res.result = 200) :
      Attempt (.ok true) ([.roundTrip (cache.upstreamRequest requestPath) (.ok res),
          .createDirectories (Path.parentPath (cache.getCachePath requestPath)),
          .openStream (cache.getCachePath requestPath)]
        ++ res.body.map (.writeStream (cache.getCachePath requestPath))
        ++ [.closeStream (cache.getCachePath requestPath)])

/-- What the retry loop does from pass `retry` on, with `remaining` passes left. -/
inductive Fetch : Nat → Nat → Bool → List Effect → Prop
  | exhausted {retry : Nat} : Fetch retry 0 false []
  | returned {retry remaining : Nat} {result : Bool} {l : List Effect}
      (hattempt : cache.Attempt requestPath (.ok result) l) :
      Fetch retry (remaining + 1) result l
  | abandoned {retry remaining : Nat} {e : Exn} {l : List Effect}
      (hattempt : cache.Attempt requestPath (.error e) l) :
      Fetch retry (remaining + 1) false l
  /-- A transport error, and not on the last pass. -/
  | again {retry remaining : Nat} {result : Bool} {e : Exn} {l l' : List Effect}
      (hattempt : cache.Attempt requestPath (.error e) l) (hkind : e.kind = .beastSystemError)
      (hlast : (retry : Int) ≠ cache.config.getMaxRetries - 1)
      (hfetch : Fetch (retry + 1) remaining result l') :
      Fetch retry (remaining + 1) result (l ++ .sleepFor (1 <<< retry) :: l')

/-- No exception leaves the retry loop. -/
def FetchEnds (retry remaining : Nat) (result : Except Exn Bool) (l : List Effect) : Prop :=
  ∃ b, result = .ok b ∧ cache.Fetch requestPath retry remaining b l

/-- **One pass of the retry loop.** -/
theorem logs_fetchAttempt :
    Io.Logs (cache.fetchAttempt sys.recorded requestPath) (cache.fetchAttempt sys requestPath)
      (cache.Attempt requestPath) := by
  rw [fetchAttempt, fetchAttempt]
  refine Io.logs_recorded_bind (fun res => ?_) fun e => .unreachable e
  split_ifs with hresult hrefused
  · exact Io.logs_pure (.refused hrefused)
  · exact Io.logs_throw (.failed hresult)
  · have hresult := not_not.1 hresult
    dsimp only
    refine Io.logs_recordedAs_bind (fun _ => ?_) fun e => .noDirectory e hresult
    refine Io.logs_recordedCall_bind fun opened => ?_
    split_ifs
    · refine Io.logs_foldl_recordedEffect_bind res.body ?_
      refine Io.logs_recordedEffect_bind (Io.logs_pure ?_)
      exact .written hresult
    · exact Io.logs_pure (.notOpened hresult)

/-- What one pass does, with what it does about an exception: `none` leads to the next one. -/
inductive Pass (retry : Nat) : Except Exn (Option Bool) → List Effect → Prop
  | returned {result : Bool} {l : List Effect}
      (hattempt : cache.Attempt requestPath (.ok result) l) :
      Pass retry (.ok (some result)) l
  | abandoned {e : Exn} {l : List Effect} (hattempt : cache.Attempt requestPath (.error e) l) :
      Pass retry (.ok (some false)) l
  | again {e : Exn} {l : List Effect} (hattempt : cache.Attempt requestPath (.error e) l)
      (hkind : e.kind = .beastSystemError)
      (hlast : (retry : Int) ≠ cache.config.getMaxRetries - 1) :
      Pass retry (.ok none) (l ++ [.sleepFor (1 <<< retry)])

/-- What happens to an exception. -/
def afterFailure (retry : Nat) (e : Exn) : Io σ (Option Bool) :=
  if e.kind = .beastSystemError then
    if (retry : Int) = cache.config.getMaxRetries - 1 then pure (some false)
    else do
      modify (sys.sleepFor (1 <<< retry))
      pure none
  else pure (some false)

theorem logs_pass (retry : Nat) :
    Io.Logs
      (tryCatch (some <$> cache.fetchAttempt sys.recorded requestPath)
        (cache.afterFailure sys.recorded retry))
      (tryCatch (some <$> cache.fetchAttempt sys requestPath) (cache.afterFailure sys retry))
      (cache.Pass requestPath retry) := by
  have hattempt := (cache.logs_fetchAttempt sys requestPath).map some
    (F := fun r l => (∃ b, r = .ok (some b) ∧ cache.Attempt requestPath (.ok b) l)
      ∨ ∃ e, r = .error e ∧ cache.Attempt requestPath (.error e) l)
    (fun e l h => .inr ⟨e, rfl, h⟩) fun b l h => .inl ⟨b, rfl, h⟩
  refine hattempt.tryCatch (F := fun e r l => (r = .ok (some false) ∧ l = [])
    ∨ r = .ok none ∧ l = [.sleepFor (1 <<< retry)] ∧ e.kind = .beastSystemError
      ∧ (retry : Int) ≠ cache.config.getMaxRetries - 1) (fun e => ?_) ?_ ?_
  · rw [afterFailure, afterFailure]
    split_ifs with hkind hlast
    · exact Io.logs_pure (.inl ⟨rfl, rfl⟩)
    · exact Io.logs_recordedEffect_bind (Io.logs_pure (.inr ⟨rfl, rfl, hkind, hlast⟩))
    · exact Io.logs_pure (.inl ⟨rfl, rfl⟩)
  · rintro b l (⟨b', hb, h⟩ | ⟨e, he, -⟩)
    · obtain rfl := Except.ok.inj hb
      exact .returned h
    · cases he
  · rintro e l r l' (⟨b, hb, -⟩ | ⟨e', he, h⟩) hr
    · cases hb
    · obtain rfl := Except.error.inj he
      rcases hr with ⟨rfl, rfl⟩ | ⟨rfl, rfl, hkind, hlast⟩
      · rw [List.append_nil]
        exact .abandoned h
      · exact .again h hkind hlast

/-- **The retry loop.** -/
theorem logs_fetchFrom (retry remaining : Nat) :
    Io.Logs (cache.fetchFrom sys.recorded requestPath retry remaining)
      (cache.fetchFrom sys requestPath retry remaining)
      (cache.FetchEnds requestPath retry remaining) := by
  induction remaining generalizing retry with
  | zero => exact Io.logs_pure ⟨false, rfl, .exhausted⟩
  | succ remaining ih =>
    refine (cache.logs_pass sys requestPath retry).bind
      (F := fun returned r l => (∀ result, returned = some result → r = .ok result ∧ l = [])
        ∧ (returned = none → cache.FetchEnds requestPath (retry + 1) remaining r l))
      (fun returned => ?_) ?_ ?_
    · cases returned with
      | some result =>
        refine Io.logs_pure ⟨fun result' h => ?_, nofun⟩
        obtain rfl := Option.some.inj h
        exact ⟨rfl, rfl⟩
      | none => exact (ih (retry + 1)).mono fun _ _ h => ⟨nofun, fun _ => h⟩
    · rintro e l ⟨⟩
    · rintro returned l r l' hpass ⟨hsome, hnone⟩
      cases hpass with
      | @returned result l hattempt =>
        obtain ⟨rfl, rfl⟩ := hsome result rfl
        rw [List.append_nil]
        exact ⟨result, rfl, .returned hattempt⟩
      | abandoned hattempt =>
        obtain ⟨rfl, rfl⟩ := hsome false rfl
        rw [List.append_nil]
        exact ⟨false, rfl, .abandoned hattempt⟩
      | again hattempt hkind hlast =>
        obtain ⟨b, rfl, hfetch⟩ := hnone rfl
        rw [List.append_assoc]
        exact ⟨b, rfl, .again hattempt hkind hlast hfetch⟩

/-! ## What a fetch does, and what it does not -/

section Bounds

variable {cache : FileCache} {requestPath : Bytes} {retry remaining : Nat} {result : Bool}
  {l : List Effect}

theorem Attempt.on {r : Except Exn Bool} (h : cache.Attempt requestPath r l) :
    ∀ x ∈ l, x.On cache requestPath := by
  cases h with
  | written =>
    refine List.forall_mem_append.2 ⟨List.forall_mem_append.2 ⟨by simp [Effect.On], ?_⟩,
      by simp [Effect.On]⟩
    exact List.forall_mem_map.2 fun _ _ => rfl
  | _ => simp [Effect.On]

theorem Attempt.contacts_eq {r : Except Exn Bool} (h : cache.Attempt requestPath r l) :
    Effect.total Effect.contacts l = 1 := by
  cases h with
  | @written res =>
    have hwrites := Effect.total_map Effect.contacts
      (Effect.writeStream (cache.getCachePath requestPath)) (fun _ => rfl) res.body
    rw [Effect.total_append, Effect.total_append, hwrites]
    rfl
  | _ => simp [Effect.total, Effect.contacts]

theorem Attempt.seconds_eq {r : Except Exn Bool} (h : cache.Attempt requestPath r l) :
    Effect.total Effect.seconds l = 0 := by
  cases h with
  | @written res =>
    have hwrites := Effect.total_map Effect.seconds
      (Effect.writeStream (cache.getCachePath requestPath)) (fun _ => rfl) res.body
    rw [Effect.total_append, Effect.total_append, hwrites]
    rfl
  | _ => simp [Effect.total, Effect.seconds]

/-- A fetch has to do with its own path only. -/
theorem Fetch.on (h : cache.Fetch requestPath retry remaining result l) :
    ∀ x ∈ l, x.On cache requestPath := by
  induction h with
  | exhausted => exact nofun
  | returned hattempt => exact hattempt.on
  | abandoned hattempt => exact hattempt.on
  | again hattempt _ _ _ ih =>
    exact List.forall_mem_append.2 ⟨hattempt.on, List.forall_mem_cons.2 ⟨trivial, ih⟩⟩

/-- Every pass contacts the upstream server once. -/
theorem Fetch.contacts_le (h : cache.Fetch requestPath retry remaining result l) :
    Effect.total Effect.contacts l ≤ remaining := by
  induction h with
  | exhausted => exact Nat.le_refl 0
  | returned hattempt => rw [hattempt.contacts_eq]; omega
  | abandoned hattempt => rw [hattempt.contacts_eq]; omega
  | @again retry remaining _ _ _ l' hattempt _ _ _ ih =>
    have hsleep : Effect.contacts (.sleepFor (1 <<< retry)) = 0 := rfl
    rw [Effect.total_append, Effect.total, hattempt.contacts_eq, hsleep]
    omega

/-- The pauses add up to what the last of them would be doubled. -/
theorem Fetch.seconds_add_le (h : cache.Fetch requestPath retry remaining result l)
    (hmax : retry + remaining = cache.config.getMaxRetries.toNat) (hne : remaining ≠ 0) :
    Effect.total Effect.seconds l + 2 ^ retry ≤ 2 ^ (cache.config.getMaxRetries.toNat - 1) := by
  have hpow : 2 ^ retry ≤ 2 ^ (cache.config.getMaxRetries.toNat - 1) :=
    Nat.pow_le_pow_right Nat.two_pos (by omega)
  induction h with
  | exhausted => exact absurd rfl hne
  | returned hattempt => rwa [hattempt.seconds_eq, Nat.zero_add]
  | abandoned hattempt => rwa [hattempt.seconds_eq, Nat.zero_add]
  | @again retry remaining _ _ _ l' hattempt _ hlast _ ih =>
    have hnext := ih (by omega) (by omega) (Nat.pow_le_pow_right Nat.two_pos (by omega))
    have hsleep : Effect.seconds (.sleepFor (1 <<< retry)) = 2 ^ retry := Nat.one_shiftLeft retry
    rw [Effect.total_append, Effect.total, hattempt.seconds_eq, hsleep]
    rw [Nat.pow_succ] at hnext
    omega

/-- **What is written was received**, with a 200 response. -/
theorem Fetch.received (h : cache.Fetch requestPath retry remaining result l) {path buffer : Bytes}
    (hmem : Effect.writeStream path buffer ∈ l) :
    ∃ request res, Effect.roundTrip request (.ok res) ∈ l ∧ res.result = 200
      ∧ buffer ∈ res.body := by
  have hattempt {r : Except Exn Bool} {l : List Effect} (h : cache.Attempt requestPath r l)
      (hmem : Effect.writeStream path buffer ∈ l) :
      ∃ request res, Effect.roundTrip request (.ok res) ∈ l ∧ res.result = 200
        ∧ buffer ∈ res.body := by
    cases h with
    | @written res hresult =>
      refine ⟨_, res, List.mem_append_left _ (List.mem_append_left _ List.mem_cons_self), hresult,
        ?_⟩
      simp only [List.mem_append, List.mem_cons, List.mem_map, reduceCtorEq, false_or,
        List.not_mem_nil, or_false, Effect.writeStream.injEq] at hmem
      obtain ⟨_, hin, -, rfl⟩ := hmem
      exact hin
    | _ => simp at hmem
  induction h with
  | exhausted => cases hmem
  | returned h => exact hattempt h hmem
  | abandoned h => exact hattempt h hmem
  | again h _ _ _ ih =>
    rcases List.mem_append.1 hmem with hmem | hmem
    · obtain ⟨request, res, hin, hres⟩ := hattempt h hmem
      exact ⟨request, res, List.mem_append_left _ hin, hres⟩
    · obtain ⟨request, res, hin, hres⟩ := ih ((List.mem_cons.1 hmem).resolve_left nofun)
      exact ⟨request, res, List.mem_append_right _ (List.mem_cons_of_mem _ hin), hres⟩

end Bounds

/-! ## Looking at the file -/

/-- Nothing is recorded but looks at the file on this path. -/
abbrev Looks (path : Bytes) {α : Type} (m' : Io (σ × List Effect) α) (m : Io σ α) : Prop :=
  Io.LogsOnly (· = .look path) m' m

/-- **The calls that look are recorded as looks.** -/
theorem looksAlike_recorded (path : Bytes) :
    System.LooksAlike (Io.loggingOnly (· = .look path)) sys.recorded sys path where
  fileExists := Io.logsOnly_recordedAs rfl
  isRegularFile := Io.logsOnly_recordedAs rfl
  fileSize := Io.logsOnly_recordedAs rfl
  lastWriteTime := Io.logsOnly_recordedAs rfl
  openFile := Io.logsOnly_recordedCall rfl
  seek _ _ := Io.logsOnly_silentCall
  readClocks := Io.logsOnly_silentCall
  time := rfl
  release := rfl

/-! ## The three operations -/

/-- What an operation does: looks at the file of its path, and up to `n` fetches. -/
def Serves (n : Nat) (l : List Effect) : Prop :=
  (∀ x ∈ l, x.On cache requestPath) ∧ ∃ fetches : List (List Effect), fetches.length ≤ n
    ∧ (∀ f ∈ fetches, ∃ result,
      cache.Fetch requestPath 0 cache.config.getMaxRetries.toNat result f)
    ∧ l.filter Effect.acts = fetches.flatten

section Serves

variable {cache requestPath} {n k : Nat} {l l' : List Effect}

theorem serves_of_looks (h : ∀ x ∈ l, x = .look (cache.getCachePath requestPath)) :
    cache.Serves requestPath 0 l := by
  refine ⟨fun x hx => ?_, [], Nat.le_refl 0, nofun, List.filter_eq_nil_iff.2 fun x hx => ?_⟩
  · rw [h x hx]
    rfl
  · rw [h x hx]
    exact Bool.false_ne_true

theorem Serves.mono (h : cache.Serves requestPath n l) (hle : n ≤ k) :
    cache.Serves requestPath k l := by
  obtain ⟨hon, fetches, hlength, hfetches, hfilter⟩ := h
  exact ⟨hon, fetches, hlength.trans hle, hfetches, hfilter⟩

theorem Serves.append (h : cache.Serves requestPath n l) (h' : cache.Serves requestPath k l') :
    cache.Serves requestPath (n + k) (l ++ l') := by
  obtain ⟨hon, fetches, hlength, hfetches, hfilter⟩ := h
  obtain ⟨hon', fetches', hlength', hfetches', hfilter'⟩ := h'
  refine ⟨List.forall_mem_append.2 ⟨hon, hon'⟩, fetches ++ fetches', ?_,
    List.forall_mem_append.2 ⟨hfetches, hfetches'⟩, ?_⟩
  · rw [List.length_append]
    exact Nat.add_le_add hlength hlength'
  · rw [List.filter_append, hfilter, hfilter', List.flatten_append]

theorem Attempt.acts {r : Except Exn Bool} (h : cache.Attempt requestPath r l) :
    ∀ x ∈ l, x.acts = true := by
  cases h with
  | written => simp +contextual [Effect.acts, or_imp]
  | _ => simp [Effect.acts]

theorem Fetch.acts {retry remaining : Nat} {result : Bool}
    (h : cache.Fetch requestPath retry remaining result l) : ∀ x ∈ l, x.acts = true := by
  induction h with
  | exhausted => exact nofun
  | returned hattempt => exact hattempt.acts
  | abandoned hattempt => exact hattempt.acts
  | again hattempt _ _ _ ih =>
    exact List.forall_mem_append.2 ⟨hattempt.acts, List.forall_mem_cons.2 ⟨rfl, ih⟩⟩

theorem Fetch.serves {result : Bool}
    (h : cache.Fetch requestPath 0 cache.config.getMaxRetries.toNat result l) :
    cache.Serves requestPath 1 l := by
  refine ⟨h.on, [l], Nat.le_refl 1, fun f hf => ?_, ?_⟩
  · rw [List.mem_singleton.1 hf]
    exact ⟨result, h⟩
  · rw [List.filter_eq_self.2 h.acts, List.flatten_singleton]

/-- What fetches cost, an operation costs for each of them. -/
theorem Serves.total_le (h : cache.Serves requestPath n l) {cost : Effect → Nat} {bound : Nat}
    (hlook : ∀ path, cost (.look path) = 0)
    (hfetch : ∀ result f, cache.Fetch requestPath 0 cache.config.getMaxRetries.toNat result f →
      Effect.total cost f ≤ bound) : Effect.total cost l ≤ n * bound := by
  obtain ⟨-, fetches, hlength, hfetches, hfilter⟩ := h
  rw [← Effect.total_filter_acts hlook, hfilter]
  refine (Effect.total_flatten_le fun f hf => ?_).trans (Nat.mul_le_mul_right bound hlength)
  obtain ⟨result, hf⟩ := hfetches f hf
  exact hfetch result f hf

/-- Each fetch contacts the upstream server as often as it has passes. -/
theorem Serves.contacts_le (h : cache.Serves requestPath n l) :
    Effect.total Effect.contacts l ≤ n * cache.config.getMaxRetries.toNat :=
  h.total_le (fun _ => rfl) fun _ _ hf => hf.contacts_le

/-- Each fetch sleeps less than doubling the last pause would take. -/
theorem Serves.seconds_le (h : cache.Serves requestPath n l) :
    Effect.total Effect.seconds l ≤ n * (2 ^ (cache.config.getMaxRetries.toNat - 1) - 1) := by
  refine h.total_le (fun _ => rfl) fun result f hf => ?_
  by_cases hzero : cache.config.getMaxRetries.toNat = 0
  · rw [hzero] at hf
    cases hf
    exact Nat.zero_le _
  · have := hf.seconds_add_le (Nat.zero_add _) hzero
    omega

theorem Serves.received (h : cache.Serves requestPath n l) {path buffer : Bytes}
    (hmem : Effect.writeStream path buffer ∈ l) :
    ∃ request res, Effect.roundTrip request (.ok res) ∈ l ∧ res.result = 200
      ∧ buffer ∈ res.body := by
  obtain ⟨-, fetches, -, hfetches, hfilter⟩ := h
  have hacts : Effect.writeStream path buffer ∈ l.filter Effect.acts :=
    List.mem_filter.2 ⟨hmem, rfl⟩
  rw [hfilter, List.mem_flatten] at hacts
  obtain ⟨f, hf, hin⟩ := hacts
  obtain ⟨result, hfetch⟩ := hfetches f hf
  obtain ⟨request, res, htrip, hres⟩ := hfetch.received hin
  have hall : Effect.roundTrip request (.ok res) ∈ l.filter Effect.acts := by
    rw [hfilter]
    exact List.mem_flatten.2 ⟨f, hf, htrip⟩
  exact ⟨request, res, (List.mem_filter.1 hall).1, hres⟩

end Serves

/-- `m'` does what `m` does, and records looks and up to `n` fetches. -/
abbrev Serving (n : Nat) {α : Type} (m' : Io (σ × List Effect) α) (m : Io σ α) : Prop :=
  Io.Logs m' m fun _ l => cache.Serves requestPath n l

section Serving

variable {sys cache requestPath} {α β : Type} {m' : Io (σ × List Effect) α} {m : Io σ α}

theorem serving_of_looks (h : Looks (cache.getCachePath requestPath) m' m) :
    cache.Serving requestPath 0 m' m :=
  h.mono fun _ _ => serves_of_looks

theorem serving_pure (a : α) : cache.Serving requestPath 0 (pure a) (pure a : Io σ α) :=
  serving_of_looks (Io.logsOnly_pure a)

theorem Serving.bind {n k : Nat} {f' : α → Io (σ × List Effect) β} {f : α → Io σ β}
    (hm : cache.Serving requestPath n m' m)
    (hf : ∀ a, cache.Serving requestPath k (f' a) (f a)) :
    cache.Serving requestPath (n + k) (m' >>= f') (m >>= f) :=
  Io.Logs.bind hm hf (fun _ _ h => h.mono (Nat.le_add_right n k)) fun _ _ _ _ h h' => h.append h'

/-- Looks do not count. -/
theorem Looks.bind {k : Nat} {f' : α → Io (σ × List Effect) β} {f : α → Io σ β}
    (hm : Looks (cache.getCachePath requestPath) m' m)
    (hf : ∀ a, cache.Serving requestPath k (f' a) (f a)) :
    cache.Serving requestPath k (m' >>= f') (m >>= f) := by
  have h := Serving.bind (serving_of_looks hm) hf
  rwa [Nat.zero_add] at h

end Serving

theorem serving_ensureCached : cache.Serving requestPath 1
    (cache.ensureCached sys.recorded requestPath) (cache.ensureCached sys requestPath) := by
  refine Looks.bind (cache.related_isCached (looksAlike_recorded sys _)) fun cached => ?_
  split_ifs
  · exact (serving_pure true).mono fun _ _ h => h.mono (Nat.zero_le 1)
  · refine (cache.logs_fetchFrom sys requestPath 0 _).mono fun _ l h => ?_
    obtain ⟨result, -, hfetch⟩ := h
    exact hfetch.serves

theorem serving_getOrFetch (httpVersion : Nat) : cache.Serving requestPath 1
    (cache.getOrFetch sys.recorded requestPath httpVersion)
    (cache.getOrFetch sys requestPath httpVersion) := by
  have h := looksAlike_recorded sys (cache.getCachePath requestPath)
  refine Serving.bind (n := 1) (k := 0) (cache.serving_ensureCached sys requestPath) fun ok => ?_
  split_ifs
  · refine Looks.bind (h.openFile) fun file => ?_
    cases file with
    | none => exact serving_pure none
    | some file =>
      exact Looks.bind (related_getLastModified h) fun _ =>
        Looks.bind (related_generateEtag h) fun _ => serving_pure _
  · exact serving_pure none

/-- The whole file may be fetched once more where the range is not valid. -/
theorem serving_getOrFetchWithRange (httpVersion : Nat) (rangeHeader : Bytes) :
    cache.Serving requestPath 2
      (cache.getOrFetchWithRange sys.recorded requestPath httpVersion rangeHeader)
      (cache.getOrFetchWithRange sys requestPath httpVersion rangeHeader) := by
  have h := looksAlike_recorded sys (cache.getCachePath requestPath)
  refine Serving.bind (n := 1) (k := 1) (cache.serving_ensureCached sys requestPath) fun ok => ?_
  split_ifs
  · refine Looks.bind (related_parseRangeHeader h rangeHeader) fun range => ?_
    split_ifs
    · exact cache.serving_getOrFetch sys requestPath httpVersion
    · refine Io.Logs.mono (Looks.bind (h.openFile) fun file => ?_)
        fun _ _ h => Serves.mono (n := 0) h (Nat.zero_le 1)
      cases file with
      | none => exact serving_pure none
      | some file =>
        refine Looks.bind (h.seek file range.start) fun file => ?_
        cases file <;> exact serving_pure _
  · exact (serving_pure none).mono fun _ _ h => h.mono (Nat.zero_le 1)

theorem serving_getOrFetchWithConditional (httpVersion : Nat)
    (ifModifiedSince ifNoneMatch : Bytes) : cache.Serving requestPath 1
      (cache.getOrFetchWithConditional sys.recorded requestPath httpVersion ifModifiedSince
        ifNoneMatch)
      (cache.getOrFetchWithConditional sys requestPath httpVersion ifModifiedSince
        ifNoneMatch) := by
  have h := looksAlike_recorded sys (cache.getCachePath requestPath)
  refine Serving.bind (n := 1) (k := 0) (cache.serving_ensureCached sys requestPath) fun ok => ?_
  split_ifs
  · refine Looks.bind (related_checkModifiedSince h ifModifiedSince) fun modified => ?_
    split_ifs
    · exact Looks.bind (related_getLastModified h) fun _ =>
        Looks.bind (related_generateEtag h) fun _ => serving_pure _
    · refine Looks.bind (related_etagToCompare h ifNoneMatch) fun etag => ?_
      split_ifs
      · exact Looks.bind (related_getLastModified h) fun _ => serving_pure _
      · refine Looks.bind (h.openFile) fun file => ?_
        cases file with
        | none => exact serving_pure _
        | some file =>
          exact Looks.bind (related_getLastModified h) fun _ =>
            Looks.bind (related_generateEtag h) fun _ => serving_pure _
  · exact serving_pure _

end FileCache

end PacPrism
