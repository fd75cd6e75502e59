import PacPrism.Console.Fetching

/-!
# Console/Retries — which failures a fetch tries again after

An attempt succeeds, is refused, or fails for a reason that may pass: a transport error, or an error
of the server.  The loop throws on the latter to try again, but the `catch` clause that goes on to
the next pass is the one for transport errors, so it gives up instead.
-/

namespace PacPrism

/-- How an attempt to fetch a file ends. -/
inductive AttemptOutcome where
  | transportError
  | ok
  | clientError
  | serverError
  deriving DecidableEq

namespace AttemptOutcome

/-- Another attempt is worth making. -/
def Retryable (o : AttemptOutcome) : Prop := o = .transportError ∨ o = .serverError

/-- The outcome a round trip leads to, if it is one of the four. -/
def ofRoundTrip : Except Exn UpstreamResponse → Option AttemptOutcome
  | .error e => if e.kind = .beastSystemError then some .transportError else none
  | .ok res =>
    if res.result = 200 then some .ok
    else if 400 ≤ res.result ∧ res.result < 500 then some .clientError
    else if 500 ≤ res.result ∧ res.result < 600 then some .serverError
    else none

theorem eq_transportError_iff {r : Except Exn UpstreamResponse} {o : AttemptOutcome}
    (h : ofRoundTrip r = some o) :
    o = .transportError ↔ ∃ e, r = .error e ∧ e.kind = .beastSystemError := by
  cases r with
  | error e =>
    rw [ofRoundTrip] at h
    split_ifs at h with hkind
    obtain rfl := Option.some.inj h
    exact iff_of_true rfl ⟨e, rfl, hkind⟩
  | ok res =>
    rw [ofRoundTrip] at h
    refine iff_of_false ?_ nofun
    rintro rfl
    split_ifs at h <;> cases h

theorem exists_ok_of_ne {r : Except Exn UpstreamResponse} {o : AttemptOutcome}
    (h : ofRoundTrip r = some o) (hne : o ≠ .transportError) :
    ∃ res, r = .ok res ∧ (res.result = 200 ↔ o = .ok) := by
  cases r with
  | error e =>
    rw [ofRoundTrip] at h
    split_ifs at h
    exact absurd (Option.some.inj h).symm hne
  | ok res =>
    rw [ofRoundTrip] at h
    refine ⟨res, rfl, ?_⟩
    split_ifs at h with h200
    · exact iff_of_true h200 (Option.some.inj h).symm
    · exact iff_of_false h200 (by rw [← Option.some.inj h]; nofun)
    · exact iff_of_false h200 (by rw [← Option.some.inj h]; nofun)

end AttemptOutcome

/-! ## The law, and what the loop does -/

/-- **The law of retrying** for a loop that has made `attempts` of `maxRetries` attempts: it
succeeds exactly if a success comes after failures to be retried only, it goes on after nothing
else, and stops early for nothing else. -/
structure RetriesRight (outcome : Nat → AttemptOutcome) (maxRetries : Nat) (returned : Bool)
    (attempts : Nat) : Prop where
  returned_iff : returned = true
    ↔ ∃ i < maxRetries, outcome i = .ok ∧ ∀ j < i, (outcome j).Retryable
  attempts_le : attempts ≤ maxRetries
  goes_on : ∀ i, i + 1 < attempts → (outcome i).Retryable
  stops : attempts < maxRetries → ∃ i, attempts = i + 1 ∧ ¬ (outcome i).Retryable

/-- What the loop does: it ends with the first attempt that does not end in a transport error, or
without one. -/
inductive LoopEnds (outcome : Nat → AttemptOutcome) (maxRetries : Nat) : Bool → Nat → Prop
  | exhausted (hall : ∀ i < maxRetries, outcome i = .transportError) :
    LoopEnds outcome maxRetries false maxRetries
  | stopped {i : Nat} (hi : i < maxRetries) (hbefore : ∀ j < i, outcome j = .transportError)
    (hlast : outcome i ≠ .transportError) :
    LoopEnds outcome maxRetries (decide (outcome i = .ok)) (i + 1)

section Law

variable {outcome : Nat → AttemptOutcome} {maxRetries attempts : Nat} {returned : Bool}

/-- Success is a matter of the first attempt that does not end in a transport error, unless that is
a server error with attempts left. -/
theorem retriesRight_of_ends (h : LoopEnds outcome maxRetries returned attempts)
    (hserver : ∀ i, i + 1 < maxRetries → outcome i = .serverError →
      ∃ j < i, outcome j ≠ .transportError) :
    RetriesRight outcome maxRetries returned attempts := by
  cases h with
  | exhausted hall =>
    refine ⟨iff_of_false nofun fun ⟨i, hi, hok, _⟩ => ?_, le_rfl, fun i hi => ?_,
      fun h => absurd h (lt_irrefl _)⟩
    · cases (hall i hi).symm.trans hok
    · exact .inl (hall i (by omega))
  | @stopped i hi hbefore hlast =>
    have hgoes : ∀ j < i, (outcome j).Retryable := fun j hj => .inl (hbefore j hj)
    refine ⟨?_, hi, fun j hj => hgoes j (by omega), fun hearly => ⟨i, rfl, ?_⟩⟩
    · rw [decide_eq_true_eq]
      refine ⟨fun hok => ⟨i, hi, hok, hgoes⟩, fun ⟨k, hk, hok, hretryable⟩ => ?_⟩
      obtain hlt | rfl | hgt := lt_trichotomy k i
      · cases (hbefore k hlt).symm.trans hok
      · exact hok
      · -- What comes after the attempt that ends the loop would need it to be a server error.
        obtain hs := (hretryable i hgt).resolve_left hlast
        obtain ⟨j, hj, hne⟩ := hserver i (by omega) hs
        exact absurd (hbefore j hj) hne
    · rintro (htransport | hs)
      · exact hlast htransport
      · obtain ⟨j, hj, hne⟩ := hserver i hearly hs
        exact hne (hbefore j hj)

/-- A server error with attempts left ends the loop. -/
theorem not_retriesRight_of_ends (h : LoopEnds outcome maxRetries returned attempts) {i : Nat}
    (hi : i + 1 < maxRetries) (hs : outcome i = .serverError)
    (hbefore : ∀ j < i, outcome j = .transportError) :
    ¬ RetriesRight outcome maxRetries returned attempts := by
  intro hright
  cases h with
  | exhausted hall => cases (hall i (by omega)).symm.trans hs
  | @stopped k hk hbefore' hlast =>
    have hki : k = i := by
      obtain hlt | heq | hgt := lt_trichotomy k i
      · exact absurd (hbefore k hlt) hlast
      · exact heq
      · cases (hbefore' i hgt).symm.trans hs
    obtain rfl := hki
    obtain ⟨j, hj, hfinal⟩ := hright.stops hi
    obtain rfl : k = j := by omega
    exact hfinal (.inr hs)

theorem retriesRight_iff_of_ends (h : LoopEnds outcome maxRetries returned attempts) :
    RetriesRight outcome maxRetries returned attempts
      ↔ ∀ i, i + 1 < maxRetries → outcome i = .serverError →
        ∃ j < i, outcome j ≠ .transportError := by
  refine ⟨fun hright i hi hs => ?_, retriesRight_of_ends h⟩
  by_contra hbefore
  push Not at hbefore
  exact not_retriesRight_of_ends h hi hs hbefore hright

end Law

/-! ## The loop on a disk -/

namespace Disk

variable {δ κ : Type} [DecidableEq κ] {volume : Volume δ κ} {script : Script} (cache : FileCache)
  (path : Bytes)

variable (script) in
theorem roundTrips_foldl_writeStream (p : Bytes) (body : List Bytes) (d : Disk volume) :
    (body.foldl (fun d buffer => writeStream script p buffer d) d).roundTrips
      = d.roundTrips := by
  induction body generalizing d with
  | nil => rfl
  | cons buffer body ih =>
    rw [List.foldl_cons, ih, writeStream]
    split_ifs
    · rfl
    · cases script.write d.writes <;> exact roundTrips_edit _ _ d

variable (script) in
/-- **An attempt makes one round trip.** -/
theorem roundTrips_fetchAttempt (d : Disk volume) :
    (Io.finalState (cache.fetchAttempt (system volume script) path d)).roundTrips
      = d.roundTrips + 1 := by
  rw [FileCache.fetchAttempt, Io.finalState_bind Disk.roundTrips]
  · change (Io.finalState (exchange script d)).roundTrips = _
    rw [exchange]
    cases script.roundTrip d.roundTrips <;> rfl
  intro res n
  split_ifs
  · exact Io.keeps_pure _ _
  · exact fun d hd => hd
  have hdirs : Io.Keeps (fun d => d.roundTrips = n)
      ((system volume script).createDirectories (Path.parentPath (cache.getCachePath path))) := by
    intro d hd
    dsimp only [system, createDirectories]
    cases script.createDirectories <;> exact hd
  refine Io.Keeps.bind hdirs fun _ =>
    Io.Keeps.bind (Io.keeps_noexcept fun d hd => ?_) fun opened => ?_
  · change (openStream script _ d).2.roundTrips = n
    rw [openStream]
    split_ifs
    exacts [(roundTrips_edit _ _ d).trans hd, hd]
  split_ifs
  · refine Io.Keeps.bind (Io.keeps_modify fun d hd => ?_) fun _ =>
      Io.Keeps.bind (Io.keeps_modify fun d hd => ?_) fun _ => Io.keeps_pure _ _
    · exact (roundTrips_foldl_writeStream script _ _ d).trans hd
    · change (closeStream script _ d).roundTrips = n
      rw [closeStream]
      cases script.close
      exacts [hd, (roundTrips_edit _ _ d).trans hd]
  · exact Io.keeps_pure _ _

variable {outcome : Nat → AttemptOutcome}

/-- An attempt that does not end in a transport error ends the loop, with success if it has
succeeded. -/
theorem fetchFrom_of_ne {d : Disk volume} (remaining : Nat)
    (houtcome : AttemptOutcome.ofRoundTrip (script.roundTrip d.roundTrips)
      = some (outcome d.roundTrips))
    (hdir : script.createDirectories = none) (hopen : script.openStream = true)
    (hne : outcome d.roundTrips ≠ .transportError) :
    ∃ d', cache.fetchFrom (system volume script) path d.roundTrips (remaining + 1) d
        = .ok (decide (outcome d.roundTrips = .ok)) d'
      ∧ d'.roundTrips = d.roundTrips + 1 := by
  obtain ⟨res, hres, hresult⟩ := AttemptOutcome.exists_ok_of_ne houtcome hne
  have htrips := roundTrips_fetchAttempt script cache path d
  by_cases hok : outcome d.roundTrips = .ok
  · obtain ⟨k, hk⟩ := volume.exists_locate d.directories (cache.getCachePath path)
    obtain ⟨d', hattempt, -⟩ :=
      fetchAttempt_of_ok cache path hres (hresult.2 hok) hdir hopen hk
    rw [hattempt] at htrips
    rw [decide_eq_true hok]
    exact ⟨d', FileCache.fetchFrom_of_ok hattempt, htrips⟩
  · rw [decide_eq_false hok]
    obtain ⟨-, -, ⟨d', hattempt⟩ | ⟨e, d', hattempt, hkind⟩⟩ :=
      givesUp_fetchAttempt cache path hres fun h => hok (hresult.1 h.1)
    · rw [hattempt] at htrips
      exact ⟨d', FileCache.fetchFrom_of_ok hattempt, htrips⟩
    · rw [hattempt] at htrips
      exact ⟨d', FileCache.fetchFrom_of_error hattempt hkind, htrips⟩

/-- The loop from a pass on, all passes before it having ended in transport errors. -/
theorem ends_fetchFrom
    (houtcome : ∀ i, AttemptOutcome.ofRoundTrip (script.roundTrip i) = some (outcome i))
    (hdir : script.createDirectories = none) (hopen : script.openStream = true) {remaining : Nat} :
    ∀ {d : Disk volume}, d.roundTrips + remaining = cache.config.getMaxRetries.toNat →
      (∀ j < d.roundTrips, outcome j = .transportError) →
      ∃ returned d', cache.fetchFrom (system volume script) path d.roundTrips remaining d
          = .ok returned d'
        ∧ LoopEnds outcome cache.config.getMaxRetries.toNat returned d'.roundTrips := by
  induction remaining with
  | zero =>
    intro d hmax hbefore
    rw [Nat.add_zero] at hmax
    refine ⟨false, d, rfl, ?_⟩
    rw [hmax] at hbefore ⊢
    exact .exhausted hbefore
  | succ remaining ih =>
    intro d hmax hbefore
    by_cases htransport : outcome d.roundTrips = .transportError
    case neg =>
      obtain ⟨d', hrun, htrips⟩ := fetchFrom_of_ne cache path remaining (houtcome _)
        hdir hopen htransport
      refine ⟨_, d', hrun, ?_⟩
      rw [htrips]
      exact .stopped (by omega) hbefore htransport
    case pos =>
      obtain ⟨e, htrip, hkind⟩ :=
        (AttemptOutcome.eq_transportError_iff (houtcome d.roundTrips)).1 htransport
      have hall : ∀ j < d.roundTrips + 1, outcome j = .transportError := fun j hj => by
        obtain hlt | rfl := Nat.lt_succ_iff_lt_or_eq.1 hj
        exacts [hbefore j hlt, htransport]
      rw [fetchFrom_of_transportError cache path htrip hkind hmax]
      exact ih (d := { d with roundTrips := d.roundTrips + 1 }) (by dsimp only; omega) hall

end Disk

/-- **Which failures a fetch tries again after**: it keeps the law of retrying exactly if no server
error, with attempts left, is the first outcome that is not a transport error. -/
theorem fetchFromUpstream_retries_iff {δ κ : Type} [DecidableEq κ] (volume : Volume δ κ)
    (cache : FileCache) (script : Script) (path : Bytes) (d : Disk volume)
    (outcome : Nat → AttemptOutcome)
    (houtcome : ∀ i, AttemptOutcome.ofRoundTrip (script.roundTrip i) = some (outcome i))
    (hdir : script.createDirectories = none) (hopen : script.openStream = true) :
    (∃ returned d', cache.fetchFromUpstream (Disk.system volume script) path d.next
          = .ok returned d'
        ∧ RetriesRight outcome cache.config.getMaxRetries.toNat returned d'.roundTrips)
      ↔ ∀ i, i + 1 < cache.config.getMaxRetries.toNat → outcome i = .serverError →
        ∃ j < i, outcome j ≠ .transportError := by
  obtain ⟨returned, d', hrun, hends⟩ := Disk.ends_fetchFrom cache path houtcome hdir
    hopen (d := d.next) (Nat.zero_add _) fun j hj => nomatch hj
  rw [← retriesRight_iff_of_ends hends]
  constructor
  · rintro ⟨returned', d'', hrun', hright⟩
    cases hrun.symm.trans hrun'
    exact hright
  · exact fun hright => ⟨returned, d', hrun, hright⟩

/-- Upstream cannot be reached at first and then sends the file: it is fetched with the second
attempt. -/
theorem fetchFromUpstream_retries :
    ∃ returned d', (⟨{}, lit "./cache", lit "ftp.debian.org"⟩ : FileCache).fetchFromUpstream
        (Disk.system (.tree []) { Script.offline .current with
          roundTrip := fun i => if i = 0 then .error ⟨.beastSystemError, lit "Connection refused"⟩
            else .ok ⟨200, [lit "data"]⟩ })
        (lit "/f") (Disk.empty []).next = .ok returned d'
      ∧ RetriesRight (fun i => if i = 0 then .transportError else .ok)
        ({} : Config).getMaxRetries.toNat returned d'.roundTrips :=
  (fetchFromUpstream_retries_iff (.tree []) ⟨{}, lit "./cache", lit "ftp.debian.org"⟩ _ (lit "/f")
    (.empty []) _ (fun i => by cases i <;> rfl) rfl rfl).2 fun i _ hs => by cases i <;> cases hs

/-- Upstream answers 503 at first and would then send the file: there is no second attempt. -/
theorem fetchFromUpstream_gives_up :
    ¬ ∀ (cache : FileCache) (script : Script) (path : Bytes)
      (d : TreeDisk) (outcome : Nat → AttemptOutcome),
      (∀ i, AttemptOutcome.ofRoundTrip (script.roundTrip i) = some (outcome i)) →
      script.createDirectories = none → script.openStream = true →
      ∃ returned d', cache.fetchFromUpstream (Disk.system (.tree []) script) path d.next
          = .ok returned d'
        ∧ RetriesRight outcome cache.config.getMaxRetries.toNat returned d'.roundTrips := by
  intro hall
  let cache : FileCache := ⟨{}, lit "./cache", lit "ftp.debian.org"⟩
  let script : Script := { Script.offline .current with
    roundTrip := fun i => if i = 0 then .ok ⟨503, []⟩ else .ok ⟨200, [lit "data"]⟩ }
  let outcome (i : Nat) : AttemptOutcome := if i = 0 then .serverError else .ok
  have houtcome : ∀ i, AttemptOutcome.ofRoundTrip (script.roundTrip i) = some (outcome i) :=
    fun i => by cases i <;> rfl
  obtain ⟨returned, d', hrun, hright⟩ := hall cache script (lit "/f") (.empty [])
    outcome houtcome rfl rfl
  obtain ⟨returned', d'', hrun', hends⟩ := Disk.ends_fetchFrom cache (lit "/f") houtcome rfl rfl
    (d := (Disk.empty [] : TreeDisk).next) (Nat.zero_add _) fun j hj => nomatch hj
  cases hrun.symm.trans hrun'
  exact not_retriesRight_of_ends (i := 0) hends (by decide) rfl (fun j hj => nomatch hj) hright

end PacPrism
