import PacPrism.Foundations.JsonNumbers
import PacPrism.Network.StoreAnswers

/-!
# Network/Timestamps — the timestamps of a store, as written and as stored

The timestamps decide which entry of a node is kept, and until when.  They are cast to 64 bits when
the body is decoded, and nothing checks their range: `keepsTimestamps_iff` says which bodies are
stored with the timestamps written in them.
-/

namespace PacPrism

/-- The keys of the two timestamps. -/
def timestampKeys : List Bytes := [lit "generation_timestamp", lit "expiry_timestamp"]

namespace Router

variable {σ : Type} (sys : System σ) {nlohmann : Nlohmann} (numbers : nlohmann.Numbers)
  (router : Router)

/-- **A store keeps the timestamps it is sent**: if it is answered 201, then the entry stored has
the timestamps written in the body, and a number that is no `std::int64_t` is answered 400 and
changes nothing. -/
structure KeepsTimestamps (s : Server σ) (request : Request) : Prop where
  read : ∀ r s', router.globalRouter sys nlohmann request s = .ok r s' → r.HasStatus .created →
    ∃ entry, (nlohmann.parse request.body >>= DhtEntry.fromJson nlohmann) = .ok entry
      ∧ s'.dht = s.dht.storeEntry entry
      ∧ (∃ l, numbers.written request.body (lit "generation_timestamp") = some l
          ∧ (entry.generationTimestamp.toInt : Rat) = l.value)
      ∧ ∃ l, numbers.written request.body (lit "expiry_timestamp") = some l
          ∧ (entry.expiryTimestamp.toInt : Rat) = l.value
  refused : ∀ key ∈ timestampKeys, ∀ l, numbers.written request.body key = some l → ¬ l.IsInt64 →
    ∃ r, router.globalRouter sys nlohmann request s = .ok r s ∧ r.HasStatus .badRequest

variable {sys router}

/-- A timestamp of an entry comes from a literal, and is the number written if that is exact. -/
theorem exists_literal {text key : Bytes} {j v : Json} {t : Int64}
    (hparse : nlohmann.parse text = .ok j) (hv : j.at key = .ok v)
    (ht : nlohmann.getInt64 v = .ok t) :
    ∃ l, numbers.written text key = some l ∧ ((t.toInt : Rat) = l.value ↔ numbers.Exact l) := by
  obtain ⟨l, hl⟩ := numbers.exists_written hparse hv ht
  obtain ⟨v', hparsed, hv'⟩ := numbers.at_of_written hparse hl
  obtain rfl := Except.ok.inj (hv.symm.trans hv')
  obtain ⟨t', ht', hexact⟩ := numbers.getInt64_parsed_iff hparsed
  obtain rfl := Except.ok.inj (ht.symm.trans ht')
  exact ⟨l, hl, hexact⟩

end Router

/-- **Which stores keep the timestamps they are sent**: those whose body is refused, and those whose
two timestamps are written as exact literals. -/
theorem keepsTimestamps_iff {σ : Type} (sys : System σ) {nlohmann : Nlohmann}
    (numbers : nlohmann.Numbers) (router : Router) (s : Server σ) {request : Request}
    (hstore : Router.IsStore request) :
    Router.KeepsTimestamps sys numbers router s request
      ↔ (∃ e, (nlohmann.parse request.body >>= DhtEntry.fromJson nlohmann) = .error e)
        ∨ ∀ key ∈ timestampKeys, ∃ l, numbers.written request.body key = some l
          ∧ numbers.Exact l := by
  cases hbody : nlohmann.parse request.body >>= DhtEntry.fromJson nlohmann with
  | error e =>
    obtain ⟨r, hrun, hgives⟩ := Router.globalRouter_store_refused sys router hstore hbody s
    refine iff_of_true ⟨fun r' s' hrun' hcreated => ?_, fun _ _ _ _ _ => ?_⟩ (.inl ⟨e, rfl⟩)
    · obtain ⟨rfl, -⟩ := EStateM.Result.ok.inj (hrun.symm.trans hrun')
      exact absurd (hcreated.unique hgives.hasStatus) (by decide)
    · exact ⟨r, hrun, hgives.hasStatus⟩
  | ok entry =>
    obtain ⟨j, hparse, hentry⟩ := Exn.bind_eq_ok hbody
    obtain ⟨⟨v, hv, ht⟩, v', hv', ht'⟩ := DhtEntry.timestamps_of_fromJson nlohmann hentry
    obtain ⟨l, hl, hexact⟩ := Router.exists_literal numbers hparse hv ht
    obtain ⟨l', hl', hexact'⟩ := Router.exists_literal numbers hparse hv' ht'
    obtain ⟨r, hrun, hgives⟩ := Router.globalRouter_store sys router hstore hbody s
    have hkeys : (∀ key ∈ timestampKeys, ∃ l, numbers.written request.body key = some l
        ∧ numbers.Exact l) ↔ numbers.Exact l ∧ numbers.Exact l' := by
      simp [timestampKeys, hl, hl']
    rw [hkeys, or_iff_right (by rintro ⟨e, h⟩; cases h), ← hexact, ← hexact']
    constructor
    · intro hkeeps
      obtain ⟨entry', hbody', -, ⟨k, hk, hread⟩, k', hk', hread'⟩ :=
        hkeeps.read r _ hrun hgives.hasStatus
      obtain rfl := Except.ok.inj (hbody.symm.trans hbody')
      obtain rfl := Option.some.inj (hl.symm.trans hk)
      obtain rfl := Option.some.inj (hl'.symm.trans hk')
      exact ⟨hread, hread'⟩
    · rintro ⟨hread, hread'⟩
      refine ⟨fun r' s' hrun' _ => ?_, fun key hkey k hk hno => ?_⟩
      · obtain ⟨-, rfl⟩ := EStateM.Result.ok.inj (hrun.symm.trans hrun')
        exact ⟨entry, hbody, rfl, ⟨l, hl, hread⟩, l', hl', hread'⟩
      · have hall := hkeys.2 ⟨hexact.1 hread, hexact'.1 hread'⟩
        obtain ⟨k', hk', hk'exact⟩ := hall key hkey
        obtain rfl := Option.some.inj (hk.symm.trans hk')
        exact absurd hk'exact.isInt64 hno

/-! ## The largest timestamp, and the next number -/

theorem signed_sampleBody (generation : String) (n : UInt64) :
    ∀ d ∈ [sampleBody "a" "10.0.0.1" generation (.numberUnsigned n)], ∀ key i,
      d.2.at key = .ok (.numberInteger i) → i.toInt ≤ 0 := by
  intro d hd key i h
  obtain rfl := List.mem_singleton.1 hd
  rw [sampleBody, Json.at] at h
  split at h
  · next m hm =>
    have hmem := List.mem_of_find?_eq_some hm
    have hvalue := Except.ok.inj h
    simp only [List.mem_cons, List.not_mem_nil, or_false] at hmem
    rcases hmem with rfl | rfl | rfl | rfl | rfl | rfl <;> cases hvalue
  · cases h

/-- The largest timestamp is stored. -/
theorem keepsTimestamps_largest :
    let largest : Json := .numberUnsigned 9223372036854775807
    let body := sampleBody "a" "10.0.0.1" "9223372036854775807" largest
    let router : Router := ⟨⟨{}, lit "./cache", lit "ftp.debian.org"⟩, lit "0.1.0"⟩
    Router.KeepsTimestamps (Disk.system (.tree []) (.offline .current))
      (Nlohmann.numbersOfDocuments [body] (by decide) samplePrint (signed_sampleBody _ _)) router
      ⟨∅, .empty []⟩ (sampleStore body.1) := by
  intro largest body router
  refine (keepsTimestamps_iff _ _ _ _ (isStore_sampleStore body.1)).2 (.inr fun key hkey => ?_)
  have hcases : key = lit "generation_timestamp" ∨ key = lit "expiry_timestamp" := by
    simpa [timestampKeys] using hkey
  rcases hcases with rfl | rfl
  · exact ⟨.integer false 9223372036854775807, rfl, 9223372036854775807, rfl⟩
  · exact ⟨.integer false 20, rfl, 20, rfl⟩

/-- The next number is stored too, as the least timestamp. -/
theorem not_keepsTimestamps :
    ¬ ∀ (sys : System TreeDisk) (nlohmann : Nlohmann) (numbers : nlohmann.Numbers)
      (router : Router) (s : Server TreeDisk) (request : Request),
      Router.IsStore request → Router.KeepsTimestamps sys numbers router s request := by
  intro hall
  let body := sampleBody "a" "10.0.0.1" "9223372036854775808" (.numberUnsigned 9223372036854775808)
  let nlohmann : Nlohmann := .withDocuments [body] (by decide) samplePrint
  let numbers : nlohmann.Numbers :=
    Nlohmann.numbersOfDocuments [body] (by decide) samplePrint (signed_sampleBody _ _)
  let router : Router := ⟨⟨{}, lit "./cache", lit "ftp.debian.org"⟩, lit "0.1.0"⟩
  let sys := Disk.system (.tree []) (.offline .current)
  have hstore := isStore_sampleStore body.1
  have hbody : (nlohmann.parse body.1 >>= DhtEntry.fromJson nlohmann)
      = .ok ⟨lit "a", lit "10.0.0.1", ∅, (9223372036854775808 : UInt64).toInt64, 20, []⟩ :=
    decode_sampleBody rfl
  obtain ⟨r, hrun, hgives⟩ := Router.globalRouter_store sys router hstore hbody ⟨∅, .empty []⟩
  have hlarge : ¬ (NumberLiteral.integer false 9223372036854775808).IsInt64 := by
    rintro ⟨t, ht⟩
    have heq : t.toInt = 9223372036854775808 := Int.cast_injective ht
    have hlt := t.toInt_lt
    omega
  obtain ⟨r', hrun', hrefused⟩ := (hall sys nlohmann numbers router ⟨∅, .empty []⟩ _ hstore).refused
    (lit "generation_timestamp") (by decide) _ rfl hlarge
  obtain ⟨rfl, -⟩ := EStateM.Result.ok.inj (hrun.symm.trans hrun')
  exact absurd (hgives.hasStatus.unique hrefused) (by decide)

end PacPrism
