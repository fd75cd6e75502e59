import PacPrism.Foundations.Search
import PacPrism.Network.Lookups

/-!
# Network/Parameters — query strings made of parameters

    name=value&name=value&…&name=value

The routers look for the text `key=` in the whole query string.  The search stays inside one
parameter, since `&` is not in the text, so what is used is read off the *first parameter that shows
the text*, be it as its name, at the end of its name or inside its value
(`queryValue_queryText_cons`).  A file named by the parameter alone is the one named by the path.
-/

namespace PacPrism

/-- The separator of parameters. -/
def ampersand : UInt8 := 0x26

/-- What ends the name of a parameter. -/
def equals : UInt8 := 0x3d

/-- A parameter of a query string. -/
structure Parameter where
  name : Bytes
  value : Bytes
  name_equals : equals ∉ name
  name_ampersand : ampersand ∉ name
  value_ampersand : ampersand ∉ value

/-- The text searched for a parameter of this name. -/
def keyText (key : Bytes) : Bytes := key ++ [equals]

namespace Parameter

/-- `name=value`. -/
def text (p : Parameter) : Bytes := p.name ++ equals :: p.value

theorem ampersand_notMem_text (p : Parameter) : ampersand ∉ p.text := by
  simp only [text, List.mem_append, List.mem_cons, not_or]
  exact ⟨p.name_ampersand, by decide, p.value_ampersand⟩

/-- The parameter reads `key=v` from its first `key=` on. -/
def Shows (p : Parameter) (key v : Bytes) : Prop :=
  ∃ i, Bytes.search (keyText key) p.text = some i ∧ p.text.drop (i + (keyText key).length) = v

end Parameter

/-- The parameters, separated. -/
def queryText (params : List Parameter) : Bytes :=
  [ampersand].intercalate (params.map Parameter.text)

/-- The value of the first parameter whose name is the key; empty if there is none. -/
def valueOf (key : Bytes) : List Parameter → Bytes
  | [] => []
  | p :: params => if p.name = key then p.value else valueOf key params

/-- **No parameter stands in for another**: before the first parameter whose name is the key, none
shows the text `key=`, or the first that does reads on with the very value. -/
def Undisguised (key : Bytes) : List Parameter → Prop
  | [] => True
  | p :: params => p.name = key ∨ p.Shows key (valueOf key params)
      ∨ ¬ keyText key <:+: p.text ∧ Undisguised key params

/-! ## The search, parameter by parameter -/

/-- **The value used** is what stands between the first occurrence of the key and the next `&`. -/
theorem queryValue_eq (key queryString : Bytes) : queryValue key queryString
    = match Bytes.search key queryString with
      | none => []
      | some i => (queryString.drop (i + key.length)).takeWhile (· ≠ ampersand) := by
  rw [queryValue, ← Bytes.map_val_find]
  cases Bytes.find queryString key with
  | none => rfl
  | some keyPos =>
    have hstop := Bytes.findFrom_eq keyPos.2.2 (lit "&")
    rw [Option.map_some]
    dsimp only
    rw [Bytes.takeWhile_ne, show [ampersand] = lit "&" from rfl]
    rw [Bytes.findFrom] at hstop
    cases hfind : Bytes.find queryString (lit "&") (keyPos + key.length) with
    | none =>
      rw [hfind, Option.map_none, eq_comm, Option.map_eq_none_iff] at hstop
      rw [hstop]
      exact List.take_of_length_le (by simp)
    | some stop =>
      rw [hfind, Option.map_some, eq_comm, Option.map_eq_some_iff] at hstop
      obtain ⟨j, hj, hstop⟩ := hstop
      rw [hj, Option.map_some, Option.getD_some]
      dsimp only
      rw [Bytes.substr, ← hstop, Nat.add_sub_cancel_left]

/-- Nothing of a text without `&` is cut off. -/
theorem takeWhile_drop_append {a : Bytes} (ha : ampersand ∉ a) (n : Nat) (c : Bytes) :
    (a.drop n ++ c).takeWhile (· ≠ ampersand) = a.drop n ++ c.takeWhile (· ≠ ampersand) :=
  List.takeWhile_append_of_pos fun b hb => by
    simpa using fun heq : b = ampersand => ha (heq ▸ List.mem_of_mem_drop hb)

theorem queryValue_nil {key : Bytes} (hkey : key ≠ []) : queryValue key [] = [] := by
  rw [queryValue_eq, Bytes.search, if_neg hkey]

theorem queryValue_of_notMem (key : Bytes) {a : Bytes} (ha : ampersand ∉ a) : queryValue key a
    = ((Bytes.search key a).map fun i => a.drop (i + key.length)).getD [] := by
  rw [queryValue_eq]
  cases Bytes.search key a with
  | none => rfl
  | some i => simpa using takeWhile_drop_append ha (i + key.length) []

/-- The search passes over a text without `&` only if that does not show the key. -/
theorem queryValue_append {key : Bytes} (hkey : key ≠ []) (hamp : ampersand ∉ key) {a : Bytes}
    (ha : ampersand ∉ a) (c : Bytes) : queryValue key (a ++ ampersand :: c)
      = ((Bytes.search key a).map fun i => a.drop (i + key.length)).getD (queryValue key c) := by
  rw [queryValue_eq, queryValue_eq, Bytes.search_append_cons_of_notMem hkey hamp]
  cases hsearch : Bytes.search key a with
  | some i =>
    have hle := Bytes.search_add_length_le hsearch
    simp only [Option.some_or, Option.map_some, Option.getD_some]
    rw [List.drop_append_of_le_length hle, takeWhile_drop_append ha,
      List.takeWhile_cons_of_neg (by simp), List.append_nil]
  | none =>
    cases Bytes.search key c with
    | none => rfl
    | some j =>
      have hdrop : (a ++ ampersand :: c).drop (a.length + 1 + j + key.length)
          = c.drop (j + key.length) := by
        rw [List.drop_append, List.drop_of_length_le (by omega), List.nil_append,
          show a.length + 1 + j + key.length - a.length = j + key.length + 1 by omega,
          List.drop_succ_cons]
      simp only [Option.none_or, Option.map_some, Option.map_none, Option.getD_none]
      rw [hdrop]

/-! ## Query strings of parameters -/

theorem ampersand_notMem_keyText {key : Bytes} (h : ampersand ∉ key) : ampersand ∉ keyText key := by
  rw [keyText, List.mem_append, not_or]
  exact ⟨h, by decide⟩

/-- **What is used of a query string, parameter by parameter**: the first that shows the key
decides. -/
theorem queryValue_queryText_cons {key : Bytes} (hkey : ampersand ∉ key) (p : Parameter)
    (params : List Parameter) : queryValue (keyText key) (queryText (p :: params))
      = ((Bytes.search (keyText key) p.text).map fun i =>
          p.text.drop (i + (keyText key).length)).getD
            (queryValue (keyText key) (queryText params)) := by
  have hne : keyText key ≠ [] := by simp [keyText]
  cases params with
  | nil =>
    have hlast : queryText [p] = p.text := by simp [queryText]
    rw [hlast, queryValue_of_notMem _ p.ampersand_notMem_text,
      show queryText [] = [] from rfl, queryValue_nil hne]
  | cons q params =>
    have hcons : queryText (p :: q :: params) = p.text ++ ampersand :: queryText (q :: params) := by
      simp [queryText]
    rw [hcons, queryValue_append hne (ampersand_notMem_keyText hkey) p.ampersand_notMem_text]

/-- A parameter whose name is the key shows it at the front of its text. -/
theorem Parameter.search_text_of_name_eq {p : Parameter} {key : Bytes} (h : p.name = key) :
    Bytes.search (keyText key) p.text = some 0
      ∧ p.text.drop (0 + (keyText key).length) = p.value := by
  have htext : p.text = keyText key ++ p.value := by simp [Parameter.text, keyText, h]
  rw [htext, Nat.zero_add, List.drop_left]
  refine ⟨(Bytes.search_eq_some_iff (by simp [keyText])).2 ⟨?_, by simp⟩, rfl⟩
  exact List.prefix_append _ _

/-- **Which query strings are read by name**: those in which no parameter stands in for another. -/
theorem queryValue_eq_valueOf_iff {key : Bytes} (hkey : ampersand ∉ key)
    (params : List Parameter) :
    queryValue (keyText key) (queryText params) = valueOf key params ↔ Undisguised key params := by
  induction params with
  | nil => exact iff_of_true (queryValue_nil (by simp [keyText])) trivial
  | cons p params ih =>
    rw [queryValue_queryText_cons hkey, valueOf, Undisguised, Parameter.Shows]
    by_cases hname : p.name = key
    · obtain ⟨hsearch, hvalue⟩ := Parameter.search_text_of_name_eq hname
      rw [hsearch, if_pos hname, Option.map_some, Option.getD_some, hvalue]
      exact iff_of_true rfl (.inl hname)
    · rw [if_neg hname, or_iff_right hname]
      cases hsearch : Bytes.search (keyText key) p.text with
      | none =>
        have hnot : ¬ keyText key <:+: p.text :=
          (Bytes.search_eq_none_iff_absent (by simp [keyText])).1 hsearch
        simp [hnot, ih]
      | some i =>
        have hoccurs : keyText key <:+: p.text := Bytes.infix_of_search (by simp [keyText]) hsearch
        simp [hoccurs]

/-! ## The two parameters of the routers -/

/-- **Which requests select their parameter by name**, the shard of a `query` and the file of a
plain request: those whose query string has no parameter that stands in for another. -/
theorem parameters_by_name_iff (params : List Parameter) :
    (∃ path, apiPath (lit "/api/dht/query?" ++ queryText params) = some path
      ∧ operationOf path = (lit "query", queryText params)
      ∧ (shardParameter (operationOf path).2 = valueOf (lit "shard_id") params
        ↔ Undisguised (lit "shard_id") params))
    ∧ ∀ path, 0x3f ∉ path →
      (targetParameter (path ++ lit "?" ++ queryText params) = valueOf (lit "target") params
        ↔ Undisguised (lit "target") params) := by
  constructor
  · refine ⟨lit "query?" ++ queryText params, ?_, operationOf_query _, ?_⟩
    · rw [← apiPath_append]
      rfl
    · rw [operationOf_query]
      exact queryValue_eq_valueOf_iff (show ampersand ∉ lit "shard_id" by decide) params
  · intro path hpath
    obtain ⟨p, hp, -, -, hafter⟩ := Bytes.exists_find_append (path ++ lit "?") (lit "?") path.length
      (by decide) (Bytes.search_append_cons hpath []) (by simp [lit]) (queryText params)
    rw [targetParameter, hp]
    dsimp only
    rw [hafter]
    exact queryValue_eq_valueOf_iff (show ampersand ∉ lit "target" by decide) params

/-- A parameter written with literals. -/
def Parameter.ofLiterals (name value : String)
    (h : equals ∉ lit name ∧ ampersand ∉ lit name ∧ ampersand ∉ lit value) : Parameter :=
  ⟨lit name, lit value, h.1, h.2.1, h.2.2⟩

/-- The parameter is found behind another one, whose value is the key. -/
theorem parameters_by_name_second :
    let params : List Parameter := [.ofLiterals "arch" "target" (by decide),
      .ofLiterals "target" "/f" (by decide), .ofLiterals "target" "/g" (by decide)]
    targetParameter (lit "/" ++ lit "?" ++ queryText params) = lit "/f" := by
  intro params
  have hundisguised : Undisguised (lit "target") params :=
    .inr (.inr ⟨by decide, .inl rfl⟩)
  exact ((parameters_by_name_iff params).2 (lit "/") (by decide)).2 hundisguised

/-- Parameters whose names end in the key hide the ones called so. -/
theorem parameters_by_name_fails : ¬ ∀ params : List Parameter,
    shardParameter (queryText params) = valueOf (lit "shard_id") params
      ∧ ∀ path, 0x3f ∉ path →
        targetParameter (path ++ lit "?" ++ queryText params) = valueOf (lit "target") params := by
  intro hall
  have hshard := (hall [.ofLiterals "old_shard_id" "1" (by decide),
    .ofLiterals "shard_id" "2" (by decide)]).1
  exact absurd hshard (by decide)

/-! ## The parameter and the path -/

section

variable {σ : Type} (sys : System σ) (router : Router)

/-- **The parameter and the path name the same file**: both requests run the one operation that the
headers select, on the same path. -/
theorem plainResponseRouter_target {path : Bytes} (hslash : path.head? = some Path.slash)
    (hroot : path ≠ lit "/") (hquery : 0x3f ∉ path) (hamp : ampersand ∉ path) (request : Request) :
    router.plainResponseRouter sys { request with target := path }
        = router.serveFile sys request path
      ∧ router.plainResponseRouter sys { request with target := lit "/?target=" ++ path }
        = router.serveFile sys request path
      ∧ (path.tail.head? ≠ some Path.slash →
        router.plainResponseRouter sys { request with target := lit "/?target=" ++ path.tail }
          = router.serveFile sys request path) := by
  obtain ⟨rest, rfl⟩ : ∃ rest, path = Path.slash :: rest := List.head?_eq_some_iff.1 hslash
  have hne : Path.slash :: rest ≠ [] := List.cons_ne_nil _ _
  have hrest : rest ≠ [] := by
    rintro rfl
    exact hroot rfl
  refine ⟨?_, ?_, fun hsecond => ?_⟩
  · rw [Router.plainResponseRouter_eq, plainRequestPath_eq_self hquery hroot hne]
    rfl
  · rw [Router.plainResponseRouter_eq, plainRequestPath_target hamp hne, targetPath, if_pos hslash]
    rfl
  · have htail : ampersand ∉ rest := mt (List.mem_cons_of_mem _) hamp
    rw [List.tail_cons] at hsecond ⊢
    rw [Router.plainResponseRouter_eq, plainRequestPath_target htail hrest, targetPath,
      if_neg hsecond]
    rfl

end

/-- The file of the repository's test of the parameter. -/
theorem plainResponseRouter_target_readme :
    let sys := Disk.system (.tree []) (.offline .current)
    let router : Router := ⟨⟨{}, lit "./cache", lit "ftp.debian.org"⟩, lit "0.1.0"⟩
    let request : Request := ⟨.get, [], 11, [(lit "Range", lit "bytes=0-9")], []⟩
    let named := router.serveFile sys request (lit "/debian/README")
    router.plainResponseRouter sys { request with target := lit "/?target=/debian/README" } = named
      ∧ router.plainResponseRouter sys { request with target := lit "/?target=debian/README" }
        = named := by
  intro sys router request named
  have hslash : (lit "/debian/README").head? = some Path.slash := by decide
  obtain ⟨-, hwhole, htail⟩ := plainResponseRouter_target sys router hslash (by decide)
    (by decide) (by decide) request
  exact ⟨hwhole, htail (by decide)⟩

end PacPrism
