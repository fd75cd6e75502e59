import PacPrism.Foundations.Path

/-!
# Network/Target — what a request target names

A target is cut at the first `?`.  A parameter is looked for as text: the value begins behind the
first occurrence of its name and `=`, and ends before the next `&`.
-/

namespace PacPrism

/-- The value of the parameter written `key` in a query string; empty if there is none. -/
def queryValue (key queryString : Bytes) : Bytes :=
  match Bytes.find queryString key with
  | none => []
  | some keyPos =>
    let start := keyPos + key.length
    match Bytes.find queryString (lit "&") start with
    | none => Bytes.after queryString keyPos
    | some stop => Bytes.substr queryString start keyPos.2.2 (stop - start)

/-- The `target` parameter of a plain request. -/
def targetParameter (requestTarget : Bytes) : Bytes :=
  match Bytes.find requestTarget (lit "?") with
  | none => []
  | some targetPos =>
    queryValue (lit "target=") (Bytes.after requestTarget targetPos)

/-- The path of a plain request, without its query string. -/
def pathOf (requestTarget : Bytes) : Bytes :=
  match Bytes.find requestTarget (lit "?") with
  | none => requestTarget
  | some targetPos => Bytes.before requestTarget targetPos

/-- The request path a `target` parameter stands for. -/
def targetPath (target : Bytes) : Bytes :=
  if target.head? = some Path.slash then target else lit "/" ++ target

/-- The request path a plain request is served from, if it names a file: its `target` parameter, or
else its own path. -/
def plainRequestPath (requestTarget : Bytes) : Option Bytes :=
  if targetParameter requestTarget ≠ [] then some (targetPath (targetParameter requestTarget))
  else if pathOf requestTarget ≠ lit "/" ∧ pathOf requestTarget ≠ [] then
    some (pathOf requestTarget)
  else none

/-- A value at the end of a query string is used whole, unless a `&` cuts it. -/
theorem queryValue_append_self {key value : Bytes} (hkey : key ≠ []) (hvalue : 38 ∉ value) :
    queryValue key (key ++ value) = value := by
  have hsearch : Bytes.search key key = some 0 :=
    (Bytes.search_eq_some_iff hkey).2 ⟨List.prefix_rfl, by simp⟩
  obtain ⟨p, hp, hpos, -, hafter⟩ :=
    Bytes.exists_find_append key key 0 hkey hsearch (by simp) value
  have hstop : Bytes.find (key ++ value) (lit "&") (p + key.length) = none := by
    refine Bytes.find_eq_none ((Bytes.search_singleton_eq_none_iff (b := 38)).2 ?_)
    rwa [hpos, Nat.zero_add, List.drop_left]
  rw [queryValue, hp]
  dsimp only
  rw [hstop]
  exact hafter

/-- The one parameter of `/?target=value`. -/
theorem targetParameter_append {value : Bytes} (hvalue : 38 ∉ value) :
    targetParameter (lit "/?target=" ++ value) = value := by
  obtain ⟨p, hp, -, -, hafter⟩ :=
    Bytes.exists_find_append (lit "/?") (lit "?") 1 (by decide) (by decide) rfl
      (lit "target=" ++ value)
  rw [show lit "/?target=" ++ value = lit "/?" ++ (lit "target=" ++ value) from rfl,
    targetParameter, hp]
  dsimp only
  rw [hafter]
  exact queryValue_append_self (by decide) hvalue

/-- A file named by the parameter alone. -/
theorem plainRequestPath_target {value : Bytes} (hvalue : 38 ∉ value) (hne : value ≠ []) :
    plainRequestPath (lit "/?target=" ++ value) = some (targetPath value) := by
  rw [plainRequestPath, targetParameter_append hvalue, if_pos hne]

/-- A target without a query names itself. -/
theorem plainRequestPath_eq_self {target : Bytes} (hquery : 63 ∉ target) (hroot : target ≠ lit "/")
    (hne : target ≠ []) : plainRequestPath target = some target := by
  have hfind : Bytes.find target (lit "?") = none :=
    Bytes.find_eq_none (Bytes.search_singleton_eq_none_iff.2 hquery)
  have hparameter : targetParameter target = [] := by rw [targetParameter, hfind]
  have hpath : pathOf target = target := by rw [pathOf, hfind]
  rw [plainRequestPath, if_neg (not_not.2 hparameter), hpath, if_pos ⟨hroot, hne⟩]

end PacPrism
