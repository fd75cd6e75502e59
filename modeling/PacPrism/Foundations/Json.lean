import Mathlib.Data.Rat.Defs
import PacPrism.Foundations.Exceptions
import PacPrism.Foundations.Utf8

/-!
# Foundations/Json — JSON values, and what `nlohmann::json` does with them

Parsing and printing are those of the library, known by what they accept: every string parsed is
UTF-8, and exactly the values whose strings are UTF-8 are printed.  Access to a value is modelled
exception by exception.
-/

/-- A JSON value; integers are signed or unsigned as the library stores them. -/
inductive Json where
  | null
  | boolean (b : Bool)
  | numberInteger (i : Int64)
  | numberUnsigned (n : UInt64)
  | numberFloat (x : Rat)
  | string (s : Bytes)
  | array (elems : List Json)
  | object (members : List (Bytes × Json))

namespace Json

mutual

/-- Every string in the value is UTF-8, the keys of its objects included. -/
def valid : Json → Bool
  | .string s => Utf8.valid s
  | .array elems => validElems elems
  | .object members => validMembers members
  | _ => true

/-- The same for the elements of an array. -/
def validElems : List Json → Bool
  | [] => true
  | j :: elems => valid j && validElems elems

/-- The same for the members of an object. -/
def validMembers : List (Bytes × Json) → Bool
  | [] => true
  | (key, j) :: members => Utf8.valid key && valid j && validMembers members

end

theorem validElems_iff (elems : List Json) :
    validElems elems = true ↔ ∀ j ∈ elems, j.valid = true := by
  induction elems with
  | nil => simp [validElems]
  | cons j elems ih => simp [validElems, ih]

theorem validMembers_iff (members : List (Bytes × Json)) :
    validMembers members = true ↔ ∀ m ∈ members, Utf8.valid m.1 = true ∧ m.2.valid = true := by
  induction members with
  | nil => simp [validMembers]
  | cons m members ih => simp [validMembers, ih]

theorem valid_strings_iff (l : List Bytes) :
    validElems (l.map string) = true ↔ ∀ s ∈ l, Utf8.valid s = true := by
  rw [validElems_iff, List.forall_mem_map]
  simp only [valid]

/-- An exception of the library. -/
def exception (what : String) : Exn := ⟨.jsonException, lit what⟩

/-- `j.at(key)`. -/
def «at» (j : Json) (key : Bytes) : Except Exn Json :=
  match j with
  | .object members =>
    match members.find? fun m => m.1 = key with
    | some m => .ok m.2
    | none => .error (exception "[json.exception.out_of_range.403] key not found")
  | _ => .error (exception "[json.exception.type_error.304] cannot use at()")

/-- `j.get<std::string>()`. -/
def getString : Json → Except Exn Bytes
  | .string s => .ok s
  | _ => .error (exception "[json.exception.type_error.302] type must be string")

/-- `j.get<std::vector<T>>()`, with the conversion of the elements. -/
def getArray {α : Type} (get : Json → Except Exn α) : Json → Except Exn (List α)
  | .array elems => elems.mapM get
  | _ => .error (exception "[json.exception.type_error.302] type must be array")

/-! ## What access throws, and what it yields -/

theorem failsBy_at (j : Json) (key : Bytes) : Exn.FailsBy .jsonException (j.at key) := by
  cases j with
  | object members =>
    rw [«at»]
    cases members.find? fun m => m.1 = key with
    | some m => exact Exn.failsBy_ok _ _
    | none => exact Exn.failsBy_error _
  | _ => exact Exn.failsBy_error _

theorem failsBy_getString (j : Json) : Exn.FailsBy .jsonException j.getString := by
  cases j with
  | string s => exact Exn.failsBy_ok _ _
  | _ => exact Exn.failsBy_error _

theorem failsBy_getArray {α : Type} {get : Json → Except Exn α}
    (hget : ∀ j, Exn.FailsBy .jsonException (get j)) (j : Json) :
    Exn.FailsBy .jsonException (j.getArray get) := by
  cases j with
  | array elems => exact Exn.FailsBy.mapM hget elems
  | _ => exact Exn.failsBy_error _

/-- What a valid value holds is valid. -/
theorem valid_of_at {j v : Json} {key : Bytes} (hj : j.valid = true) (h : j.at key = .ok v) :
    v.valid = true := by
  cases j with
  | object members =>
    rw [«at»] at h
    split at h
    · next m hm =>
      obtain rfl := Except.ok.inj h
      exact ((validMembers_iff members).1 hj m (List.mem_of_find?_eq_some hm)).2
    · cases h
  | _ => cases h

theorem valid_of_getString {j : Json} {s : Bytes} (hj : j.valid = true)
    (h : j.getString = .ok s) : Utf8.valid s = true := by
  cases j with
  | string t =>
    obtain rfl := Except.ok.inj h
    exact hj
  | _ => cases h

end Json

/-- The library, as far as its sources would have to be read. -/
structure Nlohmann where
  /-- `json::parse`. -/
  parse : Bytes → Except Exn Json
  /-- `json::dump` with an indent of four and the default error handler. -/
  dump : Json → Except Exn Bytes
  /-- `static_cast<std::int64_t>` of a `double`, on the values out of range too. -/
  castFloat : Rat → Int64
  /-- Parsing fails by the exceptions of the library only. -/
  parse_error : ∀ {text e}, parse text = .error e → e.kind = .jsonException
  /-- Parsing rejects text whose strings are not UTF-8. -/
  valid_of_parse : ∀ {text j}, parse text = .ok j → j.valid = true
  /-- Printing throws exactly on strings that are not UTF-8. -/
  dump_ok_iff : ∀ j, (∃ text, dump j = .ok text) ↔ j.valid = true

namespace Nlohmann

/-- `j.get<std::int64_t>()`: every number is cast, without a range check. -/
def getInt64 (nlohmann : Nlohmann) : Json → Except Exn Int64
  | .numberInteger i => .ok i
  | .numberUnsigned n => .ok n.toInt64
  | .numberFloat x => .ok (nlohmann.castFloat x)
  | _ => .error (Json.exception "[json.exception.type_error.302] type must be number")

theorem failsBy_getInt64 (nlohmann : Nlohmann) (j : Json) :
    Exn.FailsBy .jsonException (nlohmann.getInt64 j) := by
  cases j with
  | numberInteger i => exact Exn.failsBy_ok _ _
  | numberUnsigned n => exact Exn.failsBy_ok _ _
  | numberFloat x => exact Exn.failsBy_ok _ _
  | _ => exact Exn.failsBy_error _

/-- A library that parses no text. -/
def withoutParser : Nlohmann where
  parse _ := .error (Json.exception "[json.exception.parse_error.101] parse error")
  dump j := if j.valid then .ok [] else
    .error (Json.exception "[json.exception.type_error.316] invalid UTF-8 byte")
  castFloat _ := 0
  parse_error h := by cases h; rfl
  valid_of_parse h := nomatch h
  dump_ok_iff j := by cases j.valid <;> simp

/-- `static_cast<std::int64_t>` of a `double` as compiled for x86-64: out of range it is the least
value. -/
def castFloatX86 (x : Rat) : Int64 :=
  let i := x.num.tdiv x.den
  if Int64.minValue.toInt ≤ i ∧ i ≤ Int64.maxValue.toInt then Int64.ofInt i else Int64.minValue

/-- A library that parses the documents listed and no other text. -/
def withDocuments (documents : List (Bytes × Json)) (valid : ∀ d ∈ documents, d.2.valid = true)
    (printed : Json → Bytes) : Nlohmann where
  parse text := match documents.find? fun d => d.1 = text with
    | some d => .ok d.2
    | none => .error (Json.exception "[json.exception.parse_error.101] parse error")
  dump j := if j.valid then .ok (printed j) else
    .error (Json.exception "[json.exception.type_error.316] invalid UTF-8 byte")
  castFloat := castFloatX86
  parse_error {text e} h := by
    cases hd : documents.find? fun d => d.1 = text <;> rw [hd] at h <;> cases h
    rfl
  valid_of_parse {text j} h := by
    cases hd : documents.find? fun d => d.1 = text <;> rw [hd] at h <;> cases h
    exact valid _ (List.mem_of_find?_eq_some hd)
  dump_ok_iff j := by cases j.valid <;> simp

/-- The first document is parsed. -/
theorem parse_withDocuments_cons (d : Bytes × Json) (documents : List (Bytes × Json))
    (valid : ∀ d' ∈ d :: documents, d'.2.valid = true) (printed : Json → Bytes) :
    (withDocuments (d :: documents) valid printed).parse d.1 = .ok d.2 := by
  simp [withDocuments]

theorem exists_document_of_parse {documents : List (Bytes × Json)}
    {valid : ∀ d ∈ documents, d.2.valid = true} {printed : Json → Bytes} {text : Bytes} {j : Json}
    (h : (withDocuments documents valid printed).parse text = .ok j) :
    ∃ d, documents.find? (fun d => d.1 = text) = some d ∧ d.2 = j := by
  rw [withDocuments] at h
  dsimp only at h
  cases hd : documents.find? fun d => d.1 = text with
  | none => rw [hd] at h; cases h
  | some d =>
    rw [hd] at h
    exact ⟨d, rfl, Except.ok.inj h⟩

theorem eq_of_dump_withDocuments {documents : List (Bytes × Json)}
    {valid : ∀ d ∈ documents, d.2.valid = true} {printed : Json → Bytes} {j : Json} {text : Bytes}
    (h : (withDocuments documents valid printed).dump j = .ok text) : text = printed j := by
  rw [withDocuments] at h
  dsimp only at h
  split_ifs at h
  exact (Except.ok.inj h).symm

end Nlohmann
