import PacPrism.Foundations.Numerals

/-!
# Http/Message — requests, responses, and the bodies of responses

What the program uses of Beast's messages: field lookup ignores case, `set` replaces a field, and
`preparePayload` announces the size of the body as it is at that moment.
-/

namespace PacPrism

/-! ## Requests -/

/-- A request method. -/
inductive Verb where
  | get
  | post
  | other (name : Bytes)
  deriving DecidableEq

/-- ASCII lower case. -/
def toLower (b : UInt8) : UInt8 := if 0x41 ≤ b ∧ b ≤ 0x5a then b + 0x20 else b

/-- Field names are equal up to case. -/
def iequals (a b : Bytes) : Bool := a.map toLower == b.map toLower

/-- A request with a string body. -/
structure Request where
  method : Verb
  target : Bytes
  version : Nat
  fields : List (Bytes × Bytes)
  body : Bytes
  deriving DecidableEq

/-- The value of the first field of this name. -/
def Request.find (r : Request) (name : Bytes) : Option Bytes :=
  (r.fields.find? fun f => iequals f.1 name).map Prod.snd

/-! ## Bodies -/

/-- Releases of Beast differ in what the size of a file body is after a seek: what remains, or the
whole file. -/
inductive BeastRelease where
  | current
  | older
  deriving DecidableEq

/-- A body whose size is announced. -/
class Body (β : Type) where
  size : BeastRelease → β → Nat

instance : Body Bytes := ⟨fun _ s => s.length⟩

/-- `empty_body`. -/
instance : Body Unit := ⟨fun _ _ => 0⟩

/-- `file_body`: an open file and the position it is read from. -/
structure FileBody where
  content : Bytes
  cursor : Nat
  deriving DecidableEq

namespace FileBody

instance : Body FileBody := ⟨fun release f =>
  match release with
  | .current => f.content.length - f.cursor
  | .older => f.content.length⟩

/-- What the serializer sends: everything from the cursor to the end of the file. -/
def sent (f : FileBody) : Bytes := f.content.drop f.cursor

end FileBody

/-! ## Responses -/

/-- The statuses the program answers with. -/
inductive Status where
  | ok
  | created
  | partialContent
  | notModified
  | badRequest
  | notFound
  | internalServerError
  | badGateway
  deriving DecidableEq

/-- The fields the program sets. -/
inductive Field where
  | acceptRanges
  | contentLength
  | contentRange
  | contentType
  | date
  | etag
  | lastModified
  | server
  deriving DecidableEq

/-- A response. -/
structure Response (β : Type) where
  status : Status
  version : Nat
  fields : List (Field × Bytes) := []
  body : β
  deriving DecidableEq

namespace Response

variable {β : Type}

/-- The value of a field. -/
def find (r : Response β) (f : Field) : Option Bytes :=
  (r.fields.find? fun p => p.1 = f).map Prod.snd

/-- Set a field: the value it had is removed, the new one goes last. -/
def set (r : Response β) (f : Field) (value : Bytes) : Response β :=
  { r with fields := r.fields.filter (fun p => p.1 ≠ f) ++ [(f, value)] }

/-- Set Content-Length. -/
def setContentLength (r : Response β) (n : Nat) : Response β :=
  r.set .contentLength (Bytes.decimal n)

/-- Set Content-Length to the size of the body. -/
def preparePayload [Body β] (release : BeastRelease) (r : Response β) : Response β :=
  r.setContentLength (Body.size release r.body)

/-- No Connection field is ever set, so the version decides. -/
def keepAlive (r : Response β) : Bool := 11 ≤ r.version

@[simp] theorem find_set (r : Response β) (f g : Field) (value : Bytes) :
    (r.set f value).find g = if g = f then some value else r.find g := by
  rw [find, set, find, List.find?_append]
  split_ifs with h
  · subst h
    have hnone : (r.fields.filter fun p => p.1 ≠ g).find? (fun p => p.1 = g) = none :=
      List.find?_eq_none.2 (by simp)
    rw [hnone]
    simp
  · have hsame : (r.fields.filter fun p => p.1 ≠ f).find? (fun p => p.1 = g)
        = r.fields.find? fun p => p.1 = g := by
      rw [List.find?_filter]
      congr 1
      funext p
      by_cases hp : p.1 = g <;> simp [hp, h]
    rw [hsame]
    simp [Ne.symm h]

@[simp] theorem body_set (r : Response β) (f : Field) (value : Bytes) :
    (r.set f value).body = r.body := rfl

@[simp] theorem status_set (r : Response β) (f : Field) (value : Bytes) :
    (r.set f value).status = r.status := rfl

@[simp] theorem find_setContentLength (r : Response β) (n : Nat) (g : Field) :
    (r.setContentLength n).find g
      = if g = .contentLength then some (Bytes.decimal n) else r.find g := find_set r _ g _

@[simp] theorem body_setContentLength (r : Response β) (n : Nat) :
    (r.setContentLength n).body = r.body := rfl

@[simp] theorem find_preparePayload [Body β] (release : BeastRelease) (r : Response β) (g : Field) :
    (r.preparePayload release).find g
      = if g = .contentLength then some (Bytes.decimal (Body.size release r.body))
        else r.find g := find_set r _ g _

@[simp] theorem body_preparePayload [Body β] (release : BeastRelease) (r : Response β) :
    (r.preparePayload release).body = r.body := rfl

@[simp] theorem status_preparePayload [Body β] (release : BeastRelease) (r : Response β) :
    (r.preparePayload release).status = r.status := rfl

end Response

end PacPrism
