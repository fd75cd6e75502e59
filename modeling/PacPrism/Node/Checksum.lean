import PacPrism.Foundations.Hex
import PacPrism.Foundations.Reading
import PacPrism.Http.Message

/-!
# Node/Checksum — the checksum of a file

The file is read into a buffer of 8192 bytes and hashed buffer by buffer.  The loop ends with the
first read that falls short, whatever the reason: if that is an error, the digest of what was read
until then is reported as the digest of the file.
-/

namespace PacPrism

/-- SHA-256 as OpenSSL computes it, in a context of type `γ`. -/
structure OpenSsl (γ : Type) where
  init : γ
  update : γ → Bytes → γ
  final : γ → Vector UInt8 32

/-- Successive updates hash the concatenation. -/
def OpenSsl.Hashes {γ : Type} (openSsl : OpenSsl γ) (sha256 : Bytes → Vector UInt8 32) : Prop :=
  ∀ chunks : List Bytes,
    openSsl.final (chunks.foldl openSsl.update openSsl.init) = sha256 chunks.flatten

namespace Validator

/-- The size of the read buffer. -/
def bufferSize : Nat := 8192

instance : NeZero bufferSize := ⟨by decide⟩

/-- The read loop of `calculateSha256`: what is read, if anything, goes to `update`. -/
def updateAll {γ : Type} (update : γ → Bytes → γ) (file : InputFile UInt8) (sha256 : γ) : γ :=
  file.readAll bufferSize
    (fun sha256 buffer => if 0 < buffer.length then update sha256 buffer else sha256)
    file.start sha256

/-- The chunks passed to `update`: the loop run with a context that records them. -/
def chunks (file : InputFile UInt8) : List Bytes :=
  updateAll (fun chunks chunk => chunks ++ [chunk]) file []

section

variable {γ : Type} (openSsl : OpenSsl γ) (openFile : Bytes → Option (InputFile UInt8))
  (tolower : UInt8 → Int)

/-- Calculate SHA256 hash of a file: its hexadecimal text, or the empty string. -/
def calculateSha256 (filePath : Bytes) : Bytes :=
  match openFile filePath with
  | none => []
  | some file =>
    let hash := openSsl.final (updateAll openSsl.update file openSsl.init)
    hash.toList.flatMap fun b => Bytes.padLeft 2 0x30 (Bytes.hexadecimal b.toNat)

/-- Verify file integrity by comparing calculated hash with expected hash, character by character
behind `tolower`. -/
def verifySha256 (filePath expectedHash : Bytes) : Bool :=
  let calculatedHash := calculateSha256 openSsl openFile filePath
  if calculatedHash = [] then false
  else if calculatedHash.length ≠ expectedHash.length then false
  else (calculatedHash.zip expectedHash).all fun p => decide (tolower p.1 = tolower p.2)

end

/-! ## The loop -/

theorem updateAll_eq_foldl {γ : Type} (update : γ → Bytes → γ) (file : InputFile UInt8)
    (sha256 : γ) : updateAll update file sha256
      = ((file.buffers bufferSize file.start).filter fun b => !b.isEmpty).foldl update sha256 := by
  rw [updateAll, InputFile.readAll_eq_foldl, List.foldl_filter]
  refine congrArg (List.foldl · sha256 _) (funext fun ctx => funext fun buffer => ?_)
  cases buffer <;> simp

theorem chunks_eq_filter (file : InputFile UInt8) :
    chunks file = (file.buffers bufferSize file.start).filter fun b => !b.isEmpty := by
  rw [chunks, updateAll_eq_foldl, List.foldl_append_eq_append, List.nil_append, ← List.flatMap_def,
    List.flatMap_singleton']

/-- **What is hashed of a file**: its first bytes, all of them exactly if no error stops a read
before the end. -/
theorem exists_flatten_chunks (file : InputFile UInt8) :
    ∃ n ≤ file.content.length, (chunks file).flatten = file.content.take n
      ∧ (n = file.content.length ↔ file.ReadsWhole bufferSize) := by
  rw [chunks_eq_filter, List.flatten_filter_not_isEmpty]
  exact file.exists_flatten_buffers bufferSize

section Results

variable {γ : Type} {openSsl : OpenSsl γ} {sha256 : Bytes → Vector UInt8 32}
  {openFile : Bytes → Option (InputFile UInt8)} {tolower : UInt8 → Int} {filePath : Bytes}
  {file : InputFile UInt8}

/-- The checksum of a file that is open is the text of a digest. -/
theorem calculateSha256_of_open (hopen : openFile filePath = some file) :
    calculateSha256 openSsl openFile filePath
      = Bytes.hexText (openSsl.final ((chunks file).foldl openSsl.update openSsl.init)).toList := by
  rw [calculateSha256, hopen]
  dsimp only
  rw [updateAll_eq_foldl, ← chunks_eq_filter, Bytes.hexText]
  exact congrArg (List.flatMap · _) (funext Bytes.padLeft_hexadecimal)

theorem length_calculateSha256 (hopen : openFile filePath = some file) :
    (calculateSha256 openSsl openFile filePath).length = 64 := by
  rw [calculateSha256_of_open hopen, Bytes.length_hexText, Vector.length_toList]

theorem calculateSha256_eq_nil_iff :
    calculateSha256 openSsl openFile filePath = [] ↔ openFile filePath = none := by
  cases hopen : openFile filePath with
  | none =>
    rw [calculateSha256, hopen]
    exact iff_of_true rfl rfl
  | some file =>
    refine iff_of_false (fun hnil => ?_) (by simp)
    have hlength : (calculateSha256 openSsl openFile filePath).length = 64 :=
      length_calculateSha256 hopen
    rw [hnil] at hlength
    cases hlength

/-- **What is reported of a file that could not be read to its end**: the digest of its first
bytes. -/
theorem calculateSha256_of_stopped (hhashes : openSsl.Hashes sha256)
    (hopen : openFile filePath = some file) (hstopped : ¬ file.ReadsWhole bufferSize) :
    ∃ n < file.content.length, calculateSha256 openSsl openFile filePath
      = Bytes.hexText (sha256 (file.content.take n)).toList := by
  obtain ⟨n, hle, hflatten, hwhole⟩ := exists_flatten_chunks file
  refine ⟨n, lt_of_le_of_ne hle (mt hwhole.1 hstopped), ?_⟩
  rw [calculateSha256_of_open hopen, hhashes, hflatten]

/-! ## The comparison -/

theorem all_zip_eq_true_iff {β : Type} [DecidableEq β] (f : UInt8 → β) {a b : Bytes}
    (h : a.length = b.length) :
    ((a.zip b).all fun p => decide (f p.1 = f p.2)) = true ↔ a.map f = b.map f := by
  induction a generalizing b with
  | nil =>
    obtain rfl := List.length_eq_zero_iff.1 h.symm
    exact iff_of_true rfl rfl
  | cons x a ih =>
    cases b with
    | nil => cases h
    | cons y b =>
      rw [List.zip_cons_cons, List.all_cons, Bool.and_eq_true, decide_eq_true_iff,
        ih (Nat.succ.inj h), List.map_cons, List.map_cons, List.cons.injEq]

/-- `tolower` in the C locale.  A byte that is no ASCII character is a negative `char`, for which
the function is not defined. -/
def FoldsCase (tolower : UInt8 → Int) : Prop := ∀ b < 0x80, tolower b = (toLower b).toNat

/-- Behind `tolower`, ASCII texts are equal up to case. -/
theorem map_tolower_eq_iff (hlower : FoldsCase tolower) {a b : Bytes} (ha : ∀ c ∈ a, c < 0x80)
    (hb : ∀ c ∈ b, c < 0x80) : a.map tolower = b.map tolower ↔ iequals a b = true := by
  have hmap {s : Bytes} (hs : ∀ c ∈ s, c < 0x80) :
      s.map tolower = (s.map toLower).map fun c => (c.toNat : Int) := by
    rw [List.map_map]
    exact List.map_congr_left fun c hc => hlower c (hs c hc)
  have hinj : Function.Injective fun c : UInt8 => (c.toNat : Int) := fun x y h =>
    UInt8.toNat_inj.1 (Int.ofNat.inj h)
  rw [hmap ha, hmap hb, hinj.list_map.eq_iff, iequals, beq_iff_eq]

/-- **The comparison is exact**, for a file that is open. -/
theorem verifySha256_eq_true_iff (hlower : FoldsCase tolower)
    (hopen : openFile filePath = some file) {expectedHash : Bytes}
    (hexpected : ∀ c ∈ expectedHash, c < 0x80) :
    verifySha256 openSsl openFile tolower filePath expectedHash = true
      ↔ iequals (calculateSha256 openSsl openFile filePath) expectedHash = true := by
  have hne : calculateSha256 openSsl openFile filePath ≠ [] := by
    rw [Ne, calculateSha256_eq_nil_iff, hopen]
    simp
  have hascii : ∀ c ∈ calculateSha256 openSsl openFile filePath, c < 0x80 := by
    intro c hc
    rw [calculateSha256_of_open hopen] at hc
    exact Bytes.lt_of_isHexDigit (Bytes.isHexDigit_of_mem_hexText hc)
  rw [verifySha256, if_neg hne]
  by_cases hlength : (calculateSha256 openSsl openFile filePath).length = expectedHash.length
  · rw [if_neg (not_not.2 hlength), all_zip_eq_true_iff tolower hlength,
      map_tolower_eq_iff hlower hascii hexpected]
  · rw [if_pos hlength, iequals, beq_iff_eq]
    refine iff_of_false (by decide) fun heq => hlength ?_
    simpa using congrArg List.length heq

end Results

/-- **A file that can be read is hashed whole**, the checksum is the text of its digest, and exactly
the texts equal to that up to case are accepted. -/
theorem sha256_of_readsWhole {γ : Type} {openSsl : OpenSsl γ} {sha256 : Bytes → Vector UInt8 32}
    (hhashes : openSsl.Hashes sha256) {tolower : UInt8 → Int} (hlower : FoldsCase tolower)
    {openFile : Bytes → Option (InputFile UInt8)} {filePath : Bytes} {file : InputFile UInt8}
    (hopen : openFile filePath = some file) (hwhole : file.ReadsWhole bufferSize) :
    (chunks file).flatten = file.content
      ∧ calculateSha256 openSsl openFile filePath = Bytes.hexText (sha256 file.content).toList
      ∧ (calculateSha256 openSsl openFile filePath).length = 64
      ∧ (∀ c ∈ calculateSha256 openSsl openFile filePath, Bytes.isHexDigit c = true)
      ∧ ∀ h, (∀ c ∈ h, c < 0x80) →
        (verifySha256 openSsl openFile tolower filePath h = true
          ↔ iequals (Bytes.hexText (sha256 file.content).toList) h = true) := by
  obtain ⟨n, -, hflatten, hn⟩ := exists_flatten_chunks file
  rw [hn.2 hwhole, List.take_length] at hflatten
  have htext : calculateSha256 openSsl openFile filePath
      = Bytes.hexText (sha256 file.content).toList := by
    rw [calculateSha256_of_open hopen, hhashes, hflatten]
  refine ⟨hflatten, htext, length_calculateSha256 hopen, fun c hc => ?_, fun h hh => ?_⟩
  · rw [htext] at hc
    exact Bytes.isHexDigit_of_mem_hexText hc
  · rw [← htext]
    exact verifySha256_eq_true_iff hlower hopen hh

/-! OpenSSL on the two texts whose digests the tests of the program know. -/

/-- The digests of the empty file and of `Hello, World!`. -/
def sampleDigest (content : Bytes) : Vector UInt8 32 :=
  if content = [] then
    #v[0xe3, 0xb0, 0xc4, 0x42, 0x98, 0xfc, 0x1c, 0x14, 0x9a, 0xfb, 0xf4, 0xc8, 0x99, 0x6f, 0xb9,
      0x24, 0x27, 0xae, 0x41, 0xe4, 0x64, 0x9b, 0x93, 0x4c, 0xa4, 0x95, 0x99, 0x1b, 0x78, 0x52,
      0xb8, 0x55]
  else if content = lit "Hello, World!" then
    #v[0xdf, 0xfd, 0x60, 0x21, 0xbb, 0x2b, 0xd5, 0xb0, 0xaf, 0x67, 0x62, 0x90, 0x80, 0x9e, 0xc3,
      0xa5, 0x31, 0x91, 0xdd, 0x81, 0xc7, 0xf7, 0x0a, 0x4b, 0x28, 0x68, 0x8a, 0x36, 0x21, 0x82,
      0x98, 0x6f]
  else Vector.replicate 32 0

/-- A context that collects what it is given. -/
def sampleSsl : OpenSsl Bytes := ⟨[], (· ++ ·), sampleDigest⟩

theorem hashes_sampleSsl : sampleSsl.Hashes sampleDigest := fun chunks => by
  have hcollected : chunks.foldl (fun content chunk => content ++ id chunk) []
      = [] ++ (chunks.map id).flatten := List.foldl_append_eq_append
  rw [List.map_id, List.nil_append] at hcollected
  exact congrArg sampleDigest hcollected

/-- `tolower` as the tests use it. -/
def sampleTolower (b : UInt8) : Int := (toLower b).toNat

/-- A file that is read with one short read, and the checksum in capital letters. -/
theorem sha256_of_hello :
    let openFile := fun _ => some (InputFile.mk (lit "Hello, World!") fun _ => none)
    verifySha256 sampleSsl openFile sampleTolower (lit "hello.txt")
      (lit "DFFD6021BB2BD5B0AF676290809EC3A53191DD81C7F70A4B28688A362182986F") = true := by
  intro openFile
  have hwhole : (InputFile.mk (lit "Hello, World!") fun _ => none).ReadsWhole bufferSize := by
    intro k n hstop
    cases hstop
  have hlower : FoldsCase sampleTolower := fun b _ => rfl
  have hopen : openFile (lit "hello.txt") = some ⟨lit "Hello, World!", fun _ => none⟩ := rfl
  obtain ⟨-, -, -, -, hverify⟩ := sha256_of_readsWhole hashes_sampleSsl hlower hopen hwhole
  refine (hverify _ fun c hc => ?_).2 (by decide)
  have hall : ((lit "DFFD6021BB2BD5B0AF676290809EC3A53191DD81C7F70A4B28688A362182986F").all
      fun c => decide (c < 0x80)) = true := by decide
  exact of_decide_eq_true (List.all_eq_true.1 hall c hc)

/-! ## Files that cannot be read to their end -/

/-- Opening fails, or a read is stopped by an error before the end of the file. -/
def Breaks (openFile : Bytes → Option (InputFile UInt8)) (filePath : Bytes) : Prop :=
  openFile filePath = none
    ∨ ∃ file, openFile filePath = some file ∧ ¬ file.ReadsWhole bufferSize

/-- No checksum is reported, least of all that of a part of the file, and nothing is accepted. -/
def FailsClosed {γ : Type} (openSsl : OpenSsl γ) (sha256 : Bytes → Vector UInt8 32)
    (tolower : UInt8 → Int) (openFile : Bytes → Option (InputFile UInt8)) (filePath : Bytes) :
    Prop :=
  calculateSha256 openSsl openFile filePath = []
    ∧ (∀ h, verifySha256 openSsl openFile tolower filePath h = false)
    ∧ ∀ file, openFile filePath = some file → ∀ n < file.content.length,
      calculateSha256 openSsl openFile filePath
        ≠ Bytes.hexText (sha256 (file.content.take n)).toList

/-- **When the checksum fails closed**: if no error stops a read of a file that could be opened. -/
theorem failsClosed_iff {γ : Type} (openSsl : OpenSsl γ) (sha256 : Bytes → Vector UInt8 32)
    (tolower : UInt8 → Int) (openFile : Bytes → Option (InputFile UInt8)) (filePath : Bytes) :
    (Breaks openFile filePath → FailsClosed openSsl sha256 tolower openFile filePath)
      ↔ ∀ file, openFile filePath = some file → file.ReadsWhole bufferSize := by
  constructor
  · intro hclosed file hopen
    by_contra hstopped
    have hnil := (hclosed (.inr ⟨file, hopen, hstopped⟩)).1
    rw [calculateSha256_eq_nil_iff, hopen] at hnil
    cases hnil
  · rintro hwhole (hopen | ⟨file, hopen, hstopped⟩)
    · have hnil : calculateSha256 openSsl openFile filePath = [] :=
        calculateSha256_eq_nil_iff.2 hopen
      refine ⟨hnil, fun h => ?_, fun file hfile => ?_⟩
      · rw [verifySha256]
        exact if_pos hnil
      · rw [hopen] at hfile
        cases hfile
    · exact absurd (hwhole file hopen) hstopped

/-- The first read of a file fails: the digest of the empty file is reported, and accepted. -/
theorem not_failsClosed :
    let openFile := fun _ => some (InputFile.mk (lit "Hello, World!") fun _ => some 0)
    let emptyDigest := lit "e3b0c44298fc1c149afbf4c8996fb92427ae41e4649b934ca495991b7852b855"
    Breaks openFile (lit "hello.txt")
      ∧ verifySha256 sampleSsl openFile sampleTolower (lit "hello.txt") emptyDigest = true
      ∧ ¬ FailsClosed sampleSsl sampleDigest sampleTolower openFile (lit "hello.txt") := by
  intro openFile emptyDigest
  let file : InputFile UInt8 := ⟨lit "Hello, World!", fun _ => some 0⟩
  have hopen : openFile (lit "hello.txt") = some file := rfl
  have hshort : (file.read bufferSize file.start).1.length ≠ bufferSize := by decide
  have hchunks : chunks file = [] := by
    rw [chunks_eq_filter, InputFile.buffers_of_short hshort]
    rfl
  have htext : calculateSha256 sampleSsl openFile (lit "hello.txt") = emptyDigest := by
    rw [calculateSha256_of_open hopen, hchunks]
    decide
  have hverify : verifySha256 sampleSsl openFile sampleTolower (lit "hello.txt") emptyDigest
      = true := by
    rw [verifySha256, htext]
    decide
  refine ⟨.inr ⟨file, hopen, fun hwhole => ?_⟩, hverify, fun hclosed => ?_⟩
  · exact absurd (hwhole 0 0 rfl (by decide)) (by decide)
  · rw [hclosed.2.1] at hverify
    cases hverify

end Validator

end PacPrism
