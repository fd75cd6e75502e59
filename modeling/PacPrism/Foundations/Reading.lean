import Mathlib.Algebra.Ring.Nat
import Mathlib.Data.List.TakeDrop
import Mathlib.Tactic.SplitIfs

/-!
# Foundations/Reading — a file read into a buffer, until a read falls short

    while (file.read(buffer, size)) f(buffer, size);
    f(buffer, file.gcount());

A read falls short at the end of the file, and where an error stops it; the loop does not tell the
two apart.  What it has seen is a prefix of the file, all of it exactly if no read was stopped
before the end (`exists_flatten_buffers`).
-/

variable {α γ : Type}

/-- An open file: its content, and after how many elements an error stops the `k`-th read, if one
does. -/
structure InputFile (α : Type) where
  content : List α
  stops : Nat → Option Nat

/-- A stream on a file: what has not been read yet, and how many reads there were. -/
structure InputStream (α : Type) where
  rest : List α
  reads : Nat

namespace InputFile

variable (file : InputFile α) (size : Nat)

/-- The stream on a file that has just been opened. -/
def start : InputStream α := ⟨file.content, 0⟩

/-- How many elements the next read delivers at most. -/
def limit (stream : InputStream α) : Nat := min size ((file.stops stream.reads).getD size)

/-- `read(buffer, size)`: what is in the buffer then, as much as `gcount()` says.  The stream is
good if that is a whole buffer. -/
def read (stream : InputStream α) : List α × InputStream α :=
  (stream.rest.take (file.limit size stream),
    ⟨stream.rest.drop (file.limit size stream), stream.reads + 1⟩)

variable {file size}

theorem limit_eq_of_length_read {stream : InputStream α}
    (h : (file.read size stream).1.length = size) :
    file.limit size stream = size ∧ size ≤ stream.rest.length := by
  have hle : file.limit size stream ≤ size := Nat.min_le_left _ _
  rw [read, List.length_take] at h
  omega

/-- A whole buffer is progress. -/
theorem length_rest_read_lt [NeZero size] {stream : InputStream α}
    (h : (file.read size stream).1.length = size) :
    (file.read size stream).2.rest.length < stream.rest.length := by
  obtain ⟨hlimit, hle⟩ := limit_eq_of_length_read h
  have hpos := NeZero.ne size
  rw [read, hlimit, List.length_drop]
  omega

variable (file size)

/-- The loop: `f` is called with every whole buffer, and with what is left. -/
def readAll [NeZero size] (f : γ → List α → γ) (stream : InputStream α) (c : γ) : γ :=
  if _h : (file.read size stream).1.length = size then
    readAll f (file.read size stream).2 (f c (file.read size stream).1)
  else f c (file.read size stream).1
termination_by stream.rest.length
decreasing_by exact length_rest_read_lt _h

/-- The buffers that the loop goes through. -/
def buffers [NeZero size] (stream : InputStream α) : List (List α) :=
  if _h : (file.read size stream).1.length = size then
    (file.read size stream).1 :: buffers (file.read size stream).2
  else [(file.read size stream).1]
termination_by stream.rest.length
decreasing_by exact length_rest_read_lt _h

/-- No error stops a read before the end of what is left. -/
def ReadsRest (stream : InputStream α) : Prop :=
  ∀ k n, file.stops (stream.reads + k) = some n → n < size → stream.rest.length ≤ size * k + n

/-- **No error stops a read before the end of the file**: the `k`-th read starts behind `k` whole
buffers. -/
def ReadsWhole : Prop :=
  ∀ k n, file.stops k = some n → n < size → file.content.length ≤ size * k + n

variable {file size}

section

variable [NeZero size]

theorem buffers_of_full {stream : InputStream α}
    (h : (file.read size stream).1.length = size) : file.buffers size stream
      = (file.read size stream).1 :: file.buffers size (file.read size stream).2 := by
  rw [buffers, dif_pos h]

theorem buffers_of_short {stream : InputStream α}
    (h : (file.read size stream).1.length ≠ size) :
    file.buffers size stream = [(file.read size stream).1] := by
  rw [buffers, dif_neg h]

/-- The loop is a fold over its buffers. -/
theorem readAll_eq_foldl (f : γ → List α → γ) (stream : InputStream α) (c : γ) :
    file.readAll size f stream c = (file.buffers size stream).foldl f c := by
  induction stream, c using readAll.induct file size f with
  | case1 stream c h ih => rw [readAll, dif_pos h, ih, buffers_of_full h, List.foldl_cons]
  | case2 stream c h => rw [readAll, dif_neg h, buffers_of_short h, List.foldl_cons, List.foldl_nil]

variable (file size) in
/-- What the loop has seen is a prefix of what was to be read. -/
theorem flatten_buffers_prefix (stream : InputStream α) :
    (file.buffers size stream).flatten <+: stream.rest := by
  induction stream using buffers.induct file size with
  | case1 stream h ih =>
    obtain ⟨unseen, hunseen⟩ := ih
    refine ⟨unseen, ?_⟩
    rw [buffers_of_full h, List.flatten_cons, List.append_assoc, hunseen, read,
      List.take_append_drop]
  | case2 stream h =>
    rw [buffers_of_short h, List.flatten_singleton]
    exact List.take_prefix _ _

end

/-- After a whole buffer, the rest is what it is about. -/
theorem readsRest_read_iff {stream : InputStream α}
    (h : (file.read size stream).1.length = size) :
    file.ReadsRest size (file.read size stream).2 ↔ file.ReadsRest size stream := by
  obtain ⟨hlimit, hle⟩ := limit_eq_of_length_read h
  have hlength : (file.read size stream).2.rest.length = stream.rest.length - size := by
    rw [read, hlimit, List.length_drop]
  have hreads (k : Nat) : (file.read size stream).2.reads + k = stream.reads + (k + 1) := by
    change stream.reads + 1 + k = _
    omega
  rw [ReadsRest, ReadsRest, hlength]
  simp only [hreads]
  constructor
  · intro hrest k n hstop hn
    cases k with
    | zero =>
      rw [limit, show file.stops stream.reads = some n from hstop, Option.getD_some] at hlimit
      omega
    | succ k =>
      have := hrest k n hstop hn
      rw [Nat.mul_succ]
      omega
  · intro hrest k n hstop hn
    have := hrest (k + 1) n hstop hn
    rw [Nat.mul_succ] at this
    omega

/-- A buffer that is not whole is the last. -/
theorem readsRest_iff_of_short {stream : InputStream α}
    (h : (file.read size stream).1.length ≠ size) :
    file.ReadsRest size stream ↔ stream.rest.length ≤ file.limit size stream := by
  have hle : file.limit size stream ≤ size := Nat.min_le_left _ _
  rw [read, List.length_take] at h
  constructor
  · intro hrest
    by_contra hmore
    have hshort : file.limit size stream < size := by omega
    obtain ⟨n, hstop⟩ : ∃ n, file.stops stream.reads = some n := by
      refine Option.ne_none_iff_exists'.1 fun hnone => ?_
      rw [limit, hnone, Option.getD_none, Nat.min_self] at hshort
      exact Nat.lt_irrefl size hshort
    have hlimit : file.limit size stream = min size n := by
      rw [limit, hstop, Option.getD_some]
    have := hrest 0 n hstop (by omega)
    omega
  · intro hend k n hstop hn
    cases k with
    | zero =>
      have hlimit : file.limit size stream = min size n := by
        rw [limit, show file.stops stream.reads = some n from hstop, Option.getD_some]
      omega
    | succ k =>
      rw [Nat.mul_succ]
      omega

variable (file size) in
/-- **The loop sees everything** exactly if no error stops a read before the end. -/
theorem flatten_buffers_eq_iff [NeZero size] (stream : InputStream α) :
    (file.buffers size stream).flatten = stream.rest ↔ file.ReadsRest size stream := by
  induction stream using buffers.induct file size with
  | case1 stream h ih =>
    rw [← readsRest_read_iff h, ← ih, buffers_of_full h, List.flatten_cons]
    conv_lhs => rw [← List.take_append_drop (file.limit size stream) stream.rest]
    exact List.append_right_inj _
  | case2 stream h =>
    rw [readsRest_iff_of_short h, buffers_of_short h, List.flatten_singleton]
    exact List.take_eq_self_iff _

theorem readsRest_start_iff : file.ReadsRest size file.start ↔ file.ReadsWhole size := by
  simp only [ReadsRest, ReadsWhole, start, Nat.zero_add]

/-- **What the loop has seen of a file**: its first elements, all of them exactly if no error stops
a read before the end. -/
theorem exists_flatten_buffers (file : InputFile α) (size : Nat) [NeZero size] :
    ∃ n ≤ file.content.length,
      (file.buffers size file.start).flatten = file.content.take n
        ∧ (n = file.content.length ↔ file.ReadsWhole size) := by
  have hfront := file.flatten_buffers_prefix size file.start
  have hwhole := file.flatten_buffers_eq_iff size file.start
  rw [readsRest_start_iff] at hwhole
  refine ⟨_, hfront.length_le, List.prefix_iff_eq_take.1 hfront, ?_⟩
  rw [← hwhole]
  exact ⟨hfront.eq_of_length, fun h => congrArg List.length h⟩

end InputFile
