import Mathlib.Data.List.Basic
import Mathlib.Logic.Relation

/-!
# Foundations/Runs — runs of a step function, and the steps that keep a property

A run is the left fold of a step function over a list of inputs.  Three rules carry every argument
about runs:

* `invariant_run` — what one step keeps, a run keeps;
* `forall_prefix_iff` — when a step keeps `P` *exactly* under a condition on the state before it,
  the states of a run all satisfy `P` exactly when its steps all meet that condition;
* `run_iff_or_exists` — when a step adds to what there is exactly under such a condition, and never
  takes from it, a run has what it started with and what one of its steps has added.

For a relation whose steps carry labels, `Reaches.invariant` is the first rule, `along_iff` is the
second, and `exists_reaches_stuck` says that what runs down comes to rest.
-/

namespace Runs

variable {σ α : Type*} (step : σ → α → σ)

/-- The state a list of inputs leads to. -/
def run (s : σ) (ops : List α) : σ := ops.foldl step s

@[simp] theorem run_nil (s : σ) : run step s [] = s := rfl

@[simp] theorem run_cons (s : σ) (a : α) (ops : List α) :
    run step s (a :: ops) = run step (step s a) ops := rfl

theorem run_append (s : σ) (l l' : List α) : run step s (l ++ l') = run step (run step s l) l' :=
  List.foldl_append

/-- **What one step keeps, a run keeps.** -/
theorem invariant_run {I : σ → Prop} (hstep : ∀ s a, I s → I (step s a)) {s : σ} (h : I s)
    (ops : List α) : I (run step s ops) := by
  induction ops generalizing s with
  | nil => exact h
  | cons a ops ih => exact ih (hstep s a h)

/-- Every step of the run meets the condition `C` in the state it starts from. -/
def Meets (C : σ → α → Prop) : σ → List α → Prop
  | _, [] => True
  | s, a :: ops => C s a ∧ Meets C (step s a) ops

/-- **The states of a run satisfy `P` exactly when its steps meet the condition** under which one
step keeps `P`.  `I` is what all states satisfy anyway. -/
theorem forall_prefix_iff {I P : σ → Prop} {C : σ → α → Prop}
    (hI : ∀ s a, I s → I (step s a)) (hP : ∀ s a, I s → P s → (P (step s a) ↔ C s a))
    {s : σ} (h : I s) (hs : P s) (ops : List α) :
    (∀ pre, pre <+: ops → P (run step s pre)) ↔ Meets step C s ops := by
  induction ops generalizing s with
  | nil => simpa [Meets] using hs
  | cons a ops ih =>
    have hfirst : (∀ pre, pre <+: a :: ops → P (run step s pre))
        ↔ P (step s a) ∧ ∀ pre, pre <+: ops → P (run step (step s a) pre) := by
      constructor
      · exact fun H => ⟨H [a] ⟨ops, rfl⟩, fun pre hpre =>
          H (a :: pre) (List.cons_prefix_cons.2 ⟨rfl, hpre⟩)⟩
      · rintro ⟨-, H⟩ pre hpre
        rcases List.prefix_cons_iff.1 hpre with rfl | ⟨pre, rfl, htail⟩
        exacts [hs, H pre htail]
    rw [hfirst, Meets, hP s a h hs]
    constructor
    · exact fun ⟨hC, H⟩ => ⟨hC, (ih (hI s a h) ((hP s a h hs).2 hC)).1 H⟩
    · exact fun ⟨hC, H⟩ => ⟨hC, (ih (hI s a h) ((hP s a h hs).2 hC)).2 H⟩

/-- **A run has what it started with, and what one of its steps has added.** -/
theorem run_iff_or_exists {I P : σ → Prop} {C : σ → α → Prop}
    (hI : ∀ s a, I s → I (step s a)) (hP : ∀ s a, I s → (P (step s a) ↔ P s ∨ C s a))
    {s : σ} (h : I s) (ops : List α) :
    P (run step s ops) ↔ P s ∨ ∃ pre a, pre ++ [a] <+: ops ∧ C (run step s pre) a := by
  induction ops generalizing s with
  | nil => simp
  | cons a ops ih =>
    have hfirst : (∃ pre b, pre ++ [b] <+: a :: ops ∧ C (run step s pre) b)
        ↔ C s a ∨ ∃ pre b, pre ++ [b] <+: ops ∧ C (run step (step s a) pre) b := by
      constructor
      · rintro ⟨_ | ⟨c, pre⟩, b, hpre, hC⟩
        · obtain ⟨rfl, -⟩ := List.cons_prefix_cons.1 hpre
          exact .inl hC
        · obtain ⟨rfl, htail⟩ := List.cons_prefix_cons.1 hpre
          exact .inr ⟨pre, b, htail, hC⟩
      · rintro (hC | ⟨pre, b, hpre, hC⟩)
        · exact ⟨[], a, ⟨ops, rfl⟩, hC⟩
        · exact ⟨a :: pre, b, List.cons_prefix_cons.2 ⟨rfl, hpre⟩, hC⟩
    rw [run_cons, ih (hI s a h), hP s a h, hfirst, or_assoc]

/-! ## Labelled steps -/

variable (Step : σ → α → σ → Prop) (A : α → Prop)

/-- Steps with labels in `A` lead from one state to the other. -/
abbrev Reaches : σ → σ → Prop := Relation.ReflTransGen fun s s' => ∃ a, A a ∧ Step s a s'

/-- No step with a label in `A` is possible. -/
def Stuck (s : σ) : Prop := ∀ a s', A a → ¬ Step s a s'

variable {Step A} {s s' : σ}

/-- **What one step keeps holds of all that is reached.** -/
theorem Reaches.invariant {I : σ → Prop} (hstep : ∀ s a s', A a → Step s a s' → I s → I s')
    (h : Reaches Step A s s') (hs : I s) : I s' := by
  induction h with
  | refl => exact hs
  | tail _ h ih =>
    obtain ⟨a, ha, h⟩ := h
    exact hstep _ a _ ha h ih

/-- The same, of steps from what is reached. -/
theorem Reaches.invariant_of_reaches {I : σ → Prop}
    (hstep : ∀ t a t', Reaches Step A s t → A a → Step t a t' → I t → I t')
    (h : Reaches Step A s s') (hs : I s) : I s' := by
  induction h with
  | refl => exact hs
  | tail hreach h ih =>
    obtain ⟨a, ha, h⟩ := h
    exact hstep _ a _ hreach ha h ih

/-- **If every step takes work away, rest is reached.** -/
theorem exists_reaches_stuck (work : σ → Nat)
    (hwork : ∀ s a s', A a → Step s a s' → work s' < work s) (s : σ) :
    ∃ s', Reaches Step A s s' ∧ Stuck Step A s' := by
  induction h : work s using Nat.strongRecOn generalizing s with
  | ind n ih =>
    by_cases hstuck : Stuck Step A s
    · exact ⟨s, .refl, hstuck⟩
    · obtain ⟨a, hstuck⟩ := not_forall.1 hstuck
      obtain ⟨t, hstuck⟩ := not_forall.1 hstuck
      obtain ⟨ha, hstuck⟩ := Classical.not_imp.1 hstuck
      have hstep := not_not.1 hstuck
      obtain ⟨s', hreach, hrest⟩ := ih (work t) (h ▸ hwork s a t ha hstep) t rfl
      exact ⟨s', hreach.head ⟨a, ha, hstep⟩, hrest⟩

/-! ## Labelled runs, step by step -/

/-- Every step of a run, given by its labels and the states they lead to, satisfies `P`. -/
def Along (P : σ → α → σ → Prop) : σ → List (α × σ) → Prop
  | _, [] => True
  | s, (a, s') :: run => P s a s' ∧ Along P s' run

/-- **The steps of a run all satisfy `P` exactly when their labels meet the condition** under which
one step does.  `I` is what holds as long as they do. -/
theorem along_iff {P : σ → α → σ → Prop} {C : α → Prop} {I : σ → Prop}
    (hI : ∀ s a s', I s → Step s a s' → P s a s' → I s')
    (hP : ∀ s a s', I s → Step s a s' → (P s a s' ↔ C a)) {s : σ} {run : List (α × σ)}
    (hs : I s) (h : Along Step s run) : Along P s run ↔ ∀ p ∈ run, C p.1 := by
  induction run generalizing s with
  | nil => simp [Along]
  | cons p run ih =>
    obtain ⟨a, s'⟩ := p
    obtain ⟨hstep, h⟩ := h
    rw [Along, List.forall_mem_cons, hP s a s' hs hstep]
    exact and_congr_right fun hC => ih (hI s a s' hs hstep ((hP s a s' hs hstep).2 hC)) h

/-! ## Labels without the states between them -/

/-- The labels lead from one state to the other, through some states. -/
def Explains (P : σ → α → σ → Prop) : σ → List α → σ → Prop
  | s, [], s' => s' = s
  | s, a :: labels, s' => ∃ t, P s a t ∧ Explains P t labels s'

theorem explains_append {P : σ → α → σ → Prop} {labels labels' : List α} :
    Explains P s (labels ++ labels') s' ↔ ∃ t, Explains P s labels t ∧ Explains P t labels' s' := by
  induction labels generalizing s with
  | nil => simp [Explains]
  | cons a labels ih =>
    simp only [List.cons_append, Explains, ih]
    constructor
    · rintro ⟨t, ht, u, hu, hrest⟩
      exact ⟨u, ⟨t, ht, hu⟩, hrest⟩
    · rintro ⟨u, ⟨t, ht, hu⟩, hrest⟩
      exact ⟨t, ht, u, hu, hrest⟩

theorem Explains.mono {P Q : σ → α → σ → Prop} {labels : List α} (h : Explains P s labels s')
    (hPQ : ∀ s a s', P s a s' → Q s a s') : Explains Q s labels s' := by
  induction labels generalizing s with
  | nil => exact h
  | cons a labels ih =>
    obtain ⟨t, ha, h⟩ := h
    exact ⟨t, hPQ s a t ha, ih h⟩

/-- What every label keeps is kept. -/
theorem Explains.invariant {P : σ → α → σ → Prop} {I : σ → Prop} {labels : List α}
    (h : Explains P s labels s') (hstep : ∀ a ∈ labels, ∀ s s', P s a s' → I s → I s')
    (hs : I s) : I s' := by
  induction labels generalizing s with
  | nil =>
    obtain rfl := h
    exact hs
  | cons a labels ih =>
    obtain ⟨t, ha, h⟩ := h
    rw [List.forall_mem_cons] at hstep
    exact ih h hstep.2 (hstep.1 s t ha hs)

/-- One label more. -/
theorem Explains.concat {P : σ → α → σ → Prop} {labels : List α} {a : α} {s'' : σ}
    (h : Explains P s labels s') (ha : P s' a s'') : Explains P s (labels ++ [a]) s'' :=
  explains_append.2 ⟨s', h, s'', ha, rfl⟩

end Runs
