import Mathlib.Data.List.Forall2
import PacPrism.Foundations.Bytes

/-!
# Foundations/Exceptions — programs that act on a state and may throw

`Io σ α` runs on a state `σ` and ends in a value or an exception, in the state it has reached by
then: a `catch` clause goes on from there, nothing is rolled back.

Two kinds of rules carry the arguments about such programs: the inversion rules say what a run that
returned went through, and `Total` says that no run throws.
-/

/-- The classes of exceptions told apart by a `catch` clause somewhere; each is a
`std::exception`. -/
inductive ExnKind where
  | outOfRange
  | invalidArgument
  | runtimeError
  | filesystemError
  | beastSystemError
  | jsonException
  deriving DecidableEq

/-- An exception, with the text of `what()`. -/
structure Exn where
  kind : ExnKind
  what : Bytes
  deriving DecidableEq

/-! ## Pure computations that may throw -/

namespace Exn

variable {α β : Type}

/-- A computation throws exceptions of this class only. -/
def FailsBy (kind : ExnKind) (m : Except Exn α) : Prop := ∀ e, m = .error e → e.kind = kind

theorem failsBy_ok (kind : ExnKind) (a : α) : FailsBy kind (.ok a : Except Exn α) := nofun

theorem failsBy_error (e : Exn) : FailsBy e.kind (.error e : Except Exn α) := fun _ h => by
  cases h
  rfl

theorem FailsBy.bind {kind : ExnKind} {m : Except Exn α} {f : α → Except Exn β}
    (hm : FailsBy kind m) (hf : ∀ a, FailsBy kind (f a)) : FailsBy kind (m >>= f) := by
  cases m with
  | ok a => exact hf a
  | error e' => exact fun e h => hm e (by cases h; rfl)

theorem FailsBy.mapM {kind : ExnKind} {f : α → Except Exn β} (hf : ∀ a, FailsBy kind (f a))
    (l : List α) : FailsBy kind (l.mapM f) := by
  induction l with
  | nil => exact failsBy_ok kind []
  | cons a l ih =>
    rw [List.mapM_cons]
    exact (hf a).bind fun _ => ih.bind fun _ => failsBy_ok kind _

/-- A sequence succeeded, so its parts did. -/
theorem bind_eq_ok {m : Except Exn α} {f : α → Except Exn β} {b : β} (h : m >>= f = .ok b) :
    ∃ a, m = .ok a ∧ f a = .ok b := by
  cases m with
  | ok a => exact ⟨a, rfl, h⟩
  | error e => cases h

theorem bind_eq_ok_iff {m : Except Exn α} {f : α → Except Exn β} {b : β} :
    m >>= f = .ok b ↔ ∃ a, m = .ok a ∧ f a = .ok b :=
  ⟨bind_eq_ok, fun ⟨a, hm, hf⟩ => by rw [hm]; exact hf⟩

/-- A list is converted if its elements are. -/
theorem mapM_eq_ok_iff {f : α → Except Exn β} {l : List α} {l' : List β} :
    l.mapM f = .ok l' ↔ List.Forall₂ (fun a b => f a = .ok b) l l' := by
  induction l generalizing l' with
  | nil =>
    rw [List.forall₂_nil_left_iff]
    exact ⟨fun h => (Except.ok.inj h).symm, fun h => by rw [h]; rfl⟩
  | cons a l ih =>
    rw [List.mapM_cons, List.forall₂_cons_left_iff, bind_eq_ok_iff]
    simp only [bind_eq_ok_iff, ih]
    constructor
    · rintro ⟨b, hb, l', hl, h⟩
      exact ⟨b, l', hb, hl, (Except.ok.inj h).symm⟩
    · rintro ⟨b, l', hb, hl, rfl⟩
      exact ⟨b, hb, l', hl, rfl⟩

end Exn

/-- A program on the state `σ`. -/
abbrev Io (σ α : Type) := EStateM Exn σ α

namespace Io

variable {σ α β : Type}

/-- A call that cannot throw. -/
def noexcept (f : σ → α × σ) : Io σ α := fun s => .ok (f s).1 (f s).2

/-- The result of a pure computation, thrown if it is an exception. -/
def ofExcept : Except Exn α → Io σ α
  | .ok a => pure a
  | .error e => throw e

/-! ## What a run went through -/

@[simp] theorem pure_apply (a : α) (s : σ) : (pure a : Io σ α) s = .ok a s := rfl

@[simp] theorem noexcept_apply (f : σ → α × σ) (s : σ) : noexcept f s = .ok (f s).1 (f s).2 := rfl

theorem bind_apply (m : Io σ α) (f : α → Io σ β) (s : σ) :
    (m >>= f) s = match m s with
      | .ok a s' => f a s'
      | .error e s' => .error e s' := by
  change EStateM.bind m f s = _
  rw [EStateM.bind]
  cases m s <;> rfl

theorem bind_of_ok {m : Io σ α} {s s' : σ} {a : α} (h : m s = .ok a s') (f : α → Io σ β) :
    (m >>= f) s = f a s' := by rw [bind_apply, h]

theorem bind_of_error {m : Io σ α} {s s' : σ} {e : Exn} (h : m s = .error e s')
    (f : α → Io σ β) : (m >>= f) s = .error e s' := by rw [bind_apply, h]

/-- A sequence returned, so its first part did, and the second part from there. -/
theorem bind_eq_ok {m : Io σ α} {f : α → Io σ β} {s s' : σ} {b : β}
    (h : (m >>= f) s = .ok b s') : ∃ a s₁, m s = .ok a s₁ ∧ f a s₁ = .ok b s' := by
  rw [bind_apply] at h
  cases hm : m s with
  | ok a s₁ => exact ⟨a, s₁, rfl, by rwa [hm] at h⟩
  | error e s₁ => rw [hm] at h; cases h

theorem tryCatch_apply (m : Io σ α) (handler : Exn → Io σ α) (s : σ) :
    tryCatch m handler s = match m s with
      | .ok a s' => .ok a s'
      | .error e s' => handler e s' := by
  change EStateM.tryCatch m handler s = _
  rw [EStateM.tryCatch]
  cases m s <;> rfl

theorem tryCatch_of_ok {m : Io σ α} {s s' : σ} {a : α} (h : m s = .ok a s')
    (handler : Exn → Io σ α) : tryCatch m handler s = .ok a s' := by rw [tryCatch_apply, h]

theorem tryCatch_of_error {m : Io σ α} {s s' : σ} {e : Exn} (h : m s = .error e s')
    (handler : Exn → Io σ α) : tryCatch m handler s = handler e s' := by rw [tryCatch_apply, h]

/-- A run that was evaluated, and found to end in a value. -/
theorem exists_ok_of_check {m : Io σ α} {s : σ} (P : α → σ → Prop) [∀ a s', Decidable (P a s')]
    (h : (match m s with
      | .ok a s' => decide (P a s')
      | .error _ _ => false) = true) : ∃ a s', m s = .ok a s' ∧ P a s' := by
  cases hm : m s with
  | ok a s' =>
    rw [hm] at h
    exact ⟨a, s', rfl, of_decide_eq_true h⟩
  | error e s' =>
    rw [hm] at h
    cases h

/-! ## What a run returns -/

/-- Every value a run returns has this property. -/
def Yields (P : α → Prop) (m : Io σ α) : Prop := ∀ s a s', m s = .ok a s' → P a

theorem yields_pure {P : α → Prop} {a : α} (h : P a) : Yields P (pure a : Io σ α) :=
  fun _ _ _ hrun => by
    cases hrun
    exact h

/-- What is returned is returned by the second part of a sequence. -/
theorem yields_bind {P : β → Prop} {m : Io σ α} {f : α → Io σ β} (h : ∀ a, Yields P (f a)) :
    Yields P (m >>= f) := fun _ b s' hrun => by
  obtain ⟨a, s₁, -, hrun⟩ := bind_eq_ok hrun
  exact h a s₁ b s' hrun

theorem Yields.mono {P Q : α → Prop} {m : Io σ α} (h : Yields P m) (hQ : ∀ a, P a → Q a) :
    Yields Q m := fun s a s' hrun => hQ a (h s a s' hrun)

theorem Yields.map {P : α → Prop} {Q : β → Prop} {m : Io σ α} {f : α → β} (h : Yields P m)
    (hQ : ∀ a, P a → Q (f a)) : Yields Q (f <$> m) := fun s b s' hrun => by
  rw [map_eq_pure_bind] at hrun
  obtain ⟨a, s₁, hm, hpure⟩ := bind_eq_ok hrun
  cases hpure
  exact hQ a (h s a _ hm)

/-! ## What does not throw -/

/-- A run returns. -/
def Returns (m : Io σ α) (s : σ) : Prop := ∃ a s', m s = .ok a s'

/-- No run throws. -/
def Total (m : Io σ α) : Prop := ∀ s, Returns m s

/-- A sequence returns if its first part does, and the second from there. -/
theorem returns_bind_iff {m : Io σ α} {f : α → Io σ β} {s : σ} :
    Returns (m >>= f) s ↔ Returns m s ∧ ∀ a s', m s = .ok a s' → Returns (f a) s' := by
  rw [Returns, Returns, bind_apply]
  cases m s with
  | ok a s₁ => simp [Returns]
  | error e s₁ => simp

/-- The second part of a sequence does not matter if it is total. -/
theorem returns_bind_iff_of_total {m : Io σ α} {f : α → Io σ β} (hf : ∀ a, Total (f a)) {s : σ} :
    Returns (m >>= f) s ↔ Returns m s :=
  returns_bind_iff.trans (and_iff_left fun a s' _ => hf a s')

theorem returns_map_iff {m : Io σ α} {f : α → β} {s : σ} : Returns (f <$> m) s ↔ Returns m s := by
  rw [map_eq_pure_bind]
  exact returns_bind_iff_of_total fun a s' => ⟨f a, s', rfl⟩

theorem total_pure (a : α) : Total (pure a : Io σ α) := fun s => ⟨a, s, rfl⟩

theorem total_noexcept (f : σ → α × σ) : Total (noexcept f) := fun s => ⟨(f s).1, (f s).2, rfl⟩

theorem total_modify (f : σ → σ) : Total (modify f : Io σ PUnit) := fun s => ⟨⟨⟩, f s, rfl⟩

theorem Total.bind {m : Io σ α} {f : α → Io σ β} (hm : Total m) (hf : ∀ a, Total (f a)) :
    Total (m >>= f) := fun s => (returns_bind_iff_of_total hf).2 (hm s)

/-- What is thrown is caught. -/
theorem total_tryCatch (m : Io σ α) {handler : Exn → Io σ α} (h : ∀ e, Total (handler e)) :
    Total (tryCatch m handler) := fun s => by
  rw [Returns, tryCatch_apply]
  cases m s with
  | ok a s' => exact ⟨a, s', rfl⟩
  | error e s' => exact h e s'

/-! ## What a run leaves alone -/

/-- The state in which a run ends, by a value or an exception. -/
def finalState : EStateM.Result Exn σ α → σ
  | .ok _ s => s
  | .error _ s => s

/-- What a run ends in, without the state. -/
def outcome : EStateM.Result Exn σ α → Except Exn α
  | .ok a _ => .ok a
  | .error e _ => .error e

/-- A property of the state survives every run. -/
def Keeps (I : σ → Prop) (m : Io σ α) : Prop := ∀ s, I s → I (finalState (m s))

theorem keeps_pure (I : σ → Prop) (a : α) : Keeps I (pure a : Io σ α) := fun _ h => h

theorem keeps_throw (I : σ → Prop) (e : Exn) : Keeps I (throw e : Io σ α) := fun _ h => h

theorem keeps_ofExcept (I : σ → Prop) (r : Except Exn α) : Keeps I (ofExcept r : Io σ α) :=
  fun _ h => match r with
    | .ok _ => h
    | .error _ => h

theorem keeps_modify {I : σ → Prop} {f : σ → σ} (h : ∀ s, I s → I (f s)) :
    Keeps I (modify f : Io σ PUnit) := h

theorem Keeps.bind {I : σ → Prop} {m : Io σ α} {f : α → Io σ β} (hm : Keeps I m)
    (hf : ∀ a, Keeps I (f a)) : Keeps I (m >>= f) := fun s hs => by
  have hm := hm s hs
  rw [bind_apply]
  cases h : m s with
  | ok a s' => rw [h] at hm; exact hf a s' hm
  | error e s' => rw [h] at hm; exact hm

theorem Keeps.map {I : σ → Prop} {m : Io σ α} (hm : Keeps I m) (f : α → β) :
    Keeps I (f <$> m) := by
  rw [map_eq_pure_bind]
  exact hm.bind fun a => keeps_pure I (f a)

theorem keeps_noexcept {I : σ → Prop} {f : σ → α × σ} (h : ∀ s, I s → I (f s).2) :
    Keeps I (noexcept f) := h

theorem Keeps.tryCatch {I : σ → Prop} {m : Io σ α} {handler : Exn → Io σ α} (hm : Keeps I m)
    (hhandler : ∀ e, Keeps I (handler e)) : Keeps I (tryCatch m handler) := fun s hs => by
  have hm := hm s hs
  rw [tryCatch_apply]
  cases h : m s with
  | ok a s' => rw [h] at hm; exact hm
  | error e s' => rw [h] at hm; exact hhandler e s' hm

/-- What a sequence does to `f` its first part does, if the second leaves `f` alone. -/
theorem finalState_bind {γ : Type} (f : σ → γ) (m : Io σ α) {k : α → Io σ β}
    (hk : ∀ a c, Keeps (fun s => f s = c) (k a)) (s : σ) :
    f (finalState ((m >>= k) s)) = f (finalState (m s)) := by
  rw [bind_apply]
  cases m s with
  | ok a s' => exact hk a _ s' rfl
  | error e s' => rfl

/-! ## What a run establishes -/

/-- From a state with `P`, a run that returns does so with `Q`. -/
def Ensures (P : σ → Prop) (m : Io σ α) (Q : α → σ → Prop) : Prop :=
  ∀ s, P s → ∀ a s', m s = .ok a s' → Q a s'

theorem Ensures.of_imp {P P' : σ → Prop} {m : Io σ α} {Q : α → σ → Prop} (h : Ensures P' m Q)
    (hP : ∀ s, P s → P' s) : Ensures P m Q := fun s hs => h s (hP s hs)

theorem Ensures.mono {P : σ → Prop} {m : Io σ α} {Q Q' : α → σ → Prop} (h : Ensures P m Q)
    (hQ : ∀ a s, Q a s → Q' a s) : Ensures P m Q' :=
  fun s hs a s' hrun => hQ a s' (h s hs a s' hrun)

/-- Nothing is asked of the first part. -/
theorem ensures_bind_any {P : σ → Prop} {m : Io σ α} {f : α → Io σ β} {Q : β → σ → Prop}
    (hf : ∀ a, Ensures (fun _ => True) (f a) Q) : Ensures P (m >>= f) Q := fun s _ b s' hrun => by
  obtain ⟨a, s₁, -, hf₁⟩ := bind_eq_ok hrun
  exact hf a s₁ trivial b s' hf₁

theorem ensures_pure {P : σ → Prop} {Q : α → σ → Prop} {a : α} (h : ∀ s, P s → Q a s) :
    Ensures P (pure a) Q := fun s hs _ _ hrun => by
  cases hrun
  exact h s hs

theorem Ensures.bind {P : σ → Prop} {m : Io σ α} {M : α → σ → Prop} {f : α → Io σ β}
    {Q : β → σ → Prop} (hm : Ensures P m M) (hf : ∀ a, Ensures (M a) (f a) Q) :
    Ensures P (m >>= f) Q := fun s hs b s' hrun => by
  obtain ⟨a, s₁, hm₁, hf₁⟩ := bind_eq_ok hrun
  exact hf a s₁ (hm s hs a s₁ hm₁) b s' hf₁

theorem Ensures.map {P : σ → Prop} {m : Io σ α} {Q : α → σ → Prop} {f : α → β}
    {R : β → σ → Prop} (hm : Ensures P m Q) (h : ∀ a s, Q a s → R (f a) s) :
    Ensures P (f <$> m) R := by
  rw [map_eq_pure_bind]
  exact hm.bind fun a => ensures_pure (h a)

/-- What a handler establishes is relied on like what no exception has prevented. -/
theorem Ensures.tryCatch {P : σ → Prop} {m : Io σ α} {handler : Exn → Io σ α} {Q : α → σ → Prop}
    (hm : Ensures P m Q) (hhandler : ∀ e, Ensures (fun _ => True) (handler e) Q) :
    Ensures P (tryCatch m handler) Q := fun s hs a s' hrun => by
  rw [tryCatch_apply] at hrun
  cases h : m s with
  | ok b t =>
    rw [h] at hrun
    obtain ⟨rfl, rfl⟩ := EStateM.Result.ok.inj hrun
    exact hm s hs b t h
  | error e t =>
    rw [h] at hrun
    exact hhandler e t trivial a s' hrun

/-- What is kept is established again. -/
theorem Keeps.ensures {P : σ → Prop} {m : Io σ α} (h : Keeps P m) : Ensures P m fun _ => P :=
  fun s hs a s' hrun => by
    have hkept := h s hs
    rwa [hrun] at hkept

/-- A property survives a sequence whose second part relies on what the first establishes. -/
theorem Keeps.bind_ensures {I : σ → Prop} {m : Io σ α} {f : α → Io σ β} {Q : α → σ → Prop}
    (hm : Keeps I m) (hQ : Ensures I m Q) (hf : ∀ a s, Q a s → I (finalState (f a s))) :
    Keeps I (m >>= f) := fun s hs => by
  have hkept := hm s hs
  rw [bind_apply]
  cases h : m s with
  | ok a s' => exact hf a s' (hQ s hs a s' h)
  | error e s' =>
    rw [h] at hkept
    exact hkept

/-! ## What only reads -/

/-- Every run ends in the state it starts in. -/
def ReadOnly (m : Io σ α) : Prop := ∀ s, finalState (m s) = s

theorem ReadOnly.keeps {m : Io σ α} (h : ReadOnly m) (I : σ → Prop) : Keeps I m := fun s hs => by
  rwa [h s]

theorem ReadOnly.eq_of_ok {m : Io σ α} (h : ReadOnly m) {s s' : σ} {a : α} (hm : m s = .ok a s') :
    s' = s := by
  have hs := h s
  rwa [hm] at hs

theorem readOnly_pure (a : α) : ReadOnly (pure a : Io σ α) := fun _ => rfl

theorem readOnly_noexcept {f : σ → α × σ} (h : ∀ s, (f s).2 = s) : ReadOnly (noexcept f) := h

theorem ReadOnly.bind {m : Io σ α} {f : α → Io σ β} (hm : ReadOnly m) (hf : ∀ a, ReadOnly (f a)) :
    ReadOnly (m >>= f) := fun s =>
  Keeps.bind (hm.keeps (· = s)) (fun a => (hf a).keeps (· = s)) s rfl

theorem ReadOnly.map {m : Io σ α} (hm : ReadOnly m) (f : α → β) : ReadOnly (f <$> m) := by
  rw [map_eq_pure_bind]
  exact hm.bind fun a => readOnly_pure (f a)

theorem ReadOnly.tryCatch {m : Io σ α} {handler : Exn → Io σ α} (hm : ReadOnly m)
    (hhandler : ∀ e, ReadOnly (handler e)) : ReadOnly (tryCatch m handler) := fun s =>
  Keeps.tryCatch (hm.keeps (· = s)) (fun e => (hhandler e).keeps (· = s)) s rfl

/-- What returns and only reads returns in the same state. -/
theorem Total.exists_ok {m : Io σ α} (h : Total m) (hread : ReadOnly m) (s : σ) :
    ∃ a, m s = .ok a s := by
  obtain ⟨a, s', hm⟩ := h s
  obtain rfl := hread.eq_of_ok hm
  exact ⟨a, hm⟩

/-! ## Relations between programs

A relation that `pure`, `>>=` and `tryCatch` respect holds of two programs made in the same way, as
soon as it holds of the calls they are made of. -/

/-- A relation between programs on two kinds of states that sequences and `try` blocks respect. -/
structure Relation (σ' σ : Type) where
  rel : ∀ {α : Type}, Io σ' α → Io σ α → Prop
  pure : ∀ {α : Type} (a : α), rel (pure a) (pure a)
  bind : ∀ {α β : Type} {m' : Io σ' α} {m : Io σ α} {f' : α → Io σ' β} {f : α → Io σ β},
    rel m' m → (∀ a, rel (f' a) (f a)) → rel (m' >>= f') (m >>= f)
  tryCatch : ∀ {α : Type} {m' : Io σ' α} {m : Io σ α} {handler' : Exn → Io σ' α}
    {handler : Exn → Io σ α}, rel m' m → (∀ e, rel (handler' e) (handler e)) →
    rel (tryCatch m' handler') (tryCatch m handler)

theorem Relation.map {σ' : Type} (R : Relation σ' σ) {m' : Io σ' α} {m : Io σ α}
    (h : R.rel m' m) (f : α → β) : R.rel (f <$> m') (f <$> m) := by
  rw [map_eq_pure_bind, map_eq_pure_bind]
  exact R.bind h fun a => R.pure (f a)

/-- The program keeps a property of the state. -/
def keeping (I : σ → Prop) : Relation σ σ where
  rel m' _ := Keeps I m'
  pure a := keeps_pure I a
  bind hm hf := hm.bind hf
  tryCatch hm hhandler := hm.tryCatch hhandler

end Io
