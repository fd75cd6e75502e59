import PacPrism.Foundations.Exceptions

/-!
# Foundations/Traces — what programs do to their surroundings

    σ × log ──m'──▸ σ × (log ++ l)
      │               │ forget the log
      ▾               ▾
      σ ─────m──────▸ σ

A program on `σ × List ε` does what one on `σ` does and records it: every run of it ends as that of
the other does, with some entries `l` added that a specification allows for this outcome
(`Io.Logs`).
-/

namespace Io

variable {σ ε α β : Type}

/-- A result, with a log beside the state. -/
def withLog (log : List ε) : EStateM.Result Exn σ α → EStateM.Result Exn (σ × List ε) α
  | .ok a s => .ok a (s, log)
  | .error e s => .error e (s, log)

@[simp] theorem finalState_withLog (log : List ε) (r : EStateM.Result Exn σ α) :
    finalState (withLog log r) = (finalState r, log) := by cases r <;> rfl

/-- `m'` does what `m` does, and the entries it adds to the log are those of a `P`. -/
def Logs (m' : Io (σ × List ε) α) (m : Io σ α) (P : Except Exn α → List ε → Prop) : Prop :=
  ∀ s log, ∃ l, m' (s, log) = withLog (log ++ l) (m s) ∧ P (outcome (m s)) l

/-- The call, recorded with what it ends in. -/
def recorded (entry : Except Exn α → ε) (m : Io σ α) : Io (σ × List ε) α := fun (s, log) =>
  withLog (log ++ [entry (outcome (m s))]) (m s)

/-- The call, recorded whatever it ends in. -/
def recordedAs (entry : ε) (m : Io σ α) : Io (σ × List ε) α := recorded (fun _ => entry) m

/-- A call that cannot throw, recorded. -/
def recordedCall (entry : ε) (f : σ → α × σ) (s : σ × List ε) : α × (σ × List ε) :=
  ((f s.1).1, ((f s.1).2, s.2 ++ [entry]))

/-- An effect on the state, recorded. -/
def recordedEffect (entry : ε) (f : σ → σ) (s : σ × List ε) : σ × List ε :=
  (f s.1, s.2 ++ [entry])

/-- A call that is not recorded. -/
def silentCall (f : σ → α × σ) (s : σ × List ε) : α × (σ × List ε) :=
  ((f s.1).1, ((f s.1).2, s.2))

variable {m' : Io (σ × List ε) α} {m : Io σ α} {P Q : Except Exn α → List ε → Prop}

theorem Logs.mono (h : Logs m' m P) (hPQ : ∀ r l, P r l → Q r l) : Logs m' m Q := fun s log => by
  obtain ⟨l, hrun, hP⟩ := h s log
  exact ⟨l, hrun, hPQ _ l hP⟩

theorem logs_pure {a : α} (h : P (.ok a) []) : Logs (pure a : Io (σ × List ε) α) (pure a) P :=
  fun _ log => ⟨[], by rw [List.append_nil]; rfl, h⟩

theorem logs_throw {e : Exn} (h : P (.error e) []) :
    Logs (throw e : Io (σ × List ε) α) (throw e) P :=
  fun _ log => ⟨[], by rw [List.append_nil]; rfl, h⟩

theorem logs_recorded {entry : Except Exn α → ε} (h : ∀ r, P r [entry r]) :
    Logs (recorded entry m) m P := fun s _ => ⟨_, rfl, h (outcome (m s))⟩

theorem logs_recordedCall {entry : ε} {f : σ → α × σ} (h : ∀ a, P (.ok a) [entry]) :
    Logs (noexcept (recordedCall entry f)) (noexcept f) P :=
  fun s _ => ⟨[entry], rfl, h (f s).1⟩

theorem logs_silentCall {f : σ → α × σ} (h : ∀ a, P (.ok a) []) :
    Logs (noexcept (silentCall f)) (noexcept f) P :=
  fun s log => ⟨[], by rw [List.append_nil]; rfl, h (f s).1⟩

theorem logs_recordedEffect {P : Except Exn PUnit → List ε → Prop} {entry : ε} {f : σ → σ}
    (h : P (.ok ⟨⟩) [entry]) :
    Logs (modify (recordedEffect entry f) : Io (σ × List ε) PUnit) (modify f) P :=
  fun _ _ => ⟨[entry], rfl, h⟩

theorem foldl_recordedEffect {β : Type} (entry : β → ε) (f : β → σ → σ) (l : List β) (s : σ)
    (log : List ε) :
    l.foldl (fun s b => recordedEffect (entry b) (f b) s) (s, log)
      = (l.foldl (fun s b => f b s) s, log ++ l.map entry) := by
  induction l generalizing s log with
  | nil => rw [List.map_nil, List.append_nil]; rfl
  | cons b l ih =>
    rw [List.foldl_cons, recordedEffect, ih, List.append_assoc]
    rfl

/-- One effect after another, each recorded. -/
theorem logs_foldl_recordedEffect {β : Type} {entry : β → ε} {f : β → σ → σ} (l : List β)
    {P : Except Exn PUnit → List ε → Prop} (h : P (.ok ⟨⟩) (l.map entry)) :
    Logs (modify fun s => l.foldl (fun s b => recordedEffect (entry b) (f b) s) s
      : Io (σ × List ε) PUnit) (modify fun s => l.foldl (fun s b => f b s) s) P := fun s log =>
  ⟨l.map entry,
    congrArg (EStateM.Result.ok PUnit.unit) (foldl_recordedEffect entry f l s log), h⟩

/-- A recorded call that returns has returned. -/
theorem ok_of_recorded {entry : Except Exn α → ε} {s s' : σ × List ε} {a : α}
    (h : recorded entry m s = .ok a s') : m s.1 = .ok a s'.1 ∧ s'.2 = s.2 ++ [entry (.ok a)] := by
  rw [recorded] at h
  cases hrun : m s.1 <;> rw [hrun] at h <;> cases h
  exact ⟨rfl, rfl⟩

theorem ok_of_recordedAs {entry : ε} {s s' : σ × List ε} {a : α}
    (h : recordedAs entry m s = .ok a s') : m s.1 = .ok a s'.1 :=
  (ok_of_recorded h).1

/-- What is kept of the state as the log grows by what is allowed. -/
theorem Logs.keeps {I : σ × List ε → Prop} (h : Logs m' m P)
    (hI : ∀ s log l, I (s, log) → P (outcome (m s)) l → I (finalState (m s), log ++ l)) :
    Keeps I m' := fun (s, log) hs => by
  obtain ⟨l, hrun, hP⟩ := h s log
  rw [hrun, finalState_withLog]
  exact hI s log l hs hP

/-- What the log says of a part of the state that is left alone. -/
theorem Logs.keeps_part {τ : Type} {part : σ → τ} {J : τ → List ε → Prop} (h : Logs m' m P)
    (hpart : ∀ t, Keeps (fun s => part s = t) m)
    (hJ : ∀ t log r l, P r l → J t log → J t (log ++ l)) :
    Keeps (fun s => J (part s.1) s.2) m' :=
  h.keeps fun s log l hs hP => by
    have hsame : part (finalState (m s)) = part s := hpart (part s) s rfl
    dsimp only
    rw [hsame]
    exact hJ _ log _ l hP hs

section Keeps

variable {τ : Type} {part : σ → τ} {J : τ → List ε → Prop}
  (hpart : ∀ t, Keeps (fun s => part s = t) m) (hJ : ∀ t log l, J t log → J t (log ++ l))

include hpart hJ

/-- A call that leaves it alone keeps what the log says of it, if more may be recorded. -/
theorem keeps_recorded (entry : Except Exn α → ε) :
    Keeps (fun s => J (part s.1) s.2) (recorded entry m) :=
  (logs_recorded (P := fun _ _ => True) fun _ => trivial).keeps_part hpart
    fun t log _ l _ ht => hJ t log l ht

theorem keeps_recordedAs (entry : ε) : Keeps (fun s => J (part s.1) s.2) (recordedAs entry m) :=
  keeps_recorded hpart hJ fun _ => entry

end Keeps

/-- **A sequence adds what its parts add**, one after the other. -/
theorem Logs.bind {f' : α → Io (σ × List ε) β} {f : α → Io σ β}
    {F : α → Except Exn β → List ε → Prop} {R : Except Exn β → List ε → Prop} (hm : Logs m' m P)
    (hf : ∀ a, Logs (f' a) (f a) (F a)) (herror : ∀ e l, P (.error e) l → R (.error e) l)
    (hok : ∀ a l r l', P (.ok a) l → F a r l' → R r (l ++ l')) :
    Logs (m' >>= f') (m >>= f) R := fun s log => by
  obtain ⟨l, hrun, hP⟩ := hm s log
  rw [bind_apply, bind_apply, hrun]
  cases h : m s with
  | error e t =>
    rw [h] at hP
    exact ⟨l, rfl, herror e l hP⟩
  | ok a t =>
    rw [h] at hP
    obtain ⟨l', hrun', hF⟩ := hf a t (log ++ l)
    refine ⟨l ++ l', ?_, hok a l _ l' hP hF⟩
    rw [← List.append_assoc]
    exact hrun'

section First

variable {f' : α → Io (σ × List ε) β} {f : α → Io σ β} {R : Except Exn β → List ε → Prop}

/-- A recorded call, and what comes after it. -/
theorem logs_recorded_bind {entry : Except Exn α → ε}
    (hf : ∀ a, Logs (f' a) (f a) fun r l => R r (entry (.ok a) :: l))
    (herror : ∀ e, R (.error e) [entry (.error e)]) :
    Logs (recorded entry m >>= f') (m >>= f) R := by
  refine Logs.bind (P := fun r l => l = [entry r]) (logs_recorded fun _ => rfl) hf ?_ ?_
  · rintro e l rfl
    exact herror e
  · rintro a l r l' rfl h
    exact h

theorem logs_recordedAs_bind {entry : ε} (hf : ∀ a, Logs (f' a) (f a) fun r l => R r (entry :: l))
    (herror : ∀ e, R (.error e) [entry]) :
    Logs (recordedAs entry m >>= f') (m >>= f) R :=
  logs_recorded_bind hf herror

theorem logs_recordedCall_bind {entry : ε} {call : σ → α × σ}
    (hf : ∀ a, Logs (f' a) (f a) fun r l => R r (entry :: l)) :
    Logs (noexcept (recordedCall entry call) >>= f') (noexcept call >>= f) R := by
  refine Logs.bind (P := fun r l => (∃ a, r = .ok a) ∧ l = [entry])
    (logs_recordedCall fun a => ⟨⟨a, rfl⟩, rfl⟩) hf ?_ ?_
  · rintro e l ⟨⟨a, h⟩, -⟩
    cases h
  · rintro a l r l' ⟨-, rfl⟩ h
    exact h

variable {k' : PUnit → Io (σ × List ε) β} {k : PUnit → Io σ β}

theorem logs_recordedEffect_bind {entry : ε} {effect : σ → σ}
    (hk : Logs (k' ⟨⟩) (k ⟨⟩) fun r l => R r (entry :: l)) :
    Logs (modify (recordedEffect entry effect) >>= k') (modify effect >>= k) R := by
  refine Logs.bind (P := fun r l => (∃ a, r = .ok a) ∧ l = [entry])
    (logs_recordedEffect ⟨⟨_, rfl⟩, rfl⟩) (fun _ => hk) ?_ ?_
  · rintro e l ⟨⟨a, h⟩, -⟩
    cases h
  · rintro a l r l' ⟨-, rfl⟩ h
    exact h

theorem logs_foldl_recordedEffect_bind {γ : Type} {entry : γ → ε} {effect : γ → σ → σ}
    (l : List γ) (hk : Logs (k' ⟨⟩) (k ⟨⟩) fun r l' => R r (l.map entry ++ l')) :
    Logs ((modify fun s => l.foldl (fun s b => recordedEffect (entry b) (effect b) s) s) >>= k')
      ((modify fun s => l.foldl (fun s b => effect b s) s) >>= k) R := by
  refine Logs.bind (P := fun r l' => (∃ a, r = .ok a) ∧ l' = l.map entry)
    (logs_foldl_recordedEffect l ⟨⟨_, rfl⟩, rfl⟩) (fun _ => hk) ?_ ?_
  · rintro e l ⟨⟨a, h⟩, -⟩
    cases h
  · rintro a l r l' ⟨-, rfl⟩ h
    exact h

end First

/-- What is caught adds what was done before, and what the handler does. -/
theorem Logs.tryCatch {handler' : Exn → Io (σ × List ε) α} {handler : Exn → Io σ α}
    {F : Exn → Except Exn α → List ε → Prop} {R : Except Exn α → List ε → Prop}
    (hm : Logs m' m P) (hhandler : ∀ e, Logs (handler' e) (handler e) (F e))
    (hok : ∀ a l, P (.ok a) l → R (.ok a) l)
    (hcaught : ∀ e l r l', P (.error e) l → F e r l' → R r (l ++ l')) :
    Logs (tryCatch m' handler') (tryCatch m handler) R := fun s log => by
  obtain ⟨l, hrun, hP⟩ := hm s log
  rw [tryCatch_apply, tryCatch_apply, hrun]
  cases h : m s with
  | ok a t =>
    rw [h] at hP
    exact ⟨l, rfl, hok a l hP⟩
  | error e t =>
    rw [h] at hP
    obtain ⟨l', hrun', hF⟩ := hhandler e t (log ++ l)
    refine ⟨l ++ l', ?_, hcaught e l _ l' hP hF⟩
    rw [← List.append_assoc]
    exact hrun'

theorem Logs.map {F : Except Exn β → List ε → Prop} (hm : Logs m' m P) (f : α → β)
    (herror : ∀ e l, P (.error e) l → F (.error e) l) (hok : ∀ a l, P (.ok a) l → F (.ok (f a)) l) :
    Logs (f <$> m') (f <$> m) F := by
  rw [map_eq_pure_bind, map_eq_pure_bind]
  refine hm.bind (F := fun a r l => r = .ok (f a) ∧ l = []) (fun a => logs_pure ⟨rfl, rfl⟩)
    herror ?_
  rintro a l r l' hP ⟨rfl, rfl⟩
  rw [List.append_nil]
  exact hok a l hP

/-! ## Entries of one kind -/

/-- `m'` does what `m` does, and records nothing but entries in `S`. -/
abbrev LogsOnly (S : ε → Prop) (m' : Io (σ × List ε) α) (m : Io σ α) : Prop :=
  Logs m' m fun _ l => ∀ x ∈ l, S x

variable {S : ε → Prop}

theorem logsOnly_pure (a : α) : LogsOnly S (pure a) (pure a : Io σ α) := logs_pure nofun

theorem logsOnly_recordedAs {entry : ε} (h : S entry) : LogsOnly S (recordedAs entry m) m :=
  logs_recorded fun _ => by simpa using h

theorem logsOnly_recordedCall {entry : ε} {f : σ → α × σ} (h : S entry) :
    LogsOnly S (noexcept (recordedCall entry f)) (noexcept f) :=
  logs_recordedCall fun _ => by simpa using h

theorem logsOnly_silentCall {f : σ → α × σ} :
    LogsOnly S (noexcept (silentCall f)) (noexcept f) := logs_silentCall fun _ => nofun

theorem LogsOnly.bind {f' : α → Io (σ × List ε) β} {f : α → Io σ β} (hm : LogsOnly S m' m)
    (hf : ∀ a, LogsOnly S (f' a) (f a)) : LogsOnly S (m' >>= f') (m >>= f) :=
  Logs.bind hm hf (fun _ _ h => h) fun _ _ _ _ h h' => List.forall_mem_append.2 ⟨h, h'⟩

theorem LogsOnly.tryCatch {handler' : Exn → Io (σ × List ε) α} {handler : Exn → Io σ α}
    (hm : LogsOnly S m' m) (hhandler : ∀ e, LogsOnly S (handler' e) (handler e)) :
    LogsOnly S (tryCatch m' handler') (tryCatch m handler) :=
  Logs.tryCatch hm hhandler (fun _ _ h => h) fun _ _ _ _ h h' => List.forall_mem_append.2 ⟨h, h'⟩

theorem LogsOnly.map (hm : LogsOnly S m' m) (f : α → β) : LogsOnly S (f <$> m') (f <$> m) :=
  Logs.map hm f (fun _ _ h => h) fun _ _ h => h

/-- The program does what the other does, and records nothing but entries in `S`. -/
def loggingOnly (S : ε → Prop) : Relation (σ × List ε) σ where
  rel m' m := LogsOnly S m' m
  pure a := logsOnly_pure a
  bind hm hf := LogsOnly.bind hm hf
  tryCatch hm hhandler := LogsOnly.tryCatch hm hhandler

end Io
