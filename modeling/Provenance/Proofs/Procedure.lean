import Provenance.Procedure
set_option autoImplicit false

/-!
# Checks before writes

A procedure is all or nothing (`Procedure.AllOrNothing`) if it hands the state back as it
was whenever it ends in an error.  Nothing in its form makes it so.  It is so if every
check comes before every write, and the lemmas here say this for one procedure after
another: checks may be put in front (`AllOrNothing.after_readsOnly`), and behind it may
come what cannot fail (`AllOrNothing.then_neverFails`).  Of such a procedure the outcome
tells everything: what is answered, and what is left (`run_of_ok`,
`AllOrNothing.run_of_error`).
-/

namespace Provenance

theorem mapError_eq_ok_iff {ε δ α : Type} {f : ε → δ} {x : Except ε α} {a : α} :
    x.mapError f = .ok a ↔ x = .ok a := by
  cases x with
  | error e =>
    constructor <;> intro impossible <;> cases impossible
  | ok b =>
    constructor <;> intro same <;> cases same <;> rfl

namespace Procedure

variable {σ τ ε δ α β : Type} {x : Procedure σ ε α} {f : α → Procedure σ ε β}

/-- An error leaves the state as it was. -/
def AllOrNothing (x : Procedure σ ε α) : Prop :=
  ∀ s e, (x.run s).1.result = .error e → (x.run s).2 = s

/-- The state is left as it was, with an error or without. -/
def ReadsOnly (x : Procedure σ ε α) : Prop := ∀ s, (x.run s).2 = s

/-- There is always a result. -/
def NeverFails (x : Procedure σ ε α) : Prop := ∀ s, ∃ a, (x.run s).1.result = .ok a

/-! ## One procedure after another -/

/-- The second procedure runs if the first one has a result. -/
theorem bind_cases (x : Procedure σ ε α) (f : α → Procedure σ ε β) (s : σ) :
    (∃ e, (x.run s).1.result = .error e ∧
        (x >>= f).run s = (⟨(x.run s).1.events, .error e⟩, (x.run s).2)) ∨
      ∃ a, (x.run s).1.result = .ok a ∧
        ((x >>= f).run s).1.result = ((f a).run (x.run s).2).1.result ∧
        ((x >>= f).run s).2 = ((f a).run (x.run s).2).2 := by
  change (∃ e, _ ∧ (Procedure.bind x f).run s = _) ∨
    ∃ a, _ ∧ ((Procedure.bind x f).run s).1.result = _ ∧ ((Procedure.bind x f).run s).2 = _
  simp only [Procedure.bind]
  generalize x.run s = ran
  obtain ⟨⟨events, result⟩, s'⟩ := ran
  cases result with
  | error e => exact .inl ⟨e, rfl, rfl⟩
  | ok a => exact .inr ⟨a, rfl, rfl, rfl⟩

theorem ReadsOnly.allOrNothing (reads : x.ReadsOnly) : x.AllOrNothing :=
  fun s _ _ => reads s

theorem NeverFails.allOrNothing (succeeds : x.NeverFails) : x.AllOrNothing := by
  intro s e failed
  obtain ⟨a, result⟩ := succeeds s
  cases result.symm.trans failed

theorem NeverFails.bind (first : x.NeverFails) (rest : ∀ a, (f a).NeverFails) :
    (x >>= f).NeverFails := by
  intro s
  rcases bind_cases x f s with ⟨e, failed, -⟩ | ⟨a, -, result, -⟩
  · obtain ⟨a, succeeded⟩ := first s
    cases succeeded.symm.trans failed
  · rw [result]
    exact rest a _

/-- A result of the first procedure must have left the state, or the second one must not
fail. -/
theorem AllOrNothing.bind (first : x.AllOrNothing) (rest : ∀ a, (f a).AllOrNothing)
    (apart : ∀ s a, (x.run s).1.result = .ok a → (x.run s).2 = s ∨ (f a).NeverFails) :
    (x >>= f).AllOrNothing := by
  intro s e failed
  rcases bind_cases x f s with ⟨e', failed', ran⟩ | ⟨a, succeeded, result, left⟩
  · rw [ran]
    exact first s e' failed'
  · rw [left]
    rw [result] at failed
    rcases apart s a succeeded with unchanged | succeeds
    · rw [rest a _ e failed, unchanged]
    · obtain ⟨b, succeeded'⟩ := succeeds (x.run s).2
      cases succeeded'.symm.trans failed

/-- Checks may come first. -/
theorem AllOrNothing.after_readsOnly (rest : ∀ a, (f a).AllOrNothing) (first : x.ReadsOnly) :
    (x >>= f).AllOrNothing :=
  .bind first.allOrNothing rest fun s _ _ => .inl (first s)

/-- What cannot fail may come last. -/
theorem AllOrNothing.then_neverFails (first : x.AllOrNothing) (rest : ∀ a, (f a).NeverFails) :
    (x >>= f).AllOrNothing :=
  .bind first (fun a => (rest a).allOrNothing) fun _ a _ => .inr (rest a)

/-! ## Steps -/

theorem readsOnly_read (g : σ → Logged ε α) : (read g).ReadsOnly := fun _ => rfl

theorem readsOnly_pure (a : α) : (pure a : Procedure σ ε α).ReadsOnly := fun _ => rfl

theorem readsOnly_check (condition : Prop) [Decidable condition] (e : ε) :
    (check condition e : Procedure σ ε Unit).ReadsOnly := by
  unfold check
  split
  · exact readsOnly_pure ()
  · exact readsOnly_read _

theorem neverFails_pure (a : α) : (pure a : Procedure σ ε α).NeverFails := fun _ => ⟨a, rfl⟩

theorem neverFails_write (g : σ → σ) : (write g : Procedure σ ε Unit).NeverFails :=
  fun _ => ⟨(), rfl⟩

theorem neverFails_emit (event : Event) : (emit event : Procedure σ ε Unit).NeverFails :=
  fun _ => ⟨(), rfl⟩

theorem neverFails_attempt (x : Procedure σ ε α) :
    (x.attempt : Procedure σ δ (Except ε α)).NeverFails :=
  fun s => ⟨(x.run s).1.result, rfl⟩

theorem AllOrNothing.map (whole : x.AllOrNothing) (g : α → β) : (g <$> x).AllOrNothing :=
  whole.then_neverFails fun a => neverFails_pure (g a)

theorem AllOrNothing.mapError (whole : x.AllOrNothing) (g : ε → δ) :
    (x.mapError g).AllOrNothing := by
  intro s e failed
  change (x.run s).1.result.mapError g = .error e at failed
  cases result : (x.run s).1.result with
  | error e' => exact whole s e' result
  | ok a =>
    rw [mapError_eq_ok_iff.mpr result] at failed
    cases failed

/-- On a part that is put back where it was taken from. -/
theorem AllOrNothing.on {part : τ → σ} {put : τ → σ → τ} (whole : x.AllOrNothing)
    (put_part : ∀ t, put t (part t) = t) : (x.on part put).AllOrNothing := by
  intro t e failed
  change put t (x.run (part t)).2 = t
  rw [whole (part t) e failed, put_part]

/-! ## What a procedure does -/

/-- A result comes with the state that is left. -/
theorem run_of_ok {s s' : σ} {a : α} (done : (x.outcome s).result = .ok (a, s')) :
    (x.run s).1.result = .ok a ∧ (x.run s).2 = s' := by
  unfold outcome at done
  cases result : (x.run s).1.result with
  | error e =>
    rw [result] at done
    cases done
  | ok a' =>
    rw [result] at done
    obtain ⟨same, after⟩ := Prod.mk.inj (Except.ok.inj done)
    exact ⟨congrArg Except.ok same, after⟩

/-- Checks before writes leave the state that an error does not tell. -/
theorem AllOrNothing.run_of_error (whole : x.AllOrNothing) {s : σ} {e : ε}
    (failed : (x.outcome s).result = .error e) :
    (x.run s).1.result = .error e ∧ (x.run s).2 = s := by
  unfold outcome at failed
  cases result : (x.run s).1.result with
  | error e' =>
    rw [result] at failed
    obtain rfl := Except.error.inj failed
    exact ⟨rfl, whole s e' result⟩
  | ok a =>
    rw [result] at failed
    cases failed

/-- On a part of a state: the part that an accepted one leaves is put back, and an error
leaves the whole as it was. -/
theorem AllOrNothing.run_map_on (whole : x.AllOrNothing) (part : τ → σ) (put : τ → σ → τ)
    (put_part : ∀ t, put t (part t) = t) (answer : α → β) (t : τ) :
    let outcome := x.outcome (part t)
    (answer <$> x.on part put).run t =
      (⟨outcome.events, outcome.result.map fun outcome => answer outcome.1⟩,
        match outcome.result with
        | .error _ => t
        | .ok (_, s) => put t s) := by
  intro outcome
  rw [run_map, Logged.map_eq]
  change (Logged.mk (x.run (part t)).1.events ((x.run (part t)).1.result.map answer),
    put t (x.run (part t)).2) = _
  cases result : outcome.result with
  | error e =>
    obtain ⟨failed, left⟩ := whole.run_of_error result
    rw [failed, left, put_part]
    rfl
  | ok ran =>
    obtain ⟨succeeded, left⟩ := run_of_ok result
    rw [succeeded, left]
    rfl

end Procedure

end Provenance
