import Provenance.Logged
set_option autoImplicit false

/-!
# Procedures

A procedure works on a state in place.  It reads the state and writes to it in any
order, logs events on the way, and may end in an error at any point: what it has
written by then stays written, and the state is handed back beside the error.  So
whether an operation that fails leaves its state as it was is not settled by the form
of a procedure.  It depends on where its checks stand.

`Procedure.outcome` is the view of a caller who drops the state where there is an
error: a logged computation whose result holds the new state.
-/

namespace Provenance

/-- What is done to a state in place: what it tells its caller, and the state it leaves. -/
structure Procedure (σ ε α : Type) where
  run : σ → Logged ε α × σ

namespace Procedure

variable {σ τ ε δ α β : Type}

/-- The result `a`, and nothing done. -/
protected def pure (a : α) : Procedure σ ε α := ⟨fun s => (pure a, s)⟩

/-- One procedure after another, on the state that the first one leaves. -/
protected def bind (x : Procedure σ ε α) (f : α → Procedure σ ε β) : Procedure σ ε β :=
  ⟨fun s =>
    match x.run s with
    | (⟨events, .error e⟩, s) => (⟨events, .error e⟩, s)
    | (⟨events, .ok a⟩, s) =>
      let (rest, s) := (f a).run s
      (⟨events ++ rest.events, rest.result⟩, s)⟩

instance : Monad (Procedure σ ε) where
  pure := Procedure.pure
  bind := Procedure.bind

/-! ## Steps -/

/-- Computes something from the state and writes nothing. -/
def read (f : σ → Logged ε α) : Procedure σ ε α := ⟨fun s => (f s, s)⟩

/-- The state as it is. -/
def get : Procedure σ ε σ := read pure

/-- Writes to the state. -/
def write (f : σ → σ) : Procedure σ ε Unit := ⟨fun s => (pure (), f s)⟩

/-- Logs an event. -/
def emit (event : Event) : Procedure σ ε Unit := read fun _ => .emit event

/-- The error `e`. -/
def fail (e : ε) : Procedure σ ε α := read fun _ => .fail e

/-- What was written before an error stays written. -/
example : ((do .write (· + 1); .fail () : Procedure Nat Unit Unit).run 0).2 = 1 := rfl

/-- Goes on with a result, or ends with an error. -/
def ofExcept (result : Except ε α) : Procedure σ ε α := read fun _ => .ofExcept result

/-- Goes on if the condition holds, and ends with the error `e` otherwise. -/
def check (condition : Prop) [Decidable condition] (e : ε) : Procedure σ ε Unit :=
  if condition then pure () else fail e

/-- The same procedure, its error seen as one of another kind. -/
def mapError (f : ε → δ) (x : Procedure σ ε α) : Procedure σ δ α :=
  ⟨fun s => ((x.run s).1.mapError f, (x.run s).2)⟩

/-- The same procedure, which hands its error on as a result. -/
def attempt (x : Procedure σ ε α) : Procedure σ δ (Except ε α) :=
  ⟨fun s => (⟨(x.run s).1.events, .ok (x.run s).1.result⟩, (x.run s).2)⟩

/-- The same procedure on a part of a state. -/
def on (part : τ → σ) (put : τ → σ → τ) (x : Procedure σ ε α) : Procedure τ ε α :=
  ⟨fun t => ((x.run (part t)).1, put t (x.run (part t)).2)⟩

/-- Another form of the result. -/
theorem run_map (f : α → β) (x : Procedure σ ε α) (s : σ) :
    (f <$> x).run s = (f <$> (x.run s).1, (x.run s).2) := by
  change (Procedure.bind x (pure ∘ f)).run s = (Logged.bind _ (pure ∘ f), _)
  simp only [Procedure.bind, Logged.bind]
  generalize x.run s = ran
  obtain ⟨⟨events, result⟩, s'⟩ := ran
  cases result with
  | error e => rfl
  | ok a => rfl

/-! ## What comes out -/

/-- What comes out, with the state after it.  The state that an error leaves is not told. -/
def outcome (x : Procedure σ ε α) (s : σ) : Logged ε (α × σ) :=
  ⟨(x.run s).1.events, (x.run s).1.result.map fun a => (a, (x.run s).2)⟩

variable (s : σ)

@[simp] theorem outcome_pure (a : α) : (pure a : Procedure σ ε α).outcome s = pure (a, s) := rfl

/-- The second procedure works on what comes out of the first. -/
@[simp] theorem outcome_bind (x : Procedure σ ε α) (f : α → Procedure σ ε β) :
    (x >>= f).outcome s = x.outcome s >>= fun (a, s) => (f a).outcome s := by
  change (Procedure.bind x f).outcome s = Logged.bind (x.outcome s) _
  simp only [outcome, Procedure.bind, Logged.bind]
  generalize x.run s = ran
  obtain ⟨⟨events, result⟩, s'⟩ := ran
  cases result with
  | error e => rfl
  | ok a => rfl

@[simp] theorem outcome_map (f : α → β) (x : Procedure σ ε α) :
    (f <$> x).outcome s = (fun (a, s) => (f a, s)) <$> x.outcome s :=
  outcome_bind s x (pure ∘ f)

@[simp] theorem outcome_read (f : σ → Logged ε α) :
    (read f).outcome s = f s >>= fun a => pure (a, s) := by
  change (read f).outcome s = Logged.bind (f s) _
  simp only [outcome, read, Logged.bind]
  cases (f s).result with
  | error e => rfl
  | ok a => simp [Except.map]

@[simp] theorem outcome_get : (get : Procedure σ ε σ).outcome s = pure (s, s) := rfl

@[simp] theorem outcome_write (f : σ → σ) :
    (write f : Procedure σ ε Unit).outcome s = pure ((), f s) := rfl

@[simp] theorem outcome_emit (event : Event) :
    (emit event : Procedure σ ε Unit).outcome s = .emit event >>= fun a => pure (a, s) := rfl

@[simp] theorem outcome_fail (e : ε) : (fail e : Procedure σ ε α).outcome s = .fail e := rfl

@[simp] theorem outcome_ofExcept (result : Except ε α) :
    (ofExcept result : Procedure σ ε α).outcome s = .ofExcept result >>= fun a => pure (a, s) :=
  outcome_read s fun _ => .ofExcept result

@[simp] theorem outcome_check (condition : Prop) [Decidable condition] (e : ε) :
    (check condition e).outcome s = if condition then pure ((), s) else .fail e := by
  unfold check
  split <;> rfl

/-- What comes out of a procedure that tells nothing but the state. -/
theorem outcome_of_quiet {x : Procedure σ ε Unit} (quiet : (x.outcome s).events = []) :
    x.outcome s = Prod.mk () <$> .ofExcept ((x.outcome s).result.map Prod.snd) := by
  generalize x.outcome s = ran at quiet ⊢
  obtain ⟨events, result⟩ := ran
  obtain rfl : events = [] := quiet
  cases result with
  | error e => rfl
  | ok outcome => rfl

@[simp] theorem outcome_mapError (f : ε → δ) (x : Procedure σ ε α) :
    (x.mapError f).outcome s = (x.outcome s).mapError f := by
  simp only [outcome, mapError, Logged.mapError]
  cases (x.run s).1.result <;> rfl

/-- What was told to a caller, and the state that was left, are the result. -/
theorem outcome_attempt (x : Procedure σ ε α) :
    (x.attempt : Procedure σ δ (Except ε α)).outcome s =
      ⟨(x.run s).1.events, .ok ((x.run s).1.result, (x.run s).2)⟩ := rfl

@[simp] theorem outcome_on (part : τ → σ) (put : τ → σ → τ) (x : Procedure σ ε α) (t : τ) :
    (x.on part put).outcome t = x.outcome (part t) >>= fun (a, s) => pure (a, put t s) := by
  change (x.on part put).outcome t = Logged.bind (x.outcome (part t)) _
  simp only [outcome, on, Logged.bind]
  cases (x.run (part t)).1.result with
  | error e => rfl
  | ok a => simp [Except.map]

end Procedure

end Provenance
