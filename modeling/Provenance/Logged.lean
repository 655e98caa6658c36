import Provenance.Event
set_option autoImplicit false

/-!
# Logged computations

A logged computation gives a result or an error, and the events that came about
on the way, in their order.  An error ends it, but what was logged before stays
logged.
-/

namespace Provenance

/-- A result or an error, and the events on the way to it. -/
structure Logged (ε α : Type) where
  events : List Event
  result : Except ε α

namespace Logged

variable {ε δ α β : Type}

/-- The result `a`, and no events. -/
protected def pure (a : α) : Logged ε α := ⟨[], .ok a⟩

/-- One computation after another. -/
protected def bind (x : Logged ε α) (f : α → Logged ε β) : Logged ε β :=
  match x.result with
  | .error e => ⟨x.events, .error e⟩
  | .ok a => ⟨x.events ++ (f a).events, (f a).result⟩

instance : Monad (Logged ε) where
  pure := Logged.pure
  bind := Logged.bind

/-- The error `e`, and no events. -/
def fail (e : ε) : Logged ε α := ⟨[], .error e⟩

/-- Logs an event. -/
def emit (event : Event) : Logged ε Unit := ⟨[event], .ok ()⟩

/-- A computation that logs nothing. -/
def ofExcept (result : Except ε α) : Logged ε α := ⟨[], result⟩

/-- The same computation, its error seen as one of another kind. -/
def mapError (f : ε → δ) (x : Logged ε α) : Logged δ α :=
  ⟨x.events, x.result.mapError f⟩

instance : LawfulMonad (Logged ε) := LawfulMonad.mk' (Logged ε)
  (fun x => by
    obtain ⟨events, result⟩ := x
    cases result with
    | error e => rfl
    | ok a => exact congrArg (Logged.mk · _) (List.append_nil events))
  (fun _ _ => rfl)
  (fun x f g => by
    obtain ⟨events, result⟩ := x
    cases result with
    | error e => rfl
    | ok a =>
      change Logged.bind (Logged.bind _ f) g = Logged.bind _ fun a => Logged.bind (f a) g
      simp only [Logged.bind]
      cases (f a).result with
      | error e => rfl
      | ok b => simp only [List.append_assoc])

/-! ## What is logged and what comes out -/

@[simp] theorem events_pure (a : α) : (pure a : Logged ε α).events = [] := rfl

@[simp] theorem result_pure (a : α) : (pure a : Logged ε α).result = .ok a := rfl

@[simp] theorem result_fail (e : ε) : (fail e : Logged ε α).result = .error e := rfl

@[simp] theorem ok_bind (events : List Event) (a : α) (f : α → Logged ε β) :
    ((⟨events, .ok a⟩ : Logged ε α) >>= f) = ⟨events ++ (f a).events, (f a).result⟩ := rfl

@[simp] theorem error_bind (events : List Event) (e : ε) (f : α → Logged ε β) :
    ((⟨events, .error e⟩ : Logged ε α) >>= f) = ⟨events, .error e⟩ := rfl

@[simp] theorem ofExcept_ok (a : α) : (ofExcept (.ok a) : Logged ε α) = ⟨[], .ok a⟩ := rfl

@[simp] theorem ofExcept_mapError_ok (f : ε → δ) (a : α) :
    ofExcept ((Except.ok a).mapError f) = ⟨[], .ok a⟩ := rfl

@[simp] theorem ofExcept_mapError_error (f : ε → δ) (e : ε) :
    (ofExcept ((Except.error e).mapError f) : Logged δ α) = ⟨[], .error (f e)⟩ := rfl

@[simp] theorem fail_bind (e : ε) (f : α → Logged ε β) :
    ((fail e : Logged ε α) >>= f) = fail e := rfl

/-- Another form of the result. -/
theorem map_eq (f : α → β) (x : Logged ε α) : f <$> x = ⟨x.events, x.result.map f⟩ := by
  obtain ⟨events, result⟩ := x
  cases result with
  | error e => rfl
  | ok a => exact congrArg (Logged.mk · _) (List.append_nil events)

@[simp] theorem events_map (f : α → β) (x : Logged ε α) : (f <$> x).events = x.events :=
  congrArg events (map_eq f x)

@[simp] theorem result_map (f : α → β) (x : Logged ε α) :
    (f <$> x).result = x.result.map f :=
  congrArg result (map_eq f x)

theorem mapError_map (f : ε → δ) (g : α → β) (x : Logged ε α) :
    (g <$> x).mapError f = g <$> x.mapError f := by
  obtain ⟨events, result⟩ := x
  cases result <;> rfl

theorem mapError_ofExcept (f : ε → δ) (result : Except ε α) :
    (ofExcept result).mapError f = ofExcept (result.mapError f) := rfl

end Logged

end Provenance
