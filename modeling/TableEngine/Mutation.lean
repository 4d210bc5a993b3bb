import TableEngine.Error

/-!
Changes made in place. Nothing here takes anything back: a change that fails leaves the state as it
was when the fault came up. That a failed statement leaves no trace is thus a property of every
statement, namely that it meets its faults before it changes anything.
-/

namespace TableEngine

/-- A change of a state in place. It leaves a state and gives a result or an error. What has been
    changed before an error stays changed. -/
structure Mutation (σ α : Type) where
  run : σ → σ × Except Error α

namespace Mutation

variable {σ τ α β : Type}

instance : Monad (Mutation σ) where
  pure a := ⟨fun state => (state, .ok a)⟩
  bind change next := ⟨fun state =>
    match change.run state with
    | (state, .ok a) => (next a).run state
    | (state, .error error) => (state, .error error)⟩

instance : MonadStateOf σ (Mutation σ) where
  get := ⟨fun state => (state, .ok state)⟩
  set state := ⟨fun _ => (state, .ok ())⟩
  modifyGet f := ⟨fun state => ((f state).2, .ok (f state).1)⟩

/-- Fails and changes nothing. -/
def fail (error : Error) : Mutation σ α :=
  ⟨fun state => (state, .error error)⟩

/-- Fails unless a condition is met, and changes nothing. -/
def require (condition : Bool) (error : Error) : Mutation σ Unit :=
  if condition then pure () else fail error

/-- Looks something up in the state, which may fail, and changes nothing. -/
def reading (look : σ → Except Error α) : Mutation σ α :=
  ⟨fun state => (state, look state)⟩

instance : MonadLift (Except Error) (Mutation σ) :=
  ⟨fun result => reading fun _ => result⟩

/-- Makes a change in a part of the state. The part is put back as the change leaves it, whether or
    not the change fails. -/
def onPart (part : σ → Except Error τ) (putBack : σ → τ → σ) (change : Mutation τ α) :
    Mutation σ α where
  run state :=
    match part state with
    | .error error => (state, .error error)
    | .ok before =>
      let (after, result) := change.run before
      (putBack state after, result)

/-- The state after a change, if the change does not fail. -/
def runOk (change : Mutation σ α) (state : σ) : Except Error σ :=
  match change.run state with
  | (state, .ok _) => .ok state
  | (_, .error error) => .error error

@[simp]
theorem run_pure (a : α) (state : σ) : (pure a : Mutation σ α).run state = (state, .ok a) :=
  rfl

theorem run_bind (change : Mutation σ α) (next : α → Mutation σ β) (state : σ) :
    (change >>= next).run state =
      match change.run state with
      | (state, .ok a) => (next a).run state
      | (state, .error error) => (state, .error error) :=
  rfl

@[simp]
theorem run_get_bind (next : σ → Mutation σ β) (state : σ) :
    (get >>= next).run state = (next state).run state :=
  rfl

@[simp]
theorem run_set_bind (after : σ) (next : PUnit → Mutation σ β) (state : σ) :
    (set after >>= next).run state = (next ⟨⟩).run after :=
  rfl

@[simp]
theorem run_modify_bind (f : σ → σ) (next : PUnit → Mutation σ β) (state : σ) :
    (modify f >>= next).run state = (next ⟨⟩).run (f state) :=
  rfl

@[simp]
theorem run_map (f : α → β) (change : Mutation σ α) (state : σ) :
    (f <$> change).run state = ((change.run state).1, (change.run state).2.map f) := by
  simp only [Functor.map]
  cases hrun : change.run state with
  | mk after result => cases result <;> rfl

theorem run_onPart (part : σ → Except Error τ) (putBack : σ → τ → σ) (change : Mutation τ α)
    (state : σ) :
    (onPart part putBack change).run state =
      match part state with
      | .error error => (state, .error error)
      | .ok before => (putBack state (change.run before).1, (change.run before).2) :=
  rfl

@[simp]
theorem run_get (state : σ) : (get : Mutation σ σ).run state = (state, .ok state) :=
  rfl

@[simp]
theorem run_set (after state : σ) : (set after : Mutation σ PUnit).run state = (after, .ok ()) :=
  rfl

@[simp]
theorem run_modify (f : σ → σ) (state : σ) :
    (modify f : Mutation σ PUnit).run state = (f state, .ok ()) :=
  rfl

@[simp]
theorem run_fail (error : Error) (state : σ) :
    (fail error : Mutation σ α).run state = (state, .error error) :=
  rfl

@[simp]
theorem run_require (condition : Bool) (error : Error) (state : σ) :
    (require condition error : Mutation σ Unit).run state =
      (state, if condition then .ok () else .error error) := by
  cases condition <;> rfl

@[simp]
theorem run_reading (look : σ → Except Error α) (state : σ) :
    (reading look).run state = (state, look state) :=
  rfl

@[simp]
theorem run_liftM (result : Except Error α) (state : σ) :
    (liftM result : Mutation σ α).run state = (state, result) :=
  rfl

end Mutation

end TableEngine
