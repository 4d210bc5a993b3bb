import TableEngine.Proofs.Steps

/-!
Failed statements leave no trace. Changes are made in place and nothing is taken back, so this rests
on the order of things within each statement: all that can fail comes before the first change, or
comes with a change that turns out to be none.

A change is put together from parts that only read, parts that cannot fail, and parts that keep the
state when they fail; the rules at the start say how these combine. For whole statements they give
`Session.atomic_perform` and `Session.readOnly_perform`.
-/

namespace TableEngine

namespace Mutation

variable {σ τ α β : Type}

/-- Keeps the state whenever it fails. -/
def Atomic (change : Mutation σ α) : Prop :=
  ∀ ⦃before after : σ⦄ ⦃error : Error⦄, change.run before = (after, .error error) → after = before

/-- Keeps the state whether or not it fails. -/
def ReadOnly (change : Mutation σ α) : Prop :=
  ∀ before : σ, (change.run before).1 = before

/-- Fails in no state. -/
def Infallible (change : Mutation σ α) : Prop :=
  ∀ before : σ, ∃ after a, change.run before = (after, .ok a)

theorem ReadOnly.atomic {change : Mutation σ α} (hreads : change.ReadOnly) : change.Atomic := by
  intro before after error hrun
  have hstate := hreads before
  rwa [hrun] at hstate

theorem Infallible.atomic {change : Mutation σ α} (hsafe : change.Infallible) : change.Atomic := by
  intro before after error hrun
  obtain ⟨_, _, hok⟩ := hsafe before
  rw [hrun] at hok
  cases hok

theorem readOnly_fail (error : Error) : (fail error : Mutation σ α).ReadOnly :=
  fun _ => rfl

theorem readOnly_require (condition : Bool) (error : Error) :
    (require condition error : Mutation σ Unit).ReadOnly :=
  fun _ => by simp

theorem readOnly_reading (look : σ → Except Error α) : (reading look).ReadOnly :=
  fun _ => rfl

theorem readOnly_liftM (result : Except Error α) : (liftM result : Mutation σ α).ReadOnly :=
  fun _ => rfl

theorem readOnly_get : (get : Mutation σ σ).ReadOnly :=
  fun _ => rfl

theorem infallible_pure (a : α) : (pure a : Mutation σ α).Infallible :=
  fun before => ⟨before, a, rfl⟩

theorem infallible_set (state : σ) : (set state : Mutation σ PUnit).Infallible :=
  fun _ => ⟨state, (), rfl⟩

theorem infallible_modify (f : σ → σ) : (modify f : Mutation σ PUnit).Infallible :=
  fun before => ⟨f before, (), rfl⟩

theorem Infallible.bind {change : Mutation σ α} {next : α → Mutation σ β}
    (hsafe : change.Infallible) (hnext : ∀ a, (next a).Infallible) :
    (change >>= next).Infallible := by
  intro before
  obtain ⟨middle, a, hrun⟩ := hsafe before
  obtain ⟨after, b, hend⟩ := hnext a middle
  exact ⟨after, b, by simp only [run_bind, hrun, hend]⟩

/-- What only reads may come before anything that keeps the state when it fails. -/
theorem ReadOnly.bind_atomic {change : Mutation σ α} {next : α → Mutation σ β}
    (hreads : change.ReadOnly) (hnext : ∀ a, (next a).Atomic) : (change >>= next).Atomic := by
  intro before after error hrun
  have hstate := hreads before
  simp only [run_bind] at hrun
  cases hfirst : change.run before with
  | mk middle result =>
    rw [hfirst] at hrun hstate
    obtain rfl : middle = before := hstate
    cases result with
    | error fault => exact (Prod.mk.inj hrun).1.symm
    | ok a => exact hnext a hrun

/-- What cannot fail may come after anything that keeps the state when it fails. -/
theorem Atomic.bind_infallible {change : Mutation σ α} {next : α → Mutation σ β}
    (hatomic : change.Atomic) (hnext : ∀ a, (next a).Infallible) : (change >>= next).Atomic := by
  intro before after error hrun
  simp only [run_bind] at hrun
  cases hfirst : change.run before with
  | mk middle result =>
    rw [hfirst] at hrun
    cases result with
    | error fault => exact hatomic (by rw [hfirst, (Prod.mk.inj hrun).1])
    | ok a => exact absurd hrun (by obtain ⟨_, _, hok⟩ := hnext a middle; simp [hok])

theorem Atomic.map {change : Mutation σ α} (hatomic : change.Atomic) (f : α → β) :
    (f <$> change).Atomic :=
  hatomic.bind_infallible fun a => infallible_pure (f a)

/-- A change of a part keeps the whole when it fails, if putting back an unchanged part does. -/
theorem Atomic.onPart {change : Mutation τ α} {part : σ → Except Error τ} {putBack : σ → τ → σ}
    (hatomic : change.Atomic) (hback : ∀ {state t}, part state = .ok t → putBack state t = state) :
    (Mutation.onPart part putBack change).Atomic := by
  intro before after error hrun
  rw [run_onPart] at hrun
  split at hrun
  · exact (Prod.mk.inj hrun).1.symm
  · next old hpart =>
    obtain ⟨hafter, hresult⟩ := Prod.mk.inj hrun
    have hold := hatomic (show change.run old = ((change.run old).1, .error error) from
      Prod.ext rfl hresult)
    rw [← hafter, hold, hback hpart]

end Mutation

open Mutation

namespace Table

theorem atomic_insert (columns : Option (List String)) (tuples : List (List Value)) :
    (insert columns tuples).Atomic := by
  apply readOnly_get.bind_atomic
  intro table
  apply (readOnly_liftM _).bind_atomic
  intro targets
  apply (readOnly_liftM _).bind_atomic
  intro rows
  exact ((infallible_set _).bind fun _ => infallible_pure _).atomic

theorem atomic_update (handles : List Nat) (assignments : List Assignment) :
    (update handles assignments).Atomic := by
  apply readOnly_get.bind_atomic
  intro table
  apply (readOnly_liftM _).bind_atomic
  intro cells
  exact ((infallible_set _).bind fun _ => infallible_pure _).atomic

theorem atomic_delete (handles : List Nat) : (delete handles).Atomic := by
  apply readOnly_get.bind_atomic
  intro table
  exact ((infallible_set _).bind fun _ => infallible_pure _).atomic

theorem atomic_updateWhere (assignments : List Assignment) (clause : Clause) :
    (updateWhere assignments clause).Atomic := by
  apply readOnly_get.bind_atomic
  intro table
  apply (readOnly_liftM _).bind_atomic
  intro _
  apply (readOnly_liftM _).bind_atomic
  intro selection
  exact atomic_update _ _

theorem atomic_deleteWhere (clause : Clause) : (deleteWhere clause).Atomic := by
  apply readOnly_get.bind_atomic
  intro table
  apply (readOnly_liftM _).bind_atomic
  intro selection
  exact atomic_delete _

end Table

namespace Database

theorem atomic_createTable (name : String) (specs : List ColumnSpec) :
    (createTable name specs).Atomic := by
  apply (readOnly_require _ _).bind_atomic
  intro _
  apply readOnly_get.bind_atomic
  intro database
  apply (readOnly_require _ _).bind_atomic
  intro _
  apply (readOnly_liftM _).bind_atomic
  intro schema
  apply (readOnly_require _ _).bind_atomic
  intro _
  exact (infallible_modify _).atomic

/-- The table is erased before it is known whether there was one. If there was none, erasing it has
    changed nothing. -/
theorem atomic_dropTable (name : String) : (dropTable name).Atomic := by
  intro before after error hrun
  simp only [dropTable, run_bind, run_get, run_modify, run_require, Prod.mk.injEq] at hrun
  obtain ⟨rfl, hremoved⟩ := hrun
  cases hget : before.tables.get? name with
  | none => rw [OrderedMap.erase_of_get?_eq_none hget]
  | some table => simp [hget] at hremoved

theorem atomic_inTable {α : Type} {change : Mutation Table α} (hatomic : change.Atomic)
    (name : String) : (inTable name change).Atomic := by
  apply hatomic.onPart
  intro database table htable
  simp only [replaceTable, OrderedMap.insert_of_get? (table_eq_ok_iff.1 htable)]

end Database

namespace Catalog

theorem atomic_createDatabase (name : String) : (createDatabase name).Atomic := by
  apply (readOnly_require _ _).bind_atomic
  intro _
  apply readOnly_get.bind_atomic
  intro catalog
  apply (readOnly_require _ _).bind_atomic
  intro _
  exact (infallible_modify _).atomic

/-- As for tables, the database is erased before it is known whether there was one. -/
theorem atomic_dropDatabase (name : String) : (dropDatabase name).Atomic := by
  intro before after error hrun
  simp only [dropDatabase, run_bind, run_get, run_modify, run_require, Prod.mk.injEq] at hrun
  obtain ⟨rfl, hremoved⟩ := hrun
  cases hget : before.databases.get? name with
  | none => rw [OrderedMap.erase_of_get?_eq_none hget]
  | some database => simp [hget] at hremoved

theorem atomic_inDatabase {α : Type} {change : Mutation Database α} (hatomic : change.Atomic)
    (name : String) : (inDatabase name change).Atomic := by
  apply hatomic.onPart
  intro catalog database hdatabase
  simp only [replaceDatabase, OrderedMap.insert_of_get? (database_eq_ok_iff.1 hdatabase)]

end Catalog

namespace Session

theorem atomic_inCatalog {α : Type} {change : Mutation Catalog α} (hatomic : change.Atomic)
    (missing : Error) : (inCatalog missing change).Atomic := by
  apply hatomic.onPart
  intro session catalog hcatalog
  cases session with
  | mk stored active log logCapacity =>
    cases stored with
    | none => cases hcatalog
    | some found =>
      obtain rfl : found = catalog := Except.ok.inj hcatalog
      rfl

theorem atomic_inActive {α : Type} {change : Mutation Database α} (hatomic : change.Atomic) :
    (inActive change).Atomic := by
  apply readOnly_get.bind_atomic
  intro session
  cases session.active with
  | none => exact (readOnly_fail _).atomic
  | some name => exact atomic_inCatalog (Catalog.atomic_inDatabase hatomic name) _

theorem atomic_changeTable {change : Mutation Table Nat} (hatomic : change.Atomic) (name : String) :
    (changeTable name change).Atomic :=
  (atomic_inActive (Database.atomic_inTable hatomic name)).map _

theorem atomic_createDatabase (name : String) : (createDatabase name).Atomic :=
  (atomic_inCatalog (Catalog.atomic_createDatabase name) _).bind_infallible
    fun _ => infallible_pure _

/-- Taking the database out of use comes after everything that can fail. -/
theorem atomic_dropDatabase (name : String) : (dropDatabase name).Atomic := by
  apply Atomic.bind_infallible
  · apply atomic_inCatalog
    apply readOnly_get.bind_atomic
    intro catalog
    exact (Catalog.atomic_dropDatabase name).bind_infallible fun _ => infallible_pure _
  · intro tables
    exact (infallible_modify _).bind fun _ => infallible_pure _

theorem atomic_useDatabase (name : String) : (useDatabase name).Atomic := by
  apply readOnly_get.bind_atomic
  intro session
  apply (readOnly_require _ _).bind_atomic
  intro _
  exact ((infallible_modify _).bind fun _ => infallible_pure _).atomic

theorem atomic_perform (statement : Statement) : (perform statement).Atomic := by
  cases statement with
  | createDatabase name => exact atomic_createDatabase name
  | dropDatabase name => exact atomic_dropDatabase name
  | useDatabase name => exact atomic_useDatabase name
  | showDatabases => exact (readOnly_reading _).atomic
  | showTables => exact (readOnly_reading _).atomic
  | createTable name columns =>
    exact (atomic_inActive (Database.atomic_createTable name columns)).bind_infallible
      fun _ => infallible_pure _
  | dropTable name =>
    exact (atomic_inActive (Database.atomic_dropTable name)).bind_infallible
      fun _ => infallible_pure _
  | describe name => exact (readOnly_reading _).atomic
  | insert name columns tuples => exact atomic_changeTable (Table.atomic_insert columns tuples) name
  | select projection name clause => exact (readOnly_reading _).atomic
  | update name assignments clause =>
    exact atomic_changeTable (Table.atomic_updateWhere assignments clause) name
  | delete name clause => exact atomic_changeTable (Table.atomic_deleteWhere clause) name

theorem atomic_importCatalog (dump : String) : (importCatalog dump).Atomic := by
  apply (readOnly_liftM _).bind_atomic
  intro catalog
  exact ((infallible_modify _).bind fun _ => infallible_modify _).atomic

end Session

/-- Whether a statement asks for something and is not meant to change anything. -/
def Statement.isQuery : Statement → Bool
  | showDatabases | showTables | describe _ | select .. => true
  | _ => false

namespace Session

theorem readOnly_perform {statement : Statement} (hquery : statement.isQuery = true) :
    (perform statement).ReadOnly := by
  cases statement <;> first | exact readOnly_reading _ | cases hquery

/-- The session that a text leaves when it fails is the session before, but for the log. -/
theorem execute_eq_error {session after : Session} {text : String} {error : Error}
    (hexecute : session.execute text = (after, .error error)) : after = session.record text := by
  unfold execute at hexecute
  dsimp only at hexecute
  split at hexecute
  · exact atomic_perform _ hexecute
  · exact (Prod.mk.inj hexecute).1.symm

/-- A statement that fails, given as such or as text, leaves the catalog and the database in use as
    they were, and so does an import that fails. Queries leave both as they were in any case. -/
theorem failures_change_nothing (session : Session) :
    (∀ statement after error, session.executeStatement statement = (after, .error error) →
        after.catalog = session.catalog ∧ after.active = session.active) ∧
      (∀ text after error, session.execute text = (after, .error error) →
        after.catalog = session.catalog ∧ after.active = session.active) ∧
      (∀ dump after error, session.importJson dump = (after, .error error) →
        after.catalog = session.catalog ∧ after.active = session.active) ∧
      (∀ statement after result, statement.isQuery = true →
        session.executeStatement statement = (after, result) →
        after.catalog = session.catalog ∧ after.active = session.active) ∧
      (∀ text statement after result, Statement.parse text = .ok statement →
        statement.isQuery = true → session.execute text = (after, result) →
        after.catalog = session.catalog ∧ after.active = session.active) := by
  refine ⟨?_, ?_, ?_, ?_, ?_⟩
  · intro statement after error hexecute
    obtain rfl := atomic_perform statement hexecute
    exact ⟨rfl, rfl⟩
  · intro text after error hexecute
    obtain rfl := execute_eq_error hexecute
    exact ⟨rfl, rfl⟩
  · intro dump after error himport
    obtain rfl := atomic_importCatalog dump himport
    exact ⟨rfl, rfl⟩
  · intro statement after result hquery hexecute
    have hstate := readOnly_perform hquery session
    rw [show (perform statement).run session = (after, result) from hexecute] at hstate
    obtain rfl : after = session := hstate
    exact ⟨rfl, rfl⟩
  · intro text statement after result hparse hquery hexecute
    have hstate := readOnly_perform hquery (session.record text)
    simp only [execute, hparse, executeStatement] at hexecute
    rw [hexecute] at hstate
    obtain rfl : after = session.record text := hstate
    exact ⟨rfl, rfl⟩

end Session

end TableEngine
