import TableEngine.Proofs.Atomicity

/-!
Which errors come up within a database. What is done there does not know of the databases around it, so
that it cannot fail for want of one: every error is about a table, a column or what a statement says of
them (`Error.isLocal`).
-/

namespace TableEngine

variable {α β : Type}

/-- Errors about what is in a database, and not about which databases there are. -/
def Error.isLocal : Error → Bool
  | syntaxError _ | wrongValueCount | noTables | unknownTable _ | unknownColumn _ _
  | cannotDropTable _ | tableExists _ => true
  | _ => false

/-- Fails with local errors at most. -/
def FailsLocally (result : Except Error α) : Prop :=
  ∀ error, result = .error error → error.isLocal = true

theorem failsLocally_ok (a : α) : FailsLocally (.ok a) :=
  nofun

theorem failsLocally_error {error : Error} (hlocal : error.isLocal = true) :
    FailsLocally (.error error : Except Error α) := by
  intro other heq
  exact Except.error.inj heq ▸ hlocal

theorem FailsLocally.bind {first : Except Error α} {next : α → Except Error β}
    (hfirst : FailsLocally first) (hnext : ∀ a, FailsLocally (next a)) :
    FailsLocally (first >>= next) := by
  intro error herror
  rcases bind_eq_error_iff.1 herror with hfails | ⟨a, -, hfails⟩
  · exact hfirst error hfails
  · exact hnext a error hfails

theorem failsLocally_mapM {step : α → Except Error β} (hstep : ∀ a, FailsLocally (step a))
    (items : List α) : FailsLocally (items.mapM step) := by
  induction items with
  | nil => exact failsLocally_ok []
  | cons item items ih =>
    rw [List.mapM_cons]
    exact (hstep item).bind fun _ => ih.bind fun _ => failsLocally_ok _

theorem failsLocally_forM {step : α → Except Error Unit} (hstep : ∀ a, FailsLocally (step a))
    (items : List α) : FailsLocally (items.forM step) := by
  induction items with
  | nil => exact failsLocally_ok ()
  | cons item items ih => exact (hstep item).bind fun _ => ih

namespace Mutation

variable {σ τ : Type}

/-- Fails with local errors at most, in whatever state. -/
def FailsLocally (change : Mutation σ α) : Prop :=
  ∀ state, TableEngine.FailsLocally (change.run state).2

theorem Infallible.failsLocally {change : Mutation σ α} (hsafe : change.Infallible) :
    change.FailsLocally := by
  intro state
  obtain ⟨_, a, hrun⟩ := hsafe state
  rw [hrun]
  exact failsLocally_ok a

theorem failsLocally_require (condition : Bool) {error : Error} (hlocal : error.isLocal = true) :
    (require condition error : Mutation σ Unit).FailsLocally := by
  intro state
  rw [run_require]
  split
  · exact failsLocally_ok ()
  · exact failsLocally_error hlocal

theorem failsLocally_get : (get : Mutation σ σ).FailsLocally :=
  fun state => failsLocally_ok state

theorem failsLocally_liftM {result : Except Error α} (hresult : TableEngine.FailsLocally result) :
    (liftM result : Mutation σ α).FailsLocally :=
  fun _ => hresult

theorem FailsLocally.bind {change : Mutation σ α} {next : α → Mutation σ β}
    (hchange : change.FailsLocally) (hnext : ∀ a, (next a).FailsLocally) :
    (change >>= next).FailsLocally := by
  intro state
  have hfirst := hchange state
  rw [run_bind]
  cases hrun : change.run state with
  | mk middle result =>
    rw [hrun] at hfirst
    cases result with
    | error error => exact failsLocally_error (hfirst error rfl)
    | ok a => exact hnext a middle

theorem FailsLocally.onPart {change : Mutation τ α} {part : σ → Except Error τ}
    {putBack : σ → τ → σ} (hpart : ∀ state, TableEngine.FailsLocally (part state))
    (hchange : change.FailsLocally) : (Mutation.onPart part putBack change).FailsLocally := by
  intro state
  rw [run_onPart]
  split
  · next error herror => exact failsLocally_error (hpart state error herror)
  · next before _ => exact hchange before

end Mutation

open Mutation

namespace Table

theorem failsLocally_column (table : Table) (name : String) : FailsLocally (table.column name) := by
  unfold column
  split
  · exact failsLocally_ok _
  · exact failsLocally_error rfl

theorem failsLocally_checkColumns (table : Table) (names : List String) :
    FailsLocally (table.checkColumns names) := by
  unfold checkColumns
  split
  · exact failsLocally_error rfl
  · exact failsLocally_ok _

theorem failsLocally_checkCondition (table : Table) (condition : Condition) :
    FailsLocally (table.checkCondition condition) := by
  refine (table.failsLocally_checkColumns _).bind fun _ => ?_
  split
  · split
    · exact failsLocally_ok _
    · exact failsLocally_error rfl
  · exact failsLocally_ok _

theorem failsLocally_meets (schema : Schema) (row : Row) (conditions : List Condition) :
    FailsLocally (meets schema row conditions) := by
  induction conditions with
  | nil => exact failsLocally_ok true
  | cons condition conditions ih =>
    rw [meets]
    split
    · exact failsLocally_error rfl
    · split
      · exact ih
      · exact failsLocally_ok false

theorem failsLocally_scan (schema : Schema) (conditions : List Condition) (limit : Option Nat)
    (rows : List (Row × Nat)) : FailsLocally (scan schema conditions limit rows) := by
  fun_induction scan schema conditions limit rows with
  | case1 => exact failsLocally_ok []
  | case2 => exact failsLocally_ok []
  | case3 limit row place rest _ ihothers ihrest =>
    refine (failsLocally_meets schema row conditions).bind fun holds => ?_
    split
    · exact ihothers.bind fun _ => failsLocally_ok _
    · exact ihrest

theorem failsLocally_select (table : Table) (projection : Projection) (clause : Clause) :
    FailsLocally (table.select projection clause) := by
  refine (table.failsLocally_checkColumns _).bind fun _ => ?_
  refine (failsLocally_forM table.failsLocally_checkCondition _).bind fun _ => ?_
  refine (table.failsLocally_checkColumns _).bind fun _ => ?_
  exact (failsLocally_scan _ _ _ _).bind fun _ => failsLocally_ok _

theorem failsLocally_rowOf (table : Table) (targets : List Column) (tuple : List Value) :
    FailsLocally (table.rowOf targets tuple) := by
  unfold rowOf
  split
  · exact failsLocally_ok _
  · exact failsLocally_error rfl

theorem failsLocally_insert (columns : Option (List String)) (tuples : List (List Value)) :
    (insert columns tuples).FailsLocally := by
  refine failsLocally_get.bind fun table => ?_
  refine (failsLocally_liftM (failsLocally_mapM table.failsLocally_column _)).bind fun targets => ?_
  refine (failsLocally_liftM (failsLocally_mapM (table.failsLocally_rowOf targets) _)).bind
    fun rows => ?_
  exact ((infallible_set _).bind fun _ => infallible_pure _).failsLocally

theorem failsLocally_updateWhere (assignments : List Assignment) (clause : Clause) :
    (updateWhere assignments clause).FailsLocally := by
  refine failsLocally_get.bind fun table => ?_
  refine (failsLocally_liftM (table.failsLocally_checkColumns _)).bind fun _ => ?_
  refine (failsLocally_liftM (table.failsLocally_select _ _)).bind fun selection => ?_
  refine failsLocally_get.bind fun found => ?_
  have hcells : FailsLocally (found.cellsOf assignments) := failsLocally_mapM
    (fun assignment => (found.failsLocally_column _).bind fun _ => failsLocally_ok _) assignments
  refine (failsLocally_liftM hcells).bind fun cells => ?_
  exact ((infallible_set _).bind fun _ => infallible_pure _).failsLocally

theorem failsLocally_deleteWhere (clause : Clause) : (deleteWhere clause).FailsLocally := by
  refine failsLocally_get.bind fun table => ?_
  refine (failsLocally_liftM (table.failsLocally_select _ _)).bind fun selection => ?_
  refine failsLocally_get.bind fun found => ?_
  exact ((infallible_set _).bind fun _ => infallible_pure _).failsLocally

end Table

namespace Schema

theorem failsLocally_add (schema : Schema) (name : String) (type : ColumnType) :
    FailsLocally (schema.add name type) := by
  unfold add
  split
  · exact failsLocally_ok _
  · exact failsLocally_error rfl

theorem failsLocally_foldlM_add (schema : Schema) (columns : List (String × ColumnType)) :
    FailsLocally (columns.foldlM (fun schema (name, type) => schema.add name type) schema) := by
  induction columns generalizing schema with
  | nil => exact failsLocally_ok schema
  | cons column columns ih =>
    rw [List.foldlM_cons]
    exact (schema.failsLocally_add column.1 column.2).bind ih

end Schema

namespace Database

theorem failsLocally_table (database : Database) (name : String) :
    FailsLocally (database.table name) := by
  unfold table
  split
  · exact failsLocally_ok _
  · exact failsLocally_error rfl

theorem failsLocally_createTable (name : String) (specs : List ColumnSpec) :
    (createTable name specs).FailsLocally := by
  refine (failsLocally_require _ rfl).bind fun _ => ?_
  refine failsLocally_get.bind fun database => ?_
  refine (failsLocally_require _ rfl).bind fun _ => ?_
  refine (failsLocally_liftM (Schema.failsLocally_foldlM_add _ _)).bind fun schema => ?_
  refine (failsLocally_require _ rfl).bind fun _ => ?_
  exact (infallible_modify _).failsLocally

theorem failsLocally_dropTable (name : String) : (dropTable name).FailsLocally := by
  refine failsLocally_get.bind fun database => ?_
  refine (infallible_modify _).failsLocally.bind fun _ => ?_
  exact failsLocally_require _ rfl

theorem failsLocally_inTable {change : Mutation Table α} (hchange : change.FailsLocally)
    (name : String) : (inTable name change).FailsLocally :=
  hchange.onPart fun database => database.failsLocally_table name

end Database

end TableEngine
