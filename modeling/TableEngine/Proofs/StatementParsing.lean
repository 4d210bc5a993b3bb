import TableEngine.Proofs.Parsing

/-!
Clauses, projections and statements. `Parser.statement` takes exactly the tokens that spell a
statement, in front of a semicolon or the end, and `Parser.wholeStatement` accepts whatever the
grammar derives.
-/

namespace TableEngine.Parser

open Grammar

variable {α β : Type}

/-! Clauses. -/

/-- The tokens that may follow on a clause. -/
def EndsClause (token : Token) : Prop :=
  EndsWhere token ∧ EndsOrder token ∧ token ≠ .keyword .LIMIT

theorem EndsStatement.endsClause {token : Token} (hends : EndsStatement token) :
    EndsClause token := by
  rcases hends with rfl | rfl
  all_goals simp [EndsClause, EndsWhere, EndsOrder, EndsDirection]

section

variable {P : Token → Prop} {tokens rest : List Token}

/-- An optional part shows its keyword as the next token, or leaves what follows to be seen. -/
theorem current_where {conditions : List Condition} (hspells : SpellsWhere tokens conditions)
    (hkeyword : P (.keyword .WHERE)) (hrest : P (current rest)) : P (current (tokens ++ rest)) := by
  cases hspells with
  | none => exact hrest
  | some => exact hkeyword

theorem current_order {column : Option String} {direction : Direction}
    (hspells : SpellsOrder tokens column direction) (hkeyword : P (.keyword .ORDER))
    (hrest : P (current rest)) : P (current (tokens ++ rest)) := by
  cases hspells with
  | none => exact hrest
  | some => exact hkeyword

theorem current_limit {limit : Option Nat} (hspells : SpellsLimit tokens limit)
    (hkeyword : P (.keyword .LIMIT)) (hrest : P (current rest)) : P (current (tokens ++ rest)) := by
  cases hspells with
  | none => exact hrest
  | some => exact hkeyword

theorem current_clause {clause : Clause} (hspells : SpellsClause tokens clause)
    (hwhere : P (.keyword .WHERE)) (horder : P (.keyword .ORDER)) (hlimit : P (.keyword .LIMIT))
    (hrest : P (current rest)) : P (current (tokens ++ rest)) := by
  obtain ⟨hconditions, hordering, hbound⟩ := hspells
  rw [List.append_assoc, List.append_assoc]
  exact current_where hconditions hwhere
    (current_order hordering horder (current_limit hbound hlimit hrest))

end

theorem recognizes_clause : Recognizes clause SpellsClause EndsClause := by
  constructor
  · intro tokens rest found hrun
    obtain ⟨found, afterWhere, hwhere, hrun⟩ := run_bind_eq_ok_iff.1 hrun
    obtain ⟨⟨column, d⟩, afterOrder, horder, hrun⟩ := run_bind_eq_ok_iff.1 hrun
    obtain ⟨bound, afterLimit, hlimit, hrun⟩ := run_bind_eq_ok_iff.1 hrun
    cases hrun
    obtain ⟨front, rfl, hfront⟩ := Recognizes.sound recognizes_conditions hwhere
    obtain ⟨middle, rfl, hmiddle⟩ := Recognizes.sound recognizes_ordering horder
    obtain ⟨back, rfl, hback⟩ := Recognizes.sound recognizes_limit hlimit
    exact ⟨front ++ middle ++ back, by simp, .intro hfront hmiddle hback⟩
  · rintro _ rest _ ⟨hwhere, horder, hlimit⟩ ⟨hendsWhere, hendsOrder, hends⟩
    rename_i front middle back found column d bound
    have hbehindOrder : EndsOrder (current (back ++ rest)) :=
      current_limit hlimit (by simp [EndsOrder, EndsDirection]) hendsOrder
    have hbehindWhere : EndsWhere (current (middle ++ (back ++ rest))) :=
      current_order horder (by simp [EndsWhere])
        (current_limit hlimit (by simp [EndsWhere]) hendsWhere)
    have hordering : ordering.run (middle ++ (back ++ rest)) = (.ok (column, d), back ++ rest) :=
      Recognizes.complete recognizes_ordering horder hbehindOrder
    unfold clause
    rw [List.append_assoc, List.append_assoc]
    rw [run_bind_of_ok (Recognizes.complete recognizes_conditions hwhere hbehindWhere)]
    rw [run_bind_of_ok hordering]
    rw [run_bind_of_ok (Recognizes.complete recognizes_limit hlimit hends), run_pure]

/-! Projections. -/

/-- The first token of a list of names stands for the first name. -/
theorem exists_first_name {separator : Token} {tokens : List Token} {names : List String}
    (hnames : SpellsList separator SpellsName tokens names) :
    ∃ token others s, tokens = token :: others ∧ names.head? = some s ∧ name? token = some s := by
  cases hnames with
  | last hname =>
    obtain ⟨token, rfl, hmeaning⟩ := spellsName_iff.1 hname
    exact ⟨token, [], _, rfl, rfl, hmeaning⟩
  | more hname hothers =>
    obtain ⟨token, rfl, hmeaning⟩ := spellsName_iff.1 hname
    exact ⟨token, _, _, rfl, rfl, hmeaning⟩

theorem recognizes_names : Recognizes (commaList name) (SpellsList .comma SpellsName) (· ≠ .comma) :=
  (recognizes_separatedBy recognizes_name trivial).mono fun _ hne => ⟨trivial, hne⟩

theorem recognizes_projection : Recognizes projection SpellsProjection (· ≠ .comma) := by
  constructor
  · intro tokens rest found hrun
    unfold projection at hrun
    rw [run_peek_bind] at hrun
    split at hrun
    · next hstar =>
      obtain ⟨others, rfl⟩ := exists_cons_of_current hstar (by decide)
      cases hrun
      exact ⟨[.star], rfl, .star⟩
    · next hone =>
      obtain ⟨others, rfl⟩ := exists_cons_of_current hone (by decide)
      cases hrun
      exact ⟨[.integer 1], rfl, .one⟩
    · next hstar hone =>
      obtain ⟨names, hnames, rfl⟩ := run_map_eq_ok_iff.1 hrun
      obtain ⟨taken, rfl, hspells⟩ := Recognizes.sound recognizes_names hnames
      refine ⟨taken, rfl, .columns hspells ?_⟩
      obtain ⟨token, others, _, rfl, -, -⟩ := exists_first_name hspells
      intro hhead
      exact hone (Option.some.inj hhead)
  · intro taken rest found hspells hrest
    cases hspells with
    | star => rfl
    | one => rfl
    | columns hnames hfirst =>
      have hrun := Recognizes.complete recognizes_names hnames hrest
      obtain ⟨token, others, s, rfl, -, hmeaning⟩ := exists_first_name hnames
      unfold projection
      rw [run_peek_bind]
      split
      · next hstar =>
        obtain rfl : token = .star := hstar
        cases hmeaning
      · next hone =>
        obtain rfl : token = .integer 1 := hone
        exact absurd rfl hfirst
      · exact run_map_eq_ok_iff.2 ⟨_, hrun, rfl⟩

/-! What follows on the first word of a statement. -/

theorem recognizes_columnSpecs :
    Recognizes (parenthesized (commaList columnSpec)) (SpellsTuple SpellsColumn) Anywhere :=
  recognizes_tuple recognizes_columnSpec fun _ hends => hends

theorem recognizes_nameTuple :
    Recognizes (parenthesized (commaList name)) (SpellsTuple SpellsName) Anywhere :=
  recognizes_tuple recognizes_name fun _ _ => trivial

theorem recognizes_tuples :
    Recognizes (commaList (parenthesized (commaList literal)))
      (SpellsList .comma (SpellsTuple SpellsLiteral)) (· ≠ .comma) :=
  (recognizes_separatedBy (recognizes_tuple recognizes_literal fun _ _ => trivial) trivial).mono
    fun _ hne => ⟨trivial, hne⟩

theorem recognizes_assignments :
    Recognizes (commaList assignment) (SpellsList .comma SpellsAssignment) (· ≠ .comma) :=
  (recognizes_separatedBy recognizes_assignment trivial).mono fun _ hne => ⟨trivial, hne⟩

theorem recognizes_targets :
    Recognizes targets SpellsTargets (· ≠ .openParen) := by
  constructor
  · intro tokens rest columns hrun
    unfold targets at hrun
    rw [run_peek_bind] at hrun
    split at hrun
    · obtain ⟨names, hnames, rfl⟩ := run_map_eq_ok_iff.1 hrun
      obtain ⟨taken, htaken, hspells⟩ := Recognizes.sound recognizes_nameTuple hnames
      exact ⟨taken, htaken, .some hspells⟩
    · cases hrun
      exact ⟨[], rfl, .none⟩
  · intro taken rest columns hspells hrest
    unfold targets
    rw [run_peek_bind]
    cases hspells with
    | none =>
      rw [List.nil_append, if_neg hrest]
      rfl
    | some hnames =>
      have hopen : current (taken ++ rest) = .openParen := by
        obtain ⟨hitems⟩ := hnames
        rfl
      rw [if_pos hopen]
      exact run_map_eq_ok_iff.2 ⟨_, Recognizes.complete recognizes_nameTuple hnames trivial, rfl⟩

theorem sound_afterCreate {tokens rest : List Token} {s : Statement}
    (hrun : afterCreate.run tokens = (.ok s, rest)) :
    ∃ taken, tokens = taken ++ rest ∧ SpellsStatement (.keyword .CREATE :: taken) s := by
  unfold afterCreate at hrun
  rw [run_peek_bind] at hrun
  split at hrun
  · next hdatabase =>
    obtain ⟨others, rfl⟩ := exists_cons_of_current hdatabase (by decide)
    rw [run_advance_bind] at hrun
    obtain ⟨name, hname, rfl⟩ := run_map_eq_ok_iff.1 hrun
    obtain ⟨taken, rfl, hspells⟩ := Recognizes.sound recognizes_name hname
    exact ⟨.keyword .DATABASE :: taken, rfl, .createDatabase hspells⟩
  · next htable =>
    obtain ⟨others, rfl⟩ := exists_cons_of_current htable (by decide)
    rw [run_advance_bind] at hrun
    obtain ⟨table, afterName, hname, hrun⟩ := run_bind_eq_ok_iff.1 hrun
    obtain ⟨columns, afterColumns, hcolumns, hrun⟩ := run_bind_eq_ok_iff.1 hrun
    cases hrun
    obtain ⟨front, rfl, hfront⟩ := Recognizes.sound recognizes_name hname
    obtain ⟨back, rfl, hback⟩ := Recognizes.sound recognizes_columnSpecs hcolumns
    exact ⟨.keyword .TABLE :: front ++ back, by simp, .createTable hfront hback⟩
  · cases hrun

theorem sound_afterDrop {tokens rest : List Token} {s : Statement}
    (hrun : afterDrop.run tokens = (.ok s, rest)) :
    ∃ taken, tokens = taken ++ rest ∧ SpellsStatement (.keyword .DROP :: taken) s := by
  unfold afterDrop at hrun
  rw [run_peek_bind] at hrun
  split at hrun
  · next hdatabase =>
    obtain ⟨others, rfl⟩ := exists_cons_of_current hdatabase (by decide)
    rw [run_advance_bind] at hrun
    obtain ⟨name, hname, rfl⟩ := run_map_eq_ok_iff.1 hrun
    obtain ⟨taken, rfl, hspells⟩ := Recognizes.sound recognizes_name hname
    exact ⟨.keyword .DATABASE :: taken, rfl, .dropDatabase hspells⟩
  · next htable =>
    obtain ⟨others, rfl⟩ := exists_cons_of_current htable (by decide)
    rw [run_advance_bind] at hrun
    obtain ⟨table, hname, rfl⟩ := run_map_eq_ok_iff.1 hrun
    obtain ⟨taken, rfl, hspells⟩ := Recognizes.sound recognizes_name hname
    exact ⟨.keyword .TABLE :: taken, rfl, .dropTable hspells⟩
  · cases hrun

theorem sound_afterShow {tokens rest : List Token} {s : Statement}
    (hrun : afterShow.run tokens = (.ok s, rest)) :
    ∃ taken, tokens = taken ++ rest ∧ SpellsStatement (.keyword .SHOW :: taken) s := by
  unfold afterShow at hrun
  rw [run_peek_bind] at hrun
  split at hrun
  · next hdatabases =>
    obtain ⟨others, rfl⟩ := exists_cons_of_current hdatabases (by decide)
    cases hrun
    exact ⟨[.keyword .DATABASES], rfl, .showDatabases⟩
  · next htables =>
    obtain ⟨others, rfl⟩ := exists_cons_of_current htables (by decide)
    cases hrun
    exact ⟨[.keyword .TABLES], rfl, .showTables⟩
  · cases hrun

theorem sound_afterInsert {tokens rest : List Token} {s : Statement}
    (hrun : afterInsert.run tokens = (.ok s, rest)) :
    ∃ taken, tokens = taken ++ rest ∧ SpellsStatement (.keyword .INSERT :: taken) s := by
  obtain ⟨_, afterInto, hinto, hrun⟩ := run_bind_eq_ok_iff.1 hrun
  obtain ⟨table, afterName, hname, hrun⟩ := run_bind_eq_ok_iff.1 hrun
  obtain ⟨columns, afterColumns, hcolumns, hrun⟩ := run_bind_eq_ok_iff.1 hrun
  obtain ⟨_, afterValues, hvalues, hrun⟩ := run_bind_eq_ok_iff.1 hrun
  obtain ⟨tuples, afterTuples, htuples, hrun⟩ := run_bind_eq_ok_iff.1 hrun
  cases hrun
  obtain rfl := (run_expect_eq_ok_iff (by decide)).1 hinto
  obtain ⟨front, rfl, hfront⟩ := Recognizes.sound recognizes_name hname
  obtain ⟨middle, rfl, hmiddle⟩ := Recognizes.sound recognizes_targets hcolumns
  obtain rfl := (run_expect_eq_ok_iff (by decide)).1 hvalues
  obtain ⟨back, rfl, hback⟩ := Recognizes.sound recognizes_tuples htuples
  exact ⟨.keyword .INTO :: front ++ middle ++ .keyword .VALUES :: back, by simp,
    .insert hfront hmiddle hback⟩

theorem complete_afterInsert {front middle back rest : List Token} {table : String}
    {columns : Option (List String)} {tuples : List (List Value)} (htable : SpellsName front table)
    (hcolumns : SpellsTargets middle columns)
    (htuples : SpellsList .comma (SpellsTuple SpellsLiteral) back tuples)
    (hrest : EndsStatement (current rest)) :
    afterInsert.run (.keyword .INTO :: front ++ middle ++ .keyword .VALUES :: back ++ rest) =
      (.ok (.insert table columns tuples), rest) := by
  have hends : current rest ≠ .comma := by rcases hrest with heq | heq <;> simp [heq]
  have htokens : .keyword .INTO :: front ++ middle ++ .keyword .VALUES :: back ++ rest =
      .keyword .INTO :: (front ++ (middle ++ .keyword .VALUES :: (back ++ rest))) := by simp
  have htargets : targets.run (middle ++ .keyword .VALUES :: (back ++ rest)) =
      (.ok columns, .keyword .VALUES :: (back ++ rest)) :=
    Recognizes.complete recognizes_targets hcolumns (by simp [current])
  unfold afterInsert
  rw [htokens, run_bind_of_ok (run_expectKeyword _ _),
    run_bind_of_ok (Recognizes.complete recognizes_name htable trivial), run_bind_of_ok htargets,
    run_bind_of_ok (run_expectKeyword _ _),
    run_bind_of_ok (Recognizes.complete recognizes_tuples htuples hends), run_pure]

theorem sound_afterSelect {tokens rest : List Token} {s : Statement}
    (hrun : afterSelect.run tokens = (.ok s, rest)) :
    ∃ taken, tokens = taken ++ rest ∧ SpellsStatement (.keyword .SELECT :: taken) s := by
  obtain ⟨found, afterProjection, hprojection, hrun⟩ := run_bind_eq_ok_iff.1 hrun
  obtain ⟨_, afterFrom, hfrom, hrun⟩ := run_bind_eq_ok_iff.1 hrun
  obtain ⟨table, afterName, hname, hrun⟩ := run_bind_eq_ok_iff.1 hrun
  obtain ⟨found, afterClause, hclause, hrun⟩ := run_bind_eq_ok_iff.1 hrun
  cases hrun
  obtain ⟨front, rfl, hfront⟩ := Recognizes.sound recognizes_projection hprojection
  obtain rfl := (run_expect_eq_ok_iff (by decide)).1 hfrom
  obtain ⟨middle, rfl, hmiddle⟩ := Recognizes.sound recognizes_name hname
  obtain ⟨back, rfl, hback⟩ := Recognizes.sound recognizes_clause hclause
  exact ⟨front ++ .keyword .FROM :: middle ++ back, by simp, by
    simpa using SpellsStatement.select hfront hmiddle hback⟩

theorem complete_afterSelect {front middle back rest : List Token} {found : Projection}
    {table : String} {c : Clause} (hprojection : SpellsProjection front found)
    (htable : SpellsName middle table) (hclause : SpellsClause back c)
    (hrest : EndsStatement (current rest)) :
    afterSelect.run (front ++ (.keyword .FROM :: (middle ++ (back ++ rest)))) =
      (.ok (.select found table c), rest) := by
  have hfront : projection.run (front ++ .keyword .FROM :: (middle ++ (back ++ rest))) =
      (.ok found, .keyword .FROM :: (middle ++ (back ++ rest))) :=
    Recognizes.complete recognizes_projection hprojection (by simp [current])
  unfold afterSelect
  rw [run_bind_of_ok hfront, run_bind_of_ok (run_expectKeyword _ _),
    run_bind_of_ok (Recognizes.complete recognizes_name htable trivial),
    run_bind_of_ok (Recognizes.complete recognizes_clause hclause hrest.endsClause), run_pure]

theorem sound_afterUpdate {tokens rest : List Token} {s : Statement}
    (hrun : afterUpdate.run tokens = (.ok s, rest)) :
    ∃ taken, tokens = taken ++ rest ∧ SpellsStatement (.keyword .UPDATE :: taken) s := by
  obtain ⟨table, afterName, hname, hrun⟩ := run_bind_eq_ok_iff.1 hrun
  obtain ⟨_, afterSet, hset, hrun⟩ := run_bind_eq_ok_iff.1 hrun
  obtain ⟨assignments, afterAssignments, hassignments, hrun⟩ := run_bind_eq_ok_iff.1 hrun
  obtain ⟨found, afterClause, hclause, hrun⟩ := run_bind_eq_ok_iff.1 hrun
  cases hrun
  obtain ⟨front, rfl, hfront⟩ := Recognizes.sound recognizes_name hname
  obtain rfl := (run_expect_eq_ok_iff (by decide)).1 hset
  obtain ⟨middle, rfl, hmiddle⟩ := Recognizes.sound recognizes_assignments hassignments
  obtain ⟨back, rfl, hback⟩ := Recognizes.sound recognizes_clause hclause
  exact ⟨front ++ .keyword .SET :: middle ++ back, by simp, by
    simpa using SpellsStatement.update hfront hmiddle hback⟩

theorem complete_afterUpdate {front middle back rest : List Token} {table : String}
    {assignments : List Assignment} {c : Clause} (htable : SpellsName front table)
    (hassignments : SpellsList .comma SpellsAssignment middle assignments)
    (hclause : SpellsClause back c) (hrest : EndsStatement (current rest)) :
    afterUpdate.run (front ++ (.keyword .SET :: (middle ++ (back ++ rest)))) =
      (.ok (.update table assignments c), rest) := by
  have hends : current (back ++ rest) ≠ .comma :=
    current_clause (P := (· ≠ .comma)) hclause (by decide) (by decide) (by decide)
      (by rcases hrest with heq | heq <;> simp [heq])
  unfold afterUpdate
  rw [run_bind_of_ok (Recognizes.complete recognizes_name htable trivial),
    run_bind_of_ok (run_expectKeyword _ _),
    run_bind_of_ok (Recognizes.complete recognizes_assignments hassignments hends),
    run_bind_of_ok (Recognizes.complete recognizes_clause hclause hrest.endsClause), run_pure]

theorem sound_afterDelete {tokens rest : List Token} {s : Statement}
    (hrun : afterDelete.run tokens = (.ok s, rest)) :
    ∃ taken, tokens = taken ++ rest ∧ SpellsStatement (.keyword .DELETE :: taken) s := by
  obtain ⟨_, afterFrom, hfrom, hrun⟩ := run_bind_eq_ok_iff.1 hrun
  obtain ⟨table, afterName, hname, hrun⟩ := run_bind_eq_ok_iff.1 hrun
  obtain ⟨found, afterClause, hclause, hrun⟩ := run_bind_eq_ok_iff.1 hrun
  cases hrun
  obtain rfl := (run_expect_eq_ok_iff (by decide)).1 hfrom
  obtain ⟨front, rfl, hfront⟩ := Recognizes.sound recognizes_name hname
  obtain ⟨back, rfl, hback⟩ := Recognizes.sound recognizes_clause hclause
  exact ⟨.keyword .FROM :: front ++ back, by simp, .delete hfront hback⟩

/-! Statements. -/

theorem sound_statement {tokens rest : List Token} {s : Statement}
    (hrun : statement.run tokens = (.ok s, rest)) :
    ∃ taken, tokens = taken ++ rest ∧ SpellsStatement taken s := by
  have hword {keyword : Keyword} {others : List Token}
      (hothers : ∃ taken, others = taken ++ rest ∧ SpellsStatement (.keyword keyword :: taken) s) :
      ∃ taken, .keyword keyword :: others = taken ++ rest ∧ SpellsStatement taken s := by
    obtain ⟨taken, rfl, hspells⟩ := hothers
    exact ⟨.keyword keyword :: taken, rfl, hspells⟩
  unfold statement at hrun
  rw [run_peek_bind] at hrun
  split at hrun
  case h_10 => cases hrun
  all_goals
    rename_i hcurrent
    obtain ⟨others, rfl⟩ := exists_cons_of_current hcurrent (by decide)
    rw [run_advance_bind] at hrun
    apply hword
  · exact sound_afterCreate hrun
  · exact sound_afterDrop hrun
  · obtain ⟨name, hname, rfl⟩ := run_map_eq_ok_iff.1 hrun
    obtain ⟨taken, rfl, hspells⟩ := Recognizes.sound recognizes_name hname
    exact ⟨taken, rfl, .useDatabase hspells⟩
  · exact sound_afterShow hrun
  · obtain ⟨table, hname, rfl⟩ := run_map_eq_ok_iff.1 hrun
    obtain ⟨taken, rfl, hspells⟩ := Recognizes.sound recognizes_name hname
    exact ⟨taken, rfl, .describe hspells⟩
  · exact sound_afterInsert hrun
  · exact sound_afterSelect hrun
  · exact sound_afterUpdate hrun
  · exact sound_afterDelete hrun

theorem run_map_name {tokens : List Token} {s : String} (hname : SpellsName tokens s)
    (f : String → α) (rest : List Token) :
    (f <$> name).run (tokens ++ rest) = (.ok (f s), rest) :=
  run_map_eq_ok_iff.2 ⟨s, Recognizes.complete recognizes_name hname trivial, rfl⟩

theorem complete_statement {taken rest : List Token} {s : Statement}
    (hspells : SpellsStatement taken s) (hrest : EndsStatement (current rest)) :
    statement.run (taken ++ rest) = (.ok s, rest) := by
  cases hspells with
  | createDatabase hname => exact run_map_name hname Statement.createDatabase rest
  | dropDatabase hname => exact run_map_name hname Statement.dropDatabase rest
  | useDatabase hname => exact run_map_name hname Statement.useDatabase rest
  | showDatabases => rfl
  | showTables => rfl
  | createTable htable hcolumns =>
    rename_i front back table columns
    change (name >>= fun table => do
      let columns ← parenthesized (commaList columnSpec)
      pure (Statement.createTable table columns)).run (front ++ back ++ rest) = _
    rw [List.append_assoc, run_bind_of_ok (Recognizes.complete recognizes_name htable trivial),
      run_bind_of_ok (Recognizes.complete recognizes_columnSpecs hcolumns trivial), run_pure]
  | dropTable htable => exact run_map_name htable Statement.dropTable rest
  | describe htable => exact run_map_name htable Statement.describe rest
  | insert htable hcolumns htuples => exact complete_afterInsert htable hcolumns htuples hrest
  | select hprojection htable hclause =>
    rename_i front middle back _ _ _
    change afterSelect.run (front ++ .keyword .FROM :: middle ++ back ++ rest) = _
    have hrun := complete_afterSelect hprojection htable hclause hrest
    simpa using hrun
  | update htable hassignments hclause =>
    rename_i front middle back _ _ _
    change afterUpdate.run (front ++ .keyword .SET :: middle ++ back ++ rest) = _
    have hrun := complete_afterUpdate htable hassignments hclause hrest
    simpa using hrun
  | delete htable hclause =>
    rename_i front back _ _
    change afterDelete.run (.keyword .FROM :: front ++ back ++ rest) = _
    unfold afterDelete
    rw [List.append_assoc, List.cons_append, run_bind_of_ok (run_expectKeyword _ _),
      run_bind_of_ok (Recognizes.complete recognizes_name htable trivial),
      run_bind_of_ok (Recognizes.complete recognizes_clause hclause hrest.endsClause), run_pure]

theorem recognizes_statement : Recognizes statement SpellsStatement EndsStatement :=
  ⟨sound_statement, complete_statement⟩

/-- What the grammar derives is accepted, and nothing but the end marker is left. -/
theorem run_wholeStatement {tokens : List Token} {s : Statement} (hinput : SpellsInput tokens s) :
    wholeStatement.run tokens = (.ok s, [.endOfInput]) := by
  unfold wholeStatement
  cases hinput with
  | bare hstatement =>
    rw [run_bind_of_ok (Recognizes.complete recognizes_statement hstatement (.inr rfl))]
    rfl
  | ended hstatement =>
    rw [run_bind_of_ok (Recognizes.complete recognizes_statement hstatement (.inl rfl))]
    rfl

end TableEngine.Parser
