import TableEngine.Proofs.Printing
import TableEngine.Session

/-!
Scripts of printed statements. No printed text lets a script be cut inside of it (`Script.Seamless`), so
a script is cut back into the texts that it was put together from, and executing it does what executing
the statements does (`Session.executeScript_join`).
-/

namespace TableEngine

namespace Script

theorem foldr_push (text piece : List Char) (pieces : List (List Char)) :
    text.foldr push (piece :: pieces) = (text ++ piece) :: pieces := by
  induction text with
  | nil => rfl
  | cons c text ih => rw [List.foldr_cons, ih, push, List.cons_append]

/-- A text that no cut goes through and that leaves no quote open. -/
def Seamless (text : List Char) : Prop :=
  ∀ rest, cut none (text ++ rest) = text.foldr push (cut none rest)

theorem seamless_nil : Seamless [] :=
  fun _ => rfl

theorem Seamless.append {front back : List Char} (hfront : Seamless front)
    (hback : Seamless back) : Seamless (front ++ back) := by
  intro rest
  rw [List.append_assoc, hfront, hback, List.foldr_append]

/-- A character that neither ends a statement nor opens a quote. -/
def isPlain (c : Char) : Bool :=
  c ∉ [';', '\\', '\'', '"']

theorem cut_of_isPlain {c : Char} (hc : isPlain c = true) (rest : List Char) :
    cut none (c :: rest) = push c (cut none rest) := by
  simp only [isPlain, List.mem_cons, List.not_mem_nil, or_false, not_or, decide_eq_true_eq] at hc
  obtain ⟨hsemicolon, hbackslash, hsingle, hdouble⟩ := hc
  rw [cut]
  · simp [quoteAfter, isQuote, hsingle, hdouble]
  · exact fun _ => hsemicolon
  · exact fun _ _ heq _ => hbackslash heq

theorem seamless_of_isPlain {text : List Char} (htext : text.all isPlain = true) :
    Seamless text := by
  intro rest
  induction text with
  | nil => rfl
  | cons c text ih =>
    rw [List.all_cons, Bool.and_eq_true] at htext
    rw [List.cons_append, cut_of_isPlain htext.1, ih htext.2, List.foldr_cons]

/-- Inside of quotes nothing ends a statement. -/
theorem cut_some (q c : Char) (rest : List Char) :
    cut (some q) (c :: rest) = push c (cut (quoteAfter (some q) c) rest) := by
  rw [cut]
  all_goals nofun

theorem cut_opening {q : Char} (hq : isQuote q = true) (rest : List Char) :
    cut none (q :: rest) = push q (cut (some q) rest) := by
  rw [cut]
  · rw [quoteAfter, if_pos hq]
  · rintro - rfl
    cases hq
  · rintro _ - rfl
    cases hq

theorem cut_closing (q : Char) (rest : List Char) :
    cut (some q) (q :: rest) = push q (cut none rest) := by
  rw [cut_some, quoteAfter, if_pos rfl]

/-- A quote of the text is written twice, which closes the quote and opens it again. -/
theorem cut_doubled (text rest : List Char) :
    cut (some '\'')
        (text.flatMap (fun c => if c = '\'' then ['\'', '\''] else [c]) ++ '\'' :: rest) =
      (text.flatMap (fun c => if c = '\'' then ['\'', '\''] else [c]) ++ ['\'']).foldr push
        (cut none rest) := by
  induction text with
  | nil => exact cut_closing '\'' rest
  | cons c text ih =>
    rw [List.flatMap_cons, List.append_assoc, List.append_assoc]
    by_cases hc : c = '\''
    · rw [if_pos hc, List.cons_append, List.cons_append, List.nil_append, cut_closing, cut_opening rfl, ih]
      rfl
    · have hinside : quoteAfter (some '\'') c = some '\'' := if_neg hc
      rw [if_neg hc, List.cons_append, List.nil_append, cut_some, hinside, ih]
      rfl

theorem seamless_quoted (text : List Char) : Seamless (Value.quoted text) := by
  intro rest
  rw [Value.quoted, List.append_assoc, List.cons_append, List.cons_append, cut_opening rfl]
  rw [List.nil_append, cut_doubled]
  rfl

theorem cut_of_seamless {text : List Char} (htext : Seamless text) : cut none text = [text] := by
  have hcut := htext []
  rwa [List.append_nil, cut, foldr_push, List.append_nil] at hcut

theorem cut_semicolon {text : List Char} (htext : Seamless text) (rest : List Char) :
    cut none (text ++ ';' :: rest) = text :: cut none rest := by
  rw [htext, cut, foldr_push, List.append_nil]

theorem cut_intercalate {texts : List (List Char)} (hne : texts ≠ [])
    (htexts : ∀ text ∈ texts, Seamless text) : cut none (List.intercalate [';'] texts) = texts := by
  induction texts with
  | nil => exact absurd rfl hne
  | cons first others ih =>
    rw [List.forall_mem_cons] at htexts
    cases others with
    | nil =>
      have hcut := cut_of_seamless htexts.1
      simpa [List.intercalate] using hcut
    | cons second others =>
      have hjoin : List.intercalate [';'] (first :: second :: others) =
          first ++ ';' :: List.intercalate [';'] (second :: others) := by simp [List.intercalate]
      rw [hjoin, cut_semicolon htexts.1, ih (List.cons_ne_nil _ _) htexts.2]

/-! Printed statements are seamless. -/

theorem isPlain_of_isWordChar {c : Char} (hc : Lexer.isWordChar c = true) : isPlain c = true := by
  simp only [isPlain, List.mem_cons, List.not_mem_nil, or_false, not_or, decide_eq_true_eq]
  refine ⟨?_, ?_, ?_, ?_⟩
  all_goals
    rintro rfl
    cases hc

theorem seamless_name {name : String} (hname : IsName name) : Seamless name.toList :=
  seamless_of_isPlain <| List.all_eq_true.2 fun c hc => isPlain_of_isWordChar (hname.chars c hc)

theorem seamless_natDigits (n : Nat) : Seamless (Text.natDigits n) :=
  seamless_of_isPlain <| List.all_eq_true.2 fun _ hc =>
    isPlain_of_isWordChar (Lexer.isWordChar_of_isDigit (Text.isDigit_of_mem_natDigits hc))

theorem seamless_literal (value : Value) : Seamless value.chars := by
  cases value with
  | null => exact seamless_of_isPlain (by decide)
  | integer n =>
    rw [Value.chars, Value.literal, String.toList_ofList, Text.intDigits]
    split
    · exact (seamless_of_isPlain (by decide) : Seamless ['-']).append (seamless_natDigits _)
    · exact seamless_natDigits _
  | text s =>
    rw [Value.chars, Value.literal, String.toList_ofList]
    exact seamless_quoted s.toList

theorem seamless_intercalate {between : List Char} (hbetween : Seamless between)
    {texts : List (List Char)} (htexts : ∀ text ∈ texts, Seamless text) :
    Seamless (List.intercalate between texts) := by
  induction texts with
  | nil => exact seamless_nil
  | cons first others ih =>
    rw [List.forall_mem_cons] at htexts
    cases others with
    | nil => simpa [List.intercalate] using htexts.1
    | cons second others =>
      have hothers := htexts.1.append (hbetween.append (ih htexts.2))
      simpa [List.intercalate] using hothers

theorem seamless_commaSeparated {α : Type} {chars : α → List Char} {items : List α}
    (hitems : ∀ item ∈ items, Seamless (chars item)) :
    Seamless (Printer.commaSeparated (items.map chars)) :=
  seamless_intercalate (seamless_of_isPlain (by decide)) (List.forall_mem_map.2 hitems)

theorem seamless_blank : Seamless [' '] :=
  seamless_of_isPlain (by decide)

theorem Seamless.inParentheses {text : List Char} (htext : Seamless text) :
    Seamless ('(' :: text ++ [')']) := by
  have hopen : Seamless ['('] := seamless_of_isPlain (by decide)
  have hclose : Seamless [')'] := seamless_of_isPlain (by decide)
  exact (hopen.append htext).append hclose

theorem seamless_parenthesized {α : Type} {chars : α → List Char} {items : List α}
    (hitems : ∀ item ∈ items, Seamless (chars item)) :
    Seamless (Printer.parenthesized (items.map chars)) :=
  (seamless_commaSeparated hitems).inParentheses

theorem seamless_type (type : ColumnType) : Seamless type.display.toList := by
  obtain ⟨kind, size⟩ := type
  have hkind : Seamless kind.keyword.toList := by
    apply seamless_of_isPlain
    cases kind <;> decide
  cases size with
  | none => exact hkind
  | some size =>
    have htext := hkind.append (seamless_natDigits size.toNat).inParentheses
    simpa [ColumnType.display] using htext

theorem seamless_column {spec : ColumnSpec} (hspec : spec.IsPrintable) : Seamless spec.chars := by
  obtain ⟨type, htype, -⟩ := hspec.type
  have htext := (seamless_name hspec.name).append (seamless_blank.append (seamless_type type))
  rwa [← htype] at htext

theorem seamless_condition {condition : Condition} (hcolumn : IsName condition.column) :
    Seamless condition.chars := by
  have hsign : Seamless condition.comparison.display.toList := by
    apply seamless_of_isPlain
    cases condition.comparison <;> decide
  exact ((seamless_name hcolumn).append (seamless_blank.append hsign)).append
    (seamless_blank.append (seamless_literal condition.literal))

theorem seamless_assignment {assignment : Assignment} (hcolumn : IsName assignment.column) :
    Seamless assignment.chars := by
  have hsign : Seamless " = ".toList := seamless_of_isPlain (by decide)
  exact ((seamless_name hcolumn).append hsign).append (seamless_literal assignment.value)

theorem seamless_clause {clause : Clause} (hclause : clause.IsPrintable) : Seamless clause.chars := by
  have hwhere : Seamless clause.whereChars := by
    unfold Clause.whereChars
    split
    · exact seamless_nil
    · have hkeyword : Seamless " WHERE ".toList := seamless_of_isPlain (by decide)
      have hand : Seamless " AND ".toList := seamless_of_isPlain (by decide)
      exact hkeyword.append (seamless_intercalate hand (List.forall_mem_map.2
        fun condition hmem => seamless_condition (hclause.conditions condition hmem)))
  have horder : Seamless clause.orderChars := by
    have hkeyword : Seamless " ORDER BY ".toList := seamless_of_isPlain (by decide)
    unfold Clause.orderChars
    split
    · exact seamless_nil
    · next column hcolumn _ =>
      exact hkeyword.append (seamless_name (hclause.orderBy column hcolumn))
    · next column hcolumn _ =>
      have hdesc : Seamless " DESC".toList := seamless_of_isPlain (by decide)
      exact (hkeyword.append (seamless_name (hclause.orderBy column hcolumn))).append hdesc
  have hlimit : Seamless clause.limitChars := by
    unfold Clause.limitChars
    split
    · exact seamless_nil
    · have hkeyword : Seamless " LIMIT ".toList := seamless_of_isPlain (by decide)
      exact hkeyword.append (seamless_natDigits _)
  exact (hwhere.append horder).append hlimit

/-- A command that only names what it is about. -/
theorem seamless_command {words : List Char} (hwords : words.all isPlain = true)
    {name : String} (hname : IsName name) : Seamless (words ++ name.toList) :=
  (seamless_of_isPlain hwords).append (seamless_name hname)

theorem seamless_statement {s : Statement} (hs : s.IsPrintable) : Seamless s.chars := by
  cases s with
  | createDatabase name => exact seamless_command (by decide) hs
  | dropDatabase name => exact seamless_command (by decide) hs
  | useDatabase name => exact seamless_command (by decide) hs
  | showDatabases => exact seamless_of_isPlain (by decide)
  | showTables => exact seamless_of_isPlain (by decide)
  | createTable table columns =>
    obtain ⟨htable, -, hcolumns⟩ := hs
    exact (seamless_command (by decide) htable).append (seamless_blank.append
      (seamless_parenthesized fun spec hmem => seamless_column (hcolumns spec hmem)))
  | dropTable table => exact seamless_command (by decide) hs
  | describe table => exact seamless_command (by decide) hs
  | insert table columns tuples =>
    obtain ⟨htable, hcolumns, -⟩ := hs
    have htargets : Seamless (Statement.targetChars columns) := by
      cases columns with
      | none => exact seamless_nil
      | some names =>
        exact seamless_blank.append (seamless_parenthesized fun name hmem =>
          seamless_name ((hcolumns names rfl).2 name hmem))
    have hvalues : Seamless " VALUES ".toList := seamless_of_isPlain (by decide)
    exact (((seamless_command (by decide) htable).append htargets).append hvalues).append
      (seamless_commaSeparated fun tuple _ =>
        seamless_parenthesized fun value _ => seamless_literal value)
  | select projection table clause =>
    obtain ⟨hprojection, htable, hclause⟩ := hs
    have hcolumns : Seamless projection.chars := by
      cases projection with
      | all => exact seamless_of_isPlain (by decide)
      | columns names =>
        exact seamless_commaSeparated fun name hmem => seamless_name (hprojection.2.1 name hmem)
    have hselect : Seamless "SELECT ".toList := seamless_of_isPlain (by decide)
    have hfrom : Seamless " FROM ".toList := seamless_of_isPlain (by decide)
    exact (((hselect.append hcolumns).append hfrom).append (seamless_name htable)).append
      (seamless_clause hclause)
  | update table assignments clause =>
    obtain ⟨htable, ⟨-, hassignments⟩, hclause⟩ := hs
    have hset : Seamless " SET ".toList := seamless_of_isPlain (by decide)
    exact (((seamless_command (by decide) htable).append hset).append
      (seamless_commaSeparated fun assignment hmem =>
        seamless_assignment (hassignments assignment hmem))).append (seamless_clause hclause)
  | delete table clause =>
    obtain ⟨htable, hclause⟩ := hs
    exact (seamless_command (by decide) htable).append (seamless_clause hclause)

/-- The text of a script: the texts of statements with semicolons between them. -/
def join (statements : List Statement) : String :=
  String.ofList (List.intercalate [';'] (statements.map Statement.chars))

theorem chars_ne_nil {s : Statement} (hs : s.IsPrintable) : s.chars ≠ [] := by
  obtain ⟨front, c, htext, -⟩ := closes_statement hs
  rw [htext]
  exact List.append_ne_nil_of_right_ne_nil _ (List.cons_ne_nil _ _)

/-- A script is cut into the texts that it was put together from. -/
theorem statements_join {statements : List Statement}
    (hprintable : ∀ s ∈ statements, s.IsPrintable) :
    Script.statements (join statements) = statements.map Statement.print := by
  cases hcases : statements with
  | nil => rfl
  | cons first others =>
    rw [← hcases]
    have hne : statements.map Statement.chars ≠ [] := by simp [hcases]
    have hcut : cut none (List.intercalate [';'] (statements.map Statement.chars)) =
        statements.map Statement.chars :=
      cut_intercalate hne (List.forall_mem_map.2 fun s hmem => seamless_statement (hprintable s hmem))
    have htrim : (statements.map Statement.chars).map Text.trim = statements.map Statement.chars := by
      rw [List.map_map]
      exact List.map_congr_left fun s hmem => trim_chars (hprintable s hmem)
    have hfilter : (statements.map Statement.chars).filter (!·.isEmpty) =
        statements.map Statement.chars :=
      List.filter_eq_self.2 (List.forall_mem_map.2 fun s hmem => by
        simpa using chars_ne_nil (hprintable s hmem))
    rw [Script.statements, pieces, join, String.toList_ofList, hcut, htrim, hfilter, List.map_map]
    rfl

end Script

namespace Session

variable {α β : Type}

/-- A change that does not look at the log and leaves it as it is. -/
def IgnoresLog (change : Mutation Session α) : Prop :=
  ∀ (session : Session) (log : List String),
    change.run { session with log } =
      ({ (change.run session).1 with log }, (change.run session).2)

theorem ignoresLog_pure (a : α) : IgnoresLog (pure a) :=
  fun _ _ => rfl

theorem ignoresLog_fail (error : Error) : IgnoresLog (.fail error : Mutation Session α) :=
  fun _ _ => rfl

theorem ignoresLog_require (condition : Bool) (error : Error) :
    IgnoresLog (.require condition error) := by
  intro session log
  simp

theorem ignoresLog_reading {look : Session → Except Error α}
    (hlook : ∀ (session : Session) (log : List String), look { session with log } = look session) :
    IgnoresLog (.reading look) := by
  intro session log
  simp [hlook]

theorem ignoresLog_modify {f : Session → Session}
    (hf : ∀ (session : Session) (log : List String),
      f { session with log } = { f session with log }) :
    IgnoresLog (modify f : Mutation Session PUnit) := by
  intro session log
  rw [Mutation.run_modify, Mutation.run_modify, hf]

theorem IgnoresLog.bind {change : Mutation Session α} {next : α → Mutation Session β}
    (hchange : IgnoresLog change) (hnext : ∀ a, IgnoresLog (next a)) :
    IgnoresLog (change >>= next) := by
  intro session log
  rw [Mutation.run_bind, Mutation.run_bind, hchange session log]
  cases change.run session with
  | mk after result =>
    cases result with
    | error error => rfl
    | ok a => exact hnext a after log

theorem IgnoresLog.map {change : Mutation Session α} (hchange : IgnoresLog change) (f : α → β) :
    IgnoresLog (f <$> change) :=
  hchange.bind fun a => ignoresLog_pure (f a)

/-- A change that starts with a look at the session may look at anything but the log. -/
theorem ignoresLog_get_bind {next : Session → Mutation Session β}
    (hlook : ∀ (session : Session) (log : List String), next { session with log } = next session)
    (hnext : ∀ session, IgnoresLog (next session)) : IgnoresLog (get >>= next) := by
  intro session log
  rw [Mutation.run_get_bind, Mutation.run_get_bind, hlook]
  exact hnext session session log

theorem ignoresLog_inCatalog (missing : Error) (change : Mutation Catalog α) :
    IgnoresLog (inCatalog missing change) := by
  rintro ⟨catalog, active, _, capacity⟩ log
  cases catalog <;> rfl

theorem ignoresLog_inActive (change : Mutation Database α) : IgnoresLog (inActive change) := by
  apply ignoresLog_get_bind
  · exact fun _ _ => rfl
  · intro session
    split
    · exact ignoresLog_inCatalog _ _
    · exact ignoresLog_fail _

theorem ignoresLog_perform (statement : Statement) : IgnoresLog (perform statement) := by
  cases statement with
  | createDatabase name =>
    exact (ignoresLog_inCatalog _ _).bind fun _ => ignoresLog_pure _
  | dropDatabase name =>
    refine (ignoresLog_inCatalog _ _).bind fun _ => (ignoresLog_modify ?_).bind fun _ =>
      ignoresLog_pure _
    intro session log
    dsimp only
    split <;> rfl
  | useDatabase name =>
    refine ignoresLog_get_bind (fun _ _ => rfl) fun _ => (ignoresLog_require _ _).bind fun _ =>
      (ignoresLog_modify fun _ _ => rfl).bind fun _ => ignoresLog_pure _
  | showDatabases => exact ignoresLog_reading fun _ _ => rfl
  | showTables => exact ignoresLog_reading fun _ _ => rfl
  | createTable name columns =>
    exact (ignoresLog_inActive _).bind fun _ => ignoresLog_pure _
  | dropTable name => exact (ignoresLog_inActive _).bind fun _ => ignoresLog_pure _
  | describe name => exact ignoresLog_reading fun _ _ => rfl
  | insert name columns tuples => exact (ignoresLog_inActive _).map _
  | select projection name clause => exact ignoresLog_reading fun _ _ => rfl
  | update name assignments clause => exact (ignoresLog_inActive _).map _
  | delete name clause => exact (ignoresLog_inActive _).map _

/-- Executes statements one after the other, whether or not they fail. -/
def executeStatements (session : Session) :
    List Statement → Session × List (Except Error Outcome)
  | [] => (session, [])
  | statement :: statements =>
    let (session, result) := session.executeStatement statement
    let (session, results) := executeStatements session statements
    (session, result :: results)

theorem length_executeStatements (session : Session) (statements : List Statement) :
    (session.executeStatements statements).2.length = statements.length := by
  induction statements generalizing session with
  | nil => rfl
  | cons statement statements ih => exact congrArg Nat.succ (ih _)

theorem executeAll_cons (session : Session) (text : String) (texts : List String) :
    session.executeAll (text :: texts) =
      (((session.execute text).1.executeAll texts).1,
        (session.execute text).2 :: ((session.execute text).1.executeAll texts).2) :=
  rfl

theorem executeAll_append (session : Session) (front back : List String) :
    session.executeAll (front ++ back) =
      (((session.executeAll front).1.executeAll back).1,
        (session.executeAll front).2 ++ ((session.executeAll front).1.executeAll back).2) := by
  induction front generalizing session with
  | nil => rfl
  | cons text front ih =>
    rw [List.cons_append, executeAll_cons, ih]
    rfl

theorem execute_print {s : Statement} (hs : s.IsPrintable) (session : Session) (log : List String) :
    ∃ logged, execute { session with log } s.print =
      ({ (session.executeStatement s).1 with log := logged }, (session.executeStatement s).2) := by
  have hparse : Statement.parse s.print = .ok s := Statement.parse_eq_ok_iff.2 (reads_print hs)
  refine ⟨(record { session with log } s.print).log, ?_⟩
  -- The text is logged before it is read, so that the statement runs on a session with another log.
  unfold execute
  rw [hparse]
  exact ignoresLog_perform s session _

/-- Texts that spell statements do what the statements do, and beyond that they are logged. -/
theorem executeAll_print {statements : List Statement}
    (hprintable : ∀ s ∈ statements, s.IsPrintable) (session : Session) (log : List String) :
    ∃ logged, executeAll { session with log } (statements.map Statement.print) =
      ({ (session.executeStatements statements).1 with log := logged },
        (session.executeStatements statements).2) := by
  induction statements generalizing session log with
  | nil => exact ⟨log, rfl⟩
  | cons s statements ih =>
    rw [List.forall_mem_cons] at hprintable
    obtain ⟨afterFirst, hfirst⟩ := execute_print hprintable.1 session log
    obtain ⟨logged, hothers⟩ := ih hprintable.2 (session.executeStatement s).1 afterFirst
    refine ⟨logged, ?_⟩
    rw [List.map_cons, executeAll, hfirst]
    dsimp only
    rw [hothers]
    rfl

/-- A script that is put together from the texts of statements does what the statements do one after
    the other. Nothing that a text in quotes holds ends a statement, starts one, or changes what is
    stored. -/
theorem executeScript_join {statements : List Statement}
    (hprintable : ∀ s ∈ statements, s.IsPrintable) (session : Session) :
    Script.statements (Script.join statements) = statements.map Statement.print ∧
      (session.executeScript (Script.join statements)).2 =
        (session.executeStatements statements).2 ∧
      (session.executeScript (Script.join statements)).2.length = statements.length ∧
      (session.executeScript (Script.join statements)).1.catalog =
        (session.executeStatements statements).1.catalog ∧
      (session.executeScript (Script.join statements)).1.active =
        (session.executeStatements statements).1.active := by
  have hcut := Script.statements_join hprintable
  obtain ⟨logged, hrun⟩ := executeAll_print hprintable session session.log
  have hscript : session.executeScript (Script.join statements) =
      ({ (session.executeStatements statements).1 with log := logged },
        (session.executeStatements statements).2) := by
    rw [executeScript, hcut]
    exact hrun
  rw [hscript]
  exact ⟨hcut, rfl, length_executeStatements session statements, rfl, rfl⟩

/-- Statements of which one stores a text that reads like the end of a statement and the start of
    another one. -/
def injection : List Statement :=
  [.createDatabase "shop", .useDatabase "shop",
    .createTable "notes" [⟨"id", "INT"⟩, ⟨"note", "VARCHAR(40)"⟩],
    .insert "notes" none [[.integer 1, .text "'; DROP TABLE notes; -- \\g"]],
    .select .all "notes" .everything]

theorem executeScript_join_injection :
    (∀ s ∈ injection, s.IsPrintable) ∧
      ((fresh .standard).executeScript (Script.join injection)).2.length = 5 ∧
      ((fresh .standard).executeScript (Script.join injection)).1.catalog =
        ((fresh .standard).executeStatements injection).1.catalog := by
  have hcolumns : ∀ spec ∈ [(⟨"id", "INT"⟩ : ColumnSpec), ⟨"note", "VARCHAR(40)"⟩],
      spec.IsPrintable := by
    rw [List.forall_mem_cons, List.forall_mem_singleton]
    refine ⟨⟨by decide, ⟨.int, none⟩, rfl, nofun⟩,
      ⟨by decide, ⟨.varchar, some 40⟩, by decide, fun size hsize => ?_⟩⟩
    obtain rfl := Option.some.inj hsize
    decide
  have hprintable : ∀ s ∈ injection, s.IsPrintable := by
    simp only [injection, List.forall_mem_cons]
    refine ⟨?_, ?_, ⟨?_, by decide, hcolumns⟩, ⟨?_, nofun, by decide, by decide⟩,
      ⟨trivial, ?_, ⟨nofun, nofun, nofun, nofun⟩⟩, nofun⟩
    · exact (by decide : IsName "shop")
    · exact (by decide : IsName "shop")
    · exact (by decide : IsName "notes")
    · exact (by decide : IsName "notes")
    · exact (by decide : IsName "notes")
  obtain ⟨-, -, hlength, hcatalog, -⟩ := executeScript_join hprintable (fresh .standard)
  exact ⟨hprintable, hlength, hcatalog⟩

end Session

end TableEngine
