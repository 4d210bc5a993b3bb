import TableEngine.Proofs.StatementParsing

/-!
What is rejected. An error of a part of a statement points at one of the tokens or behind them
(`Parser.Blames`). At the start of a statement a word that leads nowhere is an unknown command
(`Parser.Demands`), and there is no other place for that error (`Parser.Rejects`).
-/

namespace TableEngine.Parser

open Grammar

variable {α β : Type}

/-- An error of syntax at one of the tokens, or at the place behind them. -/
def PointsInto (error : Error) (tokens : List Token) : Prop :=
  ∃ token, (token ∈ tokens ∨ token = .endOfInput) ∧ error = .syntaxError (.unexpected token)

/-- Every error of the parser points into the tokens that it was given. -/
structure Blames (p : Parser α) : Prop where
  pointsInto : ∀ {tokens rest : List Token} {error : Error}, p.run tokens = (.error error, rest) →
    PointsInto error tokens

theorem PointsInto.mono {error : Error} {tokens others : List Token}
    (hpoints : PointsInto error tokens) (hsubset : tokens ⊆ others) : PointsInto error others := by
  obtain ⟨token, hmem, rfl⟩ := hpoints
  exact ⟨token, hmem.imp_left (@hsubset token), rfl⟩

theorem pointsInto_unexpectedError (tokens : List Token) :
    PointsInto (unexpectedError tokens) tokens := by
  refine ⟨current tokens, ?_, rfl⟩
  cases tokens with
  | nil => exact .inr rfl
  | cons token tokens => exact .inl List.mem_cons_self

theorem run_bind_eq_error_iff {p : Parser α} {f : α → Parser β} {tokens rest : List Token}
    {error : Error} :
    (p >>= f).run tokens = (.error error, rest) ↔ p.run tokens = (.error error, rest) ∨
      ∃ a middle, p.run tokens = (.ok a, middle) ∧ (f a).run middle = (.error error, rest) := by
  rw [run_bind]
  cases p.run tokens with
  | mk result middle =>
    cases result with
    | error fault => simp
    | ok a =>
      constructor
      · intro hnext
        exact .inr ⟨a, middle, rfl, hnext⟩
      · rintro (heq | ⟨_, _, heq, hnext⟩)
        · cases heq
        · cases heq
          exact hnext

theorem Blames.bind {p : Parser α} {f : α → Parser β} (hp : Blames p) (hf : ∀ a, Blames (f a)) :
    Blames (p >>= f) := by
  constructor
  intro tokens rest error hrun
  rcases run_bind_eq_error_iff.1 hrun with hfirst | ⟨a, middle, hfirst, hnext⟩
  · exact hp.pointsInto hfirst
  · have hsuffix : middle <:+ tokens := by
      have hle := p.run_suffix tokens
      rwa [hfirst] at hle
    exact ((hf a).pointsInto hnext).mono hsuffix.subset

theorem blames_pure (a : α) : Blames (pure a : Parser α) :=
  ⟨nofun⟩

theorem Blames.map {p : Parser α} (hp : Blames p) (f : α → β) : Blames (f <$> p) :=
  hp.bind fun a => blames_pure (f a)

theorem blames_unexpected : Blames (unexpected : Parser α) := by
  constructor
  intro tokens rest error hrun
  cases hrun
  exact pointsInto_unexpectedError tokens

theorem blames_takeSome (meaning? : Token → Option α) : Blames (takeSome meaning?) := by
  constructor
  intro tokens rest error hrun
  unfold takeSome at hrun
  dsimp only at hrun
  split at hrun
  · cases hrun
  · cases hrun
    exact pointsInto_unexpectedError tokens

theorem blames_expectKeyword (keyword : Keyword) : Blames (expectKeyword keyword) := by
  unfold expectKeyword expect
  exact blames_takeSome _

theorem blames_name : Blames name :=
  blames_takeSome name?

theorem blames_literal : Blames literal :=
  blames_takeSome literal?

theorem blames_advance : Blames advance :=
  ⟨nofun⟩

theorem blames_accept (token : Token) : Blames (accept token) := by
  constructor
  intro tokens rest error hrun
  unfold accept at hrun
  dsimp only at hrun
  split at hrun <;> cases hrun

theorem map_eq_error_iff {f : α → β} {result : Except Error α × List Token} {error : Error}
    {rest : List Token} :
    (result.1.map f, result.2) = (.error error, rest) ↔ result = (.error error, rest) := by
  obtain ⟨found, behind⟩ := result
  cases found <;> simp [Except.map]

theorem blames_separatedBy (separator : Token) {item : Parser α} (hitem : Blames item) :
    Blames (separatedBy separator item) := by
  constructor
  intro tokens rest error hrun
  change runSeparated separator item tokens = _ at hrun
  fun_induction runSeparated separator item tokens generalizing rest with
  | case1 tokens fault behind hfirst =>
    cases hrun
    exact hitem.pointsInto hfirst
  | case2 => cases hrun
  | case3 tokens first behind hfirst ih =>
    have hsuffix : separator :: behind <:+ tokens := by
      have hle := item.run_suffix tokens
      rwa [hfirst] at hle
    have hbehind := ih (map_eq_error_iff.1 hrun)
    exact hbehind.mono fun _ hmem => hsuffix.subset (List.mem_cons_of_mem _ hmem)
  | case4 => cases hrun

theorem blames_parenthesized {inner : Parser α} (hinner : Blames inner) :
    Blames (parenthesized inner) :=
  (blames_takeSome _).bind fun _ => hinner.bind fun result =>
    (blames_takeSome _).bind fun _ => blames_pure result

theorem blames_typeText : Blames typeText := by
  apply Blames.bind
  · constructor
    intro tokens rest error hrun
    change runRawText 0 tokens = _ at hrun
    generalize 0 = depth at hrun
    fun_induction runRawText depth tokens generalizing rest with
    | case1 =>
      cases hrun
      exact pointsInto_unexpectedError _
    | case2 =>
      cases hrun
      exact pointsInto_unexpectedError _
    | case3 => cases hrun
    | case4 => cases hrun
    | case5 _ _ ih => exact (ih (map_eq_error_iff.1 hrun)).mono (List.subset_cons_self _ _)
    | case6 _ _ ih => exact (ih (map_eq_error_iff.1 hrun)).mono (List.subset_cons_self _ _)
    | case7 _ _ _ _ _ _ _ _ ih =>
      exact (ih (map_eq_error_iff.1 hrun)).mono (List.subset_cons_self _ _)
  · intro text
    split
    · exact blames_unexpected
    · exact blames_pure text

theorem blames_columnSpec : Blames columnSpec :=
  blames_name.bind fun _ => blames_typeText.bind fun _ => blames_pure _

theorem blames_condition : Blames condition :=
  blames_name.bind fun _ => (blames_takeSome comparison?).bind fun _ =>
    blames_literal.bind fun _ => blames_pure _

theorem blames_assignment : Blames assignment :=
  blames_name.bind fun _ => (blames_takeSome _).bind fun _ =>
    blames_literal.bind fun _ => blames_pure _

theorem blames_conditions : Blames conditions := by
  refine (blames_accept _).bind fun accepted => ?_
  split
  · exact blames_separatedBy _ blames_condition
  · exact blames_pure []

theorem blames_direction : Blames direction := by
  refine (blames_accept _).bind fun descending => ?_
  split
  · exact blames_pure _
  · exact (blames_accept _).bind fun _ => blames_pure _

theorem blames_ordering : Blames ordering := by
  refine (blames_accept _).bind fun accepted => ?_
  split
  · exact (blames_expectKeyword _).bind fun _ => blames_name.bind fun _ =>
      blames_direction.bind fun _ => blames_pure _
  · exact blames_pure _

/-- A limit that is refused for its sign is pointed at although it has been taken. -/
theorem blames_limit : Blames limit := by
  refine (blames_accept _).bind fun accepted => ?_
  split
  · constructor
    intro tokens rest error hrun
    rcases run_bind_eq_error_iff.1 hrun with hnumber | ⟨n, middle, hnumber, hcheck⟩
    · exact (blames_takeSome _).pointsInto hnumber
    · obtain ⟨token, rfl, hmeaning⟩ := (run_takeSome_eq_ok_iff rfl).1 hnumber
      obtain rfl : token = .integer n := by
        cases token <;> cases hmeaning
        rfl
      split at hcheck
      · cases hcheck
      · cases hcheck
        exact ⟨.integer n, .inl List.mem_cons_self, rfl⟩
  · exact blames_pure none

theorem blames_clause : Blames clause :=
  blames_conditions.bind fun _ => blames_ordering.bind fun _ => blames_limit.bind fun _ =>
    blames_pure _

theorem blames_projection : Blames projection := by
  constructor
  intro tokens rest error hrun
  unfold projection at hrun
  rw [run_peek_bind] at hrun
  split at hrun
  · cases hrun
  · cases hrun
  · exact (blames_separatedBy _ blames_name).map _ |>.pointsInto hrun

theorem blames_targets : Blames targets := by
  constructor
  intro tokens rest error hrun
  unfold targets at hrun
  rw [run_peek_bind] at hrun
  split at hrun
  · exact (blames_parenthesized (blames_separatedBy _ blames_name)).map _ |>.pointsInto hrun
  · cases hrun

theorem blames_afterInsert : Blames afterInsert :=
  (blames_expectKeyword _).bind fun _ => blames_name.bind fun _ => blames_targets.bind fun _ =>
    (blames_expectKeyword _).bind fun _ =>
      (blames_separatedBy _ (blames_parenthesized (blames_separatedBy _ blames_literal))).bind
        fun _ => blames_pure _

theorem blames_afterSelect : Blames afterSelect :=
  blames_projection.bind fun _ => (blames_expectKeyword _).bind fun _ => blames_name.bind fun _ =>
    blames_clause.bind fun _ => blames_pure _

theorem blames_afterUpdate : Blames afterUpdate :=
  blames_name.bind fun _ => (blames_expectKeyword _).bind fun _ =>
    (blames_separatedBy _ blames_assignment).bind fun _ => blames_clause.bind fun _ => blames_pure _

theorem blames_afterDelete : Blames afterDelete :=
  (blames_expectKeyword _).bind fun _ => blames_name.bind fun _ =>
    blames_clause.bind fun _ => blames_pure _

theorem blames_createTable : Blames (do
    let table ← name
    let columns ← parenthesized (commaList columnSpec)
    pure (Statement.createTable table columns)) :=
  blames_name.bind fun _ =>
    (blames_parenthesized (blames_separatedBy _ blames_columnSpec)).bind fun _ => blames_pure _

/-- A parser that goes on with one of two keywords fails as an unknown command exactly where it finds
    neither. Elsewhere its errors point into the tokens. -/
structure Demands (p : Parser α) (first second : Keyword) : Prop where
  pointsInto : ∀ {tokens rest : List Token} {error : Error}, p.run tokens = (.error error, rest) →
    current tokens = .keyword first ∨ current tokens = .keyword second → PointsInto error tokens
  unknown : ∀ {tokens rest : List Token} {error : Error}, p.run tokens = (.error error, rest) →
    ¬(current tokens = .keyword first ∨ current tokens = .keyword second) → error = .unknownCommand

theorem demands_of_choice {choice : Token → Parser α} {named other : Parser α}
    {first second : Keyword} (hnamed : Blames named) (hother : Blames other)
    (hfirst : choice (.keyword first) = advance >>= fun _ => named)
    (hsecond : choice (.keyword second) = advance >>= fun _ => other)
    (hneither : ∀ token, token ≠ .keyword first → token ≠ .keyword second →
      choice token = fail .unknownCommand) : Demands (peek >>= choice) first second := by
  constructor
  · intro tokens rest error hrun hfound
    rw [run_peek_bind] at hrun
    rcases hfound with hcurrent | hcurrent
    · rw [hcurrent, hfirst] at hrun
      exact (blames_advance.bind fun _ => hnamed).pointsInto hrun
    · rw [hcurrent, hsecond] at hrun
      exact (blames_advance.bind fun _ => hother).pointsInto hrun
  · intro tokens rest error hrun hmissing
    rw [not_or] at hmissing
    rw [run_peek_bind, hneither _ hmissing.1 hmissing.2] at hrun
    cases hrun
    rfl

theorem demands_afterCreate : Demands afterCreate .DATABASE .TABLE := by
  refine demands_of_choice (blames_name.map Statement.createDatabase) blames_createTable rfl rfl ?_
  intro token hdatabase htable
  split
  · exact absurd rfl hdatabase
  · exact absurd rfl htable
  · rfl

theorem demands_afterDrop : Demands afterDrop .DATABASE .TABLE := by
  refine demands_of_choice (blames_name.map Statement.dropDatabase)
    (blames_name.map Statement.dropTable) rfl rfl ?_
  intro token hdatabase htable
  split
  · exact absurd rfl hdatabase
  · exact absurd rfl htable
  · rfl

theorem demands_afterShow : Demands afterShow .DATABASES .TABLES := by
  refine demands_of_choice (blames_pure Statement.showDatabases) (blames_pure Statement.showTables)
    rfl rfl ?_
  intro token hdatabases htables
  split
  · exact absurd rfl hdatabases
  · exact absurd rfl htables
  · rfl

/-! The starts of statements. -/

theorem head?_eq_keyword_iff {tokens : List Token} {keyword : Keyword} :
    tokens.head? = some (.keyword keyword) ↔ current tokens = .keyword keyword := by
  cases tokens with
  | nil => simp [current]
  | cons first tokens => simp [current]

theorem startsNoCommand_of_current {tokens : List Token}
    (hcurrent : ∀ keyword ∈ Keyword.commands, current tokens ≠ .keyword keyword) :
    StartsNoCommand tokens :=
  .inl fun keyword hmem hhead => hcurrent keyword hmem (head?_eq_keyword_iff.1 hhead)

theorem startsNoCommand_iff_of_database {keyword : Keyword} {tokens : List Token}
    (hkeyword : keyword = .CREATE ∨ keyword = .DROP) :
    StartsNoCommand (.keyword keyword :: tokens) ↔
      ¬(current tokens = .keyword .DATABASE ∨ current tokens = .keyword .TABLE) := by
  rcases hkeyword with rfl | rfl
  all_goals simp [StartsNoCommand, Keyword.commands, ← head?_eq_keyword_iff, List.head?_eq_getElem?]

theorem startsNoCommand_show_iff {tokens : List Token} :
    StartsNoCommand (.keyword .SHOW :: tokens) ↔
      ¬(current tokens = .keyword .DATABASES ∨ current tokens = .keyword .TABLES) := by
  simp [StartsNoCommand, Keyword.commands, ← head?_eq_keyword_iff, List.head?_eq_getElem?]

/-- What a list of tokens is rejected with: an unknown command if no statement starts like it, and an
    error of syntax at one of the tokens otherwise. -/
def Rejects (tokens : List Token) (error : Error) : Prop :=
  StartsNoCommand tokens ∧ error = .unknownCommand ∨
    ¬StartsNoCommand tokens ∧ PointsInto error tokens

theorem Demands.rejects {p : Parser α} {keyword first second : Keyword} {tokens rest : List Token}
    {error : Error} (hp : Demands p first second)
    (hstarts : StartsNoCommand (.keyword keyword :: tokens) ↔
      ¬(current tokens = .keyword first ∨ current tokens = .keyword second))
    (hrun : p.run tokens = (.error error, rest)) : Rejects (.keyword keyword :: tokens) error := by
  by_cases hfound : current tokens = .keyword first ∨ current tokens = .keyword second
  · have hpoints := hp.pointsInto hrun hfound
    exact .inr ⟨fun hnone => hstarts.1 hnone hfound, hpoints.mono (List.subset_cons_self _ _)⟩
  · exact .inl ⟨hstarts.2 hfound, hp.unknown hrun hfound⟩

/-- The words that say by themselves what a statement is about. -/
theorem Blames.rejects {p : Parser α} {keyword : Keyword} {tokens rest : List Token} {error : Error}
    (hp : Blames p) (hcommand : keyword ∈ Keyword.commands)
    (hplain : keyword ∉ [.CREATE, .DROP, .SHOW]) (hrun : p.run tokens = (.error error, rest)) :
    Rejects (.keyword keyword :: tokens) error := by
  have hpoints := hp.pointsInto hrun
  refine .inr ⟨?_, hpoints.mono (List.subset_cons_self _ _)⟩
  simp only [List.mem_cons, List.not_mem_nil, or_false, not_or] at hplain
  simp [StartsNoCommand, hcommand, hplain]

theorem rejects_of_statement {tokens rest : List Token} {error : Error}
    (hrun : statement.run tokens = (.error error, rest)) : Rejects tokens error := by
  unfold statement at hrun
  rw [run_peek_bind] at hrun
  split at hrun
  case h_10 =>
    cases hrun
    refine .inl ⟨startsNoCommand_of_current ?_, rfl⟩
    simp_all [Keyword.commands]
  all_goals
    rename_i hcurrent
    obtain ⟨others, rfl⟩ := exists_cons_of_current hcurrent (by decide)
    rw [run_advance_bind] at hrun
  · exact demands_afterCreate.rejects (startsNoCommand_iff_of_database (.inl rfl)) hrun
  · exact demands_afterDrop.rejects (startsNoCommand_iff_of_database (.inr rfl)) hrun
  · exact (blames_name.map _).rejects (by decide) (by decide) hrun
  · exact demands_afterShow.rejects startsNoCommand_show_iff hrun
  · exact (blames_name.map _).rejects (by decide) (by decide) hrun
  · exact blames_afterInsert.rejects (by decide) (by decide) hrun
  · exact blames_afterSelect.rejects (by decide) (by decide) hrun
  · exact blames_afterUpdate.rejects (by decide) (by decide) hrun
  · exact blames_afterDelete.rejects (by decide) (by decide) hrun

theorem not_startsNoCommand {tokens : List Token} {s : Statement}
    (hspells : SpellsStatement tokens s) (rest : List Token) :
    ¬StartsNoCommand (tokens ++ rest) := by
  cases hspells
  all_goals simp [StartsNoCommand, Keyword.commands]

end TableEngine.Parser
