import TableEngine.Proofs.Exactness

/-!
Reading on with one parser. Nothing takes the end marker (`Parser.KeepsEnd`), and what starts with a
command takes a token at least. So readings that follow on each other come to a place where they stay,
at the latest behind as many readings as there are tokens (`Parser.readings_settle`).
-/

namespace TableEngine

theorem Grammar.Closed.of_suffix {tokens rest : List Token} (hclosed : Closed tokens)
    (hsuffix : rest <:+ tokens) (hend : .endOfInput ∈ rest) : Closed rest := by
  obtain ⟨body, rfl, hbody⟩ := hclosed
  obtain ⟨front, heq⟩ := hsuffix
  rcases List.eq_nil_or_concat' rest with rfl | ⟨init, last, rfl⟩
  · cases hend
  · rw [← List.append_assoc] at heq
    obtain ⟨rfl, hlast⟩ := List.append_inj' heq rfl
    exact ⟨init, by rw [hlast], fun hmem => hbody (List.mem_append_right _ hmem)⟩

namespace Parser

open Grammar

variable {α β : Type}

/-- Leaves the end marker unread if the given token comes next. -/
def KeepsEndAt (token : Token) (p : Parser α) : Prop :=
  ∀ tokens, current tokens = token → .endOfInput ∈ tokens → .endOfInput ∈ (p.run tokens).2

/-- Leaves the end marker unread. -/
def KeepsEnd (p : Parser α) : Prop :=
  ∀ tokens, .endOfInput ∈ tokens → .endOfInput ∈ (p.run tokens).2

theorem KeepsEnd.at {p : Parser α} (hp : KeepsEnd p) (token : Token) : KeepsEndAt token p :=
  fun tokens _ hend => hp tokens hend

theorem KeepsEnd.bind {p : Parser α} {f : α → Parser β} (hp : KeepsEnd p)
    (hf : ∀ a, KeepsEnd (f a)) : KeepsEnd (p >>= f) := by
  intro tokens hend
  have hmiddle := hp tokens hend
  rw [run_bind]
  cases hrun : p.run tokens with
  | mk result middle =>
    rw [hrun] at hmiddle
    cases result with
    | error error => exact hmiddle
    | ok a => exact hf a middle hmiddle

theorem keepsEnd_pure (a : α) : KeepsEnd (pure a : Parser α) :=
  fun _ hend => hend

theorem KeepsEnd.map {p : Parser α} (hp : KeepsEnd p) (f : α → β) : KeepsEnd (f <$> p) :=
  hp.bind fun a => keepsEnd_pure (f a)

theorem keepsEnd_fail (error : Error) : KeepsEnd (fail error : Parser α) :=
  fun _ hend => hend

theorem keepsEnd_unexpected : KeepsEnd (unexpected : Parser α) :=
  fun _ hend => hend

/-! Single tokens. -/

theorem mem_tail_of_current {tokens : List Token} (hcurrent : current tokens ≠ .endOfInput)
    (hend : .endOfInput ∈ tokens) : .endOfInput ∈ tokens.tail := by
  rw [eq_cons_of_current rfl hcurrent] at hend
  exact List.mem_of_ne_of_mem hcurrent.symm hend

theorem keepsEnd_takeSome {meaning? : Token → Option α} (hmeaning : meaning? .endOfInput = none) :
    KeepsEnd (takeSome meaning?) := by
  intro tokens hend
  unfold takeSome
  dsimp only
  split
  · next hsome =>
    refine mem_tail_of_current (fun hcurrent => ?_) hend
    rw [hcurrent, hmeaning] at hsome
    cases hsome
  · exact hend

theorem keepsEnd_expect {token : Token} (htoken : token ≠ .endOfInput) : KeepsEnd (expect token) :=
  keepsEnd_takeSome (if_neg htoken.symm)

theorem keepsEnd_expectKeyword (keyword : Keyword) : KeepsEnd (expectKeyword keyword) :=
  keepsEnd_expect nofun

theorem keepsEnd_accept {token : Token} (htoken : token ≠ .endOfInput) : KeepsEnd (accept token) := by
  intro tokens hend
  unfold accept
  dsimp only
  split
  · next hcurrent => exact mem_tail_of_current (hcurrent ▸ htoken) hend
  · exact hend

theorem keepsEnd_name : KeepsEnd name :=
  keepsEnd_takeSome rfl

theorem keepsEnd_literal : KeepsEnd literal :=
  keepsEnd_takeSome rfl

/-- What goes on by the token that comes next may take this token if it is not the end marker. -/
theorem keepsEnd_choice {choice : Token → Parser α}
    (hchoice : ∀ token, KeepsEndAt token (choice token)) : KeepsEnd (peek >>= choice) :=
  fun tokens hend => hchoice (current tokens) tokens rfl hend

theorem KeepsEnd.advance_bind {p : Parser α} (hp : KeepsEnd p) {token : Token}
    (htoken : token ≠ .endOfInput) : KeepsEndAt token (advance >>= fun _ => p) :=
  fun tokens hcurrent hend => hp tokens.tail (mem_tail_of_current (hcurrent ▸ htoken) hend)

/-! Lists and the texts of types. -/

theorem keepsEnd_separatedBy {separator : Token} (hseparator : separator ≠ .endOfInput)
    {item : Parser α} (hitem : KeepsEnd item) : KeepsEnd (separatedBy separator item) := by
  intro tokens hend
  change .endOfInput ∈ (runSeparated separator item tokens).2
  have hrest := hitem tokens hend
  fun_induction runSeparated separator item tokens with
  | case1 tokens error rest hfirst => rwa [hfirst] at hrest
  | case2 tokens first hfirst => rwa [hfirst] at hrest
  | case3 tokens first rest hfirst ih =>
    rw [hfirst] at hrest
    have hbehind : .endOfInput ∈ rest := List.mem_of_ne_of_mem hseparator.symm hrest
    exact ih hbehind (hitem rest hbehind)
  | case4 tokens first next rest hfirst hnext => rwa [hfirst] at hrest

theorem keepsEnd_commaList {item : Parser α} (hitem : KeepsEnd item) : KeepsEnd (commaList item) :=
  keepsEnd_separatedBy (by decide) hitem

theorem keepsEnd_parenthesized {inner : Parser α} (hinner : KeepsEnd inner) :
    KeepsEnd (parenthesized inner) :=
  (keepsEnd_expect (by decide)).bind fun _ => hinner.bind fun result =>
    (keepsEnd_expect (by decide)).bind fun _ => keepsEnd_pure result

theorem mem_runRawText {depth : Nat} {tokens : List Token} (hend : .endOfInput ∈ tokens) :
    .endOfInput ∈ (runRawText depth tokens).2 := by
  fun_induction runRawText depth tokens with
  | case1 | case2 | case3 | case4 => exact hend
  | case5 _ _ ih | case6 _ _ ih => exact ih (List.mem_of_ne_of_mem (by decide) hend)
  | case7 depth token rest hother _ _ _ _ ih =>
    exact ih (List.mem_of_ne_of_mem (fun heq => hother heq.symm) hend)

theorem keepsEnd_typeText : KeepsEnd typeText := by
  have hraw : KeepsEnd ⟨runRawText 0, runRawText_suffix 0⟩ := fun _ hend => mem_runRawText hend
  refine hraw.bind fun text => ?_
  split
  · exact keepsEnd_unexpected
  · exact keepsEnd_pure text

/-! The parts of statements. -/

theorem keepsEnd_columnSpec : KeepsEnd columnSpec :=
  keepsEnd_name.bind fun _ => keepsEnd_typeText.bind fun _ => keepsEnd_pure _

theorem keepsEnd_condition : KeepsEnd condition :=
  keepsEnd_name.bind fun _ => (keepsEnd_takeSome rfl).bind fun _ =>
    keepsEnd_literal.bind fun _ => keepsEnd_pure _

theorem keepsEnd_assignment : KeepsEnd assignment :=
  keepsEnd_name.bind fun _ => (keepsEnd_expect (by decide)).bind fun _ =>
    keepsEnd_literal.bind fun _ => keepsEnd_pure _

theorem keepsEnd_conditions : KeepsEnd conditions := by
  refine (keepsEnd_accept (by decide)).bind fun accepted => ?_
  split
  · exact keepsEnd_separatedBy (by decide) keepsEnd_condition
  · exact keepsEnd_pure []

theorem keepsEnd_direction : KeepsEnd direction := by
  refine (keepsEnd_accept (by decide)).bind fun descending => ?_
  split
  · exact keepsEnd_pure _
  · exact (keepsEnd_accept (by decide)).bind fun _ => keepsEnd_pure _

theorem keepsEnd_ordering : KeepsEnd ordering := by
  refine (keepsEnd_accept (by decide)).bind fun accepted => ?_
  split
  · exact (keepsEnd_expectKeyword _).bind fun _ => keepsEnd_name.bind fun _ =>
      keepsEnd_direction.bind fun _ => keepsEnd_pure _
  · exact keepsEnd_pure _

theorem keepsEnd_limit : KeepsEnd limit := by
  refine (keepsEnd_accept (by decide)).bind fun accepted => ?_
  split
  · refine (keepsEnd_takeSome rfl).bind fun n => ?_
    split
    · exact keepsEnd_pure _
    · exact keepsEnd_fail _
  · exact keepsEnd_pure none

theorem keepsEnd_clause : KeepsEnd clause :=
  keepsEnd_conditions.bind fun _ => keepsEnd_ordering.bind fun _ => keepsEnd_limit.bind fun _ =>
    keepsEnd_pure _

theorem keepsEnd_projection : KeepsEnd projection := by
  refine keepsEnd_choice fun token => ?_
  split
  · exact (keepsEnd_pure _).advance_bind nofun
  · exact (keepsEnd_pure _).advance_bind nofun
  · exact ((keepsEnd_commaList keepsEnd_name).map _).at _

theorem keepsEnd_targets : KeepsEnd targets := by
  refine keepsEnd_choice fun token => ?_
  split
  · exact ((keepsEnd_parenthesized (keepsEnd_commaList keepsEnd_name)).map _).at _
  · exact (keepsEnd_pure none).at _

/-! Statements. -/

theorem keepsEnd_afterCreate : KeepsEnd afterCreate := by
  refine keepsEnd_choice fun token => ?_
  split
  · exact (keepsEnd_name.map _).advance_bind nofun
  · have hcolumns := keepsEnd_parenthesized (keepsEnd_commaList keepsEnd_columnSpec)
    exact (keepsEnd_name.bind fun _ => hcolumns.bind fun _ => keepsEnd_pure _).advance_bind nofun
  · exact (keepsEnd_fail _).at _

theorem keepsEnd_afterDrop : KeepsEnd afterDrop := by
  refine keepsEnd_choice fun token => ?_
  split
  · exact (keepsEnd_name.map _).advance_bind nofun
  · exact (keepsEnd_name.map _).advance_bind nofun
  · exact (keepsEnd_fail _).at _

theorem keepsEnd_afterShow : KeepsEnd afterShow := by
  refine keepsEnd_choice fun token => ?_
  split
  · exact (keepsEnd_pure _).advance_bind nofun
  · exact (keepsEnd_pure _).advance_bind nofun
  · exact (keepsEnd_fail _).at _

theorem keepsEnd_afterInsert : KeepsEnd afterInsert := by
  have htuples := keepsEnd_commaList (keepsEnd_parenthesized (keepsEnd_commaList keepsEnd_literal))
  exact (keepsEnd_expectKeyword _).bind fun _ => keepsEnd_name.bind fun _ =>
    keepsEnd_targets.bind fun _ => (keepsEnd_expectKeyword _).bind fun _ =>
      htuples.bind fun _ => keepsEnd_pure _

theorem keepsEnd_afterSelect : KeepsEnd afterSelect :=
  keepsEnd_projection.bind fun _ => (keepsEnd_expectKeyword _).bind fun _ =>
    keepsEnd_name.bind fun _ => keepsEnd_clause.bind fun _ => keepsEnd_pure _

theorem keepsEnd_afterUpdate : KeepsEnd afterUpdate :=
  keepsEnd_name.bind fun _ => (keepsEnd_expectKeyword _).bind fun _ =>
    (keepsEnd_commaList keepsEnd_assignment).bind fun _ =>
      keepsEnd_clause.bind fun _ => keepsEnd_pure _

theorem keepsEnd_afterDelete : KeepsEnd afterDelete :=
  (keepsEnd_expectKeyword _).bind fun _ => keepsEnd_name.bind fun _ =>
    keepsEnd_clause.bind fun _ => keepsEnd_pure _

theorem keepsEnd_statement : KeepsEnd statement := by
  refine keepsEnd_choice fun token => ?_
  split
  · exact keepsEnd_afterCreate.advance_bind nofun
  · exact keepsEnd_afterDrop.advance_bind nofun
  · exact (keepsEnd_name.map _).advance_bind nofun
  · exact keepsEnd_afterShow.advance_bind nofun
  · exact (keepsEnd_name.map _).advance_bind nofun
  · exact keepsEnd_afterInsert.advance_bind nofun
  · exact keepsEnd_afterSelect.advance_bind nofun
  · exact keepsEnd_afterUpdate.advance_bind nofun
  · exact keepsEnd_afterDelete.advance_bind nofun
  · exact (keepsEnd_fail _).at _

theorem keepsEnd_wholeStatement : KeepsEnd wholeStatement := by
  refine keepsEnd_statement.bind fun s => (keepsEnd_accept (by decide)).bind fun _ => ?_
  refine keepsEnd_choice fun token => KeepsEnd.at ?_ token
  split
  · exact keepsEnd_pure s
  · exact keepsEnd_unexpected

/-! One reading. -/

/-- The token to read next is one that a statement can start with. -/
def AtCommand (tokens : List Token) : Prop :=
  ∃ keyword ∈ Keyword.commands, current tokens = .keyword keyword

theorem length_run_bind_le (p : Parser α) (f : α → Parser β) (tokens : List Token) :
    ((p >>= f).run tokens).2.length ≤ (p.run tokens).2.length := by
  rw [run_bind]
  cases p.run tokens with
  | mk result middle =>
    cases result with
    | error error => exact Nat.le_refl _
    | ok a => exact (f a).length_run_le middle

/-- A command is taken, whatever becomes of the statement. -/
theorem length_run_wholeStatement_lt {tokens : List Token} (hcommand : AtCommand tokens) :
    (wholeStatement.run tokens).2.length < tokens.length := by
  refine Nat.lt_of_le_of_lt (length_run_bind_le statement _ tokens) ?_
  obtain ⟨keyword, hkeyword, hfirst⟩ := hcommand
  unfold statement
  rw [run_peek_bind]
  split
  case h_10 => simp_all [Keyword.commands]
  all_goals
    rename_i hcurrent
    obtain ⟨others, rfl⟩ := exists_cons_of_current hcurrent (by decide)
    rw [run_advance_bind]
    exact Nat.lt_succ_of_le (length_run_le _ others)

theorem run_wholeStatement_of_not_atCommand {tokens : List Token} (hother : ¬AtCommand tokens) :
    wholeStatement.run tokens = (.error .unknownCommand, tokens) := by
  have hstatement : statement.run tokens = (.error .unknownCommand, tokens) := by
    unfold statement
    rw [run_peek_bind]
    split
    case h_10 => rfl
    all_goals
      rename_i hcurrent
      exact absurd ⟨_, by decide, hcurrent⟩ hother
  unfold wholeStatement
  rw [run_bind, hstatement]

/-- A statement that is read reaches up to the end. -/
theorem eq_end_of_run_wholeStatement {tokens rest : List Token} {s : Statement}
    (hclosed : Closed tokens) (hrun : wholeStatement.run tokens = (.ok s, rest)) :
    rest = [.endOfInput] := by
  have hend := keepsEnd_wholeStatement tokens (by obtain ⟨body, rfl, -⟩ := hclosed; simp)
  have hsuffix := wholeStatement.run_suffix tokens
  rw [hrun] at hend hsuffix
  obtain ⟨_, _, -, hthen⟩ := run_bind_eq_ok_iff.1 hrun
  obtain ⟨_, _, -, hlast⟩ := run_bind_eq_ok_iff.1 hthen
  rw [run_peek_bind] at hlast
  split at hlast
  · next hcurrent =>
    cases hlast
    have hrest : Closed ([] ++ rest) := hclosed.of_suffix hsuffix hend
    exact hrest.eq_of_current List.not_mem_nil hcurrent
  · cases hlast

/-! Readings that follow on each other. -/

/-- The tokens that are left after a number of readings. -/
def unread (tokens : List Token) : Nat → List Token
  | 0 => tokens
  | readings + 1 => (wholeStatement.run (unread tokens readings)).2

/-- What is read after a number of readings. -/
def reading (tokens : List Token) (readings : Nat) : Except Error Statement :=
  (wholeStatement.run (unread tokens readings)).1

/-- The place of the token to read next after a number of readings. -/
def position (tokens : List Token) (readings : Nat) : Nat :=
  tokens.length - (unread tokens readings).length

variable {tokens : List Token} {readings : Nat}

theorem unread_suffix (tokens : List Token) (readings : Nat) : unread tokens readings <:+ tokens := by
  induction readings with
  | zero => exact List.suffix_rfl
  | succ readings ih => exact (wholeStatement.run_suffix _).trans ih

theorem closed_unread (hclosed : Closed tokens) (readings : Nat) :
    Closed (unread tokens readings) := by
  refine hclosed.of_suffix (unread_suffix tokens readings) ?_
  induction readings with
  | zero =>
    obtain ⟨body, rfl, -⟩ := hclosed
    simp [unread]
  | succ readings ih => exact keepsEnd_wholeStatement _ ih

theorem position_add_length_unread (tokens : List Token) (readings : Nat) :
    position tokens readings + (unread tokens readings).length = tokens.length :=
  Nat.sub_add_cancel (unread_suffix tokens readings).length_le

theorem length_unread_pos (hclosed : Closed tokens) (readings : Nat) :
    0 < (unread tokens readings).length := by
  obtain ⟨body, heq, -⟩ := closed_unread hclosed readings
  simp [heq]

/-- Where no command comes next, readings stay. -/
theorem unread_of_not_atCommand (hother : ¬AtCommand (unread tokens readings)) (more : Nat) :
    unread tokens (readings + more) = unread tokens readings := by
  induction more with
  | zero => rfl
  | succ more ih =>
    rw [← Nat.add_assoc, unread, ih, run_wholeStatement_of_not_atCommand hother]

/-- As long as a command comes next, every reading has taken a token. -/
theorem length_unread_add_le (hcommand : AtCommand (unread tokens readings)) :
    (unread tokens readings).length + readings ≤ tokens.length := by
  induction readings with
  | zero => exact Nat.le_refl _
  | succ readings ih =>
    have hbefore : AtCommand (unread tokens readings) := by
      by_contra hother
      rw [unread_of_not_atCommand hother 1] at hcommand
      exact hother hcommand
    have hlt : (unread tokens (readings + 1)).length < (unread tokens readings).length :=
      length_run_wholeStatement_lt hbefore
    have hle := ih hbefore
    omega

theorem reading_of_not_atCommand (hother : ¬AtCommand (unread tokens readings)) :
    reading tokens readings = .error .unknownCommand := by
  rw [reading, run_wholeStatement_of_not_atCommand hother]

/-! The places of readings. -/

theorem position_lt_of_atCommand (hcommand : AtCommand (unread tokens readings)) :
    position tokens readings < position tokens (readings + 1) := by
  have hlt : (unread tokens (readings + 1)).length < (unread tokens readings).length :=
    length_run_wholeStatement_lt hcommand
  have hbefore := position_add_length_unread tokens readings
  have hafter := position_add_length_unread tokens (readings + 1)
  omega

theorem position_of_not_atCommand (hother : ¬AtCommand (unread tokens readings)) (more : Nat) :
    position tokens (readings + more) = position tokens readings := by
  rw [position, unread_of_not_atCommand hother, ← position]

section

variable {body : List Token} (htokens : tokens = body ++ [.endOfInput]) (hbody : .endOfInput ∉ body)

include htokens hbody

theorem position_le (readings : Nat) : position tokens readings ≤ body.length := by
  have hlength : tokens.length = body.length + 1 := by
    rw [htokens, List.length_append, List.length_singleton]
  have hsum := position_add_length_unread tokens readings
  have hpos := length_unread_pos ⟨body, htokens, hbody⟩ readings
  omega

theorem position_of_reading_eq_ok {s : Statement} (hread : reading tokens readings = .ok s) :
    position tokens (readings + 1) = body.length := by
  have hrun : wholeStatement.run (unread tokens readings) = (.ok s, _) := Prod.ext hread rfl
  have hend : unread tokens (readings + 1) = [.endOfInput] :=
    eq_end_of_run_wholeStatement (closed_unread ⟨body, htokens, hbody⟩ readings) hrun
  rw [position, hend, htokens, List.length_append]
  rfl

/-- Behind as many readings as there are tokens in front of the end marker, no command is left. -/
theorem not_atCommand_of_length_le (hle : body.length ≤ readings) :
    ¬AtCommand (unread tokens readings) := by
  intro hcommand
  have hlength := length_unread_add_le hcommand
  obtain ⟨behind, heq, -⟩ := closed_unread ⟨body, htokens, hbody⟩ readings
  obtain ⟨keyword, -, hcurrent⟩ := hcommand
  -- There is room for the end marker alone.
  have hnil : behind = [] := by
    apply List.eq_nil_of_length_eq_zero
    rw [heq, htokens] at hlength
    simp only [List.length_append, List.length_singleton] at hlength
    omega
  rw [heq, hnil] at hcurrent
  cases hcurrent

end

/-- Readings of one text by the same parser never go beyond the end marker. A reading either starts at a
    command and takes a token at least, or it is an unknown command that takes nothing, and so are all
    readings behind it. A statement that is read reaches up to the end. So there are only unknown
    commands behind as many readings as there are tokens. -/
theorem readings_settle {text : List Char} {tokens : List Token}
    (htokens : Statement.tokens text = .ok tokens) :
    ∃ body, tokens = body ++ [.endOfInput] ∧ .endOfInput ∉ body ∧
      (∀ readings, unread tokens readings = tokens.drop (position tokens readings) ∧
        position tokens readings ≤ body.length) ∧
      (∀ readings,
        AtCommand (unread tokens readings) ∧
            position tokens readings < position tokens (readings + 1) ∨
          ¬AtCommand (unread tokens readings) ∧ ∀ later, readings ≤ later →
            reading tokens later = .error .unknownCommand ∧
              position tokens (later + 1) = position tokens readings) ∧
      (∀ readings s, reading tokens readings = .ok s →
        position tokens (readings + 1) = body.length) ∧
      ∀ readings, body.length ≤ readings → reading tokens readings = .error .unknownCommand := by
  obtain ⟨body, heq, hbody⟩ := Lexer.closed_of_readAll (Statement.tokens_eq_ok_iff.1 htokens)
  refine ⟨body, heq, hbody, fun readings => ⟨?_, position_le heq hbody readings⟩, fun readings => ?_,
    fun readings s hread => position_of_reading_eq_ok heq hbody hread, fun readings hle =>
      reading_of_not_atCommand (not_atCommand_of_length_le heq hbody hle)⟩
  · exact List.suffix_iff_eq_drop.1 (unread_suffix tokens readings)
  · by_cases hcommand : AtCommand (unread tokens readings)
    · exact .inl ⟨hcommand, position_lt_of_atCommand hcommand⟩
    · refine .inr ⟨hcommand, fun later hlater => ?_⟩
      obtain ⟨more, rfl⟩ := Nat.exists_eq_add_of_le hlater
      have hlater : ¬AtCommand (unread tokens (readings + more)) := by
        rwa [unread_of_not_atCommand hcommand]
      exact ⟨reading_of_not_atCommand hlater, position_of_not_atCommand hcommand (more + 1)⟩

/-- Three statements, of which the first two break off and the last one is whole. -/
def brokenOff : List Token :=
  [.keyword .CREATE, .keyword .USE, .keyword .DROP, .keyword .DATABASE, .word "d", .semicolon,
    .keyword .SHOW, .keyword .TABLES, .endOfInput]

/-- The first three readings fail, each at another place and only the first one as an unknown command: the
    third one has read a statement, but finds something behind it. The fourth one takes all that is
    left. -/
theorem readings_settle_brokenOff :
    Statement.tokens "create use drop database d; show tables".toList = .ok brokenOff ∧
      (List.range 4).map (reading brokenOff) =
        [.error .unknownCommand, .error (.syntaxError (.unexpected (.keyword .DROP))),
          .error (.syntaxError (.unexpected (.keyword .SHOW))), .ok .showTables] ∧
      (List.range 5).map (position brokenOff) = [0, 1, 2, 6, 8] ∧
      ∀ readings, 8 ≤ readings → reading brokenOff readings = .error .unknownCommand := by
  have htokens : Statement.tokens "create use drop database d; show tables".toList = .ok brokenOff := by
    decide +kernel
  obtain ⟨body, heq, -, -, -, -, hunknown⟩ := readings_settle htokens
  have hlength : 9 = (body ++ [Token.endOfInput]).length := congrArg List.length heq
  rw [List.length_append, List.length_singleton] at hlength
  refine ⟨htokens, by decide +kernel, by decide +kernel, fun readings hle => hunknown readings ?_⟩
  omega

end Parser

end TableEngine
