import Mathlib.Data.List.Basic
import TableEngine.Proofs.Lexing
import TableEngine.Proofs.Rejection

/-!
`Parser.wholeStatement` accepts exactly its grammar. The end marker is no part of a statement, so that
nothing can be left behind a statement that is followed by it.
-/

namespace TableEngine

namespace Grammar

theorem SpellsName.unended {tokens : List Token} {s : String} (hspells : SpellsName tokens s) :
    .endOfInput ∉ tokens := by
  cases hspells <;> simp

theorem SpellsLiteral.unended {tokens : List Token} {value : Value}
    (hspells : SpellsLiteral tokens value) : .endOfInput ∉ tokens := by
  cases hspells <;> simp

theorem SpellsList.unended {α : Type} {separator : Token} {Spells : List Token → α → Prop}
    {tokens : List Token} {items : List α} (hspells : SpellsList separator Spells tokens items)
    (hseparator : separator ≠ .endOfInput)
    (hitem : ∀ {tokens item}, Spells tokens item → .endOfInput ∉ tokens) :
    .endOfInput ∉ tokens := by
  induction hspells with
  | last hfirst => exact hitem hfirst
  | more hfirst hothers ih => simp [hitem hfirst, ih, hseparator.symm]

theorem SpellsTuple.unended {α : Type} {Spells : List Token → α → Prop} {tokens : List Token}
    {items : List α} (hspells : SpellsTuple Spells tokens items)
    (hitem : ∀ {tokens item}, Spells tokens item → .endOfInput ∉ tokens) :
    .endOfInput ∉ tokens := by
  obtain ⟨hitems⟩ := hspells
  simp [hitems.unended (by decide) hitem]

theorem SpellsColumn.unended {tokens : List Token} {spec : ColumnSpec}
    (hspells : SpellsColumn tokens spec) : .endOfInput ∉ tokens := by
  obtain ⟨hname, htype⟩ := hspells
  simp [hname.unended, htype.unended]

theorem SpellsCondition.unended {tokens : List Token} {condition : Condition}
    (hspells : SpellsCondition tokens condition) : .endOfInput ∉ tokens := by
  obtain ⟨comparison, hcolumn, hliteral⟩ := hspells
  have hsign : .endOfInput ≠ comparisonToken comparison := by cases comparison <;> decide
  simp [hcolumn.unended, hliteral.unended, hsign]

theorem SpellsAssignment.unended {tokens : List Token} {assignment : Assignment}
    (hspells : SpellsAssignment tokens assignment) : .endOfInput ∉ tokens := by
  obtain ⟨hcolumn, hvalue⟩ := hspells
  simp [hcolumn.unended, hvalue.unended]

theorem SpellsClause.unended {tokens : List Token} {clause : Clause}
    (hspells : SpellsClause tokens clause) : .endOfInput ∉ tokens := by
  obtain ⟨hwhere, horder, hlimit⟩ := hspells
  rename_i front middle back _ _ _ _
  have hfront : .endOfInput ∉ front := by
    cases hwhere with
    | none => simp
    | some hconditions => simp [hconditions.unended (by decide) SpellsCondition.unended]
  have hmiddle : .endOfInput ∉ middle := by
    cases horder with
    | none => simp
    | some hcolumn hdirection =>
      cases hdirection <;> simp [hcolumn.unended]
  have hback : .endOfInput ∉ back := by cases hlimit <;> simp
  simp [hfront, hmiddle, hback]

theorem SpellsProjection.unended {tokens : List Token} {projection : Projection}
    (hspells : SpellsProjection tokens projection) : .endOfInput ∉ tokens := by
  cases hspells with
  | star => simp
  | one => simp
  | columns hnames => exact hnames.unended (by decide) SpellsName.unended

theorem SpellsTargets.unended {tokens : List Token} {columns : Option (List String)}
    (hspells : SpellsTargets tokens columns) : .endOfInput ∉ tokens := by
  cases hspells with
  | none => simp
  | some hnames => exact hnames.unended SpellsName.unended

theorem SpellsStatement.unended {tokens : List Token} {s : Statement}
    (hspells : SpellsStatement tokens s) : .endOfInput ∉ tokens := by
  cases hspells with
  | createDatabase hname => simp [hname.unended]
  | dropDatabase hname => simp [hname.unended]
  | useDatabase hname => simp [hname.unended]
  | showDatabases => simp
  | showTables => simp
  | createTable htable hcolumns =>
    simp [htable.unended, hcolumns.unended SpellsColumn.unended]
  | dropTable htable => simp [htable.unended]
  | describe htable => simp [htable.unended]
  | insert htable hcolumns htuples =>
    have hback := htuples.unended (by decide) fun htuple => htuple.unended SpellsLiteral.unended
    simp [htable.unended, hcolumns.unended, hback]
  | select hprojection htable hclause =>
    simp [hprojection.unended, htable.unended, hclause.unended]
  | update htable hassignments hclause =>
    simp [htable.unended, hassignments.unended (by decide) SpellsAssignment.unended,
      hclause.unended]
  | delete htable hclause => simp [htable.unended, hclause.unended]

theorem display_ne {token : Token} (htoken : token ≠ .word "") : token.display ≠ "" := by
  cases token with
  | keyword k => cases k <;> decide
  | integer n =>
    have hdigits := Text.natDigits_ne_nil n.toInt.natAbs
    simp only [Token.display, Text.intDigits]
    split <;> simp [hdigits]
  | text s => simp [Token.display]
  | word s => simpa [Token.display] using htoken
  | _ => decide

/-- Tokens are written as some text exactly if one of them is, which only the empty word is not. -/
theorem join_display_eq_iff {run : List Token} :
    String.join (run.map Token.display) = "" ↔ ∀ token ∈ run, token = .word "" := by
  induction run with
  | nil => simp
  | cons token run ih =>
    rw [List.map_cons, String.join_cons, String.append_eq_empty_iff, List.forall_mem_cons, ih]
    refine and_congr_left fun _ => ⟨?_, ?_⟩
    · intro hdisplay
      by_contra htoken
      exact display_ne htoken hdisplay
    · rintro rfl
      rfl

/-- Where the end comes next behind tokens that do not hold it, nothing follows on it. -/
theorem Closed.eq_of_current {front rest : List Token} (hclosed : Closed (front ++ rest))
    (hfront : .endOfInput ∉ front) (hcurrent : Parser.current rest = .endOfInput) :
    rest = [.endOfInput] := by
  obtain ⟨body, htokens, hbody⟩ := hclosed
  cases rest with
  | nil =>
    -- The end marker would be one of the tokens in front.
    rw [List.append_nil] at htokens
    exact absurd (by simp [htokens]) hfront
  | cons token rest =>
    obtain rfl : token = .endOfInput := hcurrent
    have hparts := (List.append_cons_inj_of_notMem hbody List.not_mem_nil).1 htokens.symm
    rw [← hparts.2.2]

end Grammar

namespace Parser

open Grammar

theorem spellsInput_of_run {tokens rest : List Token} {s : Statement} (hclosed : Closed tokens)
    (hrun : wholeStatement.run tokens = (.ok s, rest)) : SpellsInput tokens s := by
  obtain ⟨found, afterStatement, hstatement, hthen⟩ := run_bind_eq_ok_iff.1 hrun
  obtain ⟨ended, afterEnd, hended, hlast⟩ := run_bind_eq_ok_iff.1 hthen
  rw [run_peek_bind] at hlast
  split at hlast
  · next hcurrent =>
    cases hlast
    obtain ⟨taken, rfl, hspells⟩ := recognizes_statement.sound hstatement
    cases ended with
    | true =>
      obtain rfl := eq_cons_of_accept (by decide) hended
      have hsplit : taken ++ .semicolon :: rest = (taken ++ [.semicolon]) ++ rest := by simp
      rw [hsplit] at hclosed
      obtain rfl := hclosed.eq_of_current (by simp [hspells.unended]) hcurrent
      exact .ended hspells
    | false =>
      obtain rfl := eq_of_not_accept hended
      obtain rfl := hclosed.eq_of_current hspells.unended hcurrent
      exact .bare hspells
  · cases hlast

theorem rejects_of_wholeStatement {tokens rest : List Token} {error : Error}
    (hrun : wholeStatement.run tokens = (.error error, rest)) : Rejects tokens error := by
  rcases run_bind_eq_error_iff.1 hrun with hstatement | ⟨s, afterStatement, hstatement, hthen⟩
  · exact rejects_of_statement hstatement
  · obtain ⟨taken, rfl, hspells⟩ := recognizes_statement.sound hstatement
    have hblames : Blames (do
        let _ ← accept .semicolon
        if (← peek) = .endOfInput then pure s else unexpected) := by
      refine (blames_accept _).bind fun _ => ⟨fun {tokens rest error} hlast => ?_⟩
      rw [run_peek_bind] at hlast
      split at hlast
      · cases hlast
      · exact blames_unexpected.pointsInto hlast
    have hpoints := hblames.pointsInto hthen
    exact .inr ⟨not_startsNoCommand hspells _, hpoints.mono (List.subset_append_right _ _)⟩

/-- In a list that is closed by the end marker, a statement is read exactly where the grammar derives
    it, and then it is the only one that it derives. A list is rejected as an unknown command exactly
    where no statement starts like it; every other rejection is an error of syntax at one of its
    tokens. -/
theorem wholeStatement_accepts_grammar {tokens : List Token} (hclosed : Closed tokens) :
    (∀ s, (wholeStatement.run tokens).1 = .ok s ↔ SpellsInput tokens s) ∧
      (∀ s t, SpellsInput tokens s → SpellsInput tokens t → s = t) ∧
      ((wholeStatement.run tokens).1 = .error .unknownCommand ↔ StartsNoCommand tokens) ∧
      ∀ error, (wholeStatement.run tokens).1 = .error error →
        error = .unknownCommand ∨ ∃ token ∈ tokens, error = .syntaxError (.unexpected token) := by
  have hend : .endOfInput ∈ tokens := by
    obtain ⟨body, rfl, -⟩ := hclosed
    simp
  have hrejects {error : Error} (herror : (wholeStatement.run tokens).1 = .error error) :
      Rejects tokens error := rejects_of_wholeStatement (Prod.ext herror rfl)
  refine ⟨fun s => ⟨?_, ?_⟩, ?_, ⟨?_, ?_⟩, ?_⟩
  · intro hrun
    exact spellsInput_of_run hclosed (Prod.ext hrun rfl)
  · intro hinput
    rw [run_wholeStatement hinput]
  · intro s t hs ht
    have hrun := run_wholeStatement hs
    rw [run_wholeStatement ht] at hrun
    cases hrun
    rfl
  · intro herror
    rcases hrejects herror with ⟨hstarts, -⟩ | ⟨-, _, -, heq⟩
    · exact hstarts
    · cases heq
  · intro hstarts
    cases hrun : (wholeStatement.run tokens).1 with
    | ok s =>
      have hinput := spellsInput_of_run hclosed (Prod.ext hrun rfl)
      cases hinput with
      | bare hspells => exact absurd hstarts (not_startsNoCommand hspells _)
      | ended hspells => exact absurd hstarts (not_startsNoCommand hspells _)
    | error error =>
      rcases hrejects hrun with ⟨-, rfl⟩ | ⟨hnot, -⟩
      · rfl
      · exact absurd hstarts hnot
  · intro error herror
    rcases hrejects herror with ⟨-, rfl⟩ | ⟨-, token, hmem, rfl⟩
    · exact .inl rfl
    · rcases hmem with hmem | rfl
      · exact .inr ⟨token, hmem, rfl⟩
      · exact .inr ⟨.endOfInput, hend, rfl⟩

/-- The declaration of a table with a type whose text is put together from four tokens. -/
def declaration : List Token :=
  [.keyword .CREATE, .keyword .TABLE, .word "shelf", .openParen, .word "id", .word "INT", .comma,
    .word "title", .word "VARCHAR", .openParen, .integer 10, .closeParen, .closeParen, .semicolon,
    .endOfInput]

theorem wholeStatement_accepts_declaration :
    Closed declaration ∧
      SpellsInput declaration (.createTable "shelf" [⟨"id", "INT"⟩, ⟨"title", "VARCHAR(10)"⟩]) := by
  have hclosed : Closed declaration := ⟨declaration.dropLast, rfl, by decide⟩
  have hrun : (wholeStatement.run declaration).1 =
      .ok (.createTable "shelf" [⟨"id", "INT"⟩, ⟨"title", "VARCHAR(10)"⟩]) := by decide +kernel
  exact ⟨hclosed, ((wholeStatement_accepts_grammar hclosed).1 _).1 hrun⟩

end Parser

namespace Statement

theorem tokens_eq_ok_iff {text : List Char} {found : List Token} :
    tokens text = .ok found ↔ Lexer.readAll text = .ok found := by
  unfold tokens Token.ofText
  cases Lexer.readAll text with
  | ok others => simp
  | error fault =>
    dsimp only
    split <;> simp

/-- A text spells a statement exactly if the grammar derives the statement from the tokens that are read
    between the blanks around it. -/
theorem parse_eq_ok_iff {text : String} {s : Statement} :
    parse text = .ok s ↔
      ∃ found, Lexer.readAll (Text.trim text.toList) = .ok found ∧ Grammar.SpellsInput found s := by
  unfold parse
  constructor
  · intro hparse
    cases htokens : tokens (Text.trim text.toList) with
    | error error =>
      rw [htokens] at hparse
      cases hparse
    | ok found =>
      rw [htokens] at hparse
      have hread := tokens_eq_ok_iff.1 htokens
      have hrun : Parser.wholeStatement.run found = (.ok s, _) := Prod.ext hparse rfl
      exact ⟨found, hread, Parser.spellsInput_of_run (Lexer.closed_of_readAll hread) hrun⟩
  · rintro ⟨found, hread, hinput⟩
    rw [tokens_eq_ok_iff.2 hread]
    change (Parser.wholeStatement.run found).1 = .ok s
    rw [Parser.run_wholeStatement hinput]

end Statement

end TableEngine
