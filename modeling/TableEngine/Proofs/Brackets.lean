import TableEngine.Proofs.Exactness

/-!
Where the text of a type ends (`Parser.typeText_ends_at_bracket`). Its tokens are taken one after the
other, with a count of the parentheses that are open. The count is the depth of what has been taken
(`Grammar.depth`), which is never negative, so that the first comma or closing parenthesis at depth zero
is the one that ends the type.
-/

namespace TableEngine

namespace Grammar

/-- How many more parentheses are opened than closed among some tokens. -/
def depth (tokens : List Token) : Int :=
  (tokens.count .openParen : Int) - tokens.count .closeParen

/-- Every closing parenthesis closes one in front of it, and none is left open. -/
structure Balanced (tokens : List Token) : Prop where
  depth_nonneg : ∀ front, front <+: tokens → 0 ≤ depth front
  depth_eq : depth tokens = 0

/-- Tokens that make up a type in front of others: balanced, with a comma or a closing parenthesis right
    behind them and none at depth zero before. The empty word, which no text is read as, counts for
    nothing. -/
structure TypeRun (run rest : List Token) : Prop where
  ne : ∃ token ∈ run, token ≠ .word ""
  unended : .endOfInput ∉ run
  balanced : Balanced run
  not_before : ∀ front token back, run = front ++ token :: back →
    token = .comma ∨ token = .closeParen → depth front ≠ 0
  ends : Parser.current rest = .comma ∨ Parser.current rest = .closeParen

theorem depth_append (front back : List Token) : depth (front ++ back) = depth front + depth back := by
  simp only [depth, List.count_append]
  omega

/-- Where parentheses are closed at a positive depth alone, the depth is never negative. -/
theorem depth_nonneg {tokens : List Token}
    (hclose : ∀ front back, tokens = front ++ .closeParen :: back → 0 < depth front) :
    0 ≤ depth tokens := by
  induction tokens using List.reverseRecOn with
  | nil => exact Int.le_refl 0
  | append_singleton tokens token ih =>
    have hbefore : 0 ≤ depth tokens := by
      refine ih fun front back heq => hclose front (back ++ [token]) ?_
      rw [heq, List.append_assoc, List.cons_append]
    rw [depth_append]
    by_cases htoken : token = .closeParen
    · have hpositive := hclose tokens [] (by rw [htoken])
      have hlast : depth [token] = -1 := by
        rw [htoken]
        rfl
      omega
    · have hlast : 0 ≤ depth [token] := by simp [depth, htoken]
      omega

end Grammar

namespace Parser

open Grammar

/-- In front of a place outside of all parentheses, raw text is balanced, and nothing in it ends an item
    at depth zero. -/
theorem spellsRawText_zero_iff {run : List Token} {text : String} :
    SpellsRawText 0 run text ↔ text = String.join (run.map Token.display) ∧ .endOfInput ∉ run ∧
      Balanced run ∧ ∀ front token back, run = front ++ token :: back → EndsItem token →
        Grammar.depth front ≠ 0 := by
  constructor
  · rintro ⟨htext, hbalanced, hinside, hunended⟩
    have hpositive {front back : List Token} {token : Token} (heq : run = front ++ token :: back)
        (hends : EndsItem token) : 0 < Grammar.depth front := by
      have hlt := hinside front token back heq hends
      rw [Grammar.depth]
      omega
    refine ⟨htext, hunended, ⟨?_, ?_⟩, fun front token back heq hends => (hpositive heq hends).ne'⟩
    · rintro front ⟨behind, rfl⟩
      refine depth_nonneg fun before back heq => ?_
      have hrun : before ++ .closeParen :: back ++ behind = before ++ .closeParen :: (back ++ behind) := by
        rw [List.append_assoc, List.cons_append]
      exact hpositive (by rw [heq, hrun]) (.inr rfl)
    · rw [Grammar.depth]
      omega
  · rintro ⟨htext, hunended, ⟨hnonneg, hclosed⟩, hbefore⟩
    refine ⟨htext, ?_, ?_, hunended⟩
    · rw [Grammar.depth] at hclosed
      omega
    · intro front token back heq hends
      have hle := hnonneg front ⟨_, heq.symm⟩
      have hne := hbefore front token back heq hends
      rw [Grammar.depth] at hle hne
      omega

/-- A type is read exactly where tokens make one up, and then these are taken. -/
theorem run_typeText_eq_ok_iff {tokens rest : List Token} {text : String} :
    typeText.run tokens = (.ok text, rest) ↔ ∃ run, tokens = run ++ rest ∧ TypeRun run rest ∧
      text = String.join (run.map Token.display) := by
  have hwritten {run : List Token} :
      String.join (run.map Token.display) ≠ "" ↔ ∃ token ∈ run, token ≠ .word "" := by
    rw [ne_eq, join_display_eq_iff]
    push Not
    rfl
  constructor
  · intro hrun
    obtain ⟨raw, middle, hraw, hrun⟩ := run_bind_eq_ok_iff.1 hrun
    obtain ⟨run, htokens, hspells, hends⟩ := sound_runRawText hraw
    obtain ⟨rfl, hunended, hbalanced, hbefore⟩ := spellsRawText_zero_iff.1 hspells
    split at hrun
    · cases hrun
    · next hne =>
      cases hrun
      exact ⟨run, htokens, ⟨hwritten.1 hne, hunended, hbalanced, hbefore, hends⟩, rfl⟩
  · rintro ⟨run, rfl, ⟨hne, hunended, hbalanced, hbefore, hends⟩, rfl⟩
    have hspells := spellsRawText_zero_iff.2 ⟨rfl, hunended, hbalanced, hbefore⟩
    unfold typeText
    rw [run_bind_of_ok (complete_runRawText hspells hends), if_neg (hwritten.2 hne), run_pure]

/-! The count of open parentheses. -/

/-- Puts the texts of tokens in front of the texts behind them, if these could be read. -/
def prependTexts (tokens : List Token) (result : Except Error String × List Token) :
    Except Error String × List Token :=
  tokens.foldr prependText result

theorem ne_cons_append {α : Type} (a : α) (front rest : List α) : a :: (front ++ rest) ≠ rest := by
  intro heq
  have hlength := congrArg List.length heq
  rw [List.length_cons, List.length_append] at hlength
  omega

/-- A token that is taken is not the end, and ends no item at depth zero. -/
theorem not_ends_of_taken {depth : Nat} {token : Token} {taken rest : List Token}
    (hrest : (runRawText depth (token :: (taken ++ rest))).2 = rest) :
    token ≠ .endOfInput ∧ (EndsItem token → 0 < depth) := by
  constructor
  · rintro rfl
    exact ne_cons_append _ taken rest hrest
  · intro hends
    refine Nat.pos_of_ne_zero ?_
    rintro rfl
    rcases hends with rfl | rfl
    · exact ne_cons_append _ taken rest hrest
    · exact ne_cons_append _ taken rest hrest

/-- Behind each part of what is taken, reading goes on at the depth of this part, which is positive where
    a parenthesis is closed. -/
theorem exists_depth_of_taken {depth : Nat} {front back rest : List Token}
    (hrest : (runRawText depth (front ++ (back ++ rest))).2 = rest) :
    ∃ after : Nat, (after : Int) = depth + Grammar.depth front ∧
      runRawText depth (front ++ (back ++ rest)) =
        prependTexts front (runRawText after (back ++ rest)) ∧
      (back.head? = some .closeParen → 0 < after) := by
  induction front generalizing depth with
  | nil =>
    refine ⟨depth, (Int.add_zero _).symm, rfl, fun hclose => ?_⟩
    obtain ⟨others, rfl⟩ := List.head?_eq_some_iff.1 hclose
    have htaken : (runRawText depth (.closeParen :: (others ++ rest))).2 = rest := hrest
    exact (not_ends_of_taken htaken).2 (.inr rfl)
  | cons token front ih =>
    have htaken : (runRawText depth (token :: (front ++ back ++ rest))).2 = rest := by
      rwa [List.append_assoc]
    obtain ⟨hne, hends⟩ := not_ends_of_taken htaken
    obtain ⟨behind, hbehind⟩ := exists_depth_behind hends
    have hcons := runRawText_cons hbehind hends hne (front ++ (back ++ rest))
    rw [List.cons_append, hcons] at hrest
    obtain ⟨after, hafter, hrun, hclose⟩ := ih hrest
    refine ⟨after, ?_, ?_, hclose⟩
    · have hdepth : Grammar.depth (token :: front) = Grammar.depth [token] + Grammar.depth front :=
        depth_append [token] front
      have htoken : Grammar.depth [token] = [token].count .openParen - [token].count .closeParen := rfl
      omega
    · rw [List.cons_append, hcons, hrun]
      rfl

theorem rest_typeText (tokens : List Token) : (typeText.run tokens).2 = (runRawText 0 tokens).2 := by
  unfold typeText
  rw [run_bind]
  dsimp only
  cases runRawText 0 tokens with
  | mk result rest =>
    cases result with
    | error error => rfl
    | ok text =>
      dsimp only
      split <;> rfl

/-- Wherever the text of a type is read from, the parentheses that are open are counted without the count
    going below zero: it is the depth of what has been taken, and is positive where a parenthesis is
    closed. The reading succeeds exactly where tokens make up a type, takes these tokens alone and gives
    what they are written as. Everything else is an error of syntax. In what is read from a text, tokens
    that count for nothing are no tokens at all. -/
theorem typeText_ends_at_bracket (tokens : List Token) (start : Nat) :
    (∀ front back, tokens.drop start = front ++ (back ++ (typeText.run (tokens.drop start)).2) →
      ∃ depth : Nat, (depth : Int) = Grammar.depth front ∧
        runRawText 0 (tokens.drop start) =
          prependTexts front (runRawText depth (back ++ (typeText.run (tokens.drop start)).2)) ∧
        (back.head? = some .closeParen → 0 < depth)) ∧
      (∀ text rest, typeText.run (tokens.drop start) = (.ok text, rest) ↔
        ∃ run, tokens.drop start = run ++ rest ∧ TypeRun run rest ∧
          text = String.join (run.map Token.display)) ∧
      ((¬∃ run rest, tokens.drop start = run ++ rest ∧ TypeRun run rest) →
        ∃ token, (typeText.run (tokens.drop start)).1 = .error (.syntaxError (.unexpected token))) ∧
      ∀ text, Statement.tokens text = .ok tokens → ∀ run, run ⊆ tokens →
        ((∃ token ∈ run, token ≠ .word "") ↔ run ≠ []) := by
  refine ⟨fun front back htokens => ?_, fun _ _ => run_typeText_eq_ok_iff, fun hnone => ?_,
    fun text htext run hrun => ?_⟩
  · have hrest := rest_typeText (tokens.drop start)
    generalize (typeText.run (tokens.drop start)).2 = rest at htokens hrest ⊢
    rw [htokens] at hrest ⊢
    obtain ⟨depth, hdepth, hrun, hclose⟩ := exists_depth_of_taken hrest.symm
    exact ⟨depth, by simpa using hdepth, hrun, hclose⟩
  · cases hrun : typeText.run (tokens.drop start) with
    | mk result rest =>
      cases result with
      | ok text =>
        obtain ⟨run, htokens, htype, -⟩ := run_typeText_eq_ok_iff.1 hrun
        exact absurd ⟨run, rest, htokens, htype⟩ hnone
      | error error =>
        obtain ⟨token, -, rfl⟩ := blames_typeText.pointsInto hrun
        exact ⟨token, rfl⟩
  · obtain ⟨body, rfl, hbody⟩ := Lexer.exists_body_of_readAll (Statement.tokens_eq_ok_iff.1 htext)
    constructor
    · rintro ⟨token, htoken, -⟩
      exact List.ne_nil_of_mem htoken
    · intro hne
      obtain ⟨token, others, rfl⟩ := List.exists_cons_of_ne_nil hne
      refine ⟨token, List.mem_cons_self, ?_⟩
      rcases List.mem_append.1 (hrun List.mem_cons_self) with hmem | hmem
      · exact (hbody token hmem).2
      · rw [List.mem_singleton.1 hmem]
        nofun

end Parser

end TableEngine
