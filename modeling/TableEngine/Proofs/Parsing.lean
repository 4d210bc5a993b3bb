import TableEngine.Statement.Grammar
import TableEngine.Statement.Parser

/-!
Parsers take off a list exactly the tokens that spell something (`Parser.Recognizes`). What they take
spells what they give, and tokens that spell something are taken in front of everything that cannot
prolong them.
-/

namespace TableEngine.Parser

open Grammar

variable {α β : Type}

theorem run_bind_eq_ok_iff {p : Parser α} {f : α → Parser β} {tokens rest : List Token} {b : β} :
    (p >>= f).run tokens = (.ok b, rest) ↔
      ∃ a middle, p.run tokens = (.ok a, middle) ∧ (f a).run middle = (.ok b, rest) := by
  rw [run_bind]
  cases p.run tokens with
  | mk result middle =>
    cases result with
    | error error => simp
    | ok a =>
      constructor
      · intro hnext
        exact ⟨a, middle, rfl, hnext⟩
      · rintro ⟨_, _, heq, hnext⟩
        cases heq
        exact hnext

theorem run_bind_of_ok {p : Parser α} {tokens middle : List Token} {a : α}
    (hrun : p.run tokens = (.ok a, middle)) (f : α → Parser β) :
    (p >>= f).run tokens = (f a).run middle := by
  rw [run_bind, hrun]

theorem run_peek_bind (f : Token → Parser α) (tokens : List Token) :
    (peek >>= f).run tokens = (f (current tokens)).run tokens :=
  rfl

theorem run_advance_bind (f : Unit → Parser α) (token : Token) (tokens : List Token) :
    (advance >>= f).run (token :: tokens) = (f ()).run tokens :=
  rfl

theorem run_map_eq_ok_iff {p : Parser α} {f : α → β} {tokens rest : List Token} {b : β} :
    (f <$> p).run tokens = (.ok b, rest) ↔ ∃ a, p.run tokens = (.ok a, rest) ∧ f a = b := by
  change (p >>= fun a => pure (f a)).run tokens = (.ok b, rest) ↔ _
  simp only [run_bind_eq_ok_iff, run_pure, Prod.mk.injEq, Except.ok.injEq]
  constructor
  · rintro ⟨a, _, hrun, heq, rfl⟩
    exact ⟨a, hrun, heq⟩
  · rintro ⟨a, hrun, heq⟩
    exact ⟨a, rest, hrun, heq, rfl⟩

/-- Tokens that a parser takes spell what it gives, whatever follows them. Tokens that spell something
    are taken if they are followed by one of the tokens that the parser stops at. -/
structure Recognizes (p : Parser α) (Spells : List Token → α → Prop) (Stops : Token → Prop) :
    Prop where
  sound : ∀ {tokens rest : List Token} {a : α}, p.run tokens = (.ok a, rest) →
    ∃ taken, tokens = taken ++ rest ∧ Spells taken a
  complete : ∀ {taken rest : List Token} {a : α}, Spells taken a → Stops (current rest) →
    p.run (taken ++ rest) = (.ok a, rest)

/-- Any token may follow. -/
def Anywhere (_ : Token) : Prop :=
  True

/-- The tokens that may follow on an item between parentheses. -/
def EndsItem (token : Token) : Prop :=
  token = .comma ∨ token = .closeParen

/-- The tokens that may follow on a statement. -/
def EndsStatement (token : Token) : Prop :=
  token = .semicolon ∨ token = .endOfInput

theorem Recognizes.mono {p : Parser α} {Spells : List Token → α → Prop} {Stops Others : Token → Prop}
    (hp : Recognizes p Spells Stops) (hothers : ∀ token, Others token → Stops token) :
    Recognizes p Spells Others :=
  ⟨hp.sound, fun hspells hstops => hp.complete hspells (hothers _ hstops)⟩

/-! Single tokens. -/

theorem eq_cons_of_current {tokens : List Token} {token : Token} (hcurrent : current tokens = token)
    (htoken : token ≠ .endOfInput) : tokens = token :: tokens.tail := by
  cases tokens with
  | nil => exact absurd hcurrent.symm htoken
  | cons first tokens =>
    obtain rfl : first = token := hcurrent
    rfl

theorem exists_cons_of_current {tokens : List Token} {token : Token}
    (hcurrent : current tokens = token) (htoken : token ≠ .endOfInput) :
    ∃ others, tokens = token :: others :=
  ⟨tokens.tail, eq_cons_of_current hcurrent htoken⟩

theorem run_takeSome_eq_ok_iff {meaning? : Token → Option α} (hend : meaning? .endOfInput = none)
    {tokens rest : List Token} {a : α} :
    (takeSome meaning?).run tokens = (.ok a, rest) ↔
      ∃ token, tokens = token :: rest ∧ meaning? token = some a := by
  constructor
  · intro hrun
    unfold takeSome at hrun
    dsimp only at hrun
    split at hrun
    · next hmeaning =>
      cases hrun
      have hne : current tokens ≠ .endOfInput := by
        intro heq
        rw [heq, hend] at hmeaning
        cases hmeaning
      exact ⟨current tokens, eq_cons_of_current rfl hne, hmeaning⟩
    · cases hrun
  · rintro ⟨token, rfl, hmeaning⟩
    simp [takeSome, current, hmeaning]

theorem recognizes_takeSome {meaning? : Token → Option α} {Spells : List Token → α → Prop}
    (hend : meaning? .endOfInput = none)
    (hspells : ∀ taken a, Spells taken a ↔ ∃ token, taken = [token] ∧ meaning? token = some a) :
    Recognizes (takeSome meaning?) Spells Anywhere := by
  constructor
  · intro tokens rest a hrun
    obtain ⟨token, rfl, hmeaning⟩ := (run_takeSome_eq_ok_iff hend).1 hrun
    exact ⟨[token], rfl, (hspells _ _).2 ⟨token, rfl, hmeaning⟩⟩
  · intro taken rest a htaken _
    obtain ⟨token, rfl, hmeaning⟩ := (hspells _ _).1 htaken
    exact (run_takeSome_eq_ok_iff hend).2 ⟨token, rfl, hmeaning⟩

theorem run_expect_eq_ok_iff {token : Token} (htoken : token ≠ .endOfInput)
    {tokens rest : List Token} {u : Unit} :
    (expect token).run tokens = (.ok u, rest) ↔ tokens = token :: rest := by
  unfold expect
  rw [run_takeSome_eq_ok_iff (if_neg htoken.symm)]
  constructor
  · rintro ⟨first, rfl, hfirst⟩
    split at hfirst
    · next heq => rw [heq]
    · cases hfirst
  · rintro rfl
    exact ⟨token, rfl, if_pos rfl⟩

theorem run_expect {token : Token} (htoken : token ≠ .endOfInput) (rest : List Token) :
    (expect token).run (token :: rest) = (.ok (), rest) :=
  (run_expect_eq_ok_iff htoken).2 rfl

theorem run_expectKeyword (keyword : Keyword) (rest : List Token) :
    (expectKeyword keyword).run (.keyword keyword :: rest) = (.ok (), rest) := by
  have hne : Token.keyword keyword ≠ .endOfInput := nofun
  exact run_expect hne rest

theorem eq_cons_of_accept {token : Token} (htoken : token ≠ .endOfInput) {tokens rest : List Token}
    (hrun : (accept token).run tokens = (.ok true, rest)) : tokens = token :: rest := by
  unfold accept at hrun
  dsimp only at hrun
  split at hrun
  · next hcurrent =>
    cases hrun
    exact eq_cons_of_current hcurrent htoken
  · cases hrun

theorem eq_of_not_accept {token : Token} {tokens rest : List Token}
    (hrun : (accept token).run tokens = (.ok false, rest)) : tokens = rest := by
  unfold accept at hrun
  dsimp only at hrun
  split at hrun
  · cases hrun
  · cases hrun
    rfl

theorem run_accept (token : Token) (rest : List Token) :
    (accept token).run (token :: rest) = (.ok true, rest) := by
  simp [accept, current]

theorem run_accept_of_ne {token : Token} {tokens : List Token} (hcurrent : current tokens ≠ token) :
    (accept token).run tokens = (.ok false, tokens) := by
  simp [accept, hcurrent]

theorem display_integer {n : Int64} (hn : 0 ≤ n) :
    (Token.integer n).display = String.ofList (Text.natDigits n.toInt.toNat) := by
  have hnonneg : 0 ≤ n.toInt := Int64.le_iff_toInt_le.1 hn
  have habs : n.toInt.natAbs = n.toInt.toNat := by omega
  rw [Token.display, Text.intDigits, if_neg (by omega), habs]

theorem spellsName_iff {tokens : List Token} {s : String} :
    SpellsName tokens s ↔ ∃ token, tokens = [token] ∧ name? token = some s := by
  constructor
  · intro hname
    cases hname with
    | word => exact ⟨.word s, rfl, rfl⟩
    | @number n hn =>
      refine ⟨.integer n, rfl, ?_⟩
      rw [name?, if_pos hn, display_integer hn]
  · rintro ⟨token, rfl, hname⟩
    unfold name? at hname
    split at hname
    · cases hname
      exact .word _
    · split at hname
      · next hn =>
        cases hname
        rw [display_integer hn]
        exact .number hn
      · cases hname
    · cases hname

theorem recognizes_name : Recognizes name SpellsName Anywhere :=
  recognizes_takeSome rfl fun _ _ => spellsName_iff

theorem recognizes_literal : Recognizes literal SpellsLiteral Anywhere := by
  apply recognizes_takeSome rfl
  intro taken value
  constructor
  · intro hliteral
    cases hliteral <;> exact ⟨_, rfl, rfl⟩
  · rintro ⟨token, rfl, hliteral⟩
    unfold literal? at hliteral
    split at hliteral
    all_goals cases hliteral
    · exact .null
    · exact .integer _
    · exact .text _
    · exact .word _

theorem recognizes_comparison :
    Recognizes comparison (fun tokens c => tokens = [comparisonToken c]) Anywhere := by
  apply recognizes_takeSome rfl
  intro taken c
  constructor
  · rintro rfl
    exact ⟨comparisonToken c, rfl, by cases c <;> rfl⟩
  · rintro ⟨token, rfl, hcomparison⟩
    unfold comparison? at hcomparison
    split at hcomparison
    all_goals cases hcomparison
    all_goals rfl

/-! Lists. -/

/-- What is put in front of a result is in front of it if there is one. -/
theorem map_eq_ok_iff {f : α → β} {result : Except Error α × List Token} {b : β}
    {rest : List Token} :
    (result.1.map f, result.2) = (.ok b, rest) ↔ ∃ a, result = (.ok a, rest) ∧ b = f a := by
  obtain ⟨found, behind⟩ := result
  cases found with
  | error error => simp [Except.map]
  | ok a =>
    simp only [Except.map, Prod.mk.injEq, Except.ok.injEq]
    constructor
    · rintro ⟨rfl, rfl⟩
      exact ⟨a, ⟨rfl, rfl⟩, rfl⟩
    · rintro ⟨_, ⟨rfl, rfl⟩, rfl⟩
      exact ⟨rfl, rfl⟩

theorem prepend_eq_ok_iff {first : α} {result : Except Error (List α) × List Token} {items : List α}
    {rest : List Token} :
    prepend first result = (.ok items, rest) ↔
      ∃ others, result = (.ok others, rest) ∧ items = first :: others :=
  map_eq_ok_iff

theorem runSeparated_of_last {separator : Token} {item : Parser α} {tokens rest : List Token} {a : α}
    (hitem : item.run tokens = (.ok a, rest)) (hrest : current rest ≠ separator) :
    runSeparated separator item tokens = (.ok [a], rest) := by
  rw [runSeparated]
  split
  · simp_all
  · simp_all
  · next first next others hother =>
    rw [hitem] at hother
    cases hother
    exact if_neg hrest

theorem runSeparated_of_more {separator : Token} {item : Parser α} {tokens rest : List Token} {a : α}
    (hitem : item.run tokens = (.ok a, separator :: rest)) :
    runSeparated separator item tokens = prepend a (runSeparated separator item rest) := by
  rw [runSeparated]
  split <;> simp_all

theorem sound_runSeparated {separator : Token} {item : Parser α} {Spells : List Token → α → Prop}
    {Stops : Token → Prop} (hitem : Recognizes item Spells Stops) {tokens rest : List Token}
    {items : List α} (hrun : runSeparated separator item tokens = (.ok items, rest)) :
    ∃ taken, tokens = taken ++ rest ∧ SpellsList separator Spells taken items := by
  fun_induction runSeparated separator item tokens generalizing items rest with
  | case1 => cases hrun
  | case2 tokens first hfirst =>
    cases hrun
    obtain ⟨taken, htaken, hspells⟩ := hitem.sound hfirst
    exact ⟨taken, htaken, .last hspells⟩
  | case3 tokens first behind hfirst ih =>
    obtain ⟨others, hothers, rfl⟩ := prepend_eq_ok_iff.1 hrun
    obtain ⟨front, rfl, hspells⟩ := hitem.sound hfirst
    obtain ⟨back, rfl, hlist⟩ := ih hothers
    exact ⟨front ++ separator :: back, by simp, .more hspells hlist⟩
  | case4 tokens first next behind hfirst hnext =>
    cases hrun
    obtain ⟨taken, htaken, hspells⟩ := hitem.sound hfirst
    exact ⟨taken, htaken, .last hspells⟩

theorem complete_runSeparated {separator : Token} {item : Parser α}
    {Spells : List Token → α → Prop} {Stops : Token → Prop} (hitem : Recognizes item Spells Stops)
    (hseparator : Stops separator) {taken rest : List Token} {items : List α}
    (hlist : SpellsList separator Spells taken items) (hstops : Stops (current rest))
    (hrest : current rest ≠ separator) :
    runSeparated separator item (taken ++ rest) = (.ok items, rest) := by
  induction hlist with
  | last hspells => exact runSeparated_of_last (hitem.complete hspells hstops) hrest
  | more hspells hlist ih =>
    rw [List.append_assoc, List.cons_append]
    rw [runSeparated_of_more (hitem.complete hspells hseparator), ih]
    rfl

theorem recognizes_separatedBy {separator : Token} {item : Parser α}
    {Spells : List Token → α → Prop} {Stops : Token → Prop} (hitem : Recognizes item Spells Stops)
    (hseparator : Stops separator) :
    Recognizes (separatedBy separator item) (SpellsList separator Spells)
      (fun token => Stops token ∧ token ≠ separator) :=
  ⟨sound_runSeparated hitem,
    fun hlist hstops => complete_runSeparated hitem hseparator hlist hstops.1 hstops.2⟩

theorem recognizes_tuple {item : Parser α} {Spells : List Token → α → Prop} {Stops : Token → Prop}
    (hitem : Recognizes item Spells Stops) (hstops : ∀ token, EndsItem token → Stops token) :
    Recognizes (parenthesized (commaList item)) (SpellsTuple Spells) Anywhere := by
  have hlist := recognizes_separatedBy hitem (hstops .comma (.inl rfl))
  constructor
  · intro tokens rest items hrun
    obtain ⟨_, afterOpen, hopen, hrun⟩ := run_bind_eq_ok_iff.1 hrun
    obtain ⟨_, afterItems, hitems, hrun⟩ := run_bind_eq_ok_iff.1 hrun
    obtain ⟨_, afterClose, hclose, hrun⟩ := run_bind_eq_ok_iff.1 hrun
    cases hrun
    obtain rfl := (run_expect_eq_ok_iff (by decide)).1 hopen
    obtain ⟨taken, rfl, hspells⟩ := hlist.sound hitems
    obtain rfl := (run_expect_eq_ok_iff (by decide)).1 hclose
    exact ⟨.openParen :: taken ++ [.closeParen], by simp, .intro hspells⟩
  · rintro _ rest items ⟨hspells⟩ -
    rename_i taken
    have hitems : (commaList item).run (taken ++ .closeParen :: rest) =
        (.ok items, .closeParen :: rest) :=
      hlist.complete hspells ⟨hstops .closeParen (.inr rfl), by simp [current]⟩
    have htokens : .openParen :: taken ++ [.closeParen] ++ rest =
        .openParen :: (taken ++ .closeParen :: rest) := by simp
    unfold parenthesized
    rw [htokens, run_bind_of_ok (run_expect (by decide) _), run_bind_of_ok hitems,
      run_bind_of_ok (run_expect (by decide) _), run_pure]

/-! The texts of types. -/

/-- Tokens that are read inside of some open parentheses, which they close, and their texts. Outside of
    all parentheses there is no comma and no closing parenthesis among them. -/
structure SpellsRawText (depth : Nat) (tokens : List Token) (text : String) : Prop where
  text_eq : text = String.join (tokens.map Token.display)
  balanced : tokens.count .closeParen = depth + tokens.count .openParen
  inside : ∀ front token back, tokens = front ++ token :: back → EndsItem token →
    front.count .closeParen < depth + front.count .openParen
  unended : .endOfInput ∉ tokens

theorem spellsRawText_nil_iff {depth : Nat} {text : String} :
    SpellsRawText depth [] text ↔ depth = 0 ∧ text = "" := by
  constructor
  · rintro ⟨htext, hbalanced, -, -⟩
    exact ⟨by simpa using hbalanced.symm, by simpa using htext⟩
  · rintro ⟨rfl, rfl⟩
    exact ⟨by simp, rfl, by simp, by simp⟩

/-- A parenthesis changes the depth at which the tokens behind it are read. -/
theorem spellsRawText_cons_iff {depth after : Nat} {token : Token}
    (hafter : after + [token].count .closeParen = depth + [token].count .openParen)
    {tokens : List Token} {text : String} :
    SpellsRawText depth (token :: tokens) text ↔
      (EndsItem token → 0 < depth) ∧ token ≠ .endOfInput ∧
        ∃ behind, text = token.display ++ behind ∧ SpellsRawText after tokens behind := by
  have hcount (sign : Token) (others : List Token) :
      (token :: others).count sign = [token].count sign + others.count sign := by
    rw [← List.count_append]
    rfl
  have hclose := hcount .closeParen
  have hopen := hcount .openParen
  constructor
  · rintro ⟨htext, hbalanced, hinside, hunended⟩
    refine ⟨?_, ?_, _, ?_, rfl, ?_, ?_, ?_⟩
    · intro hends
      simpa using hinside [] token tokens rfl hends
    · exact fun heq => hunended (heq ▸ List.mem_cons_self)
    · rw [htext, List.map_cons, String.join_cons]
    · have hcloses := hclose tokens
      have hopens := hopen tokens
      omega
    · intro front other back heq hends
      have hlt := hinside (token :: front) other back (by rw [heq]; rfl) hends
      have hcloses := hclose front
      have hopens := hopen front
      omega
    · exact fun hend => hunended (List.mem_cons_of_mem _ hend)
  · rintro ⟨hfirst, hne, behind, rfl, htext, hbalanced, hinside, hunended⟩
    refine ⟨?_, ?_, ?_, ?_⟩
    · rw [htext, List.map_cons, String.join_cons]
    · have hcloses := hclose tokens
      have hopens := hopen tokens
      omega
    · intro front other back heq hends
      cases front with
      | nil =>
        obtain ⟨rfl, rfl⟩ := List.cons.inj heq
        simpa using hfirst hends
      | cons first front =>
        obtain ⟨rfl, htokens⟩ := List.cons.inj heq
        have hlt := hinside front other back htokens hends
        have hcloses := hclose front
        have hopens := hopen front
        omega
    · rw [List.mem_cons, not_or]
      exact ⟨hne.symm, hunended⟩

theorem prependText_eq_ok_iff {token : Token} {result : Except Error String × List Token}
    {text : String} {rest : List Token} :
    prependText token result = (.ok text, rest) ↔
      ∃ behind, result = (.ok behind, rest) ∧ text = token.display ++ behind :=
  map_eq_ok_iff

theorem sound_runRawText {depth : Nat} {tokens rest : List Token} {text : String}
    (hrun : runRawText depth tokens = (.ok text, rest)) :
    ∃ taken, tokens = taken ++ rest ∧ SpellsRawText depth taken text ∧ EndsItem (current rest) := by
  -- What a token adds in front is the same whether it is a parenthesis or not.
  have hmore {token : Token} {depth after : Nat} {others : List Token} {behind : String}
      (hafter : after + [token].count .closeParen = depth + [token].count .openParen)
      (hends : EndsItem token → 0 < depth) (hne : token ≠ .endOfInput)
      (hothers : ∃ taken, others = taken ++ rest ∧ SpellsRawText after taken behind ∧
        EndsItem (current rest)) :
      ∃ taken, token :: others = taken ++ rest ∧
        SpellsRawText depth taken (token.display ++ behind) ∧ EndsItem (current rest) := by
    obtain ⟨taken, rfl, htext, hrest⟩ := hothers
    exact ⟨token :: taken, rfl,
      (spellsRawText_cons_iff hafter).2 ⟨hends, hne, behind, rfl, htext⟩, hrest⟩
  fun_induction runRawText depth tokens generalizing text with
  | case1 => cases hrun
  | case2 => cases hrun
  | case3 =>
    cases hrun
    exact ⟨[], rfl, spellsRawText_nil_iff.2 ⟨rfl, rfl⟩, .inl rfl⟩
  | case4 =>
    cases hrun
    exact ⟨[], rfl, spellsRawText_nil_iff.2 ⟨rfl, rfl⟩, .inr rfl⟩
  | case5 others depth ih =>
    obtain ⟨behind, hothers, rfl⟩ := prependText_eq_ok_iff.1 hrun
    exact hmore rfl (fun _ => Nat.succ_pos depth) (by decide) (ih hothers)
  | case6 others depth ih =>
    obtain ⟨behind, hothers, rfl⟩ := prependText_eq_ok_iff.1 hrun
    exact hmore rfl (fun hends => by rcases hends with heq | heq <;> cases heq) (by decide)
      (ih hothers)
  | case7 token others depth hend hcomma hclose hinner hopen ih =>
    obtain ⟨behind, hothers, rfl⟩ := prependText_eq_ok_iff.1 hrun
    have hnotClose : token ≠ .closeParen := by
      rintro rfl
      cases depth with
      | zero => exact hclose rfl rfl
      | succ depth => exact hinner depth rfl rfl
    have hclosed : [token].count .closeParen = 0 := by simp [hnotClose]
    have hnotOpen : token ≠ .openParen := hopen
    have hopened : [token].count .openParen = 0 := by simp [hnotOpen]
    refine hmore (by rw [hclosed, hopened]) ?_ hend (ih hothers)
    rintro (heq | heq)
    · exact Nat.pos_of_ne_zero (hcomma heq)
    · exact absurd heq hnotClose

/-- There is a depth behind every token that does not end an item. -/
theorem exists_depth_behind {depth : Nat} {token : Token} (hends : EndsItem token → 0 < depth) :
    ∃ after, after + [token].count .closeParen = depth + [token].count .openParen := by
  by_cases hclose : token = .closeParen
  · subst hclose
    have hopen := hends (.inr rfl)
    exact ⟨depth - 1, by simp; omega⟩
  · exact ⟨depth + [token].count .openParen, by simp [hclose]⟩

/-- A token is read at the depth at which the tokens in front leave it. -/
theorem runRawText_cons {depth after : Nat} {token : Token}
    (hafter : after + [token].count .closeParen = depth + [token].count .openParen)
    (hends : EndsItem token → 0 < depth) (hne : token ≠ .endOfInput) (tokens : List Token) :
    runRawText depth (token :: tokens) = prependText token (runRawText after tokens) := by
  cases token
  case comma =>
    cases depth with
    | zero => exact absurd (hends (.inl rfl)) (Nat.lt_irrefl 0)
    | succ depth =>
      obtain rfl : after = depth + 1 := hafter
      rfl
  case closeParen =>
    cases depth with
    | zero => exact absurd (hends (.inr rfl)) (Nat.lt_irrefl 0)
    | succ depth =>
      obtain rfl : after = depth := Nat.succ.inj hafter
      rfl
  case openParen =>
    obtain rfl : after = depth + 1 := hafter
    rfl
  case endOfInput => exact absurd rfl hne
  all_goals
    obtain rfl : after = depth := hafter
    rfl

theorem complete_runRawText {depth : Nat} {taken rest : List Token} {text : String}
    (htext : SpellsRawText depth taken text) (hrest : EndsItem (current rest)) :
    runRawText depth (taken ++ rest) = (.ok text, rest) := by
  induction taken generalizing depth text with
  | nil =>
    obtain ⟨rfl, rfl⟩ := spellsRawText_nil_iff.1 htext
    cases rest with
    | nil => rcases hrest with heq | heq <;> cases heq
    | cons token rest =>
      rcases hrest with heq | heq
      · obtain rfl : token = .comma := heq
        rfl
      · obtain rfl : token = .closeParen := heq
        rfl
  | cons token taken ih =>
    have hinside (hends : EndsItem token) : 0 < depth := by
      simpa using htext.inside [] token taken rfl hends
    obtain ⟨after, hafter⟩ := exists_depth_behind hinside
    obtain ⟨hends, hne, behind, rfl, hbehind⟩ := (spellsRawText_cons_iff hafter).1 htext
    rw [List.cons_append, runRawText_cons hafter hends hne, ih hbehind]
    rfl

theorem spellsType_iff {tokens : List Token} {text : String} :
    SpellsType tokens text ↔ text ≠ "" ∧ SpellsRawText 0 tokens text := by
  constructor
  · rintro ⟨htext, hne, hbalanced, hinside, hunended⟩
    refine ⟨hne, htext, ?_, ?_, hunended⟩
    · rw [Nat.zero_add, hbalanced]
    · intro front token back heq hends
      rw [Nat.zero_add]
      exact hinside front token back heq hends
  · rintro ⟨hne, htext, hbalanced, hinside, hunended⟩
    refine ⟨htext, hne, ?_, ?_, hunended⟩
    · rw [hbalanced, Nat.zero_add]
    · intro front token back heq hends
      have hlt := hinside front token back heq hends
      rwa [Nat.zero_add] at hlt

theorem recognizes_typeText : Recognizes typeText SpellsType EndsItem := by
  constructor
  · intro tokens rest text hrun
    obtain ⟨raw, middle, hraw, hrun⟩ := run_bind_eq_ok_iff.1 hrun
    obtain ⟨taken, htaken, htext, -⟩ := sound_runRawText hraw
    split at hrun
    · cases hrun
    · next hne =>
      cases hrun
      exact ⟨taken, htaken, spellsType_iff.2 ⟨hne, htext⟩⟩
  · intro taken rest text htype hrest
    obtain ⟨hne, htext⟩ := spellsType_iff.1 htype
    unfold typeText
    rw [run_bind_of_ok (complete_runRawText htext hrest), if_neg hne, run_pure]

/-! The parts of statements. -/

theorem recognizes_columnSpec : Recognizes columnSpec SpellsColumn EndsItem := by
  constructor
  · intro tokens rest spec hrun
    obtain ⟨column, afterName, hname, hrun⟩ := run_bind_eq_ok_iff.1 hrun
    obtain ⟨type, afterType, htype, hrun⟩ := run_bind_eq_ok_iff.1 hrun
    cases hrun
    obtain ⟨front, rfl, hfront⟩ := Recognizes.sound recognizes_name hname
    obtain ⟨back, rfl, hback⟩ := Recognizes.sound recognizes_typeText htype
    exact ⟨front ++ back, by simp, .intro hfront hback⟩
  · rintro _ rest _ ⟨hname, htype⟩ hrest
    unfold columnSpec
    rw [List.append_assoc, run_bind_of_ok (Recognizes.complete recognizes_name hname trivial),
      run_bind_of_ok (Recognizes.complete recognizes_typeText htype hrest), run_pure]

theorem recognizes_condition : Recognizes condition SpellsCondition Anywhere := by
  constructor
  · intro tokens rest c hrun
    obtain ⟨column, afterName, hname, hrun⟩ := run_bind_eq_ok_iff.1 hrun
    obtain ⟨sign, afterSign, hsign, hrun⟩ := run_bind_eq_ok_iff.1 hrun
    obtain ⟨value, afterValue, hvalue, hrun⟩ := run_bind_eq_ok_iff.1 hrun
    cases hrun
    obtain ⟨front, rfl, hfront⟩ := Recognizes.sound recognizes_name hname
    obtain ⟨_, rfl, rfl⟩ := Recognizes.sound recognizes_comparison hsign
    obtain ⟨back, rfl, hback⟩ := Recognizes.sound recognizes_literal hvalue
    exact ⟨front ++ comparisonToken sign :: back, by simp, .intro sign hfront hback⟩
  · rintro _ rest _ ⟨sign, hname, hvalue⟩ -
    rename_i front back _ _
    have hsign : comparison.run (comparisonToken sign :: (back ++ rest)) = (.ok sign, back ++ rest) :=
      Recognizes.complete recognizes_comparison rfl trivial
    unfold condition
    rw [List.append_assoc, run_bind_of_ok (Recognizes.complete recognizes_name hname trivial),
      List.cons_append, run_bind_of_ok hsign,
      run_bind_of_ok (Recognizes.complete recognizes_literal hvalue trivial), run_pure]

theorem recognizes_assignment : Recognizes assignment SpellsAssignment Anywhere := by
  constructor
  · intro tokens rest a hrun
    obtain ⟨column, afterName, hname, hrun⟩ := run_bind_eq_ok_iff.1 hrun
    obtain ⟨_, afterSign, hsign, hrun⟩ := run_bind_eq_ok_iff.1 hrun
    obtain ⟨value, afterValue, hvalue, hrun⟩ := run_bind_eq_ok_iff.1 hrun
    cases hrun
    obtain ⟨front, rfl, hfront⟩ := Recognizes.sound recognizes_name hname
    obtain rfl := (run_expect_eq_ok_iff (by decide)).1 hsign
    obtain ⟨back, rfl, hback⟩ := Recognizes.sound recognizes_literal hvalue
    exact ⟨front ++ .eq :: back, by simp, .intro hfront hback⟩
  · rintro _ rest _ ⟨hname, hvalue⟩ -
    unfold assignment
    rw [List.append_assoc, run_bind_of_ok (Recognizes.complete recognizes_name hname trivial),
      List.cons_append, run_bind_of_ok (run_expect (by decide) _),
      run_bind_of_ok (Recognizes.complete recognizes_literal hvalue trivial), run_pure]

/-! Clauses. -/

/-- The conditions of a clause may be followed by its other parts, but by no further condition. -/
def EndsWhere (token : Token) : Prop :=
  token ≠ .keyword .WHERE ∧ token ≠ .keyword .AND

theorem recognizes_conditions : Recognizes conditions SpellsWhere EndsWhere := by
  have hlist : Recognizes (separatedBy (.keyword .AND) condition)
      (SpellsList (.keyword .AND) SpellsCondition) _ :=
    recognizes_separatedBy recognizes_condition trivial
  constructor
  · intro tokens rest found hrun
    obtain ⟨accepted, middle, haccept, hrun⟩ := run_bind_eq_ok_iff.1 hrun
    cases accepted with
    | true =>
      obtain rfl := eq_cons_of_accept (by decide) haccept
      obtain ⟨taken, rfl, hspells⟩ := hlist.sound hrun
      exact ⟨.keyword .WHERE :: taken, rfl, .some hspells⟩
    | false =>
      obtain rfl := eq_of_not_accept haccept
      cases hrun
      exact ⟨[], rfl, .none⟩
  · intro taken rest found hspells hrest
    unfold conditions
    cases hspells with
    | none =>
      rw [List.nil_append, run_bind_of_ok (run_accept_of_ne hrest.1)]
      rfl
    | some hspells =>
      rw [List.cons_append, run_bind_of_ok (run_accept _ _)]
      exact hlist.complete hspells ⟨trivial, hrest.2⟩

/-- The tokens that may follow on a direction. -/
def EndsDirection (token : Token) : Prop :=
  token ≠ .keyword .ASC ∧ token ≠ .keyword .DESC

theorem recognizes_direction : Recognizes direction SpellsDirection EndsDirection := by
  constructor
  · intro tokens rest d hrun
    obtain ⟨descending, middle, hdescending, hrun⟩ := run_bind_eq_ok_iff.1 hrun
    cases descending with
    | true =>
      obtain rfl := eq_cons_of_accept (by decide) hdescending
      cases hrun
      exact ⟨[.keyword .DESC], rfl, .descending⟩
    | false =>
      obtain rfl := eq_of_not_accept hdescending
      obtain ⟨ascending, middle, hascending, hrun⟩ := run_bind_eq_ok_iff.1 hrun
      cases hrun
      cases ascending with
      | true =>
        obtain rfl := eq_cons_of_accept (by decide) hascending
        exact ⟨[.keyword .ASC], rfl, .ascending⟩
      | false =>
        obtain rfl := eq_of_not_accept hascending
        exact ⟨[], rfl, .none⟩
  · intro taken rest d hspells hrest
    unfold direction
    cases hspells with
    | none =>
      rw [List.nil_append, run_bind_of_ok (run_accept_of_ne hrest.2)]
      exact run_bind_of_ok (run_accept_of_ne hrest.1) _
    | ascending =>
      have hother : current ([.keyword .ASC] ++ rest) ≠ .keyword .DESC := by simp [current]
      rw [run_bind_of_ok (run_accept_of_ne hother)]
      rfl
    | descending => rfl

/-- The tokens that may follow on an order. -/
def EndsOrder (token : Token) : Prop :=
  token ≠ .keyword .ORDER ∧ EndsDirection token

theorem recognizes_ordering :
    Recognizes ordering (fun tokens order => SpellsOrder tokens order.1 order.2) EndsOrder := by
  constructor
  · intro tokens rest order hrun
    obtain ⟨accepted, middle, haccept, hthen⟩ := run_bind_eq_ok_iff.1 hrun
    cases accepted with
    | true =>
      obtain rfl := eq_cons_of_accept (by decide) haccept
      rw [if_pos rfl] at hthen
      obtain ⟨_, afterBy, hby, hthen⟩ := run_bind_eq_ok_iff.1 hthen
      obtain ⟨column, afterName, hname, hthen⟩ := run_bind_eq_ok_iff.1 hthen
      obtain ⟨d, afterDirection, hdirection, hthen⟩ := run_bind_eq_ok_iff.1 hthen
      cases hthen
      obtain rfl := (run_expect_eq_ok_iff (by decide)).1 hby
      obtain ⟨front, rfl, hfront⟩ := Recognizes.sound recognizes_name hname
      obtain ⟨back, rfl, hback⟩ := Recognizes.sound recognizes_direction hdirection
      exact ⟨.keyword .ORDER :: .keyword .BY :: front ++ back, by simp, .some hfront hback⟩
    | false =>
      obtain rfl := eq_of_not_accept haccept
      cases hthen
      exact ⟨[], rfl, .none⟩
  · rintro taken rest ⟨column, d⟩ hspells hrest
    unfold ordering
    cases hspells with
    | none =>
      rw [List.nil_append, run_bind_of_ok (run_accept_of_ne hrest.1)]
      rfl
    | some hname hdirection =>
      rename_i front back column
      have htokens : .keyword .ORDER :: .keyword .BY :: front ++ back ++ rest =
          .keyword .ORDER :: .keyword .BY :: (front ++ (back ++ rest)) := by simp
      rw [htokens, run_bind_of_ok (run_accept _ _)]
      change (expectKeyword .BY >>= _).run _ = _
      rw [run_bind_of_ok (run_expectKeyword _ _),
        run_bind_of_ok (Recognizes.complete recognizes_name hname trivial),
        run_bind_of_ok (Recognizes.complete recognizes_direction hdirection hrest.2), run_pure]

theorem recognizes_limit :
    Recognizes limit SpellsLimit (fun token => token ≠ .keyword .LIMIT) := by
  constructor
  · intro tokens rest found hrun
    obtain ⟨accepted, middle, haccept, hthen⟩ := run_bind_eq_ok_iff.1 hrun
    cases accepted with
    | true =>
      obtain rfl := eq_cons_of_accept (by decide) haccept
      rw [if_pos rfl] at hthen
      obtain ⟨n, afterNumber, hnumber, hlast⟩ := run_bind_eq_ok_iff.1 hthen
      obtain ⟨token, rfl, hmeaning⟩ := (run_takeSome_eq_ok_iff rfl).1 hnumber
      obtain rfl : token = .integer n := by
        cases token <;> cases hmeaning
        rfl
      split at hlast
      · next hn =>
        cases hlast
        exact ⟨[.keyword .LIMIT, .integer n], rfl, .some hn⟩
      · cases hlast
    | false =>
      obtain rfl := eq_of_not_accept haccept
      cases hthen
      exact ⟨[], rfl, .none⟩
  · intro taken rest found hspells hrest
    unfold limit
    cases hspells with
    | none =>
      rw [List.nil_append, run_bind_of_ok (run_accept_of_ne hrest)]
      rfl
    | @some n hn =>
      have hnumber : (takeSome integer?).run (.integer n :: rest) = (.ok n, rest) := rfl
      rw [List.cons_append, run_bind_of_ok (run_accept _ _)]
      change (takeSome integer? >>= _).run _ = _
      rw [List.cons_append, List.nil_append, run_bind_of_ok hnumber, if_pos hn, run_pure]

end TableEngine.Parser
