import TableEngine.Proofs.Lexing

/-!
What a token takes up. Every token that is read is written in front of what is left (`IsLexeme`), and
nothing behind the next character decides about it: the same token is read in front of every text that
starts with that character, or that ends tokens (`takes_of_readToken`).
-/

namespace TableEngine.Lexer

/-- The signs and how they are written. -/
def signs : List (Token × List Char) :=
  [(.openParen, ['(']), (.closeParen, [')']), (.comma, [',']), (.semicolon, [';']), (.star, ['*']),
    (.eq, ['=']), (.le, ['<', '=']), (.ne, ['<', '>']), (.lt, ['<']), (.ge, ['>', '=']), (.gt, ['>']),
    (.ne, ['!', '='])]

/-- How a token is written. Digits alone are a number, not a word. -/
inductive IsLexeme : Token → List Char → Prop
  | sign {token : Token} {lexeme : List Char} (hsign : (token, lexeme) ∈ signs) :
      IsLexeme token lexeme
  | word {lexeme : List Char} (hchars : ∀ c ∈ lexeme, isWordChar c = true)
      (hother : ∃ c ∈ lexeme, c.isDigit = false) : IsLexeme (Token.ofWord lexeme) lexeme
  | number {n : Int64} {digits : List Char} (hne : digits ≠ [])
      (hdigits : ∀ c ∈ digits, c.isDigit = true)
      (hvalue : Text.toInt64? (Text.digitsValue digits) = some n) : IsLexeme (.integer n) digits
  | negative {n : Int64} {digits : List Char} (hne : digits ≠ [])
      (hdigits : ∀ c ∈ digits, c.isDigit = true)
      (hvalue : Text.toInt64? (-Text.digitsValue digits) = some n) :
      IsLexeme (.integer n) ('-' :: digits)
  | quoted {quote : Char} {written body : List Char} (hquote : quote = '\'' ∨ quote = '"')
      (hread : readQuoted quote written = some (body, [])) :
      IsLexeme (.text (String.ofList body)) (quote :: written)

/-- A text that ends a token which ends in front of `rest`. -/
def EndsLike (rest other : List Char) : Prop :=
  other.head? = rest.head? ∨ Ends other

theorem EndsLike.endsWord {rest other : List Char} (hother : EndsLike rest other)
    (hrest : EndsWord rest) : EndsWord other := by
  rcases hother with hsame | hends
  · exact fun c hc => hrest c (hsame ▸ hc)
  · exact hends.endsWord

theorem EndsLike.ne {rest other : List Char} {d : Char} (hother : EndsLike rest other)
    (hd : d ∈ ['\'', '"', '=', '>']) (hrest : rest.head? ≠ some d) : other.head? ≠ some d := by
  rcases hother with hsame | hends
  · rwa [hsame]
  · exact hends.ne hd

theorem endsLike_append {tail : List Char} (hends : Ends tail) (rest : List Char) :
    EndsLike rest (rest ++ tail) := by
  cases rest with
  | nil => exact .inr hends
  | cons c rest => exact .inl rfl

theorem readQuoted_local {quote : Char} {text body rest : List Char}
    (hread : readQuoted quote text = some (body, rest)) :
    ∃ written, text = written ++ rest ∧ rest.head? ≠ some quote ∧
      ∀ other, other.head? ≠ some quote →
        readQuoted quote (written ++ other) = some (body, other) := by
  fun_induction readQuoted quote text generalizing body rest with
  | case1 => cases hread
  | case2 =>
    cases hread
    have hrest : ([] : List Char).head? ≠ some quote := by simp
    exact ⟨[quote], rfl, hrest, fun other hother => readQuoted_quote hother⟩
  | case3 => cases hread
  | case4 behind ih =>
    obtain ⟨⟨inner, rest⟩, hinner, heq⟩ := Option.map_eq_some_iff.1 hread
    cases heq
    obtain ⟨written, rfl, hrest, hlocal⟩ := ih hinner
    refine ⟨quote :: quote :: written, rfl, hrest, fun other hother => ?_⟩
    rw [List.cons_append, List.cons_append, readQuoted, if_pos rfl, if_pos rfl, hlocal other hother]
    rfl
  | case5 d behind hd =>
    cases hread
    exact ⟨[quote], rfl, by simpa using hd, fun other hother => readQuoted_quote hother⟩
  | case6 c d behind hc ih =>
    obtain ⟨⟨inner, rest⟩, hinner, heq⟩ := Option.map_eq_some_iff.1 hread
    cases heq
    obtain ⟨written, hwritten, hrest, hlocal⟩ := ih hinner
    have hne : written ≠ [] := by
      rintro rfl
      have hshort := length_lt_of_readQuoted hinner
      rw [hwritten] at hshort
      exact absurd hshort (lt_irrefl _)
    refine ⟨c :: written, by rw [hwritten, List.cons_append], hrest, fun other hother => ?_⟩
    rw [List.cons_append, readQuoted_cons_of_ne hc (by simp [hne]), hlocal other hother]
    rfl

theorem head?_ne_of_forall {c : Char} {text : List Char} (htext : ∀ rest, text ≠ c :: rest) :
    text.head? ≠ some c := by
  cases text with
  | nil => nofun
  | cons d text =>
    intro hhead
    obtain rfl := Option.some.inj hhead
    exact htext text rfl

theorem sign?_local {text rest : List Char} {token : Token}
    (hsign : sign? text = some (token, rest)) :
    ∃ lexeme, text = lexeme ++ rest ∧ (token, lexeme) ∈ signs ∧
      ∀ other, EndsLike rest other → sign? (lexeme ++ other) = some (token, other) := by
  unfold sign? at hsign
  split at hsign <;> cases hsign
  case h_9 hequal hgreater =>
    refine ⟨['<'], rfl, by decide, fun other hother => ?_⟩
    exact sign?_less (hother.ne (by decide) (head?_ne_of_forall hequal))
      (hother.ne (by decide) (head?_ne_of_forall hgreater))
  case h_11 hequal =>
    refine ⟨['>'], rfl, by decide, fun other hother => ?_⟩
    exact sign?_greater (hother.ne (by decide) (head?_ne_of_forall hequal))
  -- All other signs are read without a look at what follows.
  case h_1 => exact ⟨['('], rfl, by decide, fun _ _ => rfl⟩
  case h_2 => exact ⟨[')'], rfl, by decide, fun _ _ => rfl⟩
  case h_3 => exact ⟨[','], rfl, by decide, fun _ _ => rfl⟩
  case h_4 => exact ⟨[';'], rfl, by decide, fun _ _ => rfl⟩
  case h_5 => exact ⟨['*'], rfl, by decide, fun _ _ => rfl⟩
  case h_6 => exact ⟨['='], rfl, by decide, fun _ _ => rfl⟩
  case h_7 => exact ⟨['<', '='], rfl, by decide, fun _ _ => rfl⟩
  case h_8 => exact ⟨['<', '>'], rfl, by decide, fun _ _ => rfl⟩
  case h_10 => exact ⟨['>', '='], rfl, by decide, fun _ _ => rfl⟩
  case h_12 => exact ⟨['!', '='], rfl, by decide, fun _ _ => rfl⟩

theorem readWord_local {c : Char} {text rest : List Char} {token : Token}
    (hc : isWordChar c = true) (hread : readWord (c :: text) = (token, rest)) :
    ∃ others, text = others ++ rest ∧ token = Token.ofWord (c :: others) ∧
      (∀ d ∈ c :: others, isWordChar d = true) ∧ EndsWord rest := by
  rw [readWord, List.takeWhile_cons_of_pos hc, List.dropWhile_cons_of_pos hc] at hread
  cases hread
  refine ⟨_, List.takeWhile_append_dropWhile.symm, rfl, ?_, endsWord_dropWhile text⟩
  exact List.forall_mem_cons.2 ⟨hc, fun d hd => List.mem_takeWhile_imp hd⟩

/-- Digits that run into a word make up a part of it, and may not stand behind a sign. -/
theorem readNumber_of_not_endsWord (negative : Bool) {text : List Char}
    (hends : ¬EndsWord (text.dropWhile Char.isDigit)) :
    (∃ fault, readNumber negative text = .error fault) ∨
      negative = false ∧ readNumber negative text = .ok (readWord text) := by
  obtain ⟨c, rest, hrest, hword⟩ := exists_cons_of_not_endsWord hends
  have hstart : isWordStart c = true := by
    rwa [isWordChar, not_of_dropWhile_eq_cons hrest, Bool.or_false] at hword
  rw [readNumber, hrest]
  dsimp only
  rw [if_neg (by simp [hstart])]
  cases negative with
  | true => exact .inl ⟨_, if_pos rfl⟩
  | false => exact .inr ⟨rfl, if_neg Bool.false_ne_true⟩

/-- Digits are read as an integer where they do not run into a word. -/
theorem readNumber_local {negative : Bool} {c : Char} {text rest : List Char} {token : Token}
    (hc : c.isDigit = true) (hends : EndsWord (text.dropWhile Char.isDigit))
    (hread : readNumber negative (c :: text) = .ok (token, rest)) :
    ∃ others n, text = others ++ rest ∧ token = .integer n ∧
      (∀ d ∈ c :: others, d.isDigit = true) ∧
      Text.toInt64? (Text.signed negative (Text.digitsValue (c :: others))) = some n ∧
      ∀ other, EndsLike rest other →
        readNumber negative (c :: others ++ other) = .ok (token, other) := by
  have hdigits : ∀ d ∈ c :: text.takeWhile Char.isDigit, d.isDigit = true :=
    List.forall_mem_cons.2 ⟨hc, fun d hd => List.mem_takeWhile_imp hd⟩
  have hsplit : c :: text = (c :: text.takeWhile Char.isDigit) ++ text.dropWhile Char.isDigit := by
    rw [List.cons_append, List.takeWhile_append_dropWhile]
  rw [hsplit, readNumber_digits negative hdigits hends] at hread
  split at hread
  · next n hn =>
    cases hread
    refine ⟨_, n, List.takeWhile_append_dropWhile.symm, rfl, hdigits, hn, fun other hother => ?_⟩
    rw [readNumber_digits negative hdigits (hother.endsWord hends), hn]
  · cases hread

/-- The token at the front of a text takes up what stands in front of `rest`, and is read in the same way
    in front of every text that starts as `rest` does or ends tokens. -/
def Takes (text : List Char) (token : Token) (rest : List Char) : Prop :=
  ∃ lexeme, text = lexeme ++ rest ∧ IsLexeme token lexeme ∧
    ∀ other, EndsLike rest other → readToken (lexeme ++ other) = .ok (token, other)

theorem takes_sign {text rest : List Char} {token : Token}
    (hsign : sign? text = some (token, rest)) : Takes text token rest := by
  obtain ⟨lexeme, rfl, hlexeme, hlocal⟩ := sign?_local hsign
  refine ⟨lexeme, rfl, .sign hlexeme, fun other hother => ?_⟩
  rw [readToken_of_sign? (hlocal other hother)]

theorem takes_quoted {quote : Char} (hquote : quote = '\'' ∨ quote = '"')
    {text body rest : List Char} (hread : readQuoted quote text = some (body, rest)) :
    Takes (quote :: text) (.text (String.ofList body)) rest := by
  obtain ⟨written, rfl, hrest, hlocal⟩ := readQuoted_local hread
  have hwhole : readQuoted quote written = some (body, []) := by
    simpa using hlocal [] nofun
  refine ⟨quote :: written, rfl, .quoted hquote hwhole, fun other hother => ?_⟩
  have hhead : other.head? ≠ some quote :=
    hother.ne (by rcases hquote with rfl | rfl <;> decide) hrest
  rw [List.cons_append, readToken_quote hquote, hlocal other hhead]

theorem takes_word {c : Char} (hc : isWordChar c = true) {text rest : List Char} {token : Token}
    (hread : readWord (c :: text) = (token, rest))
    (hdigits : c.isDigit = true → ¬EndsWord (text.dropWhile Char.isDigit)) :
    Takes (c :: text) token rest := by
  obtain ⟨others, rfl, rfl, hchars, hrest⟩ := readWord_local hc hread
  have hother : ∃ d ∈ c :: others, d.isDigit = false := by
    by_contra hall
    simp only [not_exists, not_and, Bool.not_eq_false] at hall
    rw [List.forall_mem_cons] at hall
    have hstop : rest.dropWhile Char.isDigit = rest :=
      Text.dropWhile_append_of_stop (List.forall_mem_nil _) hrest.isDigit
    apply hdigits hall.1
    rw [List.dropWhile_append_of_pos hall.2, hstop]
    exact hrest
  refine ⟨c :: others, rfl, .word hchars hother, fun other hends => ?_⟩
  rw [List.cons_append, readToken_of_isWordChar hc, ← List.cons_append,
    readWord_append hchars (hends.endsWord hrest)]
  split
  · exact readNumber_word hchars hother (hends.endsWord hrest)
  · rfl

theorem takes_of_isWordChar {c : Char} (hc : isWordChar c = true) {text rest : List Char}
    {token : Token} (hread : readToken (c :: text) = .ok (token, rest)) :
    Takes (c :: text) token rest := by
  rw [readToken_of_isWordChar hc] at hread
  split at hread
  case isFalse hdigit =>
    exact takes_word hc (Except.ok.inj hread) fun h => absurd h hdigit
  case isTrue hdigit =>
    by_cases hends : EndsWord (text.dropWhile Char.isDigit)
    · obtain ⟨others, n, rfl, rfl, hdigits, hvalue, hlocal⟩ := readNumber_local hdigit hends hread
      refine ⟨c :: others, rfl, .number (List.cons_ne_nil _ _) hdigits hvalue,
        fun other hother => ?_⟩
      rw [List.cons_append, readToken_of_isWordChar hc, if_pos hdigit]
      exact hlocal other hother
    · have hrest : ¬EndsWord ((c :: text).dropWhile Char.isDigit) := by
        rwa [List.dropWhile_cons_of_pos hdigit]
      rcases readNumber_of_not_endsWord false hrest with ⟨fault, hfault⟩ | ⟨-, hword⟩
      · rw [hfault] at hread
        cases hread
      · rw [hword] at hread
        exact takes_word hc (Except.ok.inj hread) fun _ => hends

theorem takes_negative {text rest : List Char} {token : Token}
    (hdigit : text.head?.any Char.isDigit = true)
    (hread : readNumber true text = .ok (token, rest)) : Takes ('-' :: text) token rest := by
  cases text with
  | nil => cases hdigit
  | cons d text =>
    have hd : d.isDigit = true := hdigit
    by_cases hends : EndsWord (text.dropWhile Char.isDigit)
    · obtain ⟨others, n, rfl, rfl, hdigits, hvalue, hlocal⟩ := readNumber_local hd hends hread
      refine ⟨'-' :: d :: others, rfl, .negative (List.cons_ne_nil _ _) hdigits hvalue,
        fun other hother => ?_⟩
      rw [List.cons_append, readToken_minus (by exact hd)]
      exact hlocal other hother
    · have hrest : ¬EndsWord ((d :: text).dropWhile Char.isDigit) := by
        rwa [List.dropWhile_cons_of_pos hd]
      rcases readNumber_of_not_endsWord true hrest with ⟨fault, hfault⟩ | ⟨hfalse, -⟩
      · rw [hfault] at hread
        cases hread
      · cases hfalse

/-- Whether a token is read, and which one, depends on nothing behind the character that follows it. -/
theorem takes_of_readToken {text rest : List Char} {token : Token} (hne : text ≠ [])
    (hread : readToken text = .ok (token, rest)) : Takes text token rest := by
  cases hsign : sign? text with
  | some found =>
    rw [readToken_of_sign? hsign] at hread
    cases hread
    exact takes_sign hsign
  | none =>
    cases text with
    | nil => exact absurd rfl hne
    | cons c text =>
      by_cases hquote : c = '\'' ∨ c = '"'
      · rw [readToken_quote hquote] at hread
        split at hread
        · next hbody =>
          cases hread
          exact takes_quoted hquote hbody
        · cases hread
      by_cases hword : isWordChar c = true
      · exact takes_of_isWordChar hword hread
      · have hdigit : c.isDigit ≠ true := fun h => hword (isWordChar_of_isDigit h)
        have hstart : isWordStart c ≠ true := fun h => hword (isWordChar_of_isWordStart h)
        rw [readToken, hsign] at hread
        dsimp only at hread
        rw [if_neg hquote, if_neg hdigit, if_neg hstart] at hread
        split at hread
        · next hminus =>
          obtain ⟨rfl, hbehind⟩ := hminus
          exact takes_negative hbehind hread
        · cases hread

theorem IsLexeme.ne_endOfInput {token : Token} {lexeme : List Char} (hlexeme : IsLexeme token lexeme) :
    token ≠ .endOfInput := by
  cases hlexeme with
  | sign hsign =>
    rintro rfl
    simp [signs] at hsign
  | word =>
    unfold Token.ofWord
    split <;> nofun
  | number | negative | quoted => nofun

theorem Takes.ne_endOfInput {text rest : List Char} {token : Token} (htakes : Takes text token rest) :
    token ≠ .endOfInput := by
  obtain ⟨lexeme, -, hlexeme, -⟩ := htakes
  exact hlexeme.ne_endOfInput

theorem length_lt_of_readToken_of_visible {text rest : List Char} {token : Token}
    (hvisible : skipGaps text ≠ []) (hread : readToken (skipGaps text) = .ok (token, rest)) :
    rest.length < text.length :=
  length_lt_of_next hread (takes_of_readToken hvisible hread).ne_endOfInput

/-- At the end of the text the end marker is read, and any other token takes up a character. -/
theorem end_or_shorter_of_next {text rest : List Char} {token : Token}
    (hread : next text = .ok (token, rest)) :
    token = .endOfInput ∧ rest = [] ∨ token ≠ .endOfInput ∧ rest.length < text.length := by
  rw [next] at hread
  by_cases hvisible : skipGaps text = []
  · rw [hvisible] at hread
    cases hread
    exact .inl ⟨rfl, rfl⟩
  · exact .inr ⟨(takes_of_readToken hvisible hread).ne_endOfInput,
      length_lt_of_readToken_of_visible hvisible hread⟩

/-- What is not all skipped is read as a first token and the tokens behind it. -/
theorem readAll_eq_ok_iff {text : List Char} (hvisible : skipGaps text ≠ []) {tokens : List Token} :
    readAll text = .ok tokens ↔
      ∃ token rest others, readToken (skipGaps text) = .ok (token, rest) ∧
        readAll rest = .ok others ∧ tokens = token :: others := by
  rw [readAll_eq, next]
  cases hread : readToken (skipGaps text) with
  | error fault => simp
  | ok found =>
    obtain ⟨token, rest⟩ := found
    dsimp only
    rw [if_neg (takes_of_readToken hvisible hread).ne_endOfInput, map_cons_eq_ok_iff]
    constructor
    · rintro ⟨others, hrest, htokens⟩
      exact ⟨token, rest, others, rfl, hrest, htokens⟩
    · rintro ⟨_, _, others, heq, hrest, htokens⟩
      cases heq
      exact ⟨others, hrest, htokens⟩

end TableEngine.Lexer
