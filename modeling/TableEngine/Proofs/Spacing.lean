import TableEngine.Proofs.Comments
import TableEngine.Proofs.TypePieces

/-!
Tokens that are written with blanks and comments around them. Each token can be written in many ways
(`Token.IsWritten`), and whatever separates them, a text in which they follow on each other is read as
these tokens (`Token.ofText_spaced`).
-/

namespace TableEngine

open Lexer

/-- How a token can be written: a keyword in any letter case, a number with or without leading zeros, a
    text in quotes of either kind. -/
inductive Token.IsWritten : Token → List Char → Prop
  | sign {token : Token} {text : List Char} (hsign : (token, text) ∈ signs) : IsWritten token text
  | keyword {k : Keyword} {text : List Char} (htext : text.map Char.toUpper = k.text.toList) :
      IsWritten (.keyword k) text
  /-- Digits alone are no word. -/
  | word {text : List Char} (hchars : ∀ c ∈ text, isWordChar c = true)
      (hother : ∃ c ∈ text, c.isDigit = false)
      (hkeyword : ∀ k : Keyword, text.map Char.toUpper ≠ k.text.toList) :
      IsWritten (.word (String.ofList text)) text
  | number {n : Int64} {digits : List Char} (hne : digits ≠ [])
      (hdigits : ∀ c ∈ digits, c.isDigit = true)
      (hvalue : (Text.digitsValue digits : Int) = n.toInt) : IsWritten (.integer n) digits
  | negative {n : Int64} {digits : List Char} (hne : digits ≠ [])
      (hdigits : ∀ c ∈ digits, c.isDigit = true)
      (hvalue : -(Text.digitsValue digits : Int) = n.toInt) : IsWritten (.integer n) ('-' :: digits)
  | quoted {quote : Char} (hquote : quote = '\'' ∨ quote = '"') (body : List Char) :
      IsWritten (.text (String.ofList body)) (inQuotes quote body)

namespace Lexer

/-! Every way to write a token is read as the token. -/

theorem lexes_of_mem_signs {token : Token} {text : List Char} (hsign : (token, text) ∈ signs) :
    Lexes text [token] := by
  have hsigns : ∀ sign ∈ signs, sign.1 ≠ .endOfInput ∧ sign? sign.2 = some (sign.1, []) ∧
      sign.2.head?.any (fun c => !Text.isBlank c && c != '-' && c != '/') = true := by decide
  obtain ⟨htoken, hread, hvisible⟩ := hsigns _ hsign
  obtain ⟨lexeme, hlexeme, -, hlocal⟩ := sign?_local hread
  obtain rfl : text = lexeme := hlexeme.trans (List.append_nil lexeme)
  refine lexes_of_next htoken fun rest hends => ?_
  have hrest := hlocal rest (.inr hends)
  cases text with
  | nil => cases hvisible
  | cons c text =>
    simp only [List.head?_cons, Option.any_some, Bool.and_eq_true, Bool.not_eq_true',
      bne_iff_ne] at hvisible
    rw [List.cons_append] at hrest ⊢
    rw [next_of_visible hvisible.1.1 (.inl hvisible.1.2) hvisible.2, readToken_of_sign? hrest]

theorem ofWord_of_map_toUpper {word : List Char} {k : Keyword}
    (hword : word.map Char.toUpper = k.text.toList) : Token.ofWord word = .keyword k := by
  rw [Token.ofWord, Keyword.ofWord?_of_map_toUpper hword]

theorem lexes_of_map_toUpper {word : List Char} {k : Keyword}
    (hword : word.map Char.toUpper = k.text.toList) : Lexes word [.keyword k] := by
  have hletters := Keyword.isAlpha_of_map_toUpper hword
  have hne : word ≠ [] := by
    rintro rfl
    cases k <;> cases hword
  obtain ⟨c, hc⟩ := List.exists_mem_of_ne_nil word hne
  rw [← ofWord_of_map_toUpper hword]
  exact lexes_word (fun d hd => isWordChar_of_isAlpha (hletters d hd))
    ⟨c, hc, not_isDigit_of_isAlpha (hletters c hc)⟩

theorem ofWord_of_not_keyword {word : List Char} (hchars : ∀ c ∈ word, isWordChar c = true)
    (hkeyword : ∀ k : Keyword, word.map Char.toUpper ≠ k.text.toList) :
    Token.ofWord word = .word (String.ofList word) := by
  cases hk : Keyword.ofWord? word with
  | none => rw [Token.ofWord, hk]
  | some k => exact absurd (Keyword.toList_text_of_ofWord? hchars hk).symm (hkeyword k)

/-! What stands between tokens. -/

/-- A blank or a comment. A comment that takes up the rest of a line is closed by the end of the line. -/
inductive IsGap : List Char → Prop
  | blank {c : Char} (hblank : Text.isBlank c = true) : IsGap [c]
  | line {body : List Char} (hbody : '\n' ∉ body) : IsGap ('-' :: '-' :: (body ++ ['\n']))
  | block {body : List Char} (hbody : ¬['*', '/'] <:+: body) :
      IsGap ('/' :: '*' :: (body ++ ['*', '/']))

/-- Any number of blanks and comments in any order, at least one. -/
inductive IsSeparator : List Char → Prop
  | last {gap : List Char} (hgap : IsGap gap) : IsSeparator gap
  | more {gap gaps : List Char} (hgap : IsGap gap) (hgaps : IsSeparator gaps) :
      IsSeparator (gap ++ gaps)

variable {gap : List Char}

theorem IsGap.skipGaps_append (hgap : IsGap gap) (rest : List Char) :
    skipGaps (gap ++ rest) = skipGaps rest := by
  cases hgap with
  | blank hblank => exact skipGaps_of_isBlank hblank rest
  | @line body hbody =>
    have hcomment : IsComment ('-' :: '-' :: body) ('\n' :: rest) := .line hbody (by simp)
    have hskip := hcomment.skipGaps_append
    rw [skipGaps_of_isBlank (by decide)] at hskip
    simpa using hskip
  | block hbody => exact (IsComment.block hbody).skipGaps_append

theorem IsGap.ends_append (hgap : IsGap gap) (rest : List Char) : Ends (gap ++ rest) := by
  cases hgap with
  | @blank c hblank =>
    have hends : Ends [c] := ends_blanks (by simpa using hblank)
    exact hends
  | line => exact ends_cons (by decide) (by decide) _
  | block => exact ends_cons (by decide) (by decide) _

theorem IsSeparator.skipGaps_append (hgap : IsSeparator gap) (rest : List Char) :
    skipGaps (gap ++ rest) = skipGaps rest := by
  induction hgap with
  | last hgap => exact hgap.skipGaps_append rest
  | more hgap _ ih => rw [List.append_assoc, hgap.skipGaps_append, ih]

theorem IsSeparator.ends_append (hgap : IsSeparator gap) (rest : List Char) :
    Ends (gap ++ rest) := by
  cases hgap with
  | last hgap => exact hgap.ends_append rest
  | more hgap _ =>
    rw [List.append_assoc]
    exact hgap.ends_append _

/-- What separates tokens is passed over. -/
theorem IsSeparator.readAll_append (hgap : IsSeparator gap) (rest : List Char) :
    readAll (gap ++ rest) = readAll rest := by
  rw [readAll_eq, next, hgap.skipGaps_append, readAll_eq rest, next]

end Lexer

namespace Token

variable {token : Token} {tokens : List Token} {text : List Char}

theorem IsWritten.lexes (hwritten : token.IsWritten text) : Lexes text [token] := by
  cases hwritten with
  | sign hsign => exact lexes_of_mem_signs hsign
  | keyword htext => exact lexes_of_map_toUpper htext
  | word hchars hother hkeyword =>
    rw [← ofWord_of_not_keyword hchars hkeyword]
    exact lexes_word hchars hother
  | number hne hdigits hvalue => exact lexes_digits hne hdigits hvalue
  | negative hne hdigits hvalue => exact lexes_minus hne hdigits hvalue
  | quoted hquote body => exact lexes_inQuotes hquote body

/-- A text in which tokens follow on each other, with a separator before, between and behind them. -/
inductive Spaced : List Token → List Char → Prop
  | nil {gap : List Char} (hgap : IsSeparator gap) : Spaced [] gap
  | cons {gap text rest : List Char} {token : Token} {tokens : List Token} (hgap : IsSeparator gap)
      (htext : token.IsWritten text) (hrest : Spaced tokens rest) :
      Spaced (token :: tokens) (gap ++ (text ++ rest))

theorem Spaced.ends (hspaced : Spaced tokens text) : Ends text := by
  cases hspaced with
  | nil hgap =>
    rw [← List.append_nil text]
    exact hgap.ends_append []
  | cons hgap => exact hgap.ends_append _

theorem Spaced.readAll_eq (hspaced : Spaced tokens text) :
    readAll text = .ok (tokens ++ [.endOfInput]) := by
  induction hspaced with
  | @nil gap hgap =>
    rw [← List.append_nil gap, hgap.readAll_append, readAll_nil]
    rfl
  | cons hgap htext hrest ih =>
    rw [hgap.readAll_append, htext.lexes _ hrest.ends, ih]
    rfl

/-- Tokens are read as they are meant, in whatever way they are written and separated. -/
theorem ofText_spaced (hspaced : Spaced tokens text) :
    ofText text = .ok (tokens ++ [.endOfInput]) := by
  rw [ofText, hspaced.readAll_eq]

/-- A keyword in mixed case, a word that starts with a digit, a number behind a comparison that could go
    on, and a quoted text with a quote in it, between comments that hold quotes and signs of comments. -/
theorem ofText_spaced_scattered :
    ofText "--/*\nsElEcT/***/2nd <\n-009 /* \" */!=\t\"a\"\"b\" ".toList =
      .ok [.keyword .SELECT, .word "2nd", .lt, .integer (-9), .ne, .text "a\"b", .endOfInput] := by
  have hline : IsGap ('-' :: '-' :: (['/', '*'] ++ ['\n'])) := .line (by decide)
  have hblock : IsGap ('/' :: '*' :: (['*'] ++ ['*', '/'])) := .block (by decide)
  have hquote : IsGap ('/' :: '*' :: (" \" ".toList ++ ['*', '/'])) := .block (by decide)
  have hblank : IsGap [' '] := .blank rfl
  have htab : IsGap ['\t'] := .blank rfl
  have hnewLine : IsGap ['\n'] := .blank rfl
  have hselect : IsWritten (.keyword .SELECT) "sElEcT".toList := .keyword (by decide)
  have hword : IsWritten (.word "2nd") ['2', 'n', 'd'] :=
    .word (List.all_eq_true.1 rfl) ⟨'n', by decide⟩ fun k => by cases k <;> decide
  have hless : IsWritten .lt ['<'] := .sign (by decide)
  have hnumber : IsWritten (.integer (-9)) ['-', '0', '0', '9'] :=
    .negative (by decide) (List.all_eq_true.1 rfl) rfl
  have hdiffers : IsWritten .ne ['!', '='] := .sign (by decide)
  have hquoted : IsWritten (.text "a\"b") (inQuotes '"' "a\"b".toList) := .quoted (.inr rfl) _
  have hspaced : Spaced [.keyword .SELECT, .word "2nd", .lt, .integer (-9), .ne, .text "a\"b"] _ :=
    .cons (.last hline) hselect <| .cons (.last hblock) hword <| .cons (.last hblank) hless <|
      .cons (.last hnewLine) hnumber <| .cons (.more hblank (.last hquote)) hdiffers <|
        .cons (.last htab) hquoted <| .nil (.last hblank)
  exact ofText_spaced hspaced

end Token

end TableEngine
