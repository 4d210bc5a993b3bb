import Mathlib
import TableEngine.Statement.Grammar
import TableEngine.Token.Lexer

/-!
What is written is read as the tokens that were meant (`Lexer.Lexes`). A sign and a closing quote end a
token by themselves, most of the time; a word or a number ends only where the text does not go on with
another word character (`Lexer.Ends`).
-/

namespace TableEngine.Lexer

/-! Characters of words. -/

theorem toNat_of_isWordChar {c : Char} (hc : isWordChar c = true) :
    (48 ≤ c.toNat ∧ c.toNat ≤ 57) ∨ (65 ≤ c.toNat ∧ c.toNat ≤ 90) ∨ c.toNat = 95 ∨
      (97 ≤ c.toNat ∧ c.toNat ≤ 122) := by
  have halpha : c.isAlpha = (decide ('A'.val ≤ c.val ∧ c.val ≤ 'Z'.val) ||
      (decide ('a'.val ≤ c.val) && decide (c.val ≤ 'z'.val))) := rfl
  simp only [isWordChar, isWordStart, halpha, Char.isDigit, Bool.or_eq_true, Bool.and_eq_true,
    decide_eq_true_eq, UInt32.le_iff_toNat_le, beq_iff_eq] at hc
  rcases hc with ((⟨hlow, hhigh⟩ | ⟨hlow, hhigh⟩) | rfl) | ⟨hlow, hhigh⟩
  · exact .inr (.inl ⟨hlow, hhigh⟩)
  · exact .inr (.inr (.inr ⟨hlow, hhigh⟩))
  · exact .inr (.inr (.inl rfl))
  · exact .inl ⟨hlow, hhigh⟩

theorem isWordChar_of_isDigit {c : Char} (hc : c.isDigit = true) : isWordChar c = true := by
  simp [isWordChar, hc]

theorem isWordChar_of_isWordStart {c : Char} (hc : isWordStart c = true) : isWordChar c = true := by
  simp [isWordChar, hc]

theorem isWordChar_of_isAlpha {c : Char} (hc : c.isAlpha = true) : isWordChar c = true := by
  simp [isWordChar, isWordStart, hc]

theorem not_isDigit_of_isAlpha {c : Char} (hc : c.isAlpha = true) : c.isDigit = false := by
  by_contra hdigit
  simp only [Char.isAlpha, Char.isUpper, Char.isLower, Char.isDigit, Bool.or_eq_true,
    Bool.and_eq_true, Bool.not_eq_false, decide_eq_true_eq, UInt32.le_iff_toNat_le,
    ge_iff_le] at hc hdigit
  have hdigits : '9'.val.toNat < 'A'.val.toNat ∧ 'A'.val.toNat < 'a'.val.toNat := by decide
  omega

/-- What is written in capitals is written in letters. -/
theorem isAlpha_of_map_toUpper {word capitals : List Char} (hcapitals : ∀ c ∈ capitals, c.isUpper = true)
    (hword : word.map Char.toUpper = capitals) : ∀ c ∈ word, c.isAlpha = true := by
  intro c hc
  rw [← Char.isUpper_toUpper_eq_isAlpha]
  exact hcapitals _ (hword ▸ List.mem_map_of_mem hc)

theorem isBlank_of_isWordChar {c : Char} (hc : isWordChar c = true) : Text.isBlank c = false := by
  have hrange := toNat_of_isWordChar hc
  simp only [Text.isBlank, Bool.or_eq_false_iff, Bool.and_eq_false_iff, decide_eq_false_iff_not,
    beq_eq_false_iff_ne]
  omega

/-! Signs, and what starts with none of them. -/

def signStarts : List Char :=
  ['(', ')', ',', ';', '*', '=', '<', '>', '!']

theorem toNat_of_mem_signStarts {c : Char} (hc : c ∈ signStarts) :
    c.toNat < 48 ∨ 57 < c.toNat ∧ c.toNat < 65 := by
  have hsigns : signStarts.Forall fun d => d.toNat < 48 ∨ 57 < d.toNat ∧ d.toNat < 65 := by decide
  exact List.forall_iff_forall_mem.1 hsigns c hc

theorem sign?_of_not_mem {c : Char} (hc : c ∉ signStarts) (rest : List Char) :
    sign? (c :: rest) = none := by
  unfold sign?
  split
  case h_13 => rfl
  all_goals
    next heq =>
    cases heq
    exact absurd (by decide) hc

theorem sign?_less {other : List Char} (hequal : other.head? ≠ some '=')
    (hgreater : other.head? ≠ some '>') : sign? ('<' :: other) = some (.lt, other) := by
  cases other with
  | nil => rfl
  | cons c other =>
    simp only [List.head?_cons, ne_eq, Option.some.injEq] at hequal hgreater
    rw [sign?]
    · rintro _ h
      exact hequal (List.cons.inj h).1
    · rintro _ h
      exact hgreater (List.cons.inj h).1

theorem sign?_greater {other : List Char} (hequal : other.head? ≠ some '=') :
    sign? ('>' :: other) = some (.gt, other) := by
  cases other with
  | nil => rfl
  | cons c other =>
    simp only [List.head?_cons, ne_eq, Option.some.injEq] at hequal
    rw [sign?]
    rintro _ h
    exact hequal (List.cons.inj h).1

theorem readToken_of_sign? {text rest : List Char} {token : Token}
    (hsign : sign? text = some (token, rest)) : readToken text = .ok (token, rest) := by
  rw [readToken.eq_def, hsign]

/-- What starts with no sign, no quote and no minus is a number, a word or nothing that can be read. -/
theorem readToken_of_other {c : Char} (hsign : c ∉ signStarts) (hquote : ¬(c = '\'' ∨ c = '"'))
    (hminus : c ≠ '-') (rest : List Char) :
    readToken (c :: rest) =
      if c.isDigit then readNumber false (c :: rest)
      else if isWordStart c then .ok (readWord (c :: rest))
      else .error (.unexpected c, c :: rest) := by
  have hnegative : ¬(c = '-' ∧ rest.head?.any Char.isDigit = true) := fun hboth => hminus hboth.1
  rw [readToken, sign?_of_not_mem hsign]
  dsimp only
  rw [if_neg hquote, if_neg hnegative]

theorem readToken_minus {rest : List Char} (hrest : rest.head?.any Char.isDigit = true) :
    readToken ('-' :: rest) = readNumber true rest := by
  rw [readToken, sign?_of_not_mem (by decide)]
  change (if _ then _ else _) = _
  rw [if_neg (by decide), if_neg (by decide), if_pos ⟨rfl, hrest⟩]

theorem readToken_quote {quote : Char} (hquote : quote = '\'' ∨ quote = '"') (rest : List Char) :
    readToken (quote :: rest) =
      match readQuoted quote rest with
      | some (body, rest) => .ok (.text (String.ofList body), rest)
      | none => .error (.unterminated, quote :: rest) := by
  have hsign : quote ∉ signStarts := by
    rcases hquote with rfl | rfl
    all_goals decide
  rw [readToken, sign?_of_not_mem hsign]
  exact if_pos hquote

/-! Reading on. -/

theorem readAll_eq (text : List Char) :
    readAll text =
      match next text with
      | .error fault => .error fault
      | .ok (token, rest) =>
        if token = .endOfInput then .ok [token] else (readAll rest).map (token :: ·) := by
  rw [readAll.eq_def]
  split
  · next hnext => rw [hnext]
  · next hnext =>
    rw [hnext]
    exact dite_eq_ite

theorem readAll_of_next {text rest : List Char} {token : Token}
    (hnext : next text = .ok (token, rest)) (htoken : token ≠ .endOfInput) :
    readAll text = (readAll rest).map (token :: ·) := by
  rw [readAll_eq, hnext]
  exact if_neg htoken

theorem map_cons_eq_ok_iff {fault : Type} {found : Except fault (List Token)} {token : Token}
    {tokens : List Token} :
    found.map (token :: ·) = .ok tokens ↔ ∃ others, found = .ok others ∧ tokens = token :: others := by
  cases found <;> simp [Except.map, eq_comm]

theorem skipGaps_of_isBlank {c : Char} (hblank : Text.isBlank c = true) (rest : List Char) :
    skipGaps (c :: rest) = skipGaps rest := by
  rw [skipGaps.eq_def]
  exact if_pos hblank

theorem skipGaps_append_of_isBlank {blanks : List Char}
    (hblanks : ∀ c ∈ blanks, Text.isBlank c = true) (rest : List Char) :
    skipGaps (blanks ++ rest) = skipGaps rest := by
  induction blanks with
  | nil => rfl
  | cons c blanks ih =>
    rw [List.forall_mem_cons] at hblanks
    rw [List.cons_append, skipGaps_of_isBlank hblanks.1, ih hblanks.2]

/-- A comment starts at the front of a text. -/
def OpensComment (text : List Char) : Prop :=
  ['-', '-'] <+: text ∨ ['/', '*'] <+: text

instance (text : List Char) : Decidable (OpensComment text) :=
  inferInstanceAs (Decidable (_ ∨ _))

/-- What starts with no blank and with no comment is not skipped. -/
theorem skipGaps_of_not_opensComment {c : Char} {rest : List Char} (hblank : Text.isBlank c = false)
    (hcomment : ¬OpensComment (c :: rest)) : skipGaps (c :: rest) = c :: rest := by
  have hvisible : ¬Text.isBlank c = true := by simp [hblank]
  rw [skipGaps.eq_def]
  dsimp only
  rw [if_neg hvisible]
  split
  · exact absurd (.inl (List.prefix_append _ _)) hcomment
  · exact absurd (.inr (List.prefix_append _ _)) hcomment
  · rfl

theorem skipGaps_of_visible {c : Char} {rest : List Char} (hblank : Text.isBlank c = false)
    (hline : c ≠ '-' ∨ rest.head? ≠ some '-') (hblock : c ≠ '/') :
    skipGaps (c :: rest) = c :: rest := by
  apply skipGaps_of_not_opensComment hblank
  rintro (⟨behind, heq⟩ | ⟨behind, heq⟩)
  · cases heq
    simp at hline
  · cases heq
    exact hblock rfl

theorem next_of_visible {c : Char} {rest : List Char} (hblank : Text.isBlank c = false)
    (hline : c ≠ '-' ∨ rest.head? ≠ some '-') (hblock : c ≠ '/') :
    next (c :: rest) = readToken (c :: rest) := by
  rw [next, skipGaps_of_visible hblank hline hblock]

theorem next_nil : next [] = .ok (.endOfInput, []) := by
  have hgaps : skipGaps [] = [] := by rw [skipGaps.eq_def]
  rw [next, hgaps]
  rfl

theorem readAll_nil : readAll [] = .ok [.endOfInput] := by
  rw [readAll_eq, next_nil]
  rfl

theorem readAll_blank (text : List Char) : readAll (' ' :: text) = readAll text := by
  rw [readAll_eq, readAll_eq text, next, skipGaps_of_isBlank (by decide), next]

/-- Where a word, a number, a quoted text or a comparison that is written in front of a text ends. -/
def Ends (text : List Char) : Prop :=
  ∀ c ∈ text.head?, isWordChar c = false ∧ c ∉ ['\'', '"', '=', '>']

theorem ends_nil : Ends [] :=
  nofun

theorem ends_cons {c : Char} (hword : isWordChar c = false) (hsign : c ∉ ['\'', '"', '=', '>'])
    (text : List Char) : Ends (c :: text) := by
  intro d hd
  obtain rfl := Option.some.inj hd
  exact ⟨hword, hsign⟩

theorem Ends.ne {text : List Char} {d : Char} (hends : Ends text) (hd : d ∈ ['\'', '"', '=', '>']) :
    text.head? ≠ some d :=
  fun hhead => (hends d hhead).2 hd

/-- Where a word or a number that is written in front of a text ends. -/
def EndsWord (text : List Char) : Prop :=
  ∀ c ∈ text.head?, isWordChar c = false

theorem endsWord_dropWhile (text : List Char) : EndsWord (text.dropWhile isWordChar) :=
  Text.stop_of_dropWhile isWordChar text

theorem Ends.endsWord {text : List Char} (hends : Ends text) : EndsWord text :=
  fun c hc => (hends c hc).1

theorem EndsWord.isDigit {text : List Char} (hends : EndsWord text) :
    ∀ c ∈ text.head?, c.isDigit = false := by
  intro c hc
  have hword := hends c hc
  rw [isWordChar, Bool.or_eq_false_iff] at hword
  exact hword.2

theorem exists_cons_of_not_endsWord {text : List Char} (hends : ¬EndsWord text) :
    ∃ c rest, text = c :: rest ∧ isWordChar c = true := by
  cases text with
  | nil => exact absurd ends_nil.endsWord hends
  | cons c rest =>
    refine ⟨c, rest, rfl, ?_⟩
    by_contra hword
    refine hends fun d hd => ?_
    obtain rfl := Option.some.inj hd
    exact Bool.eq_false_iff.2 hword

/-- What is left when no more characters of a kind can be dropped does not start with one. -/
theorem not_of_dropWhile_eq_cons {p : Char → Bool} {text rest : List Char} {c : Char}
    (hdrop : text.dropWhile p = c :: rest) : p c = false := by
  have hstop := Text.stop_of_dropWhile p text
  rw [hdrop] at hstop
  exact hstop c rfl

/-- A text that is read as the given tokens in front of everything that cannot prolong them. -/
def Lexes (text : List Char) (tokens : List Token) : Prop :=
  ∀ rest, Ends rest → readAll (text ++ rest) = (readAll rest).map (tokens ++ ·)

theorem map_append_nil (result : Except (LexReason × List Char) (List Token)) :
    result.map (([] : List Token) ++ ·) = result := by
  cases result <;> rfl

theorem map_append (result : Except (LexReason × List Char) (List Token))
    (front back : List Token) :
    (result.map (back ++ ·)).map (front ++ ·) = result.map ((front ++ back) ++ ·) := by
  cases result with
  | error fault => rfl
  | ok tokens => simp [Except.map]

theorem lexes_nil : Lexes [] [] := by
  intro rest _
  rw [List.nil_append, map_append_nil]

theorem Lexes.append {front back : List Char} {tokens others : List Token}
    (hfront : Lexes front tokens) (hback : Lexes back others)
    (hends : ∀ rest, Ends rest → Ends (back ++ rest)) :
    Lexes (front ++ back) (tokens ++ others) := by
  intro rest hrest
  rw [List.append_assoc, hfront _ (hends rest hrest), hback rest hrest, map_append]

/-- A blank ends everything in front of it and changes nothing behind it. -/
theorem Lexes.blank {text : List Char} {tokens : List Token} (htext : Lexes text tokens) :
    Lexes (' ' :: text) tokens := by
  intro rest hrest
  rw [List.cons_append, readAll_blank, htext rest hrest]

theorem ends_blank (text : List Char) : Ends (' ' :: text) :=
  ends_cons (by decide) (by decide) text

theorem Lexes.append_blank {front back : List Char} {tokens others : List Token}
    (hfront : Lexes front tokens) (hback : Lexes back others) :
    Lexes (front ++ ' ' :: back) (tokens ++ others) :=
  hfront.append hback.blank fun _ _ => ends_blank _

/-- The signs that cannot be prolonged. -/
theorem next_of_sign {c : Char} {token : Token}
    (hsign : (c, token) ∈ [('(', .openParen), (')', .closeParen), (',', .comma), ('*', .star)])
    (rest : List Char) : next (c :: rest) = .ok (token, rest) := by
  simp only [List.mem_cons, Prod.mk.injEq, List.not_mem_nil, or_false] at hsign
  rcases hsign with ⟨rfl, rfl⟩ | ⟨rfl, rfl⟩ | ⟨rfl, rfl⟩ | ⟨rfl, rfl⟩
  all_goals exact next_of_visible (by decide) (.inl (by decide)) (by decide)

theorem readAll_of_sign {c : Char} {token : Token}
    (hsign : (c, token) ∈ [('(', .openParen), (')', .closeParen), (',', .comma), ('*', .star)])
    (rest : List Char) : readAll (c :: rest) = (readAll rest).map (token :: ·) := by
  have htoken : token ≠ .endOfInput := by
    rintro rfl
    simp at hsign
  exact readAll_of_next (next_of_sign hsign rest) htoken

theorem lexes_sign {c : Char} {token : Token} {text : List Char} {tokens : List Token}
    (hsign : (c, token) ∈ [('(', .openParen), (')', .closeParen), (',', .comma), ('*', .star)])
    (htext : Lexes text tokens) : Lexes (c :: text) (token :: tokens) := by
  intro rest hrest
  rw [List.cons_append, readAll_of_sign hsign, htext rest hrest]
  cases readAll rest <;> rfl

theorem Lexes.append_close {text : List Char} {tokens : List Token} (htext : Lexes text tokens) :
    Lexes (text ++ [')']) (tokens ++ [.closeParen]) :=
  htext.append (lexes_sign (by decide) lexes_nil) fun _ _ => ends_cons (by decide) (by decide) _

theorem lexes_of_next {text : List Char} {token : Token} (htoken : token ≠ .endOfInput)
    (hnext : ∀ rest, Ends rest → next (text ++ rest) = .ok (token, rest)) :
    Lexes text [token] := by
  intro rest hrest
  rw [readAll_of_next (hnext rest hrest) htoken]
  rfl

/-! Words. -/

theorem readWord_append {word rest : List Char} (hword : ∀ c ∈ word, isWordChar c = true)
    (hends : EndsWord rest) : readWord (word ++ rest) = (Token.ofWord word, rest) := by
  rw [readWord, Text.takeWhile_append_of_stop hword hends, Text.dropWhile_append_of_stop hword hends]

/-- A text that starts with a word character starts with a word or a number. -/
theorem readToken_of_isWordChar {c : Char} (hc : isWordChar c = true) (rest : List Char) :
    readToken (c :: rest) =
      if c.isDigit then readNumber false (c :: rest) else .ok (readWord (c :: rest)) := by
  have hrange := toNat_of_isWordChar hc
  have hsign : c ∉ signStarts := by
    intro hmem
    have hsigns := toNat_of_mem_signStarts hmem
    omega
  have hquote : ¬(c = '\'' ∨ c = '"') := by
    rintro (rfl | rfl)
    all_goals cases hc
  have hminus : c ≠ '-' := by
    rintro rfl
    cases hc
  rw [readToken_of_other hsign hquote hminus]
  split
  · rfl
  · next hdigit =>
    rw [isWordChar, Bool.or_eq_true] at hc
    exact if_pos (hc.resolve_right hdigit)

theorem next_of_isWordChar {c : Char} (hc : isWordChar c = true) (rest : List Char) :
    next (c :: rest) =
      if c.isDigit then readNumber false (c :: rest) else .ok (readWord (c :: rest)) := by
  have hne : c ≠ '-' ∧ c ≠ '/' := by
    constructor
    all_goals
      rintro rfl
      cases hc
  rw [next_of_visible (isBlank_of_isWordChar hc) (.inl hne.1) hne.2, readToken_of_isWordChar hc]

/-- Digits that run into a letter or an underscore are read as a part of a word. -/
theorem readNumber_word {word rest : List Char} (hword : ∀ c ∈ word, isWordChar c = true)
    (hother : ∃ c ∈ word, c.isDigit = false) (hends : EndsWord rest) :
    readNumber false (word ++ rest) = .ok (Token.ofWord word, rest) := by
  have hdrop : word.dropWhile Char.isDigit ≠ [] := by
    intro hnil
    obtain ⟨c, hc, hdigit⟩ := hother
    have hall := List.dropWhile_eq_nil_iff.1 hnil c hc
    rw [hdigit] at hall
    cases hall
  obtain ⟨d, others, hcons⟩ := List.exists_cons_of_ne_nil hdrop
  have hdigit : d.isDigit = false := not_of_dropWhile_eq_cons hcons
  have hd : d ∈ word := (List.dropWhile_suffix Char.isDigit).subset (hcons ▸ List.mem_cons_self)
  have hstart : isWordStart d = true := by
    have hchar := hword d hd
    rw [isWordChar, hdigit, Bool.or_false] at hchar
    exact hchar
  have hrest : (word ++ rest).dropWhile Char.isDigit = d :: (others ++ rest) := by
    rw [List.dropWhile_append, hcons]
    rfl
  rw [readNumber, hrest]
  dsimp only
  rw [if_neg (by simp [hstart]), if_neg Bool.false_ne_true, readWord_append hword hends]

theorem lexes_word {word : List Char} (hword : ∀ c ∈ word, isWordChar c = true)
    (hother : ∃ c ∈ word, c.isDigit = false) : Lexes word [Token.ofWord word] := by
  have htoken : Token.ofWord word ≠ .endOfInput := by
    unfold Token.ofWord
    split <;> nofun
  refine lexes_of_next htoken fun rest hends => ?_
  have hread := readWord_append hword hends.endsWord
  have hnumber := readNumber_word hword hother hends.endsWord
  cases word with
  | nil =>
    obtain ⟨c, hc, -⟩ := hother
    cases hc
  | cons first word =>
    rw [List.cons_append] at hread hnumber ⊢
    rw [next_of_isWordChar (hword first List.mem_cons_self), hread, hnumber, ite_self]

theorem ofWord_ne {word : List Char} (hword : word ≠ []) : Token.ofWord word ≠ .word "" := by
  unfold Token.ofWord
  split
  · nofun
  · simpa using hword

theorem readWord_ne {c : Char} (hc : isWordChar c = true) (rest : List Char) :
    (readWord (c :: rest)).1 ≠ .word "" := by
  apply ofWord_ne
  rw [List.takeWhile_cons_of_pos hc]
  exact List.cons_ne_nil _ _

theorem readNumber_ne {negative : Bool} {c : Char} {text rest : List Char} {token : Token}
    (hc : isWordChar c = true) (hread : readNumber negative (c :: text) = .ok (token, rest)) :
    token ≠ .word "" := by
  have hinteger {behind : List Char}
      (hread : readInteger negative (c :: text) behind = .ok (token, rest)) : token ≠ .word "" := by
    unfold readInteger at hread
    split at hread
    · cases hread
      nofun
    · cases hread
  unfold readNumber at hread
  split at hread
  · exact hinteger hread
  · split at hread
    · exact hinteger hread
    · split at hread
      · cases hread
      · have hword := readWord_ne hc text
        cases hread
        exact hword

/-- No word is empty. -/
theorem readToken_ne {text rest : List Char} {token : Token}
    (hread : readToken text = .ok (token, rest)) : token ≠ .word "" := by
  unfold readToken at hread
  split at hread
  · next hsign =>
    cases hread
    unfold sign? at hsign
    split at hsign
    case h_13 => cases hsign
    all_goals
      cases hsign
      simp
  · split at hread
    · cases hread
      simp
    · next c behind _ =>
      split at hread
      · split at hread
        · cases hread
          simp
        · cases hread
      · split at hread
        · next hdigit => exact readNumber_ne (isWordChar_of_isDigit hdigit) hread
        · split at hread
          · next hminus =>
            cases behind with
            | nil => simp at hminus
            | cons d behind =>
              have hdigit : d.isDigit = true := by simpa using hminus.2
              exact readNumber_ne (isWordChar_of_isDigit hdigit) hread
          · split at hread
            · next hstart =>
              have hword := readWord_ne (isWordChar_of_isWordStart hstart) behind
              cases hread
              exact hword
            · cases hread

theorem exists_body_of_readAll {text : List Char} {tokens : List Token}
    (hread : readAll text = .ok tokens) :
    ∃ body, tokens = body ++ [.endOfInput] ∧
      ∀ token ∈ body, token ≠ .endOfInput ∧ token ≠ .word "" := by
  fun_induction readAll text generalizing tokens with
  | case1 => cases hread
  | case2 text rest hnext =>
    cases hread
    exact ⟨[], rfl, nofun⟩
  | case3 text token rest hnext htoken ih =>
    obtain ⟨others, hrest, rfl⟩ := map_cons_eq_ok_iff.1 hread
    obtain ⟨body, rfl, hbody⟩ := ih hrest
    exact ⟨token :: body, rfl, List.forall_mem_cons.2 ⟨⟨htoken, readToken_ne hnext⟩, hbody⟩⟩

/-- The tokens of a text are closed by the end marker. -/
theorem closed_of_readAll {text : List Char} {tokens : List Token}
    (hread : readAll text = .ok tokens) : Grammar.Closed tokens := by
  obtain ⟨body, rfl, hbody⟩ := exists_body_of_readAll hread
  exact ⟨body, rfl, fun hmem => (hbody _ hmem).1 rfl⟩

theorem ofText_eq_ok_iff {text : List Char} {tokens : List Token} :
    Token.ofText text = .ok tokens ↔ readAll text = .ok tokens := by
  unfold Token.ofText
  cases readAll text <;> simp

theorem ofWord_keyword (k : Keyword) : Token.ofWord k.text.toList = .keyword k := by
  cases k <;> decide

theorem lexes_keyword (k : Keyword) : Lexes k.text.toList [.keyword k] := by
  have hword : k.text.toList.all isWordChar = true := by cases k <;> decide
  have hother : k.text.toList.any (!·.isDigit) = true := by cases k <;> decide
  rw [← ofWord_keyword k]
  exact lexes_word (List.all_eq_true.1 hword) (by simpa using hother)

/-! Numbers. -/

/-- Digits that do not run into a word are read as an integer. -/
theorem readNumber_digits (negative : Bool) {digits rest : List Char}
    (hdigits : ∀ c ∈ digits, c.isDigit = true) (hends : EndsWord rest) :
    readNumber negative (digits ++ rest) =
      match Text.toInt64? (Text.signed negative (Text.digitsValue digits)) with
      | some n => .ok (.integer n, rest)
      | none => .error (.outOfRange, digits ++ rest) := by
  have hread : readNumber negative (digits ++ rest) =
      readInteger negative (digits ++ rest) rest := by
    rw [readNumber, Text.dropWhile_append_of_stop hdigits hends.isDigit]
    cases rest with
    | nil => rfl
    | cons c rest =>
      have hstart : isWordStart c = false := by
        have hword := hends c rfl
        rw [isWordChar, Bool.or_eq_false_iff] at hword
        exact hword.1
      exact if_pos (by simp [hstart])
  have htake := Text.takeWhile_append_of_stop hdigits hends.isDigit
  cases hvalue : Text.toInt64? (Text.signed negative (Text.digitsValue digits)) with
  | some n => rw [hread, readInteger, htake, hvalue]
  | none => rw [hread, readInteger, htake, hvalue]

theorem next_of_digits {digits rest : List Char} (hne : digits ≠ [])
    (hdigits : ∀ c ∈ digits, c.isDigit = true) (hends : Ends rest) :
    next (digits ++ rest) =
      match Text.toInt64? (Text.digitsValue digits) with
      | some n => .ok (.integer n, rest)
      | none => .error (.outOfRange, digits ++ rest) := by
  have hread := readNumber_digits false hdigits hends.endsWord
  obtain ⟨d, others, rfl⟩ := List.exists_cons_of_ne_nil hne
  have hd := hdigits d List.mem_cons_self
  rw [List.cons_append] at hread ⊢
  rw [next_of_isWordChar (isWordChar_of_isDigit hd), if_pos hd, hread]
  rfl

theorem lexes_digits {digits : List Char} (hne : digits ≠ [])
    (hdigits : ∀ c ∈ digits, c.isDigit = true) {n : Int64}
    (hvalue : (Text.digitsValue digits : Int) = n.toInt) : Lexes digits [.integer n] := by
  refine lexes_of_next nofun fun rest hends => ?_
  rw [next_of_digits hne hdigits hends, hvalue, Text.toInt64?_toInt]

theorem lexes_natDigits {m : Nat} {n : Int64} (hvalue : (m : Int) = n.toInt) :
    Lexes (Text.natDigits m) [.integer n] :=
  lexes_digits (Text.natDigits_ne_nil m) (fun _ => Text.isDigit_of_mem_natDigits)
    (by rwa [Text.digitsValue_natDigits])

/-- A minus sign is read with the digits behind it, which can thus stand for the least integer. -/
theorem lexes_minus {digits : List Char} (hne : digits ≠ [])
    (hdigits : ∀ c ∈ digits, c.isDigit = true) {n : Int64}
    (hvalue : -(Text.digitsValue digits : Int) = n.toInt) : Lexes ('-' :: digits) [.integer n] := by
  refine lexes_of_next nofun fun rest hends => ?_
  have hsigned : Text.signed true (Text.digitsValue digits) = n.toInt := hvalue
  have hread := readNumber_digits true hdigits hends.endsWord
  rw [hsigned, Text.toInt64?_toInt] at hread
  obtain ⟨d, others, rfl⟩ := List.exists_cons_of_ne_nil hne
  have hd := hdigits d List.mem_cons_self
  have hfirst : d ≠ '-' := by
    rintro rfl
    cases hd
  rw [List.cons_append, next_of_visible (by decide) (.inr (by simp [hfirst])) (by decide),
    readToken_minus (by exact hd), hread]

theorem lexes_integer (n : Int64) : Lexes (Text.intDigits n.toInt) [.integer n] := by
  obtain ⟨digits, hne, hdigits, ⟨htext, hvalue⟩ | ⟨htext, hvalue⟩⟩ :=
    Text.exists_digits_of_intDigits n.toInt
  · rw [htext]
    exact lexes_digits hne hdigits hvalue
  · rw [htext]
    exact lexes_minus hne hdigits hvalue

/-! Texts in quotes. -/

theorem readQuoted_cons_of_ne {quote c : Char} (hc : c ≠ quote) {text : List Char}
    (htext : text ≠ []) :
    readQuoted quote (c :: text) =
      (readQuoted quote text).map fun (body, rest) => (c :: body, rest) := by
  cases text with
  | nil => exact absurd rfl htext
  | cons d text => rw [readQuoted, if_neg hc]

theorem readQuoted_quote {quote : Char} {rest : List Char} (hrest : rest.head? ≠ some quote) :
    readQuoted quote (quote :: rest) = some ([], rest) := by
  cases rest with
  | nil => simp [readQuoted]
  | cons d rest =>
    have hd : d ≠ quote := by simpa using hrest
    rw [readQuoted, if_pos rfl, if_neg hd]

/-- A text in quotes of either kind, which are written twice inside. -/
def inQuotes (quote : Char) (text : List Char) : List Char :=
  quote :: text.flatMap (fun c => if c = quote then [quote, quote] else [c]) ++ [quote]

/-- Each quote of a text is written twice, and is then read as one. -/
theorem readQuoted_doubled {quote : Char} {rest : List Char} (hrest : rest.head? ≠ some quote)
    (text : List Char) :
    readQuoted quote
        (text.flatMap (fun c => if c = quote then [quote, quote] else [c]) ++ quote :: rest) =
      some (text, rest) := by
  induction text with
  | nil => exact readQuoted_quote hrest
  | cons c text ih =>
    rw [List.flatMap_cons, List.append_assoc]
    by_cases hc : c = quote
    · subst hc
      rw [if_pos rfl, List.cons_append, List.cons_append, readQuoted, if_pos rfl, if_pos rfl,
        List.nil_append, ih]
      rfl
    · rw [if_neg hc, List.cons_append, List.nil_append, readQuoted_cons_of_ne hc (by simp), ih]
      rfl

theorem lexes_inQuotes {quote : Char} (hquote : quote = '\'' ∨ quote = '"') (text : List Char) :
    Lexes (inQuotes quote text) [.text (String.ofList text)] := by
  refine lexes_of_next nofun fun rest hends => ?_
  have hrest : rest.head? ≠ some quote := by
    intro hhead
    exact (hends _ hhead).2 (by rcases hquote with rfl | rfl <;> decide)
  have hread := readQuoted_doubled hrest text
  have hvisible : Text.isBlank quote = false ∧ quote ≠ '-' ∧ quote ≠ '/' := by
    rcases hquote with rfl | rfl <;> decide
  rw [inQuotes, List.append_assoc, List.cons_append,
    next_of_visible hvisible.1 (.inl hvisible.2.1) hvisible.2.2, readToken_quote hquote]
  simp only [List.cons_append, List.nil_append]
  rw [hread]

theorem lexes_quoted (text : List Char) : Lexes (Value.quoted text) [.text (String.ofList text)] :=
  lexes_inQuotes (.inl rfl) text

end TableEngine.Lexer
