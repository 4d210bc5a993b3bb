import Mathlib
import TableEngine.Proofs.Blanks
import TableEngine.Proofs.Printing

/-!
How a text that cannot be read is classified. It is meant to be an error of syntax where its first token
is a command, and an unknown command otherwise. The test that decides (`leadsWithCommand`) looks at the
letters at the front of the text alone. It agrees with the first token unless the command stands behind a
comment, or the letters are a part of a longer word (`leadsWithCommand_eq_iff`).
-/

namespace TableEngine

open Lexer

theorem Keyword.isAlpha_of_ofWord? {word : List Char} {k : Keyword}
    (hword : ∀ c ∈ word, isWordChar c = true) (hk : ofWord? word = some k) :
    ∀ c ∈ word, c.isAlpha = true :=
  isAlpha_of_map_toUpper (toList_text_of_ofWord? hword hk).symm

namespace Lexer

/-- A text whose first token is a keyword starts with a letter of it. -/
theorem isAlpha_of_readToken_keyword {c : Char} {text rest : List Char} {k : Keyword}
    (hread : readToken (c :: text) = .ok (.keyword k, rest)) : c.isAlpha = true := by
  obtain ⟨lexeme, hlexeme, hwritten, -⟩ := takes_of_readToken (List.cons_ne_nil c text) hread
  generalize htoken : Token.keyword k = token at hwritten
  cases hwritten with
  | sign hsign =>
    subst htoken
    simp [signs] at hsign
  | word hchars hother =>
    have hk : Keyword.ofWord? lexeme = some k := by
      unfold Token.ofWord at htoken
      split at htoken
      · next hk =>
        cases htoken
        exact hk
      · cases htoken
    cases lexeme with
    | nil =>
      obtain ⟨d, hd, -⟩ := hother
      cases hd
    | cons d others =>
      obtain ⟨rfl, -⟩ := List.cons.inj hlexeme
      exact Keyword.isAlpha_of_ofWord? hchars hk _ List.mem_cons_self
  | number | negative | quoted => cases htoken

/-- A word that starts with a letter is read as a whole. -/
theorem readToken_of_isAlpha {c : Char} (hc : c.isAlpha = true) (text : List Char) :
    readToken (c :: text) = .ok (readWord (c :: text)) := by
  rw [readToken_of_isWordChar (isWordChar_of_isAlpha hc), if_neg (by simp [not_isDigit_of_isAlpha hc])]

end Lexer

namespace Statement

/-- Whether the first token of a text, past blanks and comments, is a command. -/
def startsWithCommand (text : List Char) : Bool :=
  match next text with
  | .ok (.keyword k, _) => k.isCommand
  | _ => false

/-- A comment stands in front of a text, up to blanks. -/
def StartsWithComment (text : List Char) : Prop :=
  OpensComment (Text.trimStart text)

instance (text : List Char) : Decidable (StartsWithComment text) :=
  inferInstanceAs (Decidable (OpensComment _))

/-- The letters at the front of a text spell a command, and a digit or an underscore makes them a part
    of a longer word. -/
def RunsOnFromCommand (text : List Char) : Prop :=
  ∃ letters c rest k, Text.trimStart text = letters ++ c :: rest ∧
    (∀ d ∈ letters, d.isAlpha = true) ∧ (c.isDigit = true ∨ c = '_') ∧
    Keyword.ofWord? letters = some k ∧ k.isCommand = true

/-- Whether a word is a command in any letter case. -/
def spellsCommand (word : List Char) : Bool :=
  (Keyword.ofWord? word).any Keyword.isCommand

theorem leadsWithCommand_eq (text : List Char) :
    leadsWithCommand text = spellsCommand ((Text.trimStart text).takeWhile Char.isAlpha) := by
  unfold leadsWithCommand spellsCommand
  split
  · next hk => rw [hk, Option.any_some]
  · next hnone => rw [hnone, Option.any_none]

theorem startsWithCommand_trimStart (text : List Char) :
    startsWithCommand (Text.trimStart text) = startsWithCommand text := by
  rw [startsWithCommand, startsWithCommand, next_trimStart]

theorem startsWithCommand_of_isAlpha {c : Char} (hc : c.isAlpha = true) (text : List Char) :
    startsWithCommand (c :: text) = spellsCommand ((c :: text).takeWhile isWordChar) := by
  have hword := isWordChar_of_isAlpha hc
  have hne : c ≠ '-' ∧ c ≠ '/' := by
    constructor
    all_goals
      rintro rfl
      cases hc
  rw [startsWithCommand, next_of_visible (isBlank_of_isWordChar hword) (.inl hne.1) hne.2,
    readToken_of_isAlpha hc, readWord, Token.ofWord, spellsCommand]
  cases Keyword.ofWord? ((c :: text).takeWhile isWordChar) <;> rfl

theorem not_startsWithCommand {c : Char} {text : List Char} (hblank : Text.isBlank c = false)
    (hcomment : ¬OpensComment (c :: text)) (hc : ¬c.isAlpha = true) :
    startsWithCommand (c :: text) = false := by
  unfold startsWithCommand
  split
  · next k rest hnext =>
    rw [next, skipGaps_of_not_opensComment hblank hcomment] at hnext
    exact absurd (isAlpha_of_readToken_keyword hnext) hc
  · rfl

/-- A word with something else than letters in it is no command. -/
theorem not_spellsCommand {word : List Char} (hword : ∀ c ∈ word, isWordChar c = true)
    (hother : ∃ c ∈ word, c.isAlpha = false) : spellsCommand word = false := by
  unfold spellsCommand
  cases hk : Keyword.ofWord? word with
  | none => rfl
  | some k =>
    obtain ⟨c, hc, halpha⟩ := hother
    rw [Keyword.isAlpha_of_ofWord? hword hk c hc] at halpha
    cases halpha

theorem isAlpha_of_isDigit_or {c : Char} (hc : c.isDigit = true ∨ c = '_') : c.isAlpha = false := by
  by_contra halpha
  rw [Bool.not_eq_false] at halpha
  rcases hc with hdigit | rfl
  · rw [not_isDigit_of_isAlpha halpha] at hdigit
    cases hdigit
  · cases halpha

theorem runsOnFromCommand_iff (text : List Char) :
    RunsOnFromCommand text ↔ leadsWithCommand text = true ∧
      ¬EndsWord ((Text.trimStart text).dropWhile Char.isAlpha) := by
  rw [leadsWithCommand_eq]
  constructor
  · rintro ⟨letters, c, rest, k, htext, hletters, hc, hk, hcommand⟩
    have hstop : ∀ d ∈ (c :: rest).head?, d.isAlpha = false := by
      intro d hd
      obtain rfl := Option.some.inj hd
      exact isAlpha_of_isDigit_or hc
    rw [htext, Text.takeWhile_append_of_stop hletters hstop,
      Text.dropWhile_append_of_stop hletters hstop]
    refine ⟨by rw [spellsCommand, hk, Option.any_some, hcommand], fun hends => ?_⟩
    have hword := hends c rfl
    rcases hc with hdigit | rfl
    · rw [isWordChar_of_isDigit hdigit] at hword
      cases hword
    · cases hword
  · rintro ⟨hleads, hends⟩
    obtain ⟨k, hk, hcommand⟩ := (Option.any_eq_true _ _).1 hleads
    obtain ⟨c, rest, hrest, hword⟩ := exists_cons_of_not_endsWord hends
    refine ⟨_, c, rest, k, ?_, fun d hd => List.mem_takeWhile_imp hd, ?_, hk, hcommand⟩
    · rw [← hrest, List.takeWhile_append_dropWhile]
    · rw [isWordChar, isWordStart, not_of_dropWhile_eq_cons hrest] at hword
      simpa [or_comm] using hword

theorem takeWhile_isAlpha_of_opensComment {text : List Char} (hcomment : OpensComment text) :
    text.takeWhile Char.isAlpha = [] := by
  rcases hcomment with ⟨rest, rfl⟩ | ⟨rest, rfl⟩
  all_goals rfl

theorem leadsWithCommand_of_startsWithComment {text : List Char} (hcomment : StartsWithComment text) :
    leadsWithCommand text = false := by
  rw [leadsWithCommand_eq, takeWhile_isAlpha_of_opensComment hcomment]
  rfl

theorem takeWhile_append_of_head? {p : Char → Bool} {rest : List Char}
    (hrest : ∀ c ∈ rest.head?, p c = false) (front : List Char) :
    (front ++ rest).takeWhile p = front.takeWhile p := by
  have hnil : rest.takeWhile p = [] := by
    cases rest with
    | nil => rfl
    | cons c rest => exact List.takeWhile_cons_of_neg (by simp [hrest c rfl])
  rw [List.takeWhile_append, hnil, List.append_nil]
  split
  · next hlength =>
    exact ((List.takeWhile_prefix p).eq_of_length hlength).symm
  · rfl

/-- What follows on a word does not change whether the word is a command. -/
theorem leadsWithCommand_append {text rest : List Char} (hvisible : ¬∀ c ∈ text, Text.isBlank c = true)
    (hrest : ∀ c ∈ rest.head?, c.isAlpha = false) :
    leadsWithCommand (text ++ rest) = leadsWithCommand text := by
  have htrim : Text.trimStart (text ++ rest) = Text.trimStart text ++ rest := by
    rw [Text.trimStart, List.dropWhile_append, if_neg]
    · rfl
    · rwa [List.isEmpty_iff, List.dropWhile_eq_nil_iff]
  rw [leadsWithCommand_eq, leadsWithCommand_eq, htrim, takeWhile_append_of_head? hrest]

theorem leadsWithCommand_trimStart (text : List Char) :
    leadsWithCommand (Text.trimStart text) = leadsWithCommand text := by
  have htrim : Text.trimStart (Text.trimStart text) = Text.trimStart text :=
    List.dropWhile_idempotent Text.isBlank text
  rw [leadsWithCommand_eq, leadsWithCommand_eq, htrim]

theorem leadsWithCommand_trim (text : List Char) :
    leadsWithCommand (Text.trim text) = leadsWithCommand text := by
  obtain ⟨blanks, hblanks, htrim⟩ := Text.exists_trimEnd_append (Text.trimStart text)
  have hrest : ∀ c ∈ blanks.head?, c.isAlpha = false := by
    intro c hc
    by_contra halpha
    have hblank := hblanks c (List.mem_of_mem_head? hc)
    rw [isBlank_of_isWordChar (isWordChar_of_isAlpha (by simpa using halpha))] at hblank
    cases hblank
  by_cases hvisible : ∀ c ∈ Text.trim text, Text.isBlank c = true
  · have hstart : Text.trimStart (Text.trimStart text) = [] := by
      rw [Text.trimStart, List.dropWhile_eq_nil_iff, htrim]
      exact List.forall_mem_append.2 ⟨hvisible, hblanks⟩
    rw [← leadsWithCommand_trimStart text, ← leadsWithCommand_trimStart (Text.trimStart text), hstart,
      ← leadsWithCommand_trimStart, Text.trimStart, List.dropWhile_eq_nil_iff.2 hvisible]
  · rw [← leadsWithCommand_append hvisible hrest, ← leadsWithCommand_trimStart text]
    exact congrArg leadsWithCommand htrim.symm

/-- The letters at the front of a text are its first word, unless a digit or an underscore follows on
    them. Then they are no command. -/
theorem spellsCommand_word_iff (text : List Char) :
    spellsCommand (text.takeWhile isWordChar) = true ↔
      spellsCommand (text.takeWhile Char.isAlpha) = true ∧
        EndsWord (text.dropWhile Char.isAlpha) := by
  have hletters : ∀ c ∈ text.takeWhile Char.isAlpha, isWordChar c = true :=
    fun c hc => isWordChar_of_isAlpha (List.mem_takeWhile_imp hc)
  have hsplit : text.takeWhile isWordChar = text.takeWhile Char.isAlpha ++
      (text.dropWhile Char.isAlpha).takeWhile isWordChar := by
    rw [← List.takeWhile_append_of_pos hletters, List.takeWhile_append_dropWhile]
  by_cases hends : EndsWord (text.dropWhile Char.isAlpha)
  · have hnone : (text.dropWhile Char.isAlpha).takeWhile isWordChar = [] :=
      Text.takeWhile_append_of_stop (List.forall_mem_nil _) hends
    rw [hsplit, hnone, List.append_nil]
    simp [hends]
  · obtain ⟨c, rest, hrest, hword⟩ := exists_cons_of_not_endsWord hends
    have hother : ∃ c ∈ text.takeWhile isWordChar, c.isAlpha = false := by
      refine ⟨c, ?_, not_of_dropWhile_eq_cons hrest⟩
      rw [hsplit, hrest, List.takeWhile_cons_of_pos hword]
      exact List.mem_append_right _ List.mem_cons_self
    rw [not_spellsCommand (fun c hc => List.mem_takeWhile_imp hc) hother]
    simp [hends]

theorem leadsWithCommand_eq_iff (text : List Char) :
    leadsWithCommand text = startsWithCommand text ↔
      ¬(StartsWithComment text ∧ startsWithCommand text = true) ∧ ¬RunsOnFromCommand text := by
  rw [runsOnFromCommand_iff, leadsWithCommand_eq, ← startsWithCommand_trimStart, StartsWithComment]
  have hnil : spellsCommand [] = false := rfl
  by_cases hcomment : OpensComment (Text.trimStart text)
  · rw [takeWhile_isAlpha_of_opensComment hcomment, hnil]
    cases startsWithCommand (Text.trimStart text) <;> simp [hcomment]
  cases htext : Text.trimStart text with
  | nil =>
    have hstarts : startsWithCommand [] = false := by
      rw [startsWithCommand, next_nil]
    simp [hstarts, hnil]
  | cons c rest =>
    rw [htext] at hcomment
    have hblank : Text.isBlank c = false := not_of_dropWhile_eq_cons htext
    by_cases halpha : c.isAlpha = true
    · rw [startsWithCommand_of_isAlpha halpha, Bool.eq_iff_iff, spellsCommand_word_iff]
      simp [hcomment]
    · rw [not_startsWithCommand hblank hcomment halpha, List.takeWhile_cons_of_neg halpha, hnil]
      simp

/-- The error of a text that cannot be read, by its first token. -/
def faultError (text : List Char) (fault : LexFault) : Error :=
  if startsWithCommand text then .syntaxError (.unreadable fault) else .unknownCommand

theorem tokens_of_fault {text : List Char} {fault : LexFault}
    (hfault : Token.ofText text = .error fault) :
    tokens text = .error
      (if leadsWithCommand text then .syntaxError (.unreadable fault) else .unknownCommand) := by
  rw [tokens, hfault]
  dsimp only
  split <;> rfl

theorem tokens_eq_faultError_iff {text : List Char} {fault : LexFault}
    (hfault : Token.ofText text = .error fault) :
    tokens text = .error (faultError text fault) ↔
      leadsWithCommand text = startsWithCommand text := by
  rw [tokens_of_fault hfault, faultError]
  cases leadsWithCommand text <;> cases startsWithCommand text <;> simp

/-- The test on the letters at the front agrees with the first token, and a text that cannot be read is
    classified by its first token, exactly if no comment stands in front of a command and the letters do
    not run on from a command into a longer word. Otherwise a command behind a comment is taken for an
    unknown one, and a longer word for a command. -/
theorem unreadable_classified_iff (text : List Char) :
    (leadsWithCommand text = startsWithCommand text ↔
      ¬(StartsWithComment text ∧ startsWithCommand text = true) ∧ ¬RunsOnFromCommand text) ∧
    ∀ fault, Token.ofText text = .error fault →
      (tokens text = .error (faultError text fault) ↔
        ¬(StartsWithComment text ∧ startsWithCommand text = true) ∧ ¬RunsOnFromCommand text) ∧
      (StartsWithComment text → tokens text = .error .unknownCommand) ∧
      (RunsOnFromCommand text → tokens text = .error (.syntaxError (.unreadable fault))) := by
  refine ⟨leadsWithCommand_eq_iff text, fun fault hfault => ⟨?_, fun hcomment => ?_, fun hruns => ?_⟩⟩
  · rw [tokens_eq_faultError_iff hfault, leadsWithCommand_eq_iff]
  · rw [tokens_of_fault hfault, leadsWithCommand_of_startsWithComment hcomment]
    rfl
  · rw [tokens_of_fault hfault, ((runsOnFromCommand_iff text).1 hruns).1]
    rfl

theorem unreadable_classified_select :
    Token.ofText "SELECT @".toList = .error ⟨.unexpected '@', 7⟩ ∧
      tokens "SELECT @".toList = .error (.syntaxError (.unreadable ⟨.unexpected '@', 7⟩)) := by
  have hfault : Token.ofText "SELECT @".toList = .error ⟨.unexpected '@', 7⟩ := by decide +kernel
  obtain ⟨-, hclassified⟩ := unreadable_classified_iff "SELECT @".toList
  have hplain : ¬StartsWithComment "SELECT @".toList := by decide
  have hword : ¬RunsOnFromCommand "SELECT @".toList := by
    rw [runsOnFromCommand_iff]
    exact fun hboth => hboth.2 (ends_blank ['@']).endsWord
  have htokens := (hclassified _ hfault).1.2 ⟨fun hboth => hplain hboth.1, hword⟩
  have hstarts : startsWithCommand "SELECT @".toList = true := by decide +kernel
  rw [faultError, hstarts] at htokens
  exact ⟨hfault, htokens⟩

/-- A longer word is taken for a command, and a command behind a comment for an unknown one. -/
theorem unreadable_misclassified :
    startsWithCommand "SELECT_x @".toList = false ∧
      tokens "SELECT_x @".toList = .error (.syntaxError (.unreadable ⟨.unexpected '@', 9⟩)) ∧
      startsWithCommand "/* all */ SELECT @".toList = true ∧
      tokens "/* all */ SELECT @".toList = .error .unknownCommand := by
  refine ⟨?_, ?_, ?_, ?_⟩
  all_goals decide +kernel

end Statement

end TableEngine
