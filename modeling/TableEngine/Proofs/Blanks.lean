import TableEngine.Proofs.Lexemes

/-!
Blanks around a text. A text is read in the same way without the blanks at its ends
(`readsAlike_trim`): in front of it they are skipped, and no token ends with a blank, so that those
behind it are left over.
-/

namespace TableEngine.Lexer

theorem next_trimStart (text : List Char) : next (Text.trimStart text) = next text := by
  have hblanks : ∀ c ∈ text.takeWhile Text.isBlank, Text.isBlank c = true :=
    fun c hc => List.mem_takeWhile_imp hc
  have hskip := skipGaps_append_of_isBlank hblanks (text.dropWhile Text.isBlank)
  rw [List.takeWhile_append_dropWhile] at hskip
  rw [next, next, hskip]
  rfl

/-- Two texts are read as the same tokens, or neither of them can be read. -/
def ReadsAlike (text other : List Char) : Prop :=
  ∀ tokens, readAll text = .ok tokens ↔ readAll other = .ok tokens

theorem ReadsAlike.symm {text other : List Char} (halike : ReadsAlike text other) :
    ReadsAlike other text :=
  fun tokens => (halike tokens).symm

theorem ReadsAlike.trans {first second third : List Char} (hfirst : ReadsAlike first second)
    (hsecond : ReadsAlike second third) : ReadsAlike first third :=
  fun tokens => (hfirst tokens).trans (hsecond tokens)

theorem readsAlike_of_next_eq {text other : List Char} (hnext : next text = next other) :
    ReadsAlike text other := by
  intro tokens
  rw [readAll_eq, readAll_eq other, hnext]

theorem readsAlike_cons_of_isBlank {c : Char} (hblank : Text.isBlank c = true) (rest : List Char) :
    ReadsAlike (c :: rest) rest :=
  readsAlike_of_next_eq (by rw [next, skipGaps_of_isBlank hblank, next])

/-! No token ends with a blank. -/

theorem concat_of_readQuoted {quote : Char} {written body : List Char}
    (hread : readQuoted quote written = some (body, [])) :
    ∃ front, written = front ++ [quote] := by
  fun_induction readQuoted quote written generalizing body with
  | case1 => cases hread
  | case2 => exact ⟨[], rfl⟩
  | case3 => cases hread
  | case4 behind ih =>
    obtain ⟨⟨inner, rest⟩, hinner, heq⟩ := Option.map_eq_some_iff.1 hread
    cases heq
    obtain ⟨front, rfl⟩ := ih hinner
    exact ⟨quote :: quote :: front, rfl⟩
  | case5 => cases hread
  | case6 c d behind hc ih =>
    obtain ⟨⟨inner, rest⟩, hinner, heq⟩ := Option.map_eq_some_iff.1 hread
    cases heq
    obtain ⟨front, hfront⟩ := ih hinner
    exact ⟨c :: front, by rw [hfront, List.cons_append]⟩

theorem exists_last_of_isWordChar {text : List Char} (hne : text ≠ [])
    (hall : ∀ c ∈ text, isWordChar c = true) :
    ∃ front c, text = front ++ [c] ∧ Text.isBlank c = false :=
  ⟨_, _, (List.dropLast_concat_getLast hne).symm, isBlank_of_isWordChar (hall _ (List.getLast_mem hne))⟩

theorem IsLexeme.exists_last {token : Token} {lexeme : List Char} (hlexeme : IsLexeme token lexeme) :
    ∃ front c, lexeme = front ++ [c] ∧ Text.isBlank c = false := by
  cases hlexeme with
  | sign hsign =>
    have hlast : ∀ sign ∈ signs, ∃ front c, sign.2 = front ++ [c] ∧ Text.isBlank c = false := by
      intro sign hmem
      have hne : sign.2 ≠ [] := by
        revert sign
        decide
      refine ⟨_, _, (List.dropLast_concat_getLast hne).symm, ?_⟩
      revert sign
      decide
    exact hlast _ hsign
  | word hchars hother =>
    obtain ⟨c, hc, -⟩ := hother
    exact exists_last_of_isWordChar (List.ne_nil_of_mem hc) hchars
  | number hne hdigits =>
    exact exists_last_of_isWordChar hne fun c hc => isWordChar_of_isDigit (hdigits c hc)
  | @negative n digits hne hdigits =>
    obtain ⟨front, c, rfl, hc⟩ :=
      exists_last_of_isWordChar hne fun c hc => isWordChar_of_isDigit (hdigits c hc)
    exact ⟨'-' :: front, c, rfl, hc⟩
  | @quoted quote written body hquote hread =>
    obtain ⟨front, rfl⟩ := concat_of_readQuoted hread
    refine ⟨quote :: front, quote, rfl, ?_⟩
    rcases hquote with rfl | rfl <;> decide

/-! Blanks behind a text are left over. -/

section

variable {blanks : List Char}

theorem ends_blanks (hblanks : ∀ c ∈ blanks, Text.isBlank c = true) : Ends blanks := by
  intro c hc
  have hblank := hblanks c (List.mem_of_mem_head? hc)
  constructor
  · by_contra hword
    rw [isBlank_of_isWordChar (by simpa using hword)] at hblank
    cases hblank
  · intro hsign
    simp only [List.mem_cons, List.not_mem_nil, or_false] at hsign
    rcases hsign with rfl | rfl | rfl | rfl
    all_goals cases hblank

theorem skipGaps_blanks (hblanks : ∀ c ∈ blanks, Text.isBlank c = true) :
    skipGaps blanks = [] := by
  have hskip := skipGaps_append_of_isBlank hblanks []
  rwa [List.append_nil, skipGaps.eq_def []] at hskip

theorem OpensComment.of_append {c : Char} {rest : List Char}
    (hblanks : ∀ c ∈ blanks, Text.isBlank c = true) (hcomment : OpensComment (c :: rest ++ blanks)) :
    OpensComment (c :: rest) := by
  cases rest with
  | cons d rest => simpa [OpensComment] using hcomment
  | nil =>
    -- No blank goes on with a comment.
    rcases hcomment with ⟨behind, heq⟩ | ⟨behind, heq⟩
    all_goals
      obtain ⟨-, rfl⟩ := List.cons.inj heq
      cases hblanks _ List.mem_cons_self

theorem dropWhile_append_blanks (hblanks : ∀ c ∈ blanks, Text.isBlank c = true)
    (p : Char → Bool) (text : List Char) :
    ∃ behind, (∀ c ∈ behind, Text.isBlank c = true) ∧
      (text ++ blanks).dropWhile p = text.dropWhile p ++ behind := by
  rw [List.dropWhile_append]
  split
  · next hnil =>
    refine ⟨blanks.dropWhile p, fun c hc => hblanks c ((List.dropWhile_suffix p).subset hc), ?_⟩
    rw [List.isEmpty_iff.1 hnil, List.nil_append]
  · exact ⟨blanks, hblanks, rfl⟩

theorem afterBlockComment_blanks (hblanks : ∀ c ∈ blanks, Text.isBlank c = true) :
    afterBlockComment blanks = [] := by
  fun_induction afterBlockComment blanks with
  | case1 => rfl
  | case2 rest => cases hblanks '*' List.mem_cons_self
  | case3 c rest hopen ih => exact ih fun d hd => hblanks d (List.mem_cons_of_mem c hd)

theorem afterBlockComment_append_blanks (hblanks : ∀ c ∈ blanks, Text.isBlank c = true)
    (text : List Char) :
    ∃ behind, (∀ c ∈ behind, Text.isBlank c = true) ∧
      afterBlockComment (text ++ blanks) = afterBlockComment text ++ behind := by
  fun_induction afterBlockComment text with
  | case1 => exact ⟨[], List.forall_mem_nil _, afterBlockComment_blanks hblanks⟩
  | case2 rest => exact ⟨blanks, hblanks, rfl⟩
  | case3 c rest hopen ih =>
    obtain ⟨behind, hbehind, hrest⟩ := ih
    refine ⟨behind, hbehind, ?_⟩
    rw [List.cons_append, afterBlockComment, hrest]
    intro others hc hothers
    cases rest with
    | nil =>
      subst hothers
      cases hblanks '/' List.mem_cons_self
    | cons d rest =>
      obtain ⟨rfl, -⟩ := List.cons.inj hothers
      exact hopen rest hc rfl

theorem skipGaps_append_blanks (hblanks : ∀ c ∈ blanks, Text.isBlank c = true)
    (text : List Char) :
    ∃ behind, (∀ c ∈ behind, Text.isBlank c = true) ∧
      skipGaps (text ++ blanks) = skipGaps text ++ behind ∧ (skipGaps text = [] → behind = []) := by
  fun_induction skipGaps text generalizing blanks with
  | case1 => exact ⟨[], List.forall_mem_nil _, skipGaps_blanks hblanks, fun _ => rfl⟩
  | case2 c rest hblank ih =>
    rw [List.cons_append, skipGaps_of_isBlank hblank]
    exact ih hblanks
  | case3 comment hblank ih =>
    obtain ⟨behind, hbehind, hline⟩ := dropWhile_append_blanks hblanks (· ≠ '\n') comment
    have hskip : skipGaps ('-' :: '-' :: comment ++ blanks) =
        skipGaps (comment.dropWhile (· ≠ '\n') ++ behind) := by
      rw [← hline, List.cons_append, List.cons_append, skipGaps.eq_def]
      rfl
    rw [hskip]
    exact ih hbehind
  | case4 comment hblank ih =>
    obtain ⟨behind, hbehind, hblock⟩ := afterBlockComment_append_blanks hblanks comment
    have hskip : skipGaps ('/' :: '*' :: comment ++ blanks) =
        skipGaps (afterBlockComment comment ++ behind) := by
      rw [← hblock, List.cons_append, List.cons_append, skipGaps.eq_def]
      rfl
    rw [hskip]
    exact ih hbehind
  | case5 c rest hblank hline hblock =>
    refine ⟨blanks, hblanks, ?_, fun hnil => absurd hnil (List.cons_ne_nil c rest)⟩
    have hcomment : ¬OpensComment (c :: rest) := by
      rintro (⟨behind, heq⟩ | ⟨behind, heq⟩)
      all_goals cases heq
      · exact hline _ rfl rfl
      · exact hblock _ rfl rfl
    exact skipGaps_of_not_opensComment (by simpa using hblank)
      fun hopens => hcomment (hopens.of_append hblanks)

/-- A token that is read in front of blanks leaves them over. -/
theorem readToken_append_blanks (hblanks : ∀ c ∈ blanks, Text.isBlank c = true)
    {text rest : List Char} (hne : text ≠ []) {token : Token} :
    readToken (text ++ blanks) = .ok (token, rest) ↔
      ∃ others, rest = others ++ blanks ∧ readToken text = .ok (token, others) := by
  constructor
  · intro hread
    obtain ⟨lexeme, heq, hlexeme, hlocal⟩ :=
      takes_of_readToken (List.append_ne_nil_of_left_ne_nil hne blanks) hread
    rcases List.append_eq_append_iff.1 heq with ⟨inside, hinside, hrest⟩ | ⟨others, rfl, rfl⟩
    · -- The token does not go on into the blanks, since it would end with one of them.
      have hnil : inside = [] := by
        by_contra hinner
        obtain ⟨front, c, hlast, hc⟩ := hlexeme.exists_last
        have hmem : c ∈ inside := by
          rw [hinside] at hlast
          have hget := congrArg List.getLast? hlast
          rw [List.getLast?_append, List.getLast?_concat, List.getLast?_eq_some_getLast hinner] at hget
          exact List.mem_of_getLast? ((List.getLast?_eq_some_getLast hinner).trans hget)
        rw [hblanks c (hrest ▸ List.mem_append_left rest hmem)] at hc
        cases hc
      subst hnil
      rw [List.append_nil] at hinside
      rw [List.nil_append] at hrest
      subst hinside hrest
      refine ⟨[], rfl, ?_⟩
      have hread := hlocal [] (.inr ends_nil)
      rwa [List.append_nil] at hread
    · refine ⟨others, rfl, hlocal others ?_⟩
      cases others with
      | nil => exact .inr ends_nil
      | cons c others => exact .inl rfl
  · rintro ⟨others, rfl, hread⟩
    obtain ⟨lexeme, rfl, -, hlocal⟩ := takes_of_readToken hne hread
    rw [List.append_assoc]
    exact hlocal _ (endsLike_append (ends_blanks hblanks) others)

theorem readsAlike_append_blanks (hblanks : ∀ c ∈ blanks, Text.isBlank c = true)
    (text : List Char) : ReadsAlike (text ++ blanks) text := by
  -- The blanks are not fixed in the induction, since a comment can take over some of them.
  induction hlength : text.length using Nat.strong_induction_on generalizing text blanks with
  | _ length ih =>
    subst hlength
    obtain ⟨behind, hbehind, hskip, hnil⟩ := skipGaps_append_blanks hblanks text
    by_cases hvisible : skipGaps text = []
    · apply readsAlike_of_next_eq
      rw [next, next, hskip, hnil hvisible, List.append_nil]
    have hwhole : skipGaps (text ++ blanks) ≠ [] := by
      rw [hskip]
      exact List.append_ne_nil_of_left_ne_nil hvisible behind
    intro tokens
    rw [readAll_eq_ok_iff hwhole, readAll_eq_ok_iff hvisible, hskip]
    constructor
    · rintro ⟨token, rest, others, hread, hrest, htokens⟩
      obtain ⟨inner, rfl, hinner⟩ := (readToken_append_blanks hbehind hvisible).1 hread
      have hshort := length_lt_of_readToken_of_visible hvisible hinner
      exact ⟨token, inner, others, hinner, (ih _ hshort hbehind inner rfl others).1 hrest, htokens⟩
    · rintro ⟨token, rest, others, hread, hrest, htokens⟩
      have hshort := length_lt_of_readToken_of_visible hvisible hread
      exact ⟨token, rest ++ behind, others,
        (readToken_append_blanks hbehind hvisible).2 ⟨rest, rfl, hread⟩,
        (ih _ hshort hbehind rest rfl others).2 hrest, htokens⟩

end

theorem readsAlike_trim (text : List Char) : ReadsAlike text (Text.trim text) := by
  obtain ⟨blanks, hblanks, htrim⟩ := Text.exists_trimEnd_append (Text.trimStart text)
  have hfront : ReadsAlike text (Text.trimStart text) :=
    readsAlike_of_next_eq (next_trimStart text).symm
  have hbehind := readsAlike_append_blanks hblanks (Text.trimEnd (Text.trimStart text))
  rw [← htrim] at hbehind
  exact hfront.trans hbehind

end TableEngine.Lexer
