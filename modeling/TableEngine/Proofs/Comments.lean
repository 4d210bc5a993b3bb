import TableEngine.Proofs.Blanks
import TableEngine.Proofs.Cutting

/-!
Comments for the lexer. What stands outside of quotes and of other comments (`Script.Outside`) is read
as it would be if it stood alone, and a comment there is read like a blank (`readsAlike_comment`).
-/

namespace TableEngine

namespace Lexer

/-- A comment that stands in front of a text. It takes up the rest of the line, or everything up to the
    first sign that closes it. -/
inductive IsComment : List Char → List Char → Prop
  | line {body rest : List Char} (hbody : '\n' ∉ body) (hrest : ∀ c ∈ rest.head?, c = '\n') :
      IsComment ('-' :: '-' :: body) rest
  | block {body rest : List Char} (hbody : ¬['*', '/'] <:+: body) :
      IsComment ('/' :: '*' :: (body ++ ['*', '/'])) rest

theorem opensComment_cons_iff {c : Char} {rest : List Char} :
    OpensComment (c :: rest) ↔
      (c = '-' ∧ rest.head? = some '-') ∨ (c = '/' ∧ rest.head? = some '*') := by
  cases rest with
  | nil => simp [OpensComment]
  | cons d rest => simp [OpensComment, eq_comm]

theorem IsComment.opensComment {comment rest : List Char} (hcomment : IsComment comment rest) :
    OpensComment comment := by
  cases hcomment with
  | line => exact .inl (List.prefix_append ['-', '-'] _)
  | block => exact .inr (List.prefix_append ['/', '*'] _)

theorem IsComment.ne_nil {comment rest : List Char} (hcomment : IsComment comment rest) :
    comment ≠ [] := by
  cases hcomment <;> exact List.cons_ne_nil _ _

theorem OpensComment.append {text : List Char} (hopens : OpensComment text) (rest : List Char) :
    OpensComment (text ++ rest) :=
  hopens.imp (·.trans (List.prefix_append text rest)) (·.trans (List.prefix_append text rest))

theorem OpensComment.ends {text : List Char} (hopens : OpensComment text) : Ends text := by
  rcases hopens with ⟨rest, rfl⟩ | ⟨rest, rfl⟩
  all_goals exact ends_cons (by decide) (by decide) _

theorem afterBlockComment_append {body : List Char} (hbody : ¬['*', '/'] <:+: body)
    (rest : List Char) : afterBlockComment (body ++ '*' :: '/' :: rest) = rest := by
  induction body with
  | nil => rfl
  | cons c body ih =>
    rw [List.cons_append, afterBlockComment]
    · exact ih fun hwithin => hbody (hwithin.trans (List.suffix_cons c body).isInfix)
    · rintro behind rfl hbehind
      -- The sign that closes the comment does not start in the body.
      cases body with
      | nil => cases hbehind
      | cons d body =>
        obtain ⟨rfl, -⟩ := List.cons.inj hbehind
        exact hbody ⟨[], body, rfl⟩

theorem dropWhile_line {body rest : List Char} (hbody : '\n' ∉ body)
    (hrest : ∀ c ∈ rest.head?, c = '\n') : (body ++ rest).dropWhile (· ≠ '\n') = rest := by
  apply Text.dropWhile_append_of_stop
  · intro c hc
    rw [decide_eq_true_eq]
    rintro rfl
    exact hbody hc
  · intro c hc
    rw [hrest c hc]
    decide

/-- A comment is skipped. -/
theorem IsComment.skipGaps_append {comment rest : List Char} (hcomment : IsComment comment rest) :
    skipGaps (comment ++ rest) = skipGaps rest := by
  cases hcomment with
  | @line body _ hbody hrest =>
    have hskip : skipGaps ('-' :: '-' :: body ++ rest) =
        skipGaps ((body ++ rest).dropWhile (· ≠ '\n')) := by
      rw [List.cons_append, List.cons_append, skipGaps.eq_def]
      rfl
    rw [hskip, dropWhile_line hbody hrest]
  | @block body _ hbody =>
    have hskip : skipGaps ('/' :: '*' :: (body ++ ['*', '/']) ++ rest) =
        skipGaps (afterBlockComment (body ++ '*' :: '/' :: rest)) := by
      rw [List.cons_append, List.cons_append, List.append_assoc, skipGaps.eq_def]
      rfl
    rw [hskip, afterBlockComment_append hbody]

theorem IsComment.readsAlike {comment rest : List Char} (hcomment : IsComment comment rest) :
    ReadsAlike (comment ++ rest) rest :=
  readsAlike_of_next_eq (by rw [next, next, hcomment.skipGaps_append])

/-- A text can stand in place of one that starts with a comment. -/
def Replaces (other text : List Char) : Prop :=
  OpensComment text ∧ (other.head? = text.head? ∨ other.head? = some ' ')

theorem Replaces.ends {other text : List Char} (hreplaces : Replaces other text) : Ends other := by
  intro c hc
  rcases hreplaces.2 with hsame | hblank
  · exact hreplaces.1.ends c (hsame ▸ hc)
  · rw [hblank] at hc
    obtain rfl := Option.some.inj hc
    decide

theorem Replaces.not_opensComment {other text : List Char} (hreplaces : Replaces other text)
    {c : Char} {front : List Char} (hcomment : ¬OpensComment (c :: (front ++ text))) :
    ¬OpensComment (c :: (front ++ other)) := by
  rw [opensComment_cons_iff] at hcomment ⊢
  cases front with
  | cons d front => exact hcomment
  | nil =>
    rcases hreplaces.2 with hsame | hblank
    · rwa [List.nil_append, hsame]
    · simp [hblank]

theorem Replaces.isComment {other text : List Char} (hreplaces : Replaces other text)
    {comment front : List Char} (hcomment : IsComment comment (front ++ text)) :
    IsComment comment (front ++ other) := by
  cases hcomment with
  | block hbody => exact .block hbody
  | line hbody hrest =>
    cases front with
    | cons c front => exact .line hbody hrest
    | nil =>
      -- A comment cannot follow on one that takes up the rest of the line.
      exfalso
      rcases hreplaces.1 with ⟨behind, rfl⟩ | ⟨behind, rfl⟩
      all_goals cases hrest _ rfl

end Lexer

namespace Script

open Lexer

/-- The place in front of `rest` lies outside of quotes and of comments, if `quote` is open in front of
    the text that leads up to it. The comments in that text are of an allowed kind. -/
inductive Outside (allowed : List Char → Prop) (rest : List Char) :
    Option Char → List Char → Prop
  | here : Outside allowed rest none []
  | step {quote : Option Char} {c : Char} {front : List Char}
      (hcomment : quote = none → ¬OpensComment (c :: (front ++ rest)))
      (hfront : Outside allowed rest (quoteAfter quote c) front) :
      Outside allowed rest quote (c :: front)
  | comment {comment front : List Char} (hcomment : IsComment comment (front ++ rest))
      (hallowed : allowed comment) (hfront : Outside allowed rest none front) :
      Outside allowed rest none (comment ++ front)

variable {allowed : List Char → Prop} {rest : List Char} {quote : Option Char} {front : List Char}

/-- A character that opens neither a quote nor a comment. -/
def opensNothing (c : Char) : Bool :=
  !isQuote c && c != '-' && c != '/'

theorem outside_of_opensNothing (hplain : front.all opensNothing = true) (rest : List Char) :
    Outside allowed rest none front := by
  induction front with
  | nil => exact .here
  | cons c front ih =>
    simp only [List.all_cons, opensNothing, Bool.and_eq_true, Bool.not_eq_true', bne_iff_ne] at hplain
    obtain ⟨⟨⟨hquote, hline⟩, hblock⟩, hfront⟩ := hplain
    refine .step (fun _ => ?_) ?_
    · simp [opensComment_cons_iff, hline, hblock]
    · rw [quoteAfter_of_not_isQuote hquote]
      exact ih hfront

theorem Outside.replace {other : List Char} (hreplaces : Replaces other rest)
    (houtside : Outside allowed rest quote front) : Outside allowed other quote front := by
  induction houtside with
  | here => exact .here
  | step hcomment hfront ih =>
    exact .step (fun hnone => hreplaces.not_opensComment (hcomment hnone)) ih
  | comment hcomment hallowed hfront ih =>
    exact .comment (hreplaces.isComment hcomment) hallowed ih

/-- What does not start a comment is passed character by character. -/
theorem Outside.tail {c : Char} (houtside : Outside allowed rest quote (c :: front))
    (hcomment : quote = none → ¬OpensComment (c :: (front ++ rest))) :
    Outside allowed rest (quoteAfter quote c) front := by
  generalize htext : c :: front = text at houtside
  cases houtside with
  | here => cases htext
  | step _ hfront =>
    cases htext
    exact hfront
  | @comment comment behind hstarts hallowed hfront =>
    have hopens := hstarts.opensComment.append (behind ++ rest)
    rw [← List.append_assoc, ← htext] at hopens
    exact absurd hopens (hcomment rfl)

theorem Outside.tail_of_isBlank {c : Char} (houtside : Outside allowed rest none (c :: front))
    (hblank : Text.isBlank c = true) : Outside allowed rest none front := by
  rw [← quoteAfter_of_not_isQuote (isQuote_of_isBlank hblank)]
  refine houtside.tail fun _ => ?_
  rw [opensComment_cons_iff]
  rintro (⟨rfl, -⟩ | ⟨rfl, -⟩)
  all_goals cases hblank

/-- A comment is passed as a whole. -/
theorem Outside.exists_comment (houtside : Outside allowed rest none front)
    (hopens : OpensComment (front ++ rest)) (hne : front ≠ []) :
    ∃ comment behind, front = comment ++ behind ∧ IsComment comment (behind ++ rest) ∧
      allowed comment ∧ Outside allowed rest none behind := by
  cases houtside with
  | here => exact absurd rfl hne
  | step hcomment hfront => exact absurd hopens (hcomment rfl)
  | comment hcomment hallowed hfront => exact ⟨_, _, rfl, hcomment, hallowed, hfront⟩

/-- The characters with which a token that is no text in quotes can go on. -/
def goesOn (c : Char) : Bool :=
  isWordChar c || c == '=' || c == '>'

theorem goesOn_of_isWordChar {c : Char} (hc : isWordChar c = true) : goesOn c = true := by
  simp [goesOn, hc]

theorem isQuote_of_goesOn {c : Char} (hc : goesOn c = true) : isQuote c = false := by
  by_contra hquote
  rw [Bool.not_eq_false, isQuote, Bool.or_eq_true, beq_iff_eq, beq_iff_eq] at hquote
  rcases hquote with rfl | rfl
  all_goals cases hc

theorem not_opensComment_of_goesOn {c : Char} (hc : goesOn c = true) (text : List Char) :
    ¬OpensComment (c :: text) := by
  rw [opensComment_cons_iff]
  rintro (⟨rfl, -⟩ | ⟨rfl, -⟩)
  all_goals cases hc

theorem not_goesOn_of_ends {text : List Char} (hends : Ends text) :
    ∀ c ∈ text.head?, goesOn c = false := by
  intro c hc
  obtain ⟨hword, hsign⟩ := hends c hc
  simp only [List.mem_cons, not_or] at hsign
  simp [goesOn, hword, hsign]

theorem not_isQuote_of_ends {text : List Char} (hends : Ends text) :
    ∀ c ∈ text.head?, isQuote c = false := by
  intro c hc
  obtain ⟨-, hsign⟩ := hends c hc
  simp only [List.mem_cons, not_or] at hsign
  simp [isQuote, hsign]

theorem not_opensComment_of_isQuote {c : Char} (hc : isQuote c = true) (text : List Char) :
    ¬OpensComment (c :: text) := by
  rw [opensComment_cons_iff]
  rintro (⟨rfl, -⟩ | ⟨rfl, -⟩)
  all_goals cases hc

/-- A token is either a text in quotes, or nothing in it opens a quote. -/
theorem exists_cons_of_isLexeme {token : Token} {lexeme : List Char}
    (hlexeme : IsLexeme token lexeme) :
    ∃ c run, lexeme = c :: run ∧
      ((isQuote c = false ∧ ∀ d ∈ run, goesOn d = true) ∨
        (isQuote c = true ∧ ∃ body, readQuoted c run = some (body, []))) := by
  have hdigits {digits : List Char} (hall : ∀ c ∈ digits, c.isDigit = true) :
      ∀ c ∈ digits, goesOn c = true :=
    fun c hc => goesOn_of_isWordChar (isWordChar_of_isDigit (hall c hc))
  cases hlexeme with
  | sign hsign =>
    have hsigns : ∀ sign ∈ signs, sign.2 ≠ [] ∧ sign.2.head?.any isQuote = false ∧
        sign.2.tail.all goesOn = true := by decide
    obtain ⟨hne, hfirst, hrun⟩ := hsigns _ hsign
    obtain ⟨c, run, rfl⟩ := List.exists_cons_of_ne_nil hne
    exact ⟨c, run, rfl, .inl ⟨hfirst, List.all_eq_true.1 hrun⟩⟩
  | word hchars hother =>
    obtain ⟨d, hd, -⟩ := hother
    obtain ⟨c, run, rfl⟩ := List.exists_cons_of_ne_nil (List.ne_nil_of_mem hd)
    rw [List.forall_mem_cons] at hchars
    exact ⟨c, run, rfl, .inl ⟨isQuote_of_goesOn (goesOn_of_isWordChar hchars.1),
      fun d hd => goesOn_of_isWordChar (hchars.2 d hd)⟩⟩
  | number hne hall =>
    obtain ⟨c, run, rfl⟩ := List.exists_cons_of_ne_nil hne
    have hrun := hdigits hall
    rw [List.forall_mem_cons] at hrun
    exact ⟨c, run, rfl, .inl ⟨isQuote_of_goesOn hrun.1, hrun.2⟩⟩
  | negative hne hall => exact ⟨_, _, rfl, .inl ⟨rfl, hdigits hall⟩⟩
  | quoted hquote hread =>
    refine ⟨_, _, rfl, .inr ⟨?_, _, hread⟩⟩
    rcases hquote with rfl | rfl <;> rfl

/-- A run of characters that go on with a token ends before the place is reached. -/
theorem Outside.drop_run (hends : Ends rest) {run behind : List Char}
    (hrun : ∀ c ∈ run, goesOn c = true) (houtside : Outside allowed rest none front)
    (htext : front ++ rest = run ++ behind) :
    ∃ inner, front = run ++ inner ∧ behind = inner ++ rest ∧ Outside allowed rest none inner := by
  induction run generalizing front with
  | nil => exact ⟨front, rfl, htext.symm, houtside⟩
  | cons c run ih =>
    rw [List.forall_mem_cons] at hrun
    cases front with
    | nil =>
      have hstop := not_goesOn_of_ends hends c (by rw [List.nil_append] at htext; rw [htext]; rfl)
      rw [hrun.1] at hstop
      cases hstop
    | cons d front =>
      obtain ⟨rfl, htail⟩ := List.cons.inj htext
      have hfront := houtside.tail fun _ => not_opensComment_of_goesOn hrun.1 _
      rw [quoteAfter_of_not_isQuote (isQuote_of_goesOn hrun.1)] at hfront
      obtain ⟨inner, rfl, hbehind, hinner⟩ := ih hrun.2 hfront htail
      exact ⟨inner, rfl, hbehind, hinner⟩

/-- A text in quotes is closed before the place is reached. -/
theorem Outside.drop_quoted {q : Char} (hq : isQuote q = true) (hends : Ends rest)
    {written body behind : List Char} (hread : readQuoted q written = some (body, []))
    (houtside : Outside allowed rest (some q) front) (htext : front ++ rest = written ++ behind) :
    ∃ inner, front = written ++ inner ∧ behind = inner ++ rest ∧ Outside allowed rest none inner := by
  fun_induction readQuoted q written generalizing body front with
  | case1 => cases hread
  | case2 =>
    cases houtside with
    | step _ hfront =>
      obtain ⟨rfl, htail⟩ := List.cons.inj htext
      rw [quoteAfter, if_pos rfl] at hfront
      exact ⟨_, rfl, htail.symm, hfront⟩
  | case3 => cases hread
  | case4 left ih =>
    obtain ⟨⟨inner, after⟩, hinner, heq⟩ := Option.map_eq_some_iff.1 hread
    cases heq
    cases houtside with
    | @step _ c front _ hfront =>
      obtain rfl : c = q := (List.cons.inj htext).1
      have htail : front ++ rest = c :: (left ++ behind) := (List.cons.inj htext).2
      rw [quoteAfter, if_pos rfl] at hfront
      -- The second quote of the pair opens again what the first one has closed.
      cases front with
      | nil =>
        rw [List.nil_append] at htail
        rw [not_isQuote_of_ends hends c (by rw [htail]; rfl)] at hq
        cases hq
      | cons d front =>
        obtain rfl : d = c := (List.cons.inj htail).1
        have hopen := hfront.tail fun _ => not_opensComment_of_isQuote hq _
        rw [quoteAfter, if_pos hq] at hopen
        obtain ⟨inner, rfl, hbehind, hinner⟩ := ih hinner hopen (List.cons.inj htail).2
        exact ⟨inner, rfl, hbehind, hinner⟩
  | case5 => cases hread
  | case6 c d left hc ih =>
    obtain ⟨⟨inner, after⟩, hinner, heq⟩ := Option.map_eq_some_iff.1 hread
    cases heq
    cases houtside with
    | step _ hfront =>
      obtain ⟨rfl, htail⟩ := List.cons.inj htext
      rw [quoteAfter, if_neg hc] at hfront
      obtain ⟨inner, rfl, hbehind, hinner⟩ := ih hinner hfront htail
      exact ⟨inner, rfl, hbehind, hinner⟩

/-- A token that starts in front of the place ends in front of it. -/
theorem Outside.drop_lexeme (hends : Ends rest) {token : Token} {lexeme behind : List Char}
    (hlexeme : IsLexeme token lexeme) (houtside : Outside allowed rest none front)
    (hne : front ≠ []) (hcomment : ¬OpensComment (front ++ rest))
    (htext : front ++ rest = lexeme ++ behind) :
    ∃ inner, front = lexeme ++ inner ∧ behind = inner ++ rest ∧ Outside allowed rest none inner := by
  obtain ⟨c, run, rfl, hrun⟩ := exists_cons_of_isLexeme hlexeme
  cases front with
  | nil => exact absurd rfl hne
  | cons d front =>
    obtain ⟨rfl, htail⟩ := List.cons.inj htext
    have hfront := houtside.tail fun _ => hcomment
    have hinner : ∃ inner, front = run ++ inner ∧ behind = inner ++ rest ∧
        Outside allowed rest none inner := by
      rcases hrun with ⟨hquote, hrun⟩ | ⟨hquote, body, hread⟩
      · rw [quoteAfter_of_not_isQuote hquote] at hfront
        exact hfront.drop_run hends hrun htail
      · rw [quoteAfter, if_pos hquote] at hfront
        exact hfront.drop_quoted hquote hends hread htail
    obtain ⟨inner, rfl, hbehind, hinner⟩ := hinner
    exact ⟨inner, rfl, hbehind, hinner⟩

/-- A token that starts in front of the place is read in the same way whatever follows there. -/
theorem Outside.exists_inner (hends : Ends rest) (houtside : Outside allowed rest none front)
    (hne : front ≠ []) (hcomment : ¬OpensComment (front ++ rest)) {token : Token}
    {behind : List Char} (hread : readToken (front ++ rest) = .ok (token, behind)) :
    ∃ inner, behind = inner ++ rest ∧ Outside allowed rest none inner ∧
      inner.length < front.length ∧
      ∀ other, Ends other → readToken (front ++ other) = .ok (token, inner ++ other) := by
  obtain ⟨lexeme, htext, hlexeme, hlocal⟩ :=
    takes_of_readToken (List.append_ne_nil_of_left_ne_nil hne rest) hread
  obtain ⟨inner, rfl, rfl, hinner⟩ := houtside.drop_lexeme hends hlexeme hne hcomment htext
  refine ⟨inner, rfl, hinner, ?_, fun other hother => ?_⟩
  · obtain ⟨c, run, rfl, -⟩ := exists_cons_of_isLexeme hlexeme
    rw [List.length_append, List.length_cons]
    omega
  · rw [List.append_assoc]
    apply hlocal
    cases inner with
    | nil => exact .inr hother
    | cons c inner => exact .inl rfl

/-- If the text is replaced behind every token and comment that is passed, it is replaced behind a text
    that starts with a token. -/
theorem Outside.readsAlike_of_visible {c : Char} {other : List Char}
    (hreplaces : Replaces other rest) (houtside : Outside allowed rest none (c :: front))
    (hblank : Text.isBlank c = false) (hcomment : ¬OpensComment (c :: front ++ rest))
    (hinner : ∀ inner, inner.length < (c :: front).length → Outside allowed rest none inner →
      ReadsAlike (inner ++ rest) (inner ++ other)) :
    ReadsAlike (c :: front ++ rest) (c :: front ++ other) := by
  have hne : c :: front ≠ [] := List.cons_ne_nil c front
  have hcommentOther : ¬OpensComment (c :: front ++ other) := hreplaces.not_opensComment hcomment
  have hskip : skipGaps (c :: front ++ rest) = c :: front ++ rest :=
    skipGaps_of_not_opensComment hblank hcomment
  have hskipOther : skipGaps (c :: front ++ other) = c :: front ++ other :=
    skipGaps_of_not_opensComment hblank hcommentOther
  intro tokens
  rw [readAll_eq_ok_iff (hskip.trans_ne (List.cons_ne_nil _ _)), hskip,
    readAll_eq_ok_iff (hskipOther.trans_ne (List.cons_ne_nil _ _)), hskipOther]
  constructor
  · rintro ⟨token, left, others, hread, hleft, htokens⟩
    obtain ⟨inner, rfl, houter, hshort, hlocal⟩ :=
      houtside.exists_inner hreplaces.1.ends hne hcomment hread
    exact ⟨token, inner ++ other, others, hlocal other hreplaces.ends,
      (hinner inner hshort houter others).1 hleft, htokens⟩
  · rintro ⟨token, left, others, hread, hleft, htokens⟩
    obtain ⟨inner, rfl, -, -, hlocal⟩ :=
      (houtside.replace hreplaces).exists_inner hreplaces.ends hne hcommentOther hread
    have hrest := hlocal rest hreplaces.1.ends
    obtain ⟨_, heq, houter, hshort, -⟩ :=
      houtside.exists_inner hreplaces.1.ends hne hcomment hrest
    obtain rfl := List.append_cancel_right heq
    exact ⟨token, inner ++ rest, others, hrest, (hinner inner hshort houter others).2 hleft, htokens⟩

/-- What stands outside of quotes and of other comments can be replaced by what is read alike. -/
theorem Outside.readsAlike {other : List Char} (hreplaces : Replaces other rest)
    (hother : ReadsAlike rest other) (houtside : Outside allowed rest none front) :
    ReadsAlike (front ++ rest) (front ++ other) := by
  -- The induction is on the length, since comments and tokens are passed as a whole.
  induction hlength : front.length using Nat.strong_induction_on generalizing front with
  | _ length ih =>
    subst hlength
    have hinner (inner : List Char) (hshort : inner.length < front.length)
        (houter : Outside allowed rest none inner) : ReadsAlike (inner ++ rest) (inner ++ other) :=
      ih _ hshort houter rfl
    cases front with
    | nil => exact hother
    | cons c front =>
      by_cases hblank : Text.isBlank c = true
      · have hfront := hinner front (by simp) (houtside.tail_of_isBlank hblank)
        exact (readsAlike_cons_of_isBlank hblank _).trans
          (hfront.trans (readsAlike_cons_of_isBlank hblank _).symm)
      by_cases hcomment : OpensComment (c :: front ++ rest)
      · obtain ⟨comment, behind, heq, hskipped, -, hbehind⟩ :=
          houtside.exists_comment hcomment (List.cons_ne_nil c front)
        have hshort : behind.length < (c :: front).length := by
          have hpositive := List.length_pos_of_ne_nil hskipped.ne_nil
          rw [heq, List.length_append]
          omega
        rw [heq, List.append_assoc, List.append_assoc]
        exact hskipped.readsAlike.trans ((hinner behind hshort hbehind).trans
          (hreplaces.isComment hskipped).readsAlike.symm)
      · exact houtside.readsAlike_of_visible hreplaces (by simpa using hblank) hcomment hinner

end Script

end TableEngine
