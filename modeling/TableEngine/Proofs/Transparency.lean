import TableEngine.Proofs.Comments
import TableEngine.Proofs.Leading

/-!
Comments in scripts. A script is cut by a scan that does not know comments. A comment that holds neither
an end of a statement nor a quote that is left open (`Script.IsQuiet`) can be replaced by a blank, and
the script still leads to the same catalog, the same database in use and the same results. There are two
exceptions: comments alone make up a statement where blanks do not, and a comment in front of a statement
that cannot be read hides its command (`Session.comment_replaced_iff`).
-/

namespace TableEngine

open Lexer

namespace Script

/-- Nothing in a text ends a statement, and no quote is left open behind it. -/
def IsQuiet (text : List Char) : Prop :=
  cut none text = [text] ∧ quoteBehind none text = none

instance (text : List Char) : Decidable (IsQuiet text) :=
  inferInstanceAs (Decidable (_ ∧ _))

/-- A quiet text stays within the piece that it stands in. -/
theorem cut_quiet {middle rest : List Char} (hquiet : IsQuiet middle) (hapart : Apart middle rest) :
    cut none (middle ++ rest) = middle.foldr push (cut none rest) := by
  rw [cut_append hapart, hquiet.1, hquiet.2, glue]

/-- Of the pieces of a text, only one depends on a quiet text in it. -/
theorem pieces_around {front middle rest : List Char} (hclosed : quoteBehind none front = none)
    (hquiet : IsQuiet middle) (hfront : Apart front (middle ++ rest)) (hrest : Apart middle rest)
    {complete others : List (List Char)} (hcomplete : cut none front = complete ++ [lastPiece front])
    (hothers : cut none rest = firstPiece rest :: others) :
    pieces (front ++ (middle ++ rest)) =
      (complete.map Text.trim).filter (!·.isEmpty) ++
        [Text.trim (lastPiece front ++ (middle ++ firstPiece rest))].filter (!·.isEmpty) ++
          (others.map Text.trim).filter (!·.isEmpty) := by
  have hcut : cut none (front ++ (middle ++ rest)) =
      complete ++ [lastPiece front ++ (middle ++ firstPiece rest)] ++ others := by
    rw [cut_append hfront, hclosed, cut_quiet hquiet hrest, hothers, foldr_push, hcomplete, glue_concat,
      List.append_cons]
  rw [pieces, hcut, List.map_append, List.map_append, List.filter_append, List.filter_append]
  rfl

theorem apart_of_opensComment {rest : List Char} (hopens : OpensComment rest) (front : List Char) :
    Apart front rest := by
  intro _ hfirst
  rcases hopens with ⟨behind, rfl⟩ | ⟨behind, rfl⟩
  all_goals cases hfirst

/-- The sign `\g` does not stand across the end of a comment. -/
theorem apart_comment {comment front rest : List Char}
    (hcomment : IsComment comment (front ++ rest)) : Apart comment front := by
  intro hlast hfirst
  cases hcomment with
  | line hbody hrest =>
    cases front with
    | nil => cases hfirst
    | cons c front =>
      obtain rfl := Option.some.inj hfirst
      cases hrest _ rfl
  | @block body _ hbody =>
    have hslash : ('/' :: '*' :: (body ++ ['*', '/'])).getLast? = some '/' := by
      rw [List.getLast?_cons, List.getLast?_cons, List.getLast?_append]
      rfl
    rw [hslash] at hlast
    cases hlast

section

variable {rest front : List Char} {quote : Option Char}

/-- Where comments are quiet, the scan that cuts a script finds the same quotes as the lexer. -/
theorem Outside.quoteBehind_eq (houtside : Outside IsQuiet rest quote front) :
    quoteBehind quote front = none := by
  induction houtside with
  | here => rfl
  | step _ _ ih => exact ih
  | comment _ hquiet _ ih => rw [quoteBehind_append, hquiet.2, ih]

/-- The last piece of a cut either is the whole text, or a text behind which the same place lies. -/
def LeadsUp (rest front : List Char) (pieces : List (List Char)) : Prop :=
  ∃ complete last, pieces = complete ++ [last] ∧
    (complete = [] ∧ last = front ∨ complete ≠ [] ∧ Outside IsQuiet rest none last)

theorem LeadsUp.nil_cons {pieces : List (List Char)} {behind : List Char}
    (hbehind : Outside IsQuiet rest none behind) (hleads : LeadsUp rest behind pieces) :
    LeadsUp rest front ([] :: pieces) := by
  obtain ⟨complete, last, rfl, hlast⟩ := hleads
  refine ⟨[] :: complete, last, rfl, .inr ⟨List.cons_ne_nil _ _, ?_⟩⟩
  rcases hlast with ⟨-, rfl⟩ | ⟨-, hlast⟩
  · exact hbehind
  · exact hlast

theorem LeadsUp.foldr_push {pieces : List (List Char)} {behind : List Char} (text : List Char)
    (hleads : LeadsUp rest behind pieces) :
    LeadsUp rest (text ++ behind) (text.foldr push pieces) := by
  obtain ⟨complete, last, rfl, hlast⟩ := hleads
  cases complete with
  | nil =>
    rcases hlast with ⟨-, rfl⟩ | ⟨hne, -⟩
    · exact ⟨[], text ++ last, Script.foldr_push text last [], .inl ⟨rfl, rfl⟩⟩
    · exact absurd rfl hne
  | cons first complete =>
    rcases hlast with ⟨hnil, -⟩ | ⟨-, hlast⟩
    · cases hnil
    · exact ⟨(text ++ first) :: complete, last, Script.foldr_push text first (complete ++ [last]),
        .inr ⟨List.cons_ne_nil _ _, hlast⟩⟩

theorem Outside.leadsUp (houtside : Outside IsQuiet rest quote front) :
    LeadsUp rest front (cut quote front) := by
  induction hlength : front.length using Nat.strong_induction_on generalizing quote front with
  | _ length ih =>
    subst hlength
    cases houtside with
    | here => exact ⟨[], [], rfl, .inl ⟨rfl, rfl⟩⟩
    | @step _ c behind hcomment hbehind =>
      have hshort : behind.length < (c :: behind).length := by simp
      have hleads := ih _ hshort hbehind rfl
      rw [cut.eq_def]
      split
      · contradiction
      · next heq =>
        cases heq
        exact hleads.nil_cons hbehind
      · next left heq =>
        cases heq
        have hleft : Outside IsQuiet rest none left :=
          hbehind.tail fun _ => not_opensComment_of_goesOn (by decide) _
        have hshort : left.length < ('\\' :: 'g' :: left).length := by
          simp only [List.length_cons]
          omega
        exact (ih _ hshort hleft rfl).nil_cons hleft
      · next heq =>
        cases heq
        exact hleads.foldr_push [c]
    | @comment comment behind hcomment hquiet hbehind =>
      have hshort : behind.length < (comment ++ behind).length := by
        have hpositive := List.length_pos_of_ne_nil hcomment.ne_nil
        rw [List.length_append]
        omega
      rw [cut_quiet hquiet (apart_comment hcomment)]
      exact (ih _ hshort hbehind rfl).foldr_push comment

theorem Outside.lastPiece (houtside : Outside IsQuiet rest none front) :
    Outside IsQuiet rest none (lastPiece front) := by
  obtain ⟨complete, last, hcut, hlast⟩ := houtside.leadsUp
  have hpiece : Script.lastPiece front = last := by
    rw [Script.lastPiece, hcut, List.getLastD_concat]
  rw [hpiece]
  rcases hlast with ⟨-, rfl⟩ | ⟨-, hlast⟩
  · exact houtside
  · exact hlast

theorem isComment_firstPiece {comment : List Char} (hcomment : IsComment comment rest) :
    IsComment comment (firstPiece rest) := by
  cases hcomment with
  | block hbody => exact .block hbody
  | line hbody hrest =>
    obtain ⟨others, hcut⟩ := exists_cut_eq_cons rest
    obtain ⟨tail, htail, -⟩ := exists_tail_of_cut hcut
    refine .line hbody fun c hc => hrest c ?_
    rw [htail, List.head?_append, hc]
    rfl

/-- The statement in which a comment stands is read as if a blank stood there. -/
theorem Outside.readsAlike_comment {comment : List Char}
    (houtside : Outside IsQuiet (comment ++ rest) none front) (hcomment : IsComment comment rest) :
    ReadsAlike (Script.lastPiece front ++ (comment ++ firstPiece rest))
      (Script.lastPiece front ++ ' ' :: firstPiece rest) := by
  have hpiece := isComment_firstPiece hcomment
  have hopens := hcomment.opensComment
  have hinside : Replaces (comment ++ firstPiece rest) (comment ++ rest) := by
    refine ⟨hopens.append rest, .inl ?_⟩
    rw [List.head?_append_of_ne_nil _ hcomment.ne_nil, List.head?_append_of_ne_nil _ hcomment.ne_nil]
  have hblank : Replaces (' ' :: firstPiece rest) (comment ++ firstPiece rest) :=
    ⟨hopens.append _, .inr rfl⟩
  exact (houtside.lastPiece.replace hinside).readsAlike hblank
    (hpiece.readsAlike.trans (readsAlike_cons_of_isBlank (by decide) _).symm)

/-- A script with a comment and the same script with a blank in its place differ in one piece. -/
theorem Outside.exists_pieces {comment : List Char}
    (houtside : Outside IsQuiet (comment ++ rest) none front) (hcomment : IsComment comment rest)
    (hquiet : IsQuiet comment) :
    ∃ before behind,
      pieces (front ++ (comment ++ rest)) = before ++
        [Text.trim (Script.lastPiece front ++ (comment ++ firstPiece rest))] ++ behind ∧
      pieces (front ++ ' ' :: rest) = before ++
        [Text.trim (Script.lastPiece front ++ ' ' :: firstPiece rest)].filter (!·.isEmpty) ++
          behind := by
  obtain ⟨complete, hcomplete⟩ := exists_cut_eq_concat front
  obtain ⟨others, hothers⟩ := exists_cut_eq_cons rest
  have hclosed := houtside.quoteBehind_eq
  have hends : IsComment comment (rest ++ []) := by rwa [List.append_nil]
  have hcommented := pieces_around hclosed hquiet
    (apart_of_opensComment (hcomment.opensComment.append rest) front) (apart_comment hends) hcomplete
    hothers
  have hspaced := pieces_around hclosed (by decide : IsQuiet [' ']) (fun _ => by simp) nofun hcomplete
    hothers
  refine ⟨_, _, hcommented.trans ?_, hspaced⟩
  have hvisible : Text.trim (Script.lastPiece front ++ (comment ++ firstPiece rest)) ≠ [] := by
    rw [ne_eq, Text.trim_eq_nil_iff]
    intro hblanks
    rcases hcomment.opensComment with ⟨behind, rfl⟩ | ⟨behind, rfl⟩
    · cases hblanks '-' (by simp)
    · cases hblanks '/' (by simp)
  simp [hvisible]

end

end Script

namespace Statement

theorem parse_trim_of_readAll {text : List Char} {tokens : List Token}
    (hread : readAll text = .ok tokens) :
    parse (String.ofList (Text.trim text)) = (Parser.wholeStatement.run tokens).1 := by
  have htrim := (readsAlike_trim _ _).1 ((readsAlike_trim text tokens).1 hread)
  rw [parse, String.toList_ofList, tokens_eq_ok_iff.2 htrim]
  rfl

/-- A text that cannot be read. -/
def Unreadable (text : List Char) : Prop :=
  ∃ fault, Token.ofText text = .error fault

theorem not_unreadable_iff {text : List Char} :
    ¬Unreadable text ↔ ∃ tokens, readAll text = .ok tokens := by
  unfold Unreadable Token.ofText
  cases readAll text <;> simp

theorem unreadable_iff_of_readsAlike {text other : List Char} (halike : ReadsAlike text other) :
    Unreadable text ↔ Unreadable other := by
  rw [← not_iff_not, not_unreadable_iff, not_unreadable_iff]
  exact exists_congr halike

theorem parse_trim_of_unreadable {text : List Char} (hfault : Unreadable text) :
    ∃ error, parse (String.ofList (Text.trim text)) = .error error ∧
      error.code = if leadsWithCommand text then "SYNTAX_ERROR" else "UNKNOWN_COM" := by
  rw [unreadable_iff_of_readsAlike (readsAlike_trim text),
    unreadable_iff_of_readsAlike (readsAlike_trim (Text.trim text))] at hfault
  obtain ⟨fault, hfault⟩ := hfault
  rw [parse, String.toList_ofList, tokens_of_fault hfault, leadsWithCommand_trim,
    leadsWithCommand_trim]
  refine ⟨_, rfl, ?_⟩
  split <;> rfl

theorem startsWithComment_append {blanks comment rest : List Char}
    (hblanks : ∀ c ∈ blanks, Text.isBlank c = true) (hopens : OpensComment comment) :
    StartsWithComment (blanks ++ (comment ++ rest)) := by
  have htrim : Text.trimStart (blanks ++ (comment ++ rest)) = comment ++ rest := by
    rw [Text.trimStart, List.dropWhile_append_of_pos hblanks]
    rcases hopens with ⟨behind, rfl⟩ | ⟨behind, rfl⟩
    all_goals rfl
  rw [StartsWithComment, htrim]
  exact hopens.append rest

/-- A comment hides the command that follows on it, and nothing else. -/
theorem leadsWithCommand_comment_iff {front comment rest : List Char} (hopens : OpensComment comment) :
    leadsWithCommand (front ++ (comment ++ rest)) = leadsWithCommand (front ++ ' ' :: rest) ↔
      ¬((∀ c ∈ front, Text.isBlank c = true) ∧ leadsWithCommand (front ++ ' ' :: rest) = true) := by
  by_cases hblanks : ∀ c ∈ front, Text.isBlank c = true
  · rw [leadsWithCommand_of_startsWithComment (startsWithComment_append hblanks hopens)]
    cases leadsWithCommand (front ++ ' ' :: rest) with
    | false => simp
    | true => simpa using hblanks
  · have hcomment : ∀ c ∈ (comment ++ rest).head?, c.isAlpha = false := by
      intro c hc
      rcases hopens with ⟨behind, rfl⟩ | ⟨behind, rfl⟩
      all_goals
        obtain rfl := Option.some.inj hc
        rfl
    have hblank : ∀ c ∈ (' ' :: rest).head?, c.isAlpha = false := by simp
    rw [leadsWithCommand_append hblanks hcomment, leadsWithCommand_append hblanks hblank]
    simp [hblanks]

end Statement

namespace Session

/-- Results with the codes of errors in place of errors. -/
def withCodes (results : List (Except Error Outcome)) : List (Except String Outcome) :=
  results.map (·.mapError Error.code)

theorem execute_of_error {text : String} {error : Error} (hparse : Statement.parse text = .error error)
    (session : Session) : session.execute text = (session.record text, .error error) := by
  rw [execute, hparse]

theorem execute_of_ok {text : String} {statement : Statement}
    (hparse : Statement.parse text = .ok statement) (session : Session) :
    session.execute text = (perform statement).run (session.record text) := by
  rw [execute, hparse]
  rfl

/-- Texts that are read as the same statement do the same, whatever the log holds. -/
theorem exists_execute_eq {text other : String} (hparse : Statement.parse text = Statement.parse other)
    (session : Session) (log : List String) :
    ∃ logged, execute { session with log } other =
      ({ (session.execute text).1 with log := logged }, (session.execute text).2) := by
  refine ⟨(record { session with log } other).log, ?_⟩
  cases hother : Statement.parse other with
  | error error =>
    rw [execute_of_error hother, execute_of_error (hparse.trans hother)]
    rfl
  | ok statement =>
    have hrun := ignoresLog_perform statement session (record { session with log } other).log
    have hlogged : (perform statement).run (session.record text) =
        ({ ((perform statement).run session).1 with log := (session.record text).log },
          ((perform statement).run session).2) := ignoresLog_perform statement session _
    rw [execute_of_ok hother, execute_of_ok (hparse.trans hother), hlogged]
    exact hrun

theorem exists_executeAll_eq (texts : List String) (session : Session) (log : List String) :
    ∃ logged, executeAll { session with log } texts =
      ({ (session.executeAll texts).1 with log := logged }, (session.executeAll texts).2) := by
  induction texts generalizing session log with
  | nil => exact ⟨log, rfl⟩
  | cons text texts ih =>
    obtain ⟨afterFirst, hfirst⟩ :=
      exists_execute_eq (rfl : Statement.parse text = Statement.parse text) session log
    obtain ⟨logged, hothers⟩ := ih (session.execute text).1 afterFirst
    refine ⟨logged, ?_⟩
    rw [executeAll_cons, hfirst, hothers]
    rfl

/-- Texts between others can be replaced by texts that lead to the same session up to the log. -/
theorem executeAll_replace {session : Session} {before inner other : List String}
    {log : List String}
    (hinner : ((session.executeAll before).1.executeAll inner).1 =
      { ((session.executeAll before).1.executeAll other).1 with log }) (behind : List String) :
    (session.executeAll (before ++ inner ++ behind)).1.catalog =
        (session.executeAll (before ++ other ++ behind)).1.catalog ∧
      (session.executeAll (before ++ inner ++ behind)).1.active =
        (session.executeAll (before ++ other ++ behind)).1.active ∧
      (withCodes (session.executeAll (before ++ inner ++ behind)).2 =
          withCodes (session.executeAll (before ++ other ++ behind)).2 ↔
        withCodes ((session.executeAll before).1.executeAll inner).2 =
          withCodes ((session.executeAll before).1.executeAll other).2) := by
  obtain ⟨logged, hbehind⟩ :=
    exists_executeAll_eq behind ((session.executeAll before).1.executeAll other).1 log
  rw [executeAll_append, executeAll_append session before inner, hinner, hbehind,
    executeAll_append session (before ++ other), executeAll_append session before other]
  refine ⟨rfl, rfl, ?_⟩
  simp [withCodes]

section

variable {commented spaced : List Char}

theorem execute_trim_of_readable (hreads : ReadsAlike commented spaced)
    (hreadable : ¬Statement.Unreadable spaced) (session : Session) :
    ∃ log, session.execute (String.ofList (Text.trim commented)) =
      ({ (session.execute (String.ofList (Text.trim spaced))).1 with log },
        (session.execute (String.ofList (Text.trim spaced))).2) := by
  obtain ⟨tokens, hspaced⟩ := Statement.not_unreadable_iff.1 hreadable
  have hparse := (Statement.parse_trim_of_readAll hspaced).trans
    (Statement.parse_trim_of_readAll ((hreads tokens).2 hspaced)).symm
  exact exists_execute_eq hparse session session.log

theorem execute_trim_of_unreadable (hfault : Statement.Unreadable commented) (session : Session) :
    ∃ log error, session.execute (String.ofList (Text.trim commented)) =
      ({ session with log }, .error error) ∧
      error.code = if Statement.leadsWithCommand commented then "SYNTAX_ERROR" else "UNKNOWN_COM" := by
  obtain ⟨error, hparse, hcode⟩ := Statement.parse_trim_of_unreadable hfault
  exact ⟨_, error, execute_of_error hparse session, hcode⟩

/-- A text that holds nothing but comments is an unknown command. -/
theorem execute_trim_of_blank (hreads : ReadsAlike commented spaced)
    (hblank : ∀ c ∈ spaced, Text.isBlank c = true) (session : Session) :
    ∃ log, session.execute (String.ofList (Text.trim commented)) =
      ({ session with log }, .error .unknownCommand) := by
  have hspaced : readAll spaced = .ok [.endOfInput] := by
    rw [readAll_eq, next, skipGaps_blanks hblank]
    rfl
  have hparse := Statement.parse_trim_of_readAll ((hreads _).2 hspaced)
  exact ⟨_, execute_of_error hparse session⟩

/-- What a piece does that is read like another one. The results differ only where the other piece is
    blank, so that it is left out, or where neither can be read and only one of them shows its command. -/
theorem executeAll_piece (hreads : ReadsAlike commented spaced) (session : Session) :
    ∃ log,
      (session.executeAll [String.ofList (Text.trim commented)]).1 =
        { (session.executeAll
            (([Text.trim spaced].filter (!·.isEmpty)).map String.ofList)).1 with log } ∧
      (withCodes (session.executeAll [String.ofList (Text.trim commented)]).2 =
          withCodes (session.executeAll
            (([Text.trim spaced].filter (!·.isEmpty)).map String.ofList)).2 ↔
        ¬(∀ c ∈ spaced, Text.isBlank c = true) ∧
          (Statement.Unreadable spaced →
            Statement.leadsWithCommand commented = Statement.leadsWithCommand spaced)) := by
  by_cases hblank : ∀ c ∈ spaced, Text.isBlank c = true
  · obtain ⟨log, hrun⟩ := execute_trim_of_blank hreads hblank session
    have hempty : [Text.trim spaced].filter (!·.isEmpty) = [] := by
      rw [Text.trim_eq_nil_iff.2 hblank]
      rfl
    rw [hempty, executeAll_cons, hrun]
    exact ⟨log, rfl, iff_of_false (List.cons_ne_nil _ _) fun hboth => hboth.1 hblank⟩
  have hkept : [Text.trim spaced].filter (!·.isEmpty) = [Text.trim spaced] := by
    rw [← Text.trim_eq_nil_iff] at hblank
    simp [hblank]
  rw [hkept, List.map_singleton, executeAll_cons, executeAll_cons]
  by_cases hreadable : Statement.Unreadable spaced
  · obtain ⟨log, error, hrun, hcode⟩ := execute_trim_of_unreadable
      ((Statement.unreadable_iff_of_readsAlike hreads).2 hreadable) session
    obtain ⟨logged, other, hother, hotherCode⟩ := execute_trim_of_unreadable hreadable session
    rw [hrun, hother]
    refine ⟨log, rfl, ?_⟩
    have hcodes : error.code = other.code ↔
        Statement.leadsWithCommand commented = Statement.leadsWithCommand spaced := by
      rw [hcode, hotherCode]
      cases Statement.leadsWithCommand commented <;> cases Statement.leadsWithCommand spaced <;> simp
    simp [withCodes, executeAll, Except.mapError, hblank, hreadable, hcodes]
  · obtain ⟨log, hrun⟩ := execute_trim_of_readable hreads hreadable session
    rw [hrun]
    exact ⟨log, rfl, by simp [withCodes, executeAll, hblank, hreadable]⟩

end

/-- The statement around a blank that stands between two texts. -/
def around (front rest : List Char) : List Char :=
  Script.lastPiece front ++ ' ' :: Script.firstPiece rest

/-- A comment that stands outside of quotes and of other comments, all of them quiet, can be replaced by
    a blank. The catalog and the database in use are the same afterwards, and so are the results up to the
    details of errors, exactly if the statement around it holds more than blanks, and is no command that
    follows on the comment and cannot be read. -/
theorem comment_replaced_iff {front comment rest : List Char}
    (houtside : Script.Outside Script.IsQuiet (comment ++ rest) none front)
    (hcomment : IsComment comment rest) (hquiet : Script.IsQuiet comment) (session : Session) :
    (session.executeScript (String.ofList (front ++ (comment ++ rest)))).1.catalog =
        (session.executeScript (String.ofList (front ++ ' ' :: rest))).1.catalog ∧
      (session.executeScript (String.ofList (front ++ (comment ++ rest)))).1.active =
        (session.executeScript (String.ofList (front ++ ' ' :: rest))).1.active ∧
      (withCodes (session.executeScript (String.ofList (front ++ (comment ++ rest)))).2 =
          withCodes (session.executeScript (String.ofList (front ++ ' ' :: rest))).2 ↔
        ¬(∀ c ∈ around front rest, Text.isBlank c = true) ∧
          ¬((∀ c ∈ Script.lastPiece front, Text.isBlank c = true) ∧
            Statement.leadsWithCommand (around front rest) = true ∧
            Statement.Unreadable (around front rest))) := by
  obtain ⟨before, behind, hcommented, hspaced⟩ := houtside.exists_pieces hcomment hquiet
  obtain ⟨log, hstate, hcodes⟩ := executeAll_piece (houtside.readsAlike_comment hcomment)
    (session.executeAll (before.map String.ofList)).1
  have hscript (text : List Char) :
      session.executeScript (String.ofList text) =
        session.executeAll ((Script.pieces text).map String.ofList) := by
    rw [executeScript, Script.statements, String.toList_ofList]
  have hreplaced := executeAll_replace hstate (behind.map String.ofList)
  rw [hscript, hscript, hcommented, hspaced]
  simp only [List.map_append]
  refine ⟨hreplaced.1, hreplaced.2.1, hreplaced.2.2.trans (hcodes.trans ?_)⟩
  rw [Statement.leadsWithCommand_comment_iff hcomment.opensComment]
  refine and_congr_right fun _ => ⟨?_, ?_⟩
  · rintro hreadable ⟨hblanks, hleads, hunreadable⟩
    exact hreadable hunreadable ⟨hblanks, hleads⟩
  · rintro hreadable hunreadable ⟨hblanks, hleads⟩
    exact hreadable ⟨hblanks, hleads, hunreadable⟩

theorem comment_replaced_noted :
    Script.Outside Script.IsQuiet "/* 'a;' */;SHOW DATABASES".toList none "USE d".toList ∧
      IsComment "/* 'a;' */".toList ";SHOW DATABASES".toList ∧
      Script.IsQuiet "/* 'a;' */".toList ∧
      withCodes ((fresh .standard).executeScript "USE d/* 'a;' */;SHOW DATABASES").2 =
        withCodes ((fresh .standard).executeScript "USE d ;SHOW DATABASES").2 := by
  have houtside : Script.Outside Script.IsQuiet "/* 'a;' */;SHOW DATABASES".toList none
      "USE d".toList := Script.outside_of_opensNothing (by decide) _
  have hbody : ¬['*', '/'] <:+: " 'a;' ".toList := by decide +kernel
  have hcomment : IsComment "/* 'a;' */".toList ";SHOW DATABASES".toList := .block hbody
  have hquiet : Script.IsQuiet "/* 'a;' */".toList := by decide
  obtain ⟨-, -, hcodes⟩ := comment_replaced_iff houtside hcomment hquiet (fresh .standard)
  refine ⟨houtside, hcomment, hquiet, hcodes.2 ⟨fun hall => ?_, fun hboth => ?_⟩⟩
  · cases hall 'U' (by decide)
  · cases hboth.1 'U' (by decide)

/-- A terminator and a quote in a comment are seen by the scan that cuts a script, and a comment behind
    the last terminator is a statement of its own. -/
theorem comments_not_transparent :
    (IsComment "-- one; two".toList [] ∧
      Script.Outside (fun _ => True) "-- one; two".toList none "SHOW DATABASES ".toList ∧
      ((fresh .standard).executeScript "SHOW DATABASES -- one; two").2.length = 2 ∧
      ((fresh .standard).executeScript "SHOW DATABASES  ").2.length = 1) ∧
    (IsComment "-- it's".toList "\nSHOW DATABASES; SHOW DATABASES".toList ∧
      Script.Outside (fun _ => True) "-- it's\nSHOW DATABASES; SHOW DATABASES".toList none
        "SHOW DATABASES; ".toList ∧
      ((fresh .standard).executeScript
        "SHOW DATABASES; -- it's\nSHOW DATABASES; SHOW DATABASES").2.length = 2 ∧
      ((fresh .standard).executeScript
        "SHOW DATABASES;  \nSHOW DATABASES; SHOW DATABASES").2.length = 3) ∧
    (IsComment "-- done".toList [] ∧
      Script.Outside (fun _ => True) "-- done".toList none "SHOW DATABASES; ".toList ∧
      ((fresh .standard).executeScript "SHOW DATABASES; -- done").2.length = 2 ∧
      ((fresh .standard).executeScript "SHOW DATABASES;  ").2.length = 1) := by
  have hnewLine : ∀ c ∈ "\nSHOW DATABASES; SHOW DATABASES".toList.head?, c = '\n' :=
    fun c hc => (Option.some.inj hc).symm
  refine ⟨⟨.line (by decide) nofun, Script.outside_of_opensNothing (by decide) _, ?_, ?_⟩,
    ⟨.line (by decide) hnewLine, Script.outside_of_opensNothing (by decide) _, ?_, ?_⟩,
    ⟨.line (by decide) nofun, Script.outside_of_opensNothing (by decide) _, ?_, ?_⟩⟩
  all_goals decide +kernel

end Session

end TableEngine
