import TableEngine.Proofs.Cutting
import TableEngine.Shell

/-!
Lines gathered into scripts. A shell hands on what it has gathered as soon as a line ends with a
terminator, and does not look at quotes. The statements that are handed on are those of the whole text
exactly if no line ends with a terminator inside of quotes (`Shell.handedOn_eq_statements_iff`).
-/

namespace TableEngine

open Script

namespace Buffer

/-- A line that is neither blank, nor a command of the shell, nor a word that leaves it. -/
structure IsOrdinary (line : List Char) : Prop where
  visible : Text.trim line ≠ []
  notCommand : (Text.trim line).head? ≠ some '.'
  notLeaving : isLeaving (Text.trim line) = false

/-- The text that lines make up. -/
def unlines (lines : List (List Char)) : List Char :=
  lines.flatMap (· ++ ['\n'])

theorem enter_of_isOrdinary {line : List Char} (hline : IsOrdinary line) (gathered : List Char) :
    enter gathered line =
      if isComplete (gathered ++ line ++ ['\n']) then (.script (gathered ++ line ++ ['\n']), [])
      else (.nothing, gathered ++ line ++ ['\n']) := by
  obtain ⟨hvisible, hcommand, hleaving⟩ := hline
  unfold enter
  simp [hvisible, hcommand, hleaving]

theorem exists_blanks_of_dropWhile {text rest : List Char} {c : Char}
    (hdrop : text.reverse.dropWhile Text.isBlank = c :: rest) :
    ∃ blanks, (∀ c ∈ blanks, Text.isBlank c = true) ∧ text = rest.reverse ++ c :: blanks := by
  obtain ⟨blanks, hblanks, htext⟩ := Text.exists_trimEnd_append text
  refine ⟨blanks, hblanks, ?_⟩
  rw [Text.trimEnd, hdrop] at htext
  simpa using htext

theorem isComplete_eq {text rest : List Char} {c : Char}
    (hdrop : text.reverse.dropWhile Text.isBlank = c :: rest) :
    isComplete text = (c == ';' || (c == 'g' && rest.head? == some '\\')) := by
  rw [isComplete, hdrop]
  split
  · next heq =>
    cases heq
    rfl
  · next heq =>
    cases heq
    rfl
  · next hsemicolon hsign =>
    have hc : c ≠ ';' := fun heq => hsemicolon rest (by rw [heq])
    have hg : c = 'g' → rest.head? ≠ some '\\' := by
      rintro rfl hhead
      obtain ⟨behind, rfl⟩ := List.head?_eq_some_iff.1 hhead
      exact hsign behind rfl
    simpa [hc] using hg

/-- Whether a text is complete is decided by what stands behind its last line. -/
theorem isComplete_append {front back : List Char} (hapart : Apart front back)
    (hback : Text.trim back ≠ []) : isComplete (front ++ back) = isComplete back := by
  obtain ⟨c, rest, hdrop⟩ := List.exists_cons_of_ne_nil
    (by simpa [Text.trim_eq_nil_iff] using hback : back.reverse.dropWhile Text.isBlank ≠ [])
  have hwhole : (front ++ back).reverse.dropWhile Text.isBlank = c :: (rest ++ front.reverse) := by
    rw [List.reverse_append, List.dropWhile_append, hdrop]
    rfl
  rw [isComplete_eq hwhole, isComplete_eq hdrop]
  cases rest with
  | cons d rest => rfl
  | nil =>
    -- The text behind starts with its only visible character.
    obtain ⟨blanks, -, rfl⟩ := exists_blanks_of_dropWhile hdrop
    rw [List.nil_append, List.head?_reverse]
    cases hg : c == 'g' with
    | false => rfl
    | true =>
      have hlast : front.getLast? ≠ some '\\' := by
        intro hlast
        exact hapart hlast (by simpa using hg)
      rw [beq_eq_false_iff_ne.2 hlast]
      rfl

theorem exists_of_isComplete {text : List Char} (hcomplete : isComplete text = true) :
    ∃ front sign blanks, text = front ++ (sign ++ blanks) ∧ (sign = [';'] ∨ sign = ['\\', 'g']) ∧
      ∀ c ∈ blanks, Text.isBlank c = true := by
  cases hdrop : text.reverse.dropWhile Text.isBlank with
  | nil =>
    rw [isComplete, hdrop] at hcomplete
    cases hcomplete
  | cons c rest =>
    obtain ⟨blanks, hblanks, htext⟩ := exists_blanks_of_dropWhile hdrop
    rw [isComplete_eq hdrop, Bool.or_eq_true, Bool.and_eq_true, beq_iff_eq, beq_iff_eq,
      beq_iff_eq] at hcomplete
    rcases hcomplete with rfl | ⟨rfl, hhead⟩
    · exact ⟨rest.reverse, [';'], blanks, htext, .inl rfl, hblanks⟩
    · obtain ⟨behind, rfl⟩ := List.head?_eq_some_iff.1 hhead
      exact ⟨behind.reverse, ['\\', 'g'], blanks, by simpa using htext, .inr rfl, hblanks⟩

end Buffer

namespace Script

theorem isQuote_of_quoteAfter {quote : Option Char} {c : Char} (hquote : ∀ q ∈ quote, isQuote q = true) :
    ∀ q ∈ quoteAfter quote c, isQuote q = true := by
  intro q hq
  unfold quoteAfter at hq
  split at hq
  · split at hq
    · cases hq
    · exact hquote q hq
  · split at hq
    · next hc =>
      obtain rfl := Option.some.inj hq
      exact hc
    · cases hq

theorem isQuote_of_quoteBehind {quote : Option Char} (hquote : ∀ q ∈ quote, isQuote q = true)
    (text : List Char) : ∀ q ∈ quoteBehind quote text, isQuote q = true := by
  induction text generalizing quote with
  | nil => exact hquote
  | cons c text ih => exact ih (isQuote_of_quoteAfter hquote)

theorem quoteBehind_of_not_isQuote {quote : Option Char} (hquote : ∀ q ∈ quote, isQuote q = true)
    {text : List Char} (htext : ∀ c ∈ text, isQuote c = false) : quoteBehind quote text = quote := by
  induction text with
  | nil => rfl
  | cons c text ih =>
    rw [List.forall_mem_cons] at htext
    have hsame : quoteAfter quote c = quote := by
      cases quote with
      | none => exact quoteAfter_of_not_isQuote htext.1
      | some q =>
        apply if_neg
        rintro rfl
        rw [hquote c rfl] at htext
        cases htext.1
    change quoteBehind (quoteAfter quote c) text = quote
    rw [hsame, ih htext.2]

theorem quoteBehind_blanks {quote : Option Char} (hquote : ∀ q ∈ quote, isQuote q = true)
    {blanks : List Char} (hblanks : ∀ c ∈ blanks, Text.isBlank c = true) :
    quoteBehind quote blanks = quote :=
  quoteBehind_of_not_isQuote hquote fun c hc => isQuote_of_isBlank (hblanks c hc)

/-- A complete text that leaves no quote open ends with a terminator outside of quotes. -/
theorem isEnded_of_isComplete {text : List Char} (hcomplete : Buffer.isComplete text = true)
    (hclosed : quoteBehind none text = none) : IsEnded text := by
  obtain ⟨front, sign, blanks, rfl, hsign, hblanks⟩ := Buffer.exists_of_isComplete hcomplete
  have hfront : quoteBehind none front = none := by
    have hplain : ∀ c ∈ sign ++ blanks, isQuote c = false := by
      rw [List.forall_mem_append]
      refine ⟨?_, fun c hc => isQuote_of_isBlank (hblanks c hc)⟩
      rcases hsign with rfl | rfl
      all_goals simp [isQuote]
    rwa [quoteBehind_append, quoteBehind_of_not_isQuote (isQuote_of_quoteBehind (by simp) front)
      hplain] at hclosed
  have hback : cut none (sign ++ blanks) = [[], blanks] := by
    have hcut := cut_of_seamless (seamless_blanks hblanks)
    rcases hsign with rfl | rfl
    all_goals exact congrArg ([] :: ·) hcut
  have hapart : Apart front (sign ++ blanks) := by
    intro _
    rcases hsign with rfl | rfl
    all_goals simp
  obtain ⟨complete, hcut⟩ := exists_cut_eq_concat front
  refine ⟨hclosed, complete ++ [lastPiece front], blanks, ?_, hblanks⟩
  rw [cut_append hapart, hfront, hback, hcut, glue_concat]
  simp

/-- A first piece is the whole text, or it leaves no quote open. -/
theorem closed_of_first_piece {quote : Option Char} {text first : List Char}
    {others : List (List Char)} (hcut : cut quote text = first :: others) :
    others = [] ∧ first = text ∨ others ≠ [] ∧ quoteBehind quote first = none := by
  fun_induction cut quote text generalizing first others with
  | case1 =>
    cases hcut
    exact .inl ⟨rfl, rfl⟩
  | case2 rest =>
    cases hcut
    exact .inr ⟨cut_ne_nil none rest, rfl⟩
  | case3 rest =>
    cases hcut
    exact .inr ⟨cut_ne_nil none rest, rfl⟩
  | case4 quote c rest hsemicolon hsign ih =>
    obtain ⟨piece, pieces, hrest⟩ := List.exists_cons_of_ne_nil (cut_ne_nil (quoteAfter quote c) rest)
    rw [hrest] at hcut
    cases hcut
    rcases ih hrest with ⟨hnil, rfl⟩ | hclosed
    · exact .inl ⟨hnil, rfl⟩
    · exact .inr hclosed

/-- A last piece leaves open what the whole text leaves open. -/
theorem quoteBehind_last_piece {quote : Option Char} {text last : List Char}
    {complete : List (List Char)} (hcut : cut quote text = complete ++ [last]) :
    complete = [] ∧ last = text ∨ complete ≠ [] ∧ quoteBehind none last = quoteBehind quote text := by
  fun_induction cut quote text generalizing last complete with
  | case1 =>
    cases complete with
    | nil =>
      cases hcut
      exact .inl ⟨rfl, rfl⟩
    | cons piece complete => simp at hcut
  | case2 rest ih | case3 rest ih =>
    cases complete with
    | nil => exact absurd (List.cons.inj hcut).2 (cut_ne_nil none rest)
    | cons piece complete =>
      refine .inr ⟨List.cons_ne_nil _ _, ?_⟩
      rcases ih (List.cons.inj hcut).2 with ⟨-, rfl⟩ | ⟨-, hlast⟩
      · rfl
      · exact hlast
  | case4 quote c rest hsemicolon hsign ih =>
    obtain ⟨piece, pieces, hrest⟩ := List.exists_cons_of_ne_nil (cut_ne_nil (quoteAfter quote c) rest)
    rw [hrest] at hcut ih
    cases complete with
    | nil =>
      obtain ⟨rfl, rfl⟩ := List.cons.inj hcut
      have hpiece : [piece] = [] ++ [piece] := rfl
      rcases ih hpiece with ⟨-, rfl⟩ | ⟨hne, -⟩
      · exact .inl ⟨rfl, rfl⟩
      · exact absurd rfl hne
    | cons first complete =>
      obtain ⟨-, rfl⟩ := List.cons.inj hcut
      refine .inr ⟨List.cons_ne_nil _ _, ?_⟩
      have hpieces : piece :: (complete ++ [last]) = (piece :: complete) ++ [last] := rfl
      rcases ih hpieces with ⟨hnil, -⟩ | ⟨-, hlast⟩
      · cases hnil
      · exact hlast

theorem quoteBehind_trim (text : List Char) :
    quoteBehind none (Text.trim text) = quoteBehind none text := by
  obtain ⟨front, back, hfront, hback, htext⟩ := Text.exists_trim_append text
  have hquote := isQuote_of_quoteBehind (show ∀ q ∈ none, isQuote q = true by simp) (Text.trim text)
  have hwhole : quoteBehind none text = quoteBehind none (front ++ (Text.trim text ++ back)) :=
    congrArg _ htext
  rw [hwhole, quoteBehind_append, quoteBehind_blanks (by simp) hfront, quoteBehind_append,
    quoteBehind_blanks hquote hback]

/-- If a quote is open behind a text, its pieces are not the first pieces of the text that goes on and
    closes the quote: the last of them breaks off inside of the quotes. -/
theorem not_pieces_prefix {front rest : List Char} {q : Char} (hopen : quoteBehind none front = some q)
    (hclosed : quoteBehind (some q) rest = none) (hapart : Apart front rest) :
    ¬pieces front <+: pieces (front ++ rest) := by
  obtain ⟨complete, hfront⟩ := exists_cut_eq_concat front
  generalize lastPiece front = last at hfront
  obtain ⟨first, others, hrest⟩ := List.exists_cons_of_ne_nil (cut_ne_nil (some q) rest)
  have hlast : quoteBehind none last = some q := by
    rcases quoteBehind_last_piece hfront with ⟨-, rfl⟩ | ⟨-, hlast⟩
    · exact hopen
    · rw [hlast, hopen]
  have hjoined : quoteBehind none (last ++ first) = none := by
    rw [quoteBehind_append, hlast]
    rcases closed_of_first_piece hrest with ⟨-, rfl⟩ | ⟨-, hfirst⟩
    · exact hclosed
    · exact hfirst
  have hwhole : cut none (front ++ rest) = complete ++ (last ++ first) :: others := by
    rw [cut_append hapart, hopen, hfront, hrest, glue_concat]
  have hdiffer : Text.trim last ≠ Text.trim (last ++ first) := by
    intro hsame
    rw [← quoteBehind_trim, ← hsame, quoteBehind_trim, hlast] at hjoined
    cases hjoined
  have hvisible : Text.trim last ≠ [] := by
    intro hnil
    rw [← quoteBehind_trim, hnil] at hlast
    cases hlast
  have hjoinedVisible : Text.trim (last ++ first) ≠ [] := by
    intro hnil
    rw [Text.trim_eq_nil_iff, List.forall_mem_append] at hnil
    exact hvisible (Text.trim_eq_nil_iff.2 hnil.1)
  intro hstarts
  rw [pieces, pieces, hfront, hwhole] at hstarts
  exact hdiffer (by simpa [hvisible, hjoinedVisible, List.prefix_append_right_inj] using hstarts)

theorem not_statements_prefix {front rest : List Char} {q : Char}
    (hopen : quoteBehind none front = some q) (hclosed : quoteBehind (some q) rest = none)
    (hapart : Apart front rest) :
    ¬statements (String.ofList front) <+: statements (String.ofList (front ++ rest)) := by
  intro hstarts
  have hpieces := hstarts.map String.toList
  simp only [statements, String.toList_ofList, List.map_map, Function.comp_def, List.map_id'] at hpieces
  exact not_pieces_prefix hopen hclosed hapart hpieces

theorem statements_append {front rest : List Char} (hfront : IsEnded front)
    (hapart : Apart front rest) :
    statements (String.ofList (front ++ rest)) =
      statements (String.ofList front) ++ statements (String.ofList rest) := by
  simp [statements, pieces_append hfront hapart]

/-- The statements of a complete text come in front of those of the text that goes on exactly if it
    leaves no quote open. -/
theorem statements_append_iff {front rest : List Char} (hcomplete : Buffer.isComplete front = true)
    (hclosed : quoteBehind none (front ++ rest) = none) (hapart : Apart front rest)
    (others : List String) :
    statements (String.ofList front) ++ others = statements (String.ofList (front ++ rest)) ↔
      quoteBehind none front = none ∧ others = statements (String.ofList rest) := by
  cases hopen : quoteBehind none front with
  | none =>
    rw [statements_append (isEnded_of_isComplete hcomplete hopen) hapart, List.append_cancel_left_eq]
    simp
  | some q =>
    rw [quoteBehind_append, hopen] at hclosed
    refine iff_of_false (fun hsame => ?_) nofun
    exact not_statements_prefix hopen hclosed hapart ⟨others, hsame⟩

end Script

namespace Buffer

/-- No line that ends with a terminator ends inside of quotes, when `quote` is open in front of the
    lines. -/
def ClosesQuotes (quote : Option Char) (lines : List (List Char)) : Prop :=
  ∀ front line, front ++ [line] <+: lines → isComplete line = true →
    quoteBehind quote (unlines (front ++ [line])) = none

theorem closesQuotes_nil (quote : Option Char) : ClosesQuotes quote [] := by
  intro front line hstarts
  simp at hstarts

theorem unlines_cons (line : List Char) (lines : List (List Char)) :
    unlines (line :: lines) = line ++ ['\n'] ++ unlines lines :=
  List.flatMap_cons

theorem closesQuotes_cons_iff {quote : Option Char} {line : List Char} {lines : List (List Char)} :
    ClosesQuotes quote (line :: lines) ↔
      (isComplete line = true → quoteBehind quote (line ++ ['\n']) = none) ∧
        ClosesQuotes (quoteBehind quote (line ++ ['\n'])) lines := by
  have hunlines (front : List (List Char)) :
      quoteBehind quote (unlines (line :: front)) =
        quoteBehind (quoteBehind quote (line ++ ['\n'])) (unlines front) := by
    rw [unlines_cons, quoteBehind_append]
  constructor
  · intro hcloses
    refine ⟨fun hcomplete => ?_, fun front other hstarts hcomplete => ?_⟩
    · have hclosed := hcloses [] line (List.prefix_append [line] lines) hcomplete
      rwa [List.nil_append, hunlines] at hclosed
    · rw [← hunlines]
      exact hcloses (line :: front) other ((List.prefix_cons_inj line).2 hstarts) hcomplete
  · rintro ⟨hline, hlines⟩ front other hstarts hcomplete
    cases front with
    | nil =>
      obtain ⟨behind, heq⟩ := hstarts
      obtain ⟨rfl, -⟩ := List.cons.inj heq
      rw [List.nil_append, hunlines]
      exact hline hcomplete
    | cons first front =>
      obtain ⟨behind, heq⟩ := hstarts
      obtain ⟨rfl, hbehind⟩ := List.cons.inj heq
      rw [List.cons_append, hunlines]
      exact hlines front other ⟨behind, hbehind⟩ hcomplete

/-- The statements in what lines complete. -/
def Entry.statements : Entry → List String
  | .script text => Script.statements (String.ofList text)
  | _ => []

/-- The statements that are handed on while lines are gathered. -/
def handedOn (gathered : List Char) (lines : List (List Char)) : List String :=
  (entries gathered lines).flatMap Entry.statements

theorem handedOn_cons {line : List Char} (hline : IsOrdinary line) (gathered : List Char)
    (lines : List (List Char)) :
    handedOn gathered (line :: lines) =
      if isComplete (gathered ++ line ++ ['\n']) then
        Script.statements (String.ofList (gathered ++ line ++ ['\n'])) ++ handedOn [] lines
      else handedOn (gathered ++ line ++ ['\n']) lines := by
  rw [handedOn, entries, enter_of_isOrdinary hline]
  by_cases hcomplete : isComplete (gathered ++ line ++ ['\n']) = true
  · rw [if_pos hcomplete, if_pos hcomplete]
    rfl
  · rw [if_neg hcomplete, if_neg hcomplete]
    rfl

theorem isComplete_newLine (line : List Char) : isComplete (line ++ ['\n']) = isComplete line := by
  rw [isComplete, isComplete, List.reverse_append]
  rfl

/-- The lines that have been gathered do not end in the middle of a terminator. -/
theorem apart_newLine (front rest : List Char) : Apart (front ++ ['\n']) rest := by
  intro hlast
  rw [List.getLast?_concat] at hlast
  cases hlast

theorem trim_unlines_ne_nil {line : List Char} (hline : IsOrdinary line) (lines : List (List Char)) :
    Text.trim (unlines (line :: lines)) ≠ [] := by
  intro hnil
  rw [Text.trim_eq_nil_iff, unlines_cons, List.forall_mem_append, List.forall_mem_append] at hnil
  exact hline.visible (Text.trim_eq_nil_iff.2 hnil.1.1)

theorem isComplete_unlines {front : List Char} (hapart : ∀ rest, Apart front rest)
    {lines : List (List Char)} (hlines : ∀ line ∈ lines, IsOrdinary line)
    (hended : front ++ unlines lines = [] ∨ isComplete (front ++ unlines lines) = true) :
    unlines lines = [] ∨ isComplete (unlines lines) = true := by
  cases lines with
  | nil => exact .inl rfl
  | cons line lines =>
    rw [List.forall_mem_cons] at hlines
    have hvisible := trim_unlines_ne_nil hlines.1 lines
    rw [isComplete_append (hapart _) hvisible] at hended
    exact hended.imp_left fun hnil => (List.append_eq_nil_iff.1 hnil).2

/-- What is handed on are the statements of the whole text exactly if nothing is handed on inside of
    quotes. -/
theorem handedOn_eq_iff {lines : List (List Char)} (hlines : ∀ line ∈ lines, IsOrdinary line)
    {gathered : List Char} (hgathered : isComplete gathered = false)
    (happart : ∀ rest, Apart gathered rest)
    (hclosed : quoteBehind none (gathered ++ unlines lines) = none)
    (hended : gathered ++ unlines lines = [] ∨ isComplete (gathered ++ unlines lines) = true) :
    handedOn gathered lines = Script.statements (String.ofList (gathered ++ unlines lines)) ↔
      ClosesQuotes (quoteBehind none gathered) lines := by
  induction lines generalizing gathered with
  | nil =>
    have hnil : gathered = [] := by
      rw [unlines, List.flatMap_nil, List.append_nil, hgathered] at hended
      exact hended.resolve_right Bool.false_ne_true
    subst hnil
    exact iff_of_true rfl (closesQuotes_nil _)
  | cons line lines ih =>
    rw [List.forall_mem_cons] at hlines
    have hline : isComplete (gathered ++ line ++ ['\n']) = isComplete line := by
      rw [isComplete_newLine, isComplete_append (happart line) hlines.1.visible]
    have hwhole : gathered ++ unlines (line :: lines) =
        gathered ++ line ++ ['\n'] ++ unlines lines := by
      rw [unlines_cons, ← List.append_assoc, ← List.append_assoc]
    have hquote : quoteBehind (quoteBehind none gathered) (line ++ ['\n']) =
        quoteBehind none (gathered ++ line ++ ['\n']) := by
      rw [← quoteBehind_append, List.append_assoc]
    rw [hwhole] at hclosed hended ⊢
    have happartText := apart_newLine (gathered ++ line)
    rw [closesQuotes_cons_iff, hquote, handedOn_cons hlines.1, ← hline]
    generalize hbuffer : gathered ++ line ++ ['\n'] = text at *
    by_cases hcomplete : isComplete text = true
    · rw [if_pos hcomplete, Script.statements_append_iff hcomplete hclosed (happartText _),
        imp_iff_right hcomplete]
      refine and_congr_right fun hopen => ?_
      rw [quoteBehind_append, hopen] at hclosed
      rw [hopen]
      exact ih hlines.2 rfl nofun hclosed (isComplete_unlines happartText hlines.2 hended)
    · rw [if_neg hcomplete, ih hlines.2 (by simpa using hcomplete) happartText hclosed hended]
      simp [hcomplete]

end Buffer

namespace Shell

open Buffer

/-- The statements that are handed on are executed one after the other, and their results are shown. -/
theorem feedAll_eq {lines : List (List Char)} (hlines : ∀ line ∈ lines, IsOrdinary line)
    (session : Session) (gathered : List Char) :
    feedAll ⟨session, gathered⟩ lines =
      (session.executeAll (handedOn gathered lines)).2.map resultEffect := by
  induction lines generalizing session gathered with
  | nil => rfl
  | cons line lines ih =>
    rw [List.forall_mem_cons] at hlines
    rw [handedOn_cons hlines.1, feedAll, feed]
    simp only
    rw [enter_of_isOrdinary hlines.1]
    by_cases hcomplete : isComplete (gathered ++ line ++ ['\n']) = true
    · rw [if_pos hcomplete, if_pos hcomplete, Session.executeAll_append, List.map_append]
      exact congrArg (List.map resultEffect _ ++ ·) (ih hlines.2 _ [])
    · rw [if_neg hcomplete, if_neg hcomplete]
      exact ih hlines.2 session _

/-- Lines that are none of the shell's own, and that make up a text with all quotes closed and a
    terminator at its end, lead to the execution of statements. They are the statements of that text
    exactly if no line that ends with a terminator ends inside of quotes. -/
theorem handedOn_eq_statements_iff {lines : List (List Char)}
    (hlines : ∀ line ∈ lines, IsOrdinary line) (hclosed : quoteBehind none (unlines lines) = none)
    (hcomplete : isComplete (unlines lines) = true) :
    (∀ session, feedAll ⟨session, []⟩ lines =
      (session.executeAll (handedOn [] lines)).2.map resultEffect) ∧
    (handedOn [] lines = Script.statements (String.ofList (unlines lines)) ↔
      ClosesQuotes none lines) :=
  ⟨fun session => feedAll_eq hlines session [],
    Buffer.handedOn_eq_iff hlines rfl nofun hclosed (.inr hcomplete)⟩

theorem handedOn_eq_statements_quoted :
    (∀ line ∈ ["USE 'a;b'".toList, "; SHOW".toList, " TABLES\\g".toList], IsOrdinary line) ∧
      quoteBehind none (unlines ["USE 'a;b'".toList, "; SHOW".toList, " TABLES\\g".toList]) = none ∧
      isComplete (unlines ["USE 'a;b'".toList, "; SHOW".toList, " TABLES\\g".toList]) = true ∧
      handedOn [] ["USE 'a;b'".toList, "; SHOW".toList, " TABLES\\g".toList] =
        ["USE 'a;b'", "SHOW\n TABLES"] := by
  have hlines : ∀ line ∈ ["USE 'a;b'".toList, "; SHOW".toList, " TABLES\\g".toList],
      IsOrdinary line := by
    simp only [List.forall_mem_cons]
    exact ⟨⟨by decide, by decide, by decide⟩, ⟨by decide, by decide, by decide⟩,
      ⟨by decide, by decide, by decide⟩, nofun⟩
  have hclosed : quoteBehind none
      (unlines ["USE 'a;b'".toList, "; SHOW".toList, " TABLES\\g".toList]) = none := by decide
  have hcomplete :
      isComplete (unlines ["USE 'a;b'".toList, "; SHOW".toList, " TABLES\\g".toList]) = true := by
    decide
  have hcloses : ClosesQuotes none ["USE 'a;b'".toList, "; SHOW".toList, " TABLES\\g".toList] := by
    simp only [closesQuotes_cons_iff]
    exact ⟨by decide, by decide, by decide, closesQuotes_nil _⟩
  obtain ⟨-, hstatements⟩ := handedOn_eq_statements_iff hlines hclosed hcomplete
  refine ⟨hlines, hclosed, hcomplete, (hstatements.2 hcloses).trans ?_⟩
  decide

/-- A line that ends with a semicolon inside of quotes breaks off the statement there. -/
theorem handedOn_ne_statements :
    (∀ line ∈ ["INSERT INTO t VALUES ('x;".toList, "y');".toList], IsOrdinary line) ∧
      quoteBehind none (unlines ["INSERT INTO t VALUES ('x;".toList, "y');".toList]) = none ∧
      isComplete (unlines ["INSERT INTO t VALUES ('x;".toList, "y');".toList]) = true ∧
      handedOn [] ["INSERT INTO t VALUES ('x;".toList, "y');".toList] =
        ["INSERT INTO t VALUES ('x;", "y');"] ∧
      Script.statements (String.ofList (unlines ["INSERT INTO t VALUES ('x;".toList, "y');".toList])) =
        ["INSERT INTO t VALUES ('x;\ny')"] := by
  refine ⟨?_, by decide, by decide, by decide, by decide⟩
  rw [List.forall_mem_cons, List.forall_mem_singleton]
  exact ⟨⟨by decide, by decide, by decide⟩, ⟨by decide, by decide, by decide⟩⟩

end Shell

end TableEngine
