import TableEngine.Proofs.Gathering

/-!
Splitting loses nothing. A script is the pieces that it is split into, with blanks and terminators before,
between and behind them (`Script.LaidOut`), and every text in which pieces are laid out like this is split
into them (`Script.pieces_of_laidOut`). So nothing changes when pieces are joined and split again.
-/

namespace TableEngine

namespace Text

theorem not_isBlank_head?_trim (text : List Char) : ∀ c ∈ (trim text).head?, isBlank c = false := by
  intro c hc
  obtain ⟨blanks, -, htext⟩ := exists_trimEnd_append (trimStart text)
  obtain ⟨rest, hrest⟩ := List.head?_eq_some_iff.1 hc
  have hstart : trimStart text = c :: (rest ++ blanks) := htext.trans (congrArg (· ++ blanks) hrest)
  apply stop_of_dropWhile isBlank text
  rw [← trimStart, hstart]
  rfl

theorem not_isBlank_getLast?_trim (text : List Char) :
    ∀ c ∈ (trim text).getLast?, isBlank c = false := by
  rw [trim, trimEnd, List.getLast?_reverse]
  exact stop_of_dropWhile isBlank _

theorem trim_append_blanks {text blanks : List Char} (hne : text ≠ [])
    (hfirst : ∀ c ∈ text.head?, isBlank c = false) (hlast : ∀ c ∈ text.getLast?, isBlank c = false)
    (hblanks : ∀ c ∈ blanks, isBlank c = true) : trim (text ++ blanks) = text := by
  have hstart : trimStart (text ++ blanks) = text ++ blanks := by
    obtain ⟨c, rest, rfl⟩ := List.exists_cons_of_ne_nil hne
    exact dropWhile_isBlank_of_head? hfirst
  rw [trim, hstart, trimEnd, List.reverse_append, List.dropWhile_append_of_pos (by simpa using hblanks),
    dropWhile_isBlank_of_head? (by rwa [List.head?_reverse]), List.reverse_reverse]

end Text

namespace Script

/-- The signs that end a statement. -/
def IsTerminator (sign : List Char) : Prop :=
  sign = [';'] ∨ sign = ['\\', 'g']

/-- A terminator stands in a text, outside of quotes. -/
def HasTerminator (text : List Char) : Prop :=
  ∃ front sign back, IsTerminator sign ∧ text = front ++ (sign ++ back) ∧ quoteBehind none front = none

/-- What a script is split into. -/
structure IsPiece (piece : List Char) : Prop where
  ne_nil : piece ≠ []
  starts_visible : ∀ c ∈ piece.head?, Text.isBlank c = false
  ends_visible : ∀ c ∈ piece.getLast?, Text.isBlank c = false
  whole : ¬HasTerminator piece

/-- Blanks and a number of terminators, of which there are none if a quote is open. -/
inductive Filler (quote : Option Char) : Nat → List Char → Prop
  | nil : Filler quote 0 []
  | blank {count : Nat} {c : Char} {rest : List Char} (hblank : Text.isBlank c = true)
      (hrest : Filler quote count rest) : Filler quote count (c :: rest)
  | terminator {count : Nat} {sign rest : List Char} (hquote : quote = none)
      (hsign : IsTerminator sign) (hrest : Filler quote count rest) :
      Filler quote (count + 1) (sign ++ rest)

/-- The pieces follow on each other in a text, with a terminator at least between two of them. -/
inductive LaidOut : List (List Char) → List Char → Prop
  | nil : LaidOut [] []
  | last {count : Nat} {piece back : List Char}
      (hback : Filler (quoteBehind none piece) count back) : LaidOut [piece] (piece ++ back)
  | more {count : Nat} {piece next between rest : List Char} {others : List (List Char)}
      (hbetween : Filler (quoteBehind none piece) (count + 1) between)
      (hrest : LaidOut (next :: others) rest) :
      LaidOut (piece :: next :: others) (piece ++ (between ++ rest))

variable {quote : Option Char} {count : Nat} {text piece sign rest : List Char}

/-! Where a text is cut. -/

theorem IsTerminator.apart (hsign : IsTerminator sign) (front rest : List Char) :
    Apart front (sign ++ rest) := by
  intro _
  rcases hsign with rfl | rfl
  all_goals simp

theorem IsTerminator.cut_append (hsign : IsTerminator sign) (rest : List Char) :
    cut none (sign ++ rest) = [] :: cut none rest := by
  rcases hsign with rfl | rfl
  all_goals rfl

/-- A text is cut at its first terminator, if it is cut at all. -/
theorem cut_cases (quote : Option Char) (text : List Char) :
    cut quote text = [text] ∨ ∃ piece sign rest, text = piece ++ (sign ++ rest) ∧
      IsTerminator sign ∧ cut quote piece = [piece] ∧ quoteBehind quote piece = none := by
  fun_induction cut quote text with
  | case1 => exact .inl rfl
  | case2 rest => exact .inr ⟨[], [';'], rest, rfl, .inl rfl, rfl, rfl⟩
  | case3 rest => exact .inr ⟨[], ['\\', 'g'], rest, rfl, .inr rfl, rfl, rfl⟩
  | case4 quote c rest hsemicolon hsign ih =>
    rcases ih with hwhole | ⟨piece, sign, behind, rfl, hterminator, hpiece, hclosed⟩
    · rw [hwhole]
      exact .inl rfl
    · refine .inr ⟨c :: piece, sign, behind, rfl, hterminator, ?_, hclosed⟩
      rw [cut, hpiece]
      · rfl
      · exact hsemicolon
      · rintro others hquote hbackslash rfl
        exact hsign _ hquote hbackslash rfl

theorem cut_of_blanks {blanks : List Char} (hblanks : ∀ c ∈ blanks, Text.isBlank c = true)
    (quote : Option Char) : cut quote blanks = [blanks] := by
  rcases cut_cases quote blanks with hcut | ⟨piece, sign, rest, rfl, hsign, -, -⟩
  · exact hcut
  · rcases hsign with rfl | rfl
    all_goals
      have hblank := hblanks _ (List.mem_append_right _ List.mem_cons_self)
      cases hblank

theorem cut_of_terminator {front : List Char} (hsign : IsTerminator sign)
    (hclosed : quoteBehind none front = none) (rest : List Char) :
    cut none (front ++ (sign ++ rest)) = cut none front ++ cut none rest := by
  obtain ⟨complete, hfront⟩ := exists_cut_eq_concat front
  rw [cut_append (hsign.apart front rest), hclosed, hsign.cut_append, hfront, glue_concat]
  simp

/-- A text without a terminator outside of quotes is not cut. -/
theorem cut_eq_singleton_iff : cut none text = [text] ↔ ¬HasTerminator text := by
  constructor
  · rintro hcut ⟨front, sign, back, hsign, rfl, hclosed⟩
    have hlength := congrArg List.length hcut
    have hfront := List.length_pos_of_ne_nil (cut_ne_nil none front)
    have hback := List.length_pos_of_ne_nil (cut_ne_nil none back)
    rw [cut_of_terminator hsign hclosed, List.length_append, List.length_singleton] at hlength
    omega
  · intro hwhole
    rcases cut_cases none text with hcut | ⟨piece, sign, rest, htext, hsign, -, hclosed⟩
    · exact hcut
    · exact absurd ⟨piece, sign, rest, hsign, htext, hclosed⟩ hwhole

/-- What holds of texts that are not cut, and of a text if it holds of what stands in front of its first
    terminator and of what follows, holds of all texts. -/
theorem cut_induction {motive : List Char → Prop}
    (whole : ∀ text, cut none text = [text] → motive text)
    (more : ∀ piece sign rest, IsTerminator sign → cut none piece = [piece] →
      quoteBehind none piece = none → motive piece → motive rest →
      motive (piece ++ (sign ++ rest)))
    (text : List Char) : motive text := by
  induction hlength : text.length using Nat.strong_induction_on generalizing text with
  | _ length ih =>
    subst hlength
    rcases cut_cases none text with hcut | ⟨piece, sign, rest, rfl, hsign, hpiece, hclosed⟩
    · exact whole text hcut
    · refine more piece sign rest hsign hpiece hclosed (whole piece hpiece) (ih _ ?_ rest rfl)
      have hpositive : 0 < sign.length := by rcases hsign with rfl | rfl <;> decide
      simp only [List.length_append]
      omega

/-! The pieces of a text. -/

theorem pieces_of_terminator {front : List Char} (hsign : IsTerminator sign)
    (hclosed : quoteBehind none front = none) (rest : List Char) :
    pieces (front ++ (sign ++ rest)) = pieces front ++ pieces rest := by
  rw [pieces, cut_of_terminator hsign hclosed, List.map_append, List.filter_append, ← pieces, ← pieces]

theorem pieces_of_whole (hcut : cut none text = [text]) (hvisible : Text.trim text ≠ []) :
    pieces text = [Text.trim text] := by
  simp [pieces, hcut, hvisible]

theorem pieces_of_blanks (hblanks : ∀ c ∈ text, Text.isBlank c = true) : pieces text = [] := by
  have htrim := Text.trim_eq_nil_iff.2 hblanks
  simp [pieces, cut_of_blanks hblanks, htrim]

theorem HasTerminator.of_trim (htext : HasTerminator (Text.trim text)) : HasTerminator text := by
  obtain ⟨front, sign, back, hsign, htrim, hclosed⟩ := htext
  obtain ⟨blanks, behind, hblanks, -, heq⟩ := Text.exists_trim_append text
  refine ⟨blanks ++ front, sign, back ++ behind, hsign, by rw [heq, htrim]; simp, ?_⟩
  rw [quoteBehind_append, quoteBehind_blanks (by simp) hblanks, hclosed]

theorem isPiece_trim (hcut : cut none text = [text]) (hvisible : Text.trim text ≠ []) :
    IsPiece (Text.trim text) where
  ne_nil := hvisible
  starts_visible := Text.not_isBlank_head?_trim text
  ends_visible := Text.not_isBlank_getLast?_trim text
  whole htrim := cut_eq_singleton_iff.1 hcut htrim.of_trim

theorem isPiece_of_mem_pieces (text : List Char) : ∀ piece ∈ pieces text, IsPiece piece := by
  induction text using cut_induction with
  | whole text hcut =>
    by_cases hvisible : Text.trim text = []
    · rw [pieces_of_blanks (Text.trim_eq_nil_iff.1 hvisible)]
      exact List.forall_mem_nil _
    · rw [pieces_of_whole hcut hvisible, List.forall_mem_singleton]
      exact isPiece_trim hcut hvisible
  | more piece sign rest hsign _ hclosed hpiece hrest =>
    rw [pieces_of_terminator hsign hclosed, List.forall_mem_append]
    exact ⟨hpiece, hrest⟩

/-! A text is its pieces and what stands around them. -/

theorem filler_blanks (hblanks : ∀ c ∈ text, Text.isBlank c = true)
    (hrest : Filler quote count rest) : Filler quote count (text ++ rest) := by
  induction text with
  | nil => exact hrest
  | cons c text ih =>
    rw [List.forall_mem_cons] at hblanks
    exact .blank hblanks.1 (ih hblanks.2)

theorem filler_of_blanks (hblanks : ∀ c ∈ text, Text.isBlank c = true) : Filler quote 0 text := by
  rw [← List.append_nil text]
  exact filler_blanks hblanks .nil

theorem LaidOut.cons {between : List Char} {others : List (List Char)}
    (hbetween : Filler (quoteBehind none piece) (count + 1) between) (hrest : LaidOut others rest) :
    LaidOut (piece :: others) (piece ++ (between ++ rest)) := by
  cases others with
  | nil =>
    cases hrest
    rw [List.append_nil]
    exact .last hbetween
  | cons next others => exact .more hbetween hrest

theorem exists_laidOut (text : List Char) :
    ∃ count front rest, text = front ++ rest ∧ Filler none count front ∧
      LaidOut (pieces text) rest := by
  induction text using cut_induction with
  | whole text hcut =>
    by_cases hvisible : Text.trim text = []
    · have hblanks := Text.trim_eq_nil_iff.1 hvisible
      refine ⟨0, text, [], (List.append_nil text).symm, filler_of_blanks hblanks, ?_⟩
      rw [pieces_of_blanks hblanks]
      exact .nil
    · obtain ⟨front, back, hfront, hback, htext⟩ := Text.exists_trim_append text
      refine ⟨0, front, Text.trim text ++ back, htext, filler_of_blanks hfront, ?_⟩
      rw [pieces_of_whole hcut hvisible]
      exact .last (filler_of_blanks hback)
  | more piece sign rest hsign hcut hclosed _ hrest =>
    obtain ⟨count, front, behind, rfl, hfiller, hlaid⟩ := hrest
    rw [pieces_of_terminator hsign hclosed]
    by_cases hvisible : Text.trim piece = []
    · have hblanks := Text.trim_eq_nil_iff.1 hvisible
      refine ⟨count + 1, piece ++ (sign ++ front), behind, by simp, ?_, ?_⟩
      · exact filler_blanks hblanks (.terminator rfl hsign hfiller)
      · rwa [pieces_of_blanks hblanks]
    · obtain ⟨start, back, hstart, hback, htext⟩ := Text.exists_trim_append piece
      refine ⟨0, start, Text.trim piece ++ ((back ++ (sign ++ front)) ++ behind), ?_,
        filler_of_blanks hstart, ?_⟩
      · conv_lhs => rw [htext]
        simp
      · rw [pieces_of_whole hcut hvisible]
        have hbetween : Filler none (count + 1) (back ++ (sign ++ front)) :=
          filler_blanks hback (.terminator rfl hsign hfiller)
        rw [← hclosed, ← quoteBehind_trim] at hbetween
        exact .cons hbetween hlaid

/-! Texts in which pieces are laid out are split into these pieces. -/

theorem pieces_cons_of_isBlank {c : Char} (hblank : Text.isBlank c = true) (text : List Char) :
    pieces (c :: text) = pieces text := by
  obtain ⟨others, hcut⟩ := exists_cut_eq_cons text
  have hblanks : ∀ d ∈ [c], Text.isBlank d = true := by simpa using hblank
  have htrim := Text.trim_append_of_isBlank hblanks (firstPiece text)
  rw [pieces, pieces, cut_of_isPlain (isPlain_of_isBlank hblank), hcut, push, List.map_cons,
    List.map_cons, ← htrim]
  rfl

theorem Filler.pieces_append {front : List Char} (hfiller : Filler none count front)
    (rest : List Char) : pieces (front ++ rest) = pieces rest := by
  induction hfiller with
  | nil => rfl
  | blank hblank _ ih => rw [List.cons_append, pieces_cons_of_isBlank hblank, ih]
  | @terminator _ sign front _ hsign _ ih =>
    have hsplit : pieces ([] ++ (sign ++ (front ++ rest))) = pieces [] ++ pieces (front ++ rest) :=
      pieces_of_terminator hsign rfl (front ++ rest)
    rw [List.append_assoc]
    exact hsplit.trans ih

theorem Filler.isBlank (hfiller : Filler quote 0 text) : ∀ c ∈ text, Text.isBlank c = true := by
  generalize hcount : 0 = count at hfiller
  induction hfiller with
  | nil => exact List.forall_mem_nil _
  | blank hblank _ ih => exact List.forall_mem_cons.2 ⟨hblank, ih hcount⟩
  | terminator => cases hcount

/-- The first terminator stands behind blanks. -/
theorem Filler.exists_terminator (hfiller : Filler quote (count + 1) text) :
    quote = none ∧ ∃ blanks sign rest, text = blanks ++ (sign ++ rest) ∧
      (∀ c ∈ blanks, Text.isBlank c = true) ∧ IsTerminator sign ∧ Filler quote count rest := by
  generalize hcount : count + 1 = more at hfiller
  induction hfiller with
  | nil => cases hcount
  | blank hblank _ ih =>
    obtain ⟨hquote, blanks, sign, rest, rfl, hblanks, hsign, hrest⟩ := ih hcount
    exact ⟨hquote, _ :: blanks, sign, rest, rfl, List.forall_mem_cons.2 ⟨hblank, hblanks⟩, hsign,
      hrest⟩
  | terminator hquote hsign hrest =>
    obtain rfl := Nat.succ.inj hcount
    exact ⟨hquote, [], _, _, rfl, List.forall_mem_nil _, hsign, hrest⟩

/-- Blanks behind a piece do not belong to it, even if the piece leaves a quote open. -/
theorem IsPiece.pieces_blanks (hpiece : IsPiece piece) {blanks : List Char}
    (hblanks : ∀ c ∈ blanks, Text.isBlank c = true) : pieces (piece ++ blanks) = [piece] := by
  have hapart : Apart piece blanks := by
    intro _ hhead
    cases hblanks 'g' (List.mem_of_mem_head? hhead)
  have hcut : cut none (piece ++ blanks) = [piece ++ blanks] := by
    rw [cut_append hapart, cut_eq_singleton_iff.2 hpiece.whole, cut_of_blanks hblanks]
    exact foldr_push piece blanks []
  have htrim : Text.trim (piece ++ blanks) = piece :=
    Text.trim_append_blanks hpiece.ne_nil hpiece.starts_visible hpiece.ends_visible hblanks
  rw [pieces_of_whole hcut (by rw [htrim]; exact hpiece.ne_nil), htrim]

/-- What follows on a piece and a terminator is split as if it stood alone. -/
theorem IsPiece.pieces_append (hpiece : IsPiece piece) {between : List Char}
    (hbetween : Filler (quoteBehind none piece) (count + 1) between) (rest : List Char) :
    pieces (piece ++ (between ++ rest)) = piece :: pieces rest := by
  obtain ⟨hclosed, blanks, sign, behind, rfl, hblanks, hsign, hbehind⟩ := hbetween.exists_terminator
  rw [hclosed] at hbehind
  have hquote : quoteBehind none (piece ++ blanks) = none := by
    rw [quoteBehind_append, hclosed, quoteBehind_blanks (by simp) hblanks]
  have htext : piece ++ ((blanks ++ (sign ++ behind)) ++ rest) =
      (piece ++ blanks) ++ (sign ++ (behind ++ rest)) := by simp
  rw [htext, pieces_of_terminator hsign hquote, hpiece.pieces_blanks hblanks, hbehind.pieces_append]
  rfl

theorem pieces_of_laidOut {parts : List (List Char)} (hlaid : LaidOut parts text)
    (hparts : ∀ piece ∈ parts, IsPiece piece) : pieces text = parts := by
  induction hlaid with
  | nil => rfl
  | @last count piece back hback =>
    have hpiece := hparts piece List.mem_cons_self
    cases count with
    | zero => exact hpiece.pieces_blanks hback.isBlank
    | succ count =>
      have hsplit := hpiece.pieces_append hback []
      rwa [List.append_nil] at hsplit
  | more hbetween _ ih =>
    rw [List.forall_mem_cons] at hparts
    rw [hparts.1.pieces_append hbetween, ih hparts.2]

theorem LaidOut.closed {parts : List (List Char)} (hlaid : LaidOut parts text) :
    ∀ piece ∈ parts.dropLast, quoteBehind none piece = none := by
  induction hlaid with
  | nil | last => exact List.forall_mem_nil _
  | more hbetween _ ih => exact List.forall_mem_cons.2 ⟨hbetween.exists_terminator.1, ih⟩

theorem laidOut_intercalate {parts : List (List Char)}
    (hclosed : ∀ piece ∈ parts.dropLast, quoteBehind none piece = none) :
    LaidOut parts (List.intercalate [';'] parts) := by
  induction parts with
  | nil => exact .nil
  | cons piece others ih =>
    cases others with
    | nil =>
      have hlaid : LaidOut [piece] (piece ++ []) := .last .nil
      simpa [List.intercalate] using hlaid
    | cons next others =>
      rw [List.dropLast_cons_cons, List.forall_mem_cons] at hclosed
      have hsemicolon : Filler (quoteBehind none piece) (0 + 1) ([';'] ++ []) :=
        .terminator hclosed.1 (.inl rfl) .nil
      have hlaid := LaidOut.more hsemicolon (ih hclosed.2)
      simpa [List.intercalate] using hlaid

theorem pieces_intercalate (text : List Char) :
    pieces (List.intercalate [';'] (pieces text)) = pieces text := by
  obtain ⟨_, _, _, -, -, hlaid⟩ := exists_laidOut text
  exact pieces_of_laidOut (laidOut_intercalate hlaid.closed) (isPiece_of_mem_pieces text)

theorem map_toList_statements (script : String) :
    (statements script).map String.toList = pieces script.toList := by
  simp [statements, Function.comp_def]

/-- A script is split into pieces that cannot be split any further, and of which none but the last leaves
    a quote open. Nothing but blanks and terminators is lost, and the pieces stay the same when they are
    joined and split again. -/
theorem statements_lossless (script : String) :
    (∀ piece ∈ statements script, IsPiece piece.toList) ∧
      (∀ piece ∈ (statements script).dropLast, quoteBehind none piece.toList = none) ∧
      (∃ count front rest, script.toList = front ++ rest ∧ Filler none count front ∧
        LaidOut ((statements script).map String.toList) rest) ∧
      statements (String.intercalate ";" (statements script)) = statements script := by
  have hpieces := map_toList_statements script
  obtain ⟨count, front, rest, htext, hfront, hlaid⟩ := exists_laidOut script.toList
  rw [← hpieces] at hlaid
  refine ⟨?_, ?_, ⟨count, front, rest, htext, hfront, hlaid⟩, ?_⟩
  · intro piece hpiece
    exact isPiece_of_mem_pieces script.toList _ (hpieces ▸ List.mem_map_of_mem hpiece)
  · have hclosed := hlaid.closed
    rw [← List.map_dropLast, List.forall_mem_map] at hclosed
    exact hclosed
  · rw [statements, String.toList_intercalate, hpieces]
    change (pieces (List.intercalate [';'] (pieces script.toList))).map String.ofList = _
    rw [pieces_intercalate]
    rfl

/-- Terminators may follow on each other, and none of them counts behind a quote that is left open. -/
example : statements " one\\;\\g ; 'two' ;'three;\\g " = ["one\\", "'two'", "'three;\\g"] := by
  decide

end Script

end TableEngine
