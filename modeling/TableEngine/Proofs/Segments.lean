import TableEngine.Proofs.Blanks
import TableEngine.Proofs.Cutting

/-!
The pieces of a script and the tokens of the whole. A script is cut by a scan that knows nothing but
quotes, and read as tokens by a lexer that knows comments and doubled quotes too. Without comments, and
without the sign `\g` that is no token, both find the same ends of statements: every token but the
semicolon lies within a piece (`exists_first_piece`), so that the tokens of the pieces are the segments
between the semicolons of the whole (`ofText_statements_iff`).
-/

namespace TableEngine

open Lexer

namespace Script

theorem cut_quoted {quote : Char} (hquote : isQuote quote = true) {written body : List Char}
    (hread : readQuoted quote written = some (body, [])) (rest : List Char) :
    cut (some quote) (written ++ rest) = written.foldr push (cut none rest) := by
  fun_induction readQuoted quote written generalizing body with
  | case1 => cases hread
  | case2 => exact cut_closing quote rest
  | case3 => cases hread
  | case4 behind ih =>
    obtain ⟨⟨inner, left⟩, hinner, heq⟩ := Option.map_eq_some_iff.1 hread
    cases heq
    rw [List.cons_append, List.cons_append, cut_closing, cut_opening hquote, ih hinner]
    rfl
  | case5 => cases hread
  | case6 c d behind hc ih =>
    obtain ⟨⟨inner, left⟩, hinner, heq⟩ := Option.map_eq_some_iff.1 hread
    cases heq
    have hinside : quoteAfter (some quote) c = some quote := if_neg hc
    rw [List.cons_append, cut_some, hinside, ih hinner]
    rfl

/-- No cut goes through a token that is no semicolon. -/
theorem seamless_lexeme {token : Token} {lexeme : List Char} (hlexeme : IsLexeme token lexeme)
    (htoken : token ≠ .semicolon) : Seamless lexeme := by
  cases hlexeme with
  | sign hsign =>
    have hplain : ∀ sign ∈ signs, sign.1 ≠ .semicolon → sign.2.all isPlain = true := by decide
    exact seamless_of_isPlain (hplain _ hsign htoken)
  | word hchars =>
    exact seamless_of_isPlain (List.all_eq_true.2 fun c hc => isPlain_of_isWordChar (hchars c hc))
  | number hne hdigits =>
    exact seamless_of_isPlain (List.all_eq_true.2 fun c hc =>
      isPlain_of_isWordChar (isWordChar_of_isDigit (hdigits c hc)))
  | negative hne hdigits =>
    have hplain := List.all_eq_true.2 fun c hc =>
      isPlain_of_isWordChar (isWordChar_of_isDigit (hdigits c hc))
    exact (seamless_of_isPlain (by decide) : Seamless ['-']).append (seamless_of_isPlain hplain)
  | @quoted quote written body hquote hread =>
    have hisQuote : isQuote quote = true := by
      rcases hquote with rfl | rfl <;> rfl
    intro rest
    rw [List.cons_append, cut_opening hisQuote, cut_quoted hisQuote hread]
    rfl

end Script

namespace Lexer

/-- A text without the signs that open comments. -/
def CommentFree (text : List Char) : Prop :=
  ¬['-', '-'] <:+: text ∧ ¬['/', '*'] <:+: text

theorem CommentFree.of_infix {text inner : List Char} (hfree : CommentFree text)
    (hinner : inner <:+: text) : CommentFree inner :=
  ⟨fun hline => hfree.1 (hline.trans hinner), fun hblock => hfree.2 (hblock.trans hinner)⟩

theorem CommentFree.not_opensComment {text : List Char} (hfree : CommentFree text) :
    ¬OpensComment text := by
  rintro (hline | hblock)
  · exact hfree.1 hline.isInfix
  · exact hfree.2 hblock.isInfix

/-- Without comments, nothing but blanks is skipped. -/
theorem CommentFree.skipGaps_eq {text : List Char} (hfree : CommentFree text) :
    skipGaps text = text.dropWhile Text.isBlank := by
  induction text with
  | nil => exact skipGaps_blanks nofun
  | cons c rest ih =>
    by_cases hblank : Text.isBlank c = true
    · rw [skipGaps_of_isBlank hblank, List.dropWhile_cons_of_pos hblank]
      exact ih (hfree.of_infix (List.suffix_cons c rest).isInfix)
    · rw [List.dropWhile_cons_of_neg hblank]
      exact skipGaps_of_not_opensComment (by simpa using hblank) hfree.not_opensComment

theorem next_blanks {blanks : List Char} (hblanks : ∀ c ∈ blanks, Text.isBlank c = true) :
    next blanks = .ok (.endOfInput, []) := by
  rw [next, skipGaps_blanks hblanks]
  rfl

/-- A token takes up some blanks and what it is written as, and is read in the same way in front of
    other texts. -/
theorem CommentFree.exists_lexeme {text rest : List Char} {token : Token} (hfree : CommentFree text)
    (hnext : next text = .ok (token, rest)) (htoken : token ≠ .endOfInput) :
    ∃ blanks lexeme, text = blanks ++ (lexeme ++ rest) ∧ (∀ c ∈ blanks, Text.isBlank c = true) ∧
      IsLexeme token lexeme ∧ ∀ other, EndsLike rest other →
        CommentFree (blanks ++ (lexeme ++ other)) →
          next (blanks ++ (lexeme ++ other)) = .ok (token, other) := by
  rw [next, hfree.skipGaps_eq] at hnext
  have hvisible : text.dropWhile Text.isBlank ≠ [] := by
    intro hnil
    rw [hnil] at hnext
    cases hnext
    exact htoken rfl
  obtain ⟨lexeme, hdrop, hlexeme, hlocal⟩ := takes_of_readToken hvisible hnext
  have hblanks : ∀ c ∈ text.takeWhile Text.isBlank, Text.isBlank c = true :=
    fun c hc => List.mem_takeWhile_imp hc
  refine ⟨text.takeWhile Text.isBlank, lexeme, ?_, hblanks, hlexeme, fun other hother hwhole => ?_⟩
  · rw [← hdrop, List.takeWhile_append_dropWhile]
  · have hfirst : ∀ c ∈ (lexeme ++ other).head?, Text.isBlank c = false := by
      obtain ⟨front, last, hlast, -⟩ := hlexeme.exists_last
      obtain ⟨c, others, hcons⟩ := List.exists_cons_of_ne_nil
        (hlast ▸ List.append_ne_nil_of_right_ne_nil front (List.cons_ne_nil last []))
      rw [hcons] at hdrop ⊢
      intro d hd
      obtain rfl := Option.some.inj hd
      exact not_of_dropWhile_eq_cons hdrop
    rw [next, hwhole.skipGaps_eq, Text.dropWhile_append_of_stop hblanks hfirst, hlocal other hother]

theorem CommentFree.suffix_of_next {text rest : List Char} {token : Token} (hfree : CommentFree text)
    (hnext : next text = .ok (token, rest)) (htoken : token ≠ .endOfInput) : rest <:+ text := by
  obtain ⟨blanks, lexeme, rfl, -⟩ := hfree.exists_lexeme hnext htoken
  exact ⟨blanks ++ lexeme, List.append_assoc blanks lexeme rest⟩

theorem CommentFree.isBlank_of_next {text rest : List Char} (hfree : CommentFree text)
    (hnext : next text = .ok (.endOfInput, rest)) : ∀ c ∈ text, Text.isBlank c = true := by
  rw [← List.dropWhile_eq_nil_iff, ← hfree.skipGaps_eq]
  by_contra hvisible
  exact (takes_of_readToken hvisible hnext).ne_endOfInput rfl

end Lexer

namespace Script

/-- What follows on a token in the first piece ends the token as what follows in the whole text does. -/
theorem endsLike_of_cut {quote : Option Char} {rest piece : List Char} {pieces : List (List Char)}
    (hcut : cut quote rest = piece :: pieces) : EndsLike rest piece := by
  obtain ⟨tail, rfl, -⟩ := exists_tail_of_cut hcut
  cases piece with
  | nil => exact .inr ends_nil
  | cons c piece => exact .inl rfl

/-- A token that is no semicolon is the first token of the first piece as well, and behind it the first
    piece goes on like the first piece of what is left. -/
theorem exists_first_piece {text rest : List Char} {token : Token} (hfree : CommentFree text)
    (hnext : next text = .ok (token, rest)) (hend : token ≠ .endOfInput)
    (hsemicolon : token ≠ .semicolon) :
    ∃ front piece pieces, cut none rest = piece :: pieces ∧
      cut none text = (front ++ piece) :: pieces ∧ next (front ++ piece) = .ok (token, piece) := by
  obtain ⟨blanks, lexeme, htext, hblanks, hlexeme, hlocal⟩ := hfree.exists_lexeme hnext hend
  obtain ⟨piece, pieces, hrest⟩ := List.exists_cons_of_ne_nil (cut_ne_nil none rest)
  obtain ⟨tail, htail, -⟩ := exists_tail_of_cut hrest
  have hcut : cut none text = (blanks ++ (lexeme ++ piece)) :: pieces := by
    rw [htext, seamless_blanks hblanks, seamless_lexeme hlexeme hsemicolon, hrest, foldr_push,
      foldr_push]
  have hstarts : blanks ++ (lexeme ++ piece) <+: text := ⟨tail, by rw [htext, htail]; simp⟩
  refine ⟨blanks ++ lexeme, piece, pieces, hrest, ?_, ?_⟩
  · rw [hcut, List.append_assoc]
  · rw [List.append_assoc]
    exact hlocal piece (endsLike_of_cut hrest) (hfree.of_infix hstarts.isInfix)

theorem cut_of_next_semicolon {text rest : List Char} (hfree : CommentFree text)
    (hnext : next text = .ok (.semicolon, rest)) :
    ∃ blanks, (∀ c ∈ blanks, Text.isBlank c = true) ∧ cut none text = blanks :: cut none rest := by
  obtain ⟨blanks, lexeme, htext, hblanks, hlexeme, -⟩ := hfree.exists_lexeme hnext nofun
  have hsemicolon : lexeme = [';'] := by
    generalize htoken : Token.semicolon = token at hlexeme
    cases hlexeme with
    | sign hsign =>
      subst htoken
      simpa [signs] using hsign
    | word =>
      unfold Token.ofWord at htoken
      split at htoken <;> cases htoken
    | number | negative | quoted => cases htoken
  refine ⟨blanks, hblanks, ?_⟩
  rw [htext, hsemicolon]
  exact cut_semicolon (seamless_blanks hblanks) rest

/-- If the first piece can be read up to its first token, so can the whole text. -/
theorem exists_next_of_first_piece {text piece rest : List Char} {pieces : List (List Char)}
    {token : Token} (hfree : CommentFree text) (hsign : ¬['\\', 'g'] <:+: text)
    (hcut : cut none text = piece :: pieces) (hnext : next piece = .ok (token, rest)) :
    ∃ first behind, next text = .ok (first, behind) := by
  obtain ⟨tail, rfl, htail⟩ := exists_tail_of_cut hcut
  have hpiece : CommentFree piece := hfree.of_infix (List.prefix_append piece tail).isInfix
  obtain ⟨hends, htailNext⟩ : Ends tail ∧ ∃ first behind, next tail = .ok (first, behind) := by
    rcases htail with rfl | ⟨others, rfl⟩ | ⟨others, rfl⟩
    · exact ⟨ends_nil, _, _, next_nil⟩
    · exact ⟨ends_cons (by decide) (by decide) others, _, _,
        next_of_visible (by decide) (.inl (by decide)) (by decide)⟩
    · exact absurd ⟨piece, others, by simp⟩ hsign
  by_cases htoken : token = .endOfInput
  · subst htoken
    have hblanks := hpiece.isBlank_of_next hnext
    rw [next, skipGaps_append_of_isBlank hblanks, ← next]
    exact htailNext
  · obtain ⟨blanks, lexeme, rfl, hblanks, -, hlocal⟩ := hpiece.exists_lexeme hnext htoken
    rw [List.append_assoc, List.append_assoc] at hfree ⊢
    exact ⟨token, rest ++ tail, hlocal _ (endsLike_append hends rest) hfree⟩

/-- The tokens of a text without the end marker, cut at the semicolons. -/
def segments (tokens : List Token) : List (List Token) :=
  tokens.dropLast.splitOn .semicolon

theorem segments_ne_nil (tokens : List Token) : segments tokens ≠ [] :=
  List.splitOn_ne_nil _ _

theorem segments_cons (token : Token) {tokens : List Token} (hne : tokens ≠ []) :
    segments (token :: tokens) =
      if token = .semicolon then [] :: segments tokens
      else (segments tokens).modifyHead (token :: ·) := by
  rw [segments, List.dropLast_cons_of_ne_nil hne, List.splitOn, List.splitOnP_cons_eq_if_modifyHead]
  simp only [beq_iff_eq]
  rfl

theorem ne_nil_of_readAll {text : List Char} {tokens : List Token}
    (hread : readAll text = .ok tokens) : tokens ≠ [] := by
  obtain ⟨body, rfl, -⟩ := exists_body_of_readAll hread
  simp

/-- Token by token, the pieces of a text are read as the segments between its semicolons. -/
theorem map_readAll_cut {text : List Char} (hfree : CommentFree text) {tokens : List Token}
    (hread : readAll text = .ok tokens) :
    (cut none text).map readAll =
      (segments tokens).map fun segment => .ok (segment ++ [.endOfInput]) := by
  fun_induction readAll text generalizing tokens with
  | case1 => cases hread
  | case2 text rest hnext =>
    cases hread
    have hblanks := hfree.isBlank_of_next hnext
    rw [cut_of_seamless (seamless_blanks hblanks), List.map_singleton, readAll_eq, hnext]
    rfl
  | case3 text token rest hnext htoken ih =>
    obtain ⟨others, hrest, rfl⟩ := map_cons_eq_ok_iff.1 hread
    have hpieces := ih (hfree.of_infix (hfree.suffix_of_next hnext htoken).isInfix) hrest
    rw [segments_cons token (ne_nil_of_readAll hrest)]
    split
    · next hsemicolon =>
      subst hsemicolon
      obtain ⟨blanks, hblanks, hcut⟩ := cut_of_next_semicolon hfree hnext
      rw [hcut, List.map_cons, List.map_cons, hpieces, readAll_eq, next_blanks hblanks]
      rfl
    · next hsemicolon =>
      obtain ⟨front, piece, pieces, hcutRest, hcut, hfirst⟩ :=
        exists_first_piece hfree hnext htoken hsemicolon
      obtain ⟨segment, behind, hsegments⟩ := List.exists_cons_of_ne_nil (segments_ne_nil others)
      rw [hcutRest, hsegments, List.map_cons, List.map_cons] at hpieces
      obtain ⟨hpiece, hothers⟩ := List.cons.inj hpieces
      rw [hcut, hsegments, List.map_cons, readAll_of_next hfirst htoken, hpiece, hothers]
      rfl

theorem exists_readAll_of_cut {text : List Char} (hfree : CommentFree text)
    (hsign : ¬['\\', 'g'] <:+: text)
    (hpieces : ∀ piece ∈ cut none text, ∃ tokens, readAll piece = .ok tokens) :
    ∃ tokens, readAll text = .ok tokens := by
  fun_induction readAll text with
  | case1 text fault hnext =>
    obtain ⟨piece, pieces, hcut⟩ := List.exists_cons_of_ne_nil (cut_ne_nil none text)
    obtain ⟨tokens, hpiece⟩ := hpieces piece (hcut ▸ List.mem_cons_self)
    cases hfirst : next piece with
    | error fault =>
      rw [readAll_eq, hfirst] at hpiece
      cases hpiece
    | ok found =>
      obtain ⟨first, behind, htext⟩ := exists_next_of_first_piece hfree hsign hcut hfirst
      rw [hnext] at htext
      cases htext
  | case2 text rest hnext => exact ⟨_, rfl⟩
  | case3 text token rest hnext htoken ih =>
    have hothers : ∀ piece ∈ cut none rest, ∃ tokens, readAll piece = .ok tokens := by
      by_cases hsemicolon : token = .semicolon
      · subst hsemicolon
        obtain ⟨blanks, -, hcut⟩ := cut_of_next_semicolon hfree hnext
        rw [hcut, List.forall_mem_cons] at hpieces
        exact hpieces.2
      · obtain ⟨front, piece, pieces, hcutRest, hcut, hfirst⟩ :=
          exists_first_piece hfree hnext htoken hsemicolon
        rw [hcut, List.forall_mem_cons] at hpieces
        rw [hcutRest, List.forall_mem_cons]
        refine ⟨?_, hpieces.2⟩
        obtain ⟨tokens, hread⟩ := hpieces.1
        rw [readAll_of_next hfirst htoken, map_cons_eq_ok_iff] at hread
        obtain ⟨others, hpiece, -⟩ := hread
        exact ⟨others, hpiece⟩
    have hrest := hfree.suffix_of_next hnext htoken
    obtain ⟨others, hread⟩ := ih (hfree.of_infix hrest.isInfix)
      (fun h => hsign (h.trans hrest.isInfix)) hothers
    exact ⟨token :: others, by rw [hread]; rfl⟩

theorem infix_of_mem_cut {quote : Option Char} {text piece : List Char}
    (hpiece : piece ∈ cut quote text) : piece <:+: text := by
  fun_induction cut quote text with
  | case1 => exact List.mem_singleton.1 hpiece ▸ List.infix_rfl
  | case2 rest ih =>
    rcases List.mem_cons.1 hpiece with rfl | hrest
    · exact List.nil_infix
    · exact (ih hrest).trans (List.suffix_cons _ rest).isInfix
  | case3 rest ih =>
    rcases List.mem_cons.1 hpiece with rfl | hrest
    · exact List.nil_infix
    · exact (ih hrest).trans (List.suffix_append ['\\', 'g'] rest).isInfix
  | case4 quote c rest hsemicolon hsign ih =>
    obtain ⟨first, others, hrest⟩ := List.exists_cons_of_ne_nil (cut_ne_nil (quoteAfter quote c) rest)
    rw [hrest] at hpiece ih
    rcases List.mem_cons.1 hpiece with rfl | hothers
    · obtain ⟨tail, rfl, -⟩ := exists_tail_of_cut hrest
      exact ⟨[], tail, rfl⟩
    · exact (ih (List.mem_cons_of_mem first hothers)).trans (List.suffix_cons c rest).isInfix

theorem isBlank_of_readAll {piece : List Char} (hfree : CommentFree piece)
    (hread : readAll piece = .ok [.endOfInput]) : ∀ c ∈ piece, Text.isBlank c = true := by
  rw [← List.dropWhile_eq_nil_iff, ← hfree.skipGaps_eq]
  by_contra hvisible
  obtain ⟨token, rest, others, -, hothers, heq⟩ := (readAll_eq_ok_iff hvisible).1 hread
  exact ne_nil_of_readAll hothers (List.cons.inj heq).2.symm

/-- The blanks around a piece make no difference, and it is blank if it holds no token. -/
theorem readAll_trim {piece : List Char} (hfree : CommentFree piece) {segment : List Token}
    (hread : readAll piece = .ok (segment ++ [.endOfInput])) :
    readAll (Text.trim piece) = .ok (segment ++ [.endOfInput]) ∧
      (Text.trim piece).isEmpty = segment.isEmpty := by
  have htrim := (readsAlike_trim piece _).1 hread
  refine ⟨htrim, ?_⟩
  cases segment with
  | nil =>
      rw [Text.trim_eq_nil_iff.2 (isBlank_of_readAll hfree hread)]
      rfl
  | cons token segment =>
    cases hpiece : Text.trim piece with
    | cons c rest => rfl
    | nil =>
      rw [hpiece, readAll_nil] at htrim
      cases segment <;> cases htrim

theorem map_ofText_pieces {cuts : List (List Char)} {segments : List (List Token)}
    (hfree : ∀ piece ∈ cuts, CommentFree piece)
    (hread : cuts.map readAll = segments.map fun segment => .ok (segment ++ [.endOfInput])) :
    ((cuts.map Text.trim).filter (!·.isEmpty)).map Token.ofText =
      (segments.filter (!·.isEmpty)).map fun segment => .ok (segment ++ [.endOfInput]) := by
  induction cuts generalizing segments with
  | nil =>
    cases segments with
    | nil => rfl
    | cons segment segments => cases hread
  | cons piece cuts ih =>
    cases segments with
    | nil => cases hread
    | cons segment segments =>
      rw [List.forall_mem_cons] at hfree
      obtain ⟨hpiece, hcuts⟩ := List.cons.inj hread
      obtain ⟨htrim, hempty⟩ := readAll_trim hfree.1 hpiece
      rw [List.map_cons, List.filter_cons, List.filter_cons, hempty]
      split
      · rw [List.map_cons, List.map_cons, ofText_eq_ok_iff.2 htrim, ih hfree.2 hcuts]
      · exact ih hfree.2 hcuts

/-- A text without comments and without the sign `\g` can be read exactly if every statement that it is
    cut into can, and the tokens of the statements are then the tokens of the text cut at its semicolons,
    without empty segments. -/
theorem ofText_statements_iff (script : String) (hfree : CommentFree script.toList)
    (hsign : ¬['\\', 'g'] <:+: script.toList) :
    ((∃ tokens, Token.ofText script.toList = .ok tokens) ↔
      ∀ text ∈ statements script, ∃ tokens, Token.ofText text.toList = .ok tokens) ∧
    ∀ tokens, Token.ofText script.toList = .ok tokens →
      (statements script).map (fun text => Token.ofText text.toList) =
        ((segments tokens).filter (!·.isEmpty)).map fun segment => .ok (segment ++ [.endOfInput]) := by
  have hmap : (statements script).map (fun text => Token.ofText text.toList) =
      (pieces script.toList).map Token.ofText := by
    rw [statements, List.map_map]
    exact List.map_congr_left fun piece _ => congrArg Token.ofText String.toList_ofList
  have hpieces (piece : List Char) (hpiece : piece ∈ cut none script.toList) : CommentFree piece :=
    hfree.of_infix (infix_of_mem_cut hpiece)
  have hsegments (tokens : List Token) (hread : Token.ofText script.toList = .ok tokens) :
      (statements script).map (fun text => Token.ofText text.toList) =
        ((segments tokens).filter (!·.isEmpty)).map fun segment => .ok (segment ++ [.endOfInput]) :=
    hmap.trans (map_ofText_pieces hpieces (map_readAll_cut hfree (ofText_eq_ok_iff.1 hread)))
  refine ⟨⟨?_, fun hall => ?_⟩, hsegments⟩
  · rintro ⟨tokens, hread⟩ text htext
    have hmem := List.mem_map_of_mem (f := fun text => Token.ofText text.toList) htext
    rw [hsegments tokens hread] at hmem
    obtain ⟨segment, -, hsegment⟩ := List.mem_map.1 hmem
    exact ⟨_, hsegment.symm⟩
  · obtain ⟨tokens, hread⟩ := exists_readAll_of_cut hfree hsign fun piece hpiece => by
      by_cases hblank : Text.trim piece = []
      · exact ⟨_, (readsAlike_trim piece _).2 (hblank ▸ readAll_nil)⟩
      · have htext : String.ofList (Text.trim piece) ∈ statements script := by
          refine List.mem_map_of_mem (List.mem_filter.2 ⟨List.mem_map_of_mem hpiece, ?_⟩)
          simpa using hblank
        obtain ⟨tokens, hread⟩ := hall _ htext
        rw [String.toList_ofList, ofText_eq_ok_iff] at hread
        exact ⟨tokens, (readsAlike_trim piece tokens).2 hread⟩
    exact ⟨tokens, ofText_eq_ok_iff.2 hread⟩

theorem ofText_statements_quoted :
    CommentFree "USE 'a;''b' ;; SHOW TABLES;".toList ∧
      ¬['\\', 'g'] <:+: "USE 'a;''b' ;; SHOW TABLES;".toList ∧
      (statements "USE 'a;''b' ;; SHOW TABLES;").map (fun text => Token.ofText text.toList) =
        [.ok [.keyword .USE, .text "a;'b", .endOfInput],
          .ok [.keyword .SHOW, .keyword .TABLES, .endOfInput]] := by
  have hfree : CommentFree "USE 'a;''b' ;; SHOW TABLES;".toList := by
    constructor
    all_goals decide +kernel
  have hsign : ¬['\\', 'g'] <:+: "USE 'a;''b' ;; SHOW TABLES;".toList := by decide +kernel
  have hread : Token.ofText "USE 'a;''b' ;; SHOW TABLES;".toList =
      .ok [.keyword .USE, .text "a;'b", .semicolon, .semicolon, .keyword .SHOW, .keyword .TABLES,
        .semicolon, .endOfInput] := by decide +kernel
  exact ⟨hfree, hsign, (ofText_statements_iff _ hfree hsign).2 _ hread⟩

end Script

end TableEngine
