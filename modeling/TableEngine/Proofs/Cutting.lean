import TableEngine.Proofs.Scripts

/-!
How a text of two parts is cut. What is cut of the second part depends on the quote that the first one
leaves open (`quoteBehind`), and the last piece of the first part goes on with the first piece of the
second (`cut_append`). If the first part ends with a terminator, the pieces of both are the pieces of the
whole (`pieces_append`).
-/

namespace TableEngine.Script

/-- The quote that is open behind a text, when `quote` is open in front of it. -/
def quoteBehind (quote : Option Char) (text : List Char) : Option Char :=
  text.foldl quoteAfter quote

/-- The pieces of two texts, one behind the other, from the pieces of each. -/
def glue : List (List Char) → List (List Char) → List (List Char)
  | [], others => others
  | [piece], others => piece.foldr push others
  | piece :: next :: pieces, others => piece :: glue (next :: pieces) others

theorem quoteBehind_append (quote : Option Char) (front back : List Char) :
    quoteBehind quote (front ++ back) = quoteBehind (quoteBehind quote front) back :=
  List.foldl_append

theorem push_ne_nil (c : Char) (pieces : List (List Char)) : push c pieces ≠ [] := by
  cases pieces <;> exact List.cons_ne_nil _ _

theorem cut_ne_nil (quote : Option Char) (text : List Char) : cut quote text ≠ [] := by
  fun_cases cut quote text with
  | case1 | case2 | case3 => exact List.cons_ne_nil _ _
  | case4 => exact push_ne_nil _ _

/-- What stands behind the last terminator. -/
def lastPiece (text : List Char) : List Char :=
  (cut none text).getLastD []

/-- What stands in front of the first terminator. -/
def firstPiece (text : List Char) : List Char :=
  (cut none text).headD []

theorem exists_cut_eq_concat (text : List Char) :
    ∃ complete, cut none text = complete ++ [lastPiece text] := by
  have hne := cut_ne_nil none text
  refine ⟨(cut none text).dropLast, ?_⟩
  rw [lastPiece, List.getLastD_eq_getLast?, List.getLast?_eq_some_getLast hne, Option.getD_some,
    List.dropLast_concat_getLast]

theorem exists_cut_eq_cons (text : List Char) :
    ∃ others, cut none text = firstPiece text :: others := by
  obtain ⟨first, others, hcut⟩ := List.exists_cons_of_ne_nil (cut_ne_nil none text)
  exact ⟨others, by rw [firstPiece, hcut]; rfl⟩

/-- A piece ends in front of a terminator or at the end of the text. -/
theorem exists_tail_of_cut {quote : Option Char} {text piece : List Char}
    {pieces : List (List Char)} (hcut : cut quote text = piece :: pieces) :
    ∃ tail, text = piece ++ tail ∧
      (tail = [] ∨ (∃ rest, tail = ';' :: rest) ∨ ∃ rest, tail = '\\' :: 'g' :: rest) := by
  fun_induction cut quote text generalizing piece pieces with
  | case1 =>
    cases hcut
    exact ⟨[], rfl, .inl rfl⟩
  | case2 rest =>
    cases hcut
    exact ⟨_, rfl, .inr (.inl ⟨rest, rfl⟩)⟩
  | case3 rest =>
    cases hcut
    exact ⟨_, rfl, .inr (.inr ⟨rest, rfl⟩)⟩
  | case4 quote c rest hsemicolon hsign ih =>
    obtain ⟨first, others, hrest⟩ := List.exists_cons_of_ne_nil (cut_ne_nil (quoteAfter quote c) rest)
    rw [hrest] at hcut
    cases hcut
    obtain ⟨tail, rfl, htail⟩ := ih hrest
    exact ⟨tail, rfl, htail⟩

theorem push_glue (c : Char) {pieces : List (List Char)} (hne : pieces ≠ [])
    (others : List (List Char)) : push c (glue pieces others) = glue (push c pieces) others := by
  fun_cases glue pieces others with
  | case1 => exact absurd rfl hne
  | case2 => rfl
  | case3 => rfl

theorem glue_cons (piece : List Char) {pieces : List (List Char)} (hne : pieces ≠ [])
    (others : List (List Char)) : glue (piece :: pieces) others = piece :: glue pieces others := by
  cases pieces with
  | nil => exact absurd rfl hne
  | cons next pieces => rfl

theorem glue_concat (pieces : List (List Char)) (last first : List Char)
    (others : List (List Char)) :
    glue (pieces ++ [last]) (first :: others) = pieces ++ (last ++ first) :: others := by
  induction pieces with
  | nil => exact foldr_push last first others
  | cons piece pieces ih => rw [List.cons_append, glue_cons piece (by simp), ih, List.cons_append]

/-- The sign `\g` does not stand across the border of two texts. -/
def Apart (front rest : List Char) : Prop :=
  front.getLast? = some '\\' → rest.head? ≠ some 'g'

theorem Apart.tail {c : Char} {front rest : List Char} (hapart : Apart (c :: front) rest) :
    Apart front rest := by
  intro hlast
  apply hapart
  rw [List.getLast?_cons, hlast, Option.getD_some]

theorem cut_append {front rest : List Char} (hapart : Apart front rest) (quote : Option Char) :
    cut quote (front ++ rest) = glue (cut quote front) (cut (quoteBehind quote front) rest) := by
  fun_induction cut quote front with
  | case1 quote => rfl
  | case2 behind ih =>
    rw [glue_cons [] (cut_ne_nil _ _)]
    exact congrArg ([] :: ·) (ih hapart.tail)
  | case3 behind ih =>
    rw [glue_cons [] (cut_ne_nil _ _)]
    exact congrArg ([] :: ·) (ih hapart.tail.tail)
  | case4 quote c behind hsemicolon hsign ih =>
    have hcut := congrArg (push c) (ih hapart.tail)
    rw [push_glue c (cut_ne_nil _ _)] at hcut
    rw [List.cons_append, cut]
    · exact hcut
    · exact hsemicolon
    · intro others hquote hbackslash hbehind
      cases behind with
      | nil =>
        subst hbackslash
        exact hapart rfl (by simpa using congrArg List.head? hbehind)
      | cons d behind =>
        obtain ⟨rfl, rfl⟩ := List.cons.inj hbehind
        exact hsign _ hquote hbackslash rfl

/-- A text ends with a terminator, up to blanks, and leaves no quote open. -/
def IsEnded (text : List Char) : Prop :=
  quoteBehind none text = none ∧
    ∃ complete blanks, cut none text = complete ++ [blanks] ∧ ∀ c ∈ blanks, Text.isBlank c = true

theorem isPlain_of_isBlank {c : Char} (hc : Text.isBlank c = true) : isPlain c = true := by
  by_contra hplain
  simp only [isPlain, List.mem_cons, List.not_mem_nil, or_false, decide_eq_true_eq, not_not] at hplain
  rcases hplain with rfl | rfl | rfl | rfl
  all_goals cases hc

theorem seamless_blanks {blanks : List Char} (hblanks : ∀ c ∈ blanks, Text.isBlank c = true) :
    Seamless blanks :=
  seamless_of_isPlain (List.all_eq_true.2 fun c hc => isPlain_of_isBlank (hblanks c hc))

theorem isQuote_of_isBlank {c : Char} (hc : Text.isBlank c = true) : isQuote c = false := by
  have hplain := isPlain_of_isBlank hc
  simp only [isPlain, List.mem_cons, List.not_mem_nil, or_false, not_or, decide_eq_true_eq] at hplain
  simp [isQuote, hplain]

theorem quoteAfter_of_not_isQuote {c : Char} (hc : isQuote c = false) : quoteAfter none c = none := by
  rw [quoteAfter, hc]
  rfl

/-- What follows on a terminator is cut as if it stood alone. -/
theorem pieces_append {front rest : List Char} (hfront : IsEnded front) (hapart : Apart front rest) :
    pieces (front ++ rest) = pieces front ++ pieces rest := by
  obtain ⟨hquote, complete, blanks, hcut, hblanks⟩ := hfront
  obtain ⟨others, hrest⟩ := exists_cut_eq_cons rest
  have hwhole : cut none (front ++ rest) = complete ++ (blanks ++ firstPiece rest) :: others := by
    rw [cut_append hapart, hquote, hcut, hrest, glue_concat]
  have hlast : Text.trim blanks = [] := Text.trim_eq_nil_iff.2 hblanks
  have hfirst : Text.trim (blanks ++ firstPiece rest) = Text.trim (firstPiece rest) :=
    Text.trim_append_of_isBlank hblanks _
  rw [pieces, pieces, pieces, hwhole, hcut, hrest]
  simp [hlast, hfirst]

end TableEngine.Script
