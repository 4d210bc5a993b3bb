import TableEngine.Proofs.Ledger
import TableEngine.Proofs.Transparency
import TableEngine.Proofs.TypeForms

/-!
Which type a column of a new table gets. The text of a type in a CREATE TABLE gives the column the type
that the text names by itself, as long as its size is an integer that statements can hold
(`Session.declared_type_iff`). Texts that are taken for a type only because the spaces inside of their word
or their number are lost when they are read are left aside here.
-/

namespace TableEngine

open Lexer Grammar

/-- As many parentheses are closed in the text as are opened in it and were open before, and none is
    closed that is not open. -/
structure IsBalanced (depth : Nat) (text : List Char) : Prop where
  closed : text.count ')' = depth + text.count '('
  opened : ∀ front ∈ text.inits, front.count ')' ≤ depth + front.count '('

instance (depth : Nat) (text : List Char) : Decidable (IsBalanced depth text) :=
  decidable_of_iff (text.count ')' = depth + text.count '(' ∧
      ∀ front ∈ text.inits, front.count ')' ≤ depth + front.count '(')
    ⟨fun ⟨closed, opened⟩ => ⟨closed, opened⟩, fun ⟨closed, opened⟩ => ⟨closed, opened⟩⟩

theorem IsBalanced.tail {depth : Nat} {c : Char} {text : List Char}
    (hbalanced : IsBalanced depth (c :: text)) :
    ∃ after, after + [c].count ')' = depth + [c].count '(' ∧ IsBalanced after text := by
  have hcount (sign : Char) (others : List Char) :
      (c :: others).count sign = [c].count sign + others.count sign := by
    rw [← List.count_append]
    rfl
  obtain ⟨hclosed, hopened⟩ := hbalanced
  have hfirst := hopened [c] (by simp)
  refine ⟨depth + [c].count '(' - [c].count ')', by omega, ?_, ?_⟩
  · rw [hcount ')', hcount '('] at hclosed
    omega
  · intro front hfront
    have hlonger := hopened (c :: front) (by simpa using hfront)
    rw [hcount ')', hcount '('] at hlonger
    omega

theorem IsBalanced.drop_run {depth : Nat} {run text : List Char} (hrun : ∀ c ∈ run, isWordChar c = true)
    (hbalanced : IsBalanced depth (run ++ text)) : IsBalanced depth text := by
  induction run generalizing depth with
  | nil => exact hbalanced
  | cons c run ih =>
    obtain ⟨hc, hothers⟩ := List.forall_mem_cons.1 hrun
    obtain ⟨after, hafter, htail⟩ := hbalanced.tail
    have hne : c ≠ '(' ∧ c ≠ ')' := by
      constructor <;> rintro rfl <;> cases hc
    simp only [List.count_singleton, beq_iff_eq, hne.1, hne.2, if_false] at hafter
    obtain rfl : after = depth := hafter
    exact ih hothers htail

theorem IsRun.ne_sign {run : List Char} {token : Token} (hrun : IsRun run token) :
    token ∉ [.comma, .openParen, .closeParen, .endOfInput] := by
  cases hrun with
  | word =>
    unfold Token.ofWord
    split <;> simp
  | number => simp

/-- The tokens of a text with balanced parentheses are taken as the text of a type as a whole. -/
theorem TypePieces.spellsRawText {text : List Char} {pieces : List (List Char × Token)}
    (hpieces : TypePieces text pieces) {depth : Nat} (hbalanced : IsBalanced depth text) :
    Parser.SpellsRawText depth (pieces.map Prod.snd) (String.ofList (glued pieces)) := by
  have hglued (piece : List Char × Token) (pieces : List (List Char × Token)) :
      String.ofList (glued (piece :: pieces)) = piece.2.display ++ String.ofList (glued pieces) := by
    apply String.toList_injective
    simp [glued]
  induction hpieces generalizing depth with
  | nil =>
    refine Parser.spellsRawText_nil_iff.2 ⟨?_, rfl⟩
    simpa using hbalanced.closed.symm
  | space hpieces ih =>
    obtain ⟨after, hafter, htail⟩ := hbalanced.tail
    obtain rfl : after = depth := hafter
    exact ih htail
  | paren hparen hpieces ih =>
    obtain ⟨after, hafter, htail⟩ := hbalanced.tail
    rw [hglued]
    cases hparen with
    | opening =>
      obtain rfl : after = depth + 1 := hafter
      refine (Parser.spellsRawText_cons_iff rfl).2 ⟨fun hends => ?_, by simp, _, rfl, ih htail⟩
      rcases hends with heq | heq <;> cases heq
    | closing =>
      obtain rfl : depth = after + 1 := hafter.symm
      exact (Parser.spellsRawText_cons_iff rfl).2
        ⟨fun _ => Nat.succ_pos after, by simp, _, rfl, ih htail⟩
  | run hrun hends hpieces ih =>
    have hne := hrun.ne_sign
    simp only [List.mem_cons, List.not_mem_nil, or_false, not_or] at hne
    rw [hglued]
    refine (Parser.spellsRawText_cons_iff ?_).2
      ⟨fun hends => ?_, hne.2.2.2, _, rfl, ih (hbalanced.drop_run hrun.isWordChar)⟩
    · simp [hne]
    · rcases hends with hcomma | hclose
      · exact absurd hcomma hne.1
      · exact absurd hclose hne.2.2.1

/-- Letters, digits, spaces and balanced parentheses, but not spaces alone. -/
structure IsTypeText (text : List Char) : Prop where
  chars : ∀ c ∈ text, IsTypeChar c
  balanced : IsBalanced 0 text
  visible : Text.trim text ≠ []

theorem TypePieces.glued_ne_nil {text : List Char} {pieces : List (List Char × Token)}
    (hpieces : TypePieces text pieces) (hvisible : Text.trim text ≠ []) : glued pieces ≠ [] := by
  intro hnil
  obtain rfl := (glued_eq_nil_iff hpieces.isTypePiece).1 hnil
  have hspaces := List.filter_eq_nil_iff.1 hpieces.filter_eq
  refine hvisible (Text.trim_eq_nil_iff.2 fun c hc => ?_)
  obtain rfl : c = ' ' := by simpa using hspaces c hc
  rfl

/-! The statement. -/

/-- The statement that creates a table with a column of a declared type, and one column more. -/
def declaring (spec : String) : String :=
  "CREATE TABLE t (k INT, c " ++ spec ++ ")"

/-- The tokens in front of the declared type. -/
def declarationFront : List Token :=
  [.keyword .CREATE, .keyword .TABLE, .word "t", .openParen, .word "k", .word "INT", .comma, .word "c"]

theorem lexes_letter {c : Char} (hc : c ∈ ['c', 'k', 't']) :
    Lexes [c] [.word (String.singleton c)] := by
  have hletter : c.isAlpha = true ∧ Token.ofWord [c] = .word (String.singleton c) := by
    simp only [List.mem_cons, List.not_mem_nil, or_false] at hc
    rcases hc with rfl | rfl | rfl <;> decide
  rw [← hletter.2]
  exact lexes_word (List.forall_mem_singleton.2 (isWordChar_of_isAlpha hletter.1))
    ⟨c, List.mem_singleton.2 rfl, not_isDigit_of_isAlpha hletter.1⟩

theorem toList_declaring (spec : String) : (declaring spec).toList =
    ['C', 'R', 'E', 'A', 'T', 'E'] ++ ' ' :: (['T', 'A', 'B', 'L', 'E'] ++ ' ' ::
      (['t'] ++ ' ' :: '(' :: (['k'] ++ ' ' :: (['I', 'N', 'T'] ++ (',' :: ' ' :: ['c']))))) ++
        ' ' :: (spec.toList ++ [')']) := by
  have hfront : "CREATE TABLE t (k INT, c ".toList = ['C', 'R', 'E', 'A', 'T', 'E', ' ', 'T', 'A', 'B',
      'L', 'E', ' ', 't', ' ', '(', 'k', ' ', 'I', 'N', 'T', ',', ' ', 'c', ' '] := String.toList_ofList
  have hback : ")".toList = [')'] := String.toList_ofList
  unfold declaring
  rw [String.toList_append, String.toList_append, hfront, hback, List.append_assoc]
  rfl

theorem readAll_declaring (spec : String) :
    readAll (declaring spec).toList =
      (readAll (spec.toList ++ [')'])).map (declarationFront ++ ·) := by
  have hcolumns : Lexes (',' :: ' ' :: ['c']) [.comma, .word "c"] :=
    lexes_sign (by decide) (lexes_letter (by decide)).blank
  have hkey : Lexes (['k'] ++ ' ' :: (['I', 'N', 'T'] ++ (',' :: ' ' :: ['c'])))
      [.word "k", .word "INT", .comma, .word "c"] :=
    (lexes_letter (by decide)).append_blank
      ((lexes_kind .int).append hcolumns fun _ _ => ends_cons (by decide) (by decide) _)
  have htable : Lexes
      (['t'] ++ ' ' :: '(' :: (['k'] ++ ' ' :: (['I', 'N', 'T'] ++ (',' :: ' ' :: ['c']))))
      [.word "t", .openParen, .word "k", .word "INT", .comma, .word "c"] :=
    (lexes_letter (by decide)).append_blank (lexes_sign (by decide) hkey)
  have hfront := (lexes_keyword .CREATE).append_blank ((lexes_keyword .TABLE).append_blank htable)
  have hread := hfront (' ' :: (spec.toList ++ [')'])) (ends_blank _)
  rw [readAll_blank] at hread
  rw [toList_declaring]
  exact hread

/-- No blank stands at the ends. -/
theorem trim_declaring (spec : String) :
    Text.trim (declaring spec).toList = (declaring spec).toList := by
  apply Text.trim_of_ends
  · intro c hc
    rw [toList_declaring] at hc
    obtain rfl := Option.some.inj hc
    rfl
  · intro c hc
    rw [toList_declaring, List.getLast?_append_of_ne_nil _ (List.cons_ne_nil _ _), ← List.cons_append,
      List.getLast?_concat] at hc
    obtain rfl := Option.some.inj hc
    rfl

/-- The statement declares the text that the tokens of the type are put together to. -/
theorem parse_declaring {spec : String} {pieces : List (List Char × Token)}
    (htext : IsTypeText spec.toList) (hpieces : TypePieces spec.toList pieces) :
    Statement.parse (declaring spec) =
      .ok (.createTable "t" [⟨"k", "INT"⟩, ⟨"c", String.ofList (glued pieces)⟩]) := by
  have hread : readAll (Text.trim (declaring spec).toList) =
      .ok (declarationFront ++ (pieces.map Prod.snd ++ [.closeParen, .endOfInput])) := by
    have hclose : readAll [')'] = .ok [.closeParen, .endOfInput] := by
      rw [readAll_of_sign IsParen.closing.mem, readAll_nil]
      rfl
    rw [trim_declaring, readAll_declaring, hpieces.lexes [')'] (ends_cons (by decide) (by decide) _),
      hclose]
    rfl
  have hne : String.ofList (glued pieces) ≠ "" := by
    simpa [← String.toList_inj] using hpieces.glued_ne_nil htext.visible
  have hkey : SpellsColumn [.word "k", .word "INT"] ⟨"k", "INT"⟩ := by
    have hraw : Parser.SpellsRawText 0 [.word "INT"] "INT" :=
      (Parser.spellsRawText_cons_iff rfl).2
        ⟨nofun, nofun, "", rfl, Parser.spellsRawText_nil_iff.2 ⟨rfl, rfl⟩⟩
    exact .intro (.word "k") (Parser.spellsType_iff.2 ⟨by decide, hraw⟩)
  have hdeclared :
      SpellsColumn (.word "c" :: pieces.map Prod.snd) ⟨"c", String.ofList (glued pieces)⟩ :=
    .intro (.word "c") (Parser.spellsType_iff.2 ⟨hne, hpieces.spellsRawText htext.balanced⟩)
  have hstatement := SpellsStatement.createTable (.word "t") (.intro (.more hkey (.last hdeclared)))
  refine Statement.parse_eq_ok_iff.2 ⟨_, hread, ?_⟩
  simpa [declarationFront] using SpellsInput.bare hstatement

theorem leadsWithCommand_declaring (spec : String) :
    Statement.leadsWithCommand (declaring spec).toList = true := by
  rw [toList_declaring]
  rfl

/-- A type that does not fall into pieces makes the statement an error of syntax. -/
theorem parse_declaring_of_unreadable {spec : String} (htext : IsTypeText spec.toList)
    (hunreadable : ¬∃ pieces, TypePieces spec.toList pieces) :
    ∃ fault, Statement.parse (declaring spec) = .error (.syntaxError (.unreadable fault)) := by
  have hfault : ∃ fault, Token.ofText (declaring spec).toList = .error fault := by
    refine Classical.byContradiction fun hreadable => hunreadable ?_
    obtain ⟨tokens, htokens⟩ := Statement.not_unreadable_iff.1 hreadable
    rw [readAll_declaring] at htokens
    cases hread : readAll (spec.toList ++ [')']) with
    | error fault =>
      rw [hread] at htokens
      cases htokens
    | ok others =>
      exact exists_pieces_of_readAll htext.chars (ends_cons (by decide) (by decide) _) hread
  obtain ⟨fault, hfault⟩ := hfault
  refine ⟨fault, ?_⟩
  rw [Statement.parse, trim_declaring, Statement.tokens_of_fault hfault, leadsWithCommand_declaring]
  rfl

theorem usableColumns_declared (text : String) :
    Database.usableColumns [⟨"k", "INT"⟩, ⟨"c", text⟩] =
      ("k", ⟨.int, none⟩) :: ((ColumnType.parse? text).map ("c", ·)).toList := by
  have hkey : ColumnType.parse? "INT" = some ⟨.int, none⟩ := by decide
  have hnames : isValidName "k" = true ∧ isValidName "c" = true := by decide
  cases htype : ColumnType.parse? text <;> simp [Database.usableColumns, hkey, htype, hnames]

namespace Session

variable {session : Session} {name : String} {database : Database}

/-- A table is created, with the usable columns, if there is one of them at least and no two of them
    bear the same name. -/
theorem exists_createTable {created : String} {specs : List ColumnSpec}
    (hopen : session.activeDatabase = .ok (name, database)) (hname : isValidName created = true)
    (hnew : created ∉ database.tableNames) (husable : Database.usableColumns specs ≠ [])
    (hnodup : ((Database.usableColumns specs).map Prod.fst).Nodup) :
    ∃ after table, session.executeStatement (.createTable created specs) = (after, .ok (.affected 0)) ∧
      after.tableIn name created = some table ∧ table.schema.pairs = Database.usableColumns specs := by
  obtain ⟨catalog, hactive, hcatalog, hdatabase⟩ := activeDatabase_eq_ok_iff.1 hopen
  obtain ⟨schema, hschema⟩ := Schema.exists_ofColumns hnodup
  have hcolumns : schema.columns ≠ [] := by
    intro hnil
    have hpairs := Schema.pairs_of_ofColumns hschema
    rw [Schema.pairs, hnil] at hpairs
    exact husable hpairs.symm
  have hcreate : (Database.createTable created specs).run database =
      (⟨database.tables.insert created (.new created schema)⟩, .ok ()) :=
    Database.run_createTable_eq_ok_iff.2 ⟨hname, hnew, schema, hschema, hcolumns, rfl⟩
  have hrun := run_inActive_eq_ok_iff.2
    ⟨name, catalog, database, _, hactive, hcatalog, hdatabase, hcreate, rfl⟩
  obtain ⟨after, hafter⟩ : ∃ after,
      session.executeStatement (.createTable created specs) = (after, .ok (.affected 0)) :=
    ⟨_, Mutation.run_bind_eq_ok_iff.2 ⟨_, (), hrun, rfl⟩⟩
  have hevent := Undergoes.carriedOut session.log hafter
  rw [hactive] at hevent
  obtain ⟨found, hfound, -, htable⟩ := hevent.tableIn_of_createTable
  exact ⟨after, .new created found, hafter, htable, Schema.pairs_of_ofColumns hfound⟩

variable {spec : String}

/-- What the statement does if the type falls into pieces. -/
theorem execute_declaring {pieces : List (List Char × Token)}
    (hopen : session.activeDatabase = .ok (name, database)) (hnew : "t" ∉ database.tableNames)
    (htext : IsTypeText spec.toList) (hpieces : TypePieces spec.toList pieces) :
    ∃ after table, session.execute (declaring spec) = (after, .ok (.affected 0)) ∧
      after.tableIn name "t" = some table ∧
      table.schema.pairs = ("k", ⟨.int, none⟩) ::
        ((ColumnType.parse? (String.ofList (glued pieces))).map ("c", ·)).toList := by
  have hparse := parse_declaring htext hpieces
  have husable := usableColumns_declared (String.ofList (glued pieces))
  rw [execute_of_ok hparse, ← husable]
  refine exists_createTable hopen (by decide) hnew ?_ ?_
  · rw [husable]
    exact List.cons_ne_nil _ _
  · rw [husable]
    cases ColumnType.parse? (String.ofList (glued pieces)) <;> simp

/-- A rejected statement brings no table. -/
theorem tableIn_of_rejected (hopen : session.activeDatabase = .ok (name, database))
    (hnew : "t" ∉ database.tableNames) {error : Error}
    (hparse : Statement.parse (declaring spec) = .error error) :
    (session.execute (declaring spec)).1.tableIn name "t" = none := by
  rw [execute_of_error hparse, Option.eq_none_iff_forall_ne_some]
  intro table htable
  obtain ⟨catalog, hactive, hcatalog, hdatabase⟩ := activeDatabase_eq_ok_iff.1 hopen
  obtain ⟨stored, found, hstored, hfound, hget⟩ := tableIn_eq_some_iff.1 htable
  obtain rfl : catalog = stored := Option.some.inj (hcatalog.symm.trans hstored)
  obtain rfl : database = found := Option.some.inj (hdatabase.symm.trans hfound)
  have hnone : database.tables.get? "t" = none := OrderedMap.get?_eq_none_iff.2 hnew
  rw [hnone] at hget
  cases hget

/-- A column of a new table gets the type that the text names by itself, as long as its size is one of
    the integers of statements. A type with a greater size makes the statement an error of syntax. The
    text is none that is taken for a type only without the spaces inside of its word or its number. -/
theorem declared_type_iff (hopen : session.activeDatabase = .ok (name, database))
    (hnew : "t" ∉ database.tableNames) (htext : IsTypeText spec.toList)
    (hwhole : ¬ColumnType.IsBroken spec.toList) (type : ColumnType) :
    ((∃ table, (session.execute (declaring spec)).1.tableIn name "t" = some table ∧
        ("c", type) ∈ table.schema.pairs) ↔
      ColumnType.parse? spec = some type ∧
        ∀ size ∈ type.size, (size.toNat : Int) ≤ Int64.maxValue.toInt) ∧
    (ColumnType.parse? spec = some type →
      (∃ size ∈ type.size, Int64.maxValue.toInt < (size.toNat : Int)) →
      ∃ fault, session.execute (declaring spec) =
        (session.record (declaring spec), .error (.syntaxError (.unreadable fault)))) := by
  by_cases hexists : ∃ pieces, TypePieces spec.toList pieces
  · obtain ⟨pieces, hpieces⟩ := hexists
    have hbound (hparse : ColumnType.parse? spec = some type) :=
      (ColumnType.exists_pieces_iff htext.chars hparse).1 ⟨pieces, hpieces⟩
    obtain ⟨after, table, hexecute, htable, hpairs⟩ :=
      execute_declaring hopen hnew htext hpieces
    rw [ColumnType.parse?_glued htext.chars hwhole hpieces] at hpairs
    have hcolumn : ("c", type) ∈ table.schema.pairs ↔ ColumnType.parse? spec = some type := by
      rw [hpairs]
      simp [eq_comm]
    rw [hexecute]
    refine ⟨?_, fun hparse ⟨size, hsize, hgreat⟩ => ?_⟩
    · simp only [htable, Option.some.injEq, exists_eq_left', hcolumn]
      exact ⟨fun hparse => ⟨hparse, hbound hparse⟩, And.left⟩
    · exact absurd (hbound hparse size hsize) (Int.not_le.2 hgreat)
  · obtain ⟨fault, hrejected⟩ := parse_declaring_of_unreadable htext hexists
    refine ⟨?_, fun _ _ => ⟨fault, execute_of_error hrejected session⟩⟩
    constructor
    · rintro ⟨table, htable, -⟩
      rw [tableIn_of_rejected hopen hnew hrejected] at htable
      cases htable
    · rintro ⟨hparse, hsize⟩
      exact absurd ((ColumnType.exists_pieces_iff htext.chars hparse).2 hsize) hexists

/-- A session that has an empty database in use. -/
def emptied : Session :=
  (fresh .standard).run [
    .executeStatement (.createDatabase "shop"),
    .executeStatement (.useDatabase "shop")]

theorem activeDatabase_emptied : emptied.activeDatabase = .ok ("shop", .empty) :=
  rfl

/-- Zeros with a space between are put together to zeros, which are the size of no type. -/
theorem not_isBroken_zeros : ¬ColumnType.IsBroken "INT(0 0)".toList := by
  rintro ⟨-, -, pieces, hpieces, hnamed⟩
  have htext : "INT(0 0)".toList =
      ['I', 'N', 'T'] ++ '(' :: (['0'] ++ ' ' :: (['0'] ++ [')'])) := String.toList_ofList
  have hword : ['I', 'N', 'T'] ≠ [] := List.cons_ne_nil _ _
  have hletters : ∀ c ∈ ['I', 'N', 'T'], c.isAlpha = true := List.all_eq_true.1 (by decide)
  have hzero : ['0'] ≠ [] := List.cons_ne_nil _ _
  have hdigits : ∀ c ∈ ['0'], c.isDigit = true := List.all_eq_true.1 (by decide)
  have hletters' : ∀ c ∈ ['I', 'N', 'T'], isWordChar c = true :=
    fun c hc => isWordChar_of_isAlpha (hletters c hc)
  have hdigits' : ∀ c ∈ ['0'], isWordChar c = true := fun c hc => isWordChar_of_isDigit (hdigits c hc)
  rw [htext, TypePieces.run_iff hword hletters' (IsParen.opening.endsWord _)] at hpieces
  simp only [isRun_letters_iff hword hletters, TypePieces.paren_iff .opening,
    TypePieces.run_iff hzero hdigits' (ends_blank _).endsWord, TypePieces.space_iff,
    TypePieces.run_iff hzero hdigits' (IsParen.closing.endsWord _), isRun_digits_iff hzero hdigits,
    TypePieces.paren_iff .closing, TypePieces.nil_iff] at hpieces
  obtain ⟨_, _, rfl, rfl, _, rfl, _, _, rfl, ⟨n, hn, rfl⟩, _, _, rfl, ⟨m, hm, rfl⟩, _, rfl, rfl⟩ := hpieces
  have hglued : glued [(['I', 'N', 'T'], .ofWord ['I', 'N', 'T']), (['('], .openParen),
      (['0'], .integer n), (['0'], .integer m), ([')'], .closeParen)] = "INT(00)".toList := by
    simp only [glued, List.flatMap_cons, display_of_digitsValue hn, display_of_digitsValue hm]
    decide
  rw [hglued] at hnamed
  exact absurd hnamed (by decide +kernel)

/-- Neither small letters nor spaces and zeros around the number matter. Zeros with a space between make
    no size, and so no column. -/
theorem declared_type_padded :
    (IsTypeText " char ( 007 )".toList ∧ ¬ColumnType.IsBroken " char ( 007 )".toList ∧
      ColumnType.parse? " char ( 007 )" = some ⟨.char, some 7⟩ ∧
      ∃ table, (emptied.execute (declaring " char ( 007 )")).1.tableIn "shop" "t" = some table ∧
        ("c", ⟨.char, some 7⟩) ∈ table.schema.pairs) ∧
    IsTypeText "INT(0 0)".toList ∧ ¬ColumnType.IsBroken "INT(0 0)".toList ∧
      ∀ table, (emptied.execute (declaring "INT(0 0)")).1.tableIn "shop" "t" = some table →
        ∀ type, ("c", type) ∉ table.schema.pairs := by
  have hchars : " char ( 007 )".toList.all (decide <| IsTypeChar ·) = true ∧
      "INT(0 0)".toList.all (decide <| IsTypeChar ·) = true := by decide +kernel
  constructor
  · have htext : IsTypeText " char ( 007 )".toList :=
      ⟨by simpa using hchars.1, by decide +kernel, by decide +kernel⟩
    have hparse : ColumnType.parse? " char ( 007 )" = some ⟨.char, some 7⟩ := by decide +kernel
    have hwhole : ¬ColumnType.IsBroken " char ( 007 )".toList := by
      obtain ⟨digits, hform⟩ := ColumnType.form_of_parse? hparse
      exact fun hbroken => hbroken.apart ⟨_, digits, hform⟩
    have hsize : ∀ size ∈ (some 7 : Option UInt64), (size.toNat : Int) ≤ Int64.maxValue.toInt := by
      rintro size ⟨⟩
      decide
    exact ⟨htext, hwhole, hparse,
      (declared_type_iff activeDatabase_emptied (by decide) htext hwhole _).1.2 ⟨hparse, hsize⟩⟩
  · have htext : IsTypeText "INT(0 0)".toList :=
      ⟨by simpa using hchars.2, by decide +kernel, by decide +kernel⟩
    have hnone : ColumnType.parse? "INT(0 0)" = none := by decide +kernel
    refine ⟨htext, not_isBroken_zeros, fun table htable type hpair => ?_⟩
    have hiff :=
      (declared_type_iff activeDatabase_emptied (by decide) htext not_isBroken_zeros type).1
    have hparse := (hiff.1 ⟨table, htable, hpair⟩).1
    rw [hnone] at hparse
    cases hparse

/-- A size that is none of the integers of statements is read in a type by itself, but not in a
    statement, and a word that is broken by a space is read in a statement, but not by itself. -/
theorem declared_type_differs :
    (IsTypeText "INT(9223372036854775808)".toList ∧
      ColumnType.parse? "INT(9223372036854775808)" = some ⟨.int, some 9223372036854775808⟩ ∧
      (emptied.execute (declaring "INT(9223372036854775808)")).1.tableIn "shop" "t" = none) ∧
    IsTypeText "IN T".toList ∧ ColumnType.parse? "IN T" = none ∧
      ∃ table, (emptied.execute (declaring "IN T")).1.tableIn "shop" "t" = some table ∧
        ("c", ⟨.int, none⟩) ∈ table.schema.pairs := by
  have hchars : "INT(9223372036854775808)".toList.all (decide <| IsTypeChar ·) = true ∧
      "IN T".toList.all (decide <| IsTypeChar ·) = true := by decide +kernel
  constructor
  · have htext : IsTypeText "INT(9223372036854775808)".toList :=
      ⟨by simpa using hchars.1, by decide +kernel, by decide +kernel⟩
    have hparse : ColumnType.parse? "INT(9223372036854775808)" =
        some ⟨.int, some 9223372036854775808⟩ := by decide +kernel
    have hunreadable : ¬∃ pieces, TypePieces "INT(9223372036854775808)".toList pieces := by
      rw [ColumnType.exists_pieces_iff htext.chars hparse]
      intro hbound
      exact absurd (hbound _ rfl) (by decide)
    obtain ⟨fault, hrejected⟩ := parse_declaring_of_unreadable htext hunreadable
    exact ⟨htext, hparse, tableIn_of_rejected activeDatabase_emptied (by decide) hrejected⟩
  · have htext : IsTypeText "IN T".toList :=
      ⟨by simpa using hchars.2, by decide +kernel, by decide +kernel⟩
    have hpieces : TypePieces "IN T".toList
        [(['I', 'N'], .ofWord ['I', 'N']), (['T'], .ofWord ['T'])] := by
      have hlast : TypePieces (['T'] ++ []) [(['T'], .ofWord ['T'])] :=
        .run (.word (List.all_eq_true.1 (by decide)) ⟨'T', by decide⟩) ends_nil.endsWord .nil
      have hwhole : "IN T".toList = ['I', 'N'] ++ ' ' :: (['T'] ++ []) := String.toList_ofList
      rw [hwhole]
      exact .run (.word (List.all_eq_true.1 (by decide)) ⟨'I', by decide⟩) (ends_blank _).endsWord hlast.space
    obtain ⟨after, table, hexecute, htable, hpairs⟩ :=
      execute_declaring activeDatabase_emptied (by decide) htext hpieces
    refine ⟨htext, by decide +kernel, table, hexecute ▸ htable, ?_⟩
    have hparse : ColumnType.parse?
        (String.ofList (glued [(['I', 'N'], .ofWord ['I', 'N']), (['T'], .ofWord ['T'])])) =
          some ⟨.int, none⟩ := by decide +kernel
    rw [hpairs, hparse]
    simp

end Session

end TableEngine
