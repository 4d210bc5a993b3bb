import TableEngine.Proofs.Exactness
import TableEngine.Proofs.Lexing
import TableEngine.Statement.Printable
import TableEngine.Statement.Printer

/-!
Printed statements are read back (`Statement.parse_print`). Every part of a statement is printed as a
text that is read as tokens which spell the part (`Writes`).
-/

namespace TableEngine

open Grammar Lexer TableEngine.Parser

variable {α : Type}

/-- A text that is read as tokens which spell something. -/
def Writes (Spells : List Token → α → Prop) (text : List Char) (a : α) : Prop :=
  ∃ tokens, Lexes text tokens ∧ Spells tokens a

/-! Names and literals. -/

theorem asciiCapitals?_of_isWordChar {c : Char} (hc : isWordChar c = true) :
    Text.asciiCapitals? c = some [c.toUpper] := by
  have hrange := toNat_of_isWordChar hc
  exact if_pos (by omega)

theorem capitals?_of_isWordChar {word : List Char} (hword : ∀ c ∈ word, isWordChar c = true) :
    Text.capitals? word = some (word.map Char.toUpper) := by
  have hmap : word.mapM Text.asciiCapitals? = some (word.map fun c => [c.toUpper]) := by
    induction word with
    | nil => rfl
    | cons c word ih =>
      rw [List.forall_mem_cons] at hword
      rw [List.mapM_cons, asciiCapitals?_of_isWordChar hword.1, ih hword.2]
      rfl
  rw [Text.capitals?, hmap, Option.map_some, ← List.flatMap_def, ← List.map_eq_flatMap]

theorem Keyword.isUpper_of_mem {k : Keyword} {c : Char} (hc : c ∈ k.text.toList) : c.isUpper = true := by
  have hletters : k.text.toList.all Char.isUpper = true := by
    cases k <;> decide
  exact List.all_eq_true.1 hletters c hc

theorem Keyword.toList_text_of_ofWord? {word : List Char} {k : Keyword}
    (hword : ∀ c ∈ word, isWordChar c = true) (hk : ofWord? word = some k) :
    k.text.toList = word.map Char.toUpper := by
  rw [ofWord?, capitals?_of_isWordChar hword] at hk
  simpa using List.find?_some hk

theorem Keyword.isAlpha_of_map_toUpper {word : List Char} {k : Keyword}
    (hword : word.map Char.toUpper = k.text.toList) : ∀ c ∈ word, c.isAlpha = true :=
  Lexer.isAlpha_of_map_toUpper (fun _ => isUpper_of_mem) hword

theorem Keyword.ofWord?_of_map_toUpper {word : List Char} {k : Keyword}
    (hword : word.map Char.toUpper = k.text.toList) : ofWord? word = some k := by
  have hchars := fun c hc => isWordChar_of_isAlpha (isAlpha_of_map_toUpper hword c hc)
  rw [ofWord?, capitals?_of_isWordChar hchars, hword]
  cases k <;> decide

theorem IsName.ofWord {name : String} (hname : IsName name) :
    Token.ofWord name.toList = .word name := by
  have hnone : Keyword.ofWord? name.toList = none := by
    rw [Keyword.ofWord?, capitals?_of_isWordChar hname.chars]
    refine List.find?_eq_none.2 fun keyword hmem => ?_
    simpa using (hname.not_keyword keyword hmem).symm
  rw [Token.ofWord, hnone, String.ofList_toList]

theorem exists_toInt_eq {m : Nat} (hm : (m : Int) ≤ Int64.maxValue.toInt) :
    ∃ n : Int64, 0 ≤ n ∧ (m : Int) = n.toInt := by
  have hmax : Int64.maxValue.toInt = 2 ^ 63 - 1 := by decide
  have hvalue : (Int64.ofInt m).toInt = m := Int64.toInt_ofInt_of_le (by omega) (by omega)
  refine ⟨.ofInt m, Int64.le_iff_toInt_le.2 ?_, hvalue.symm⟩
  rw [hvalue]
  exact Int.natCast_nonneg m

theorem writes_name {name : String} (hname : IsName name) :
    Writes SpellsName name.toList name := by
  by_cases hdigits : ∀ c ∈ name.toList, c.isDigit = true
  · obtain ⟨hcanonical, hbound⟩ := hname.decimal hdigits
    obtain ⟨n, hn, hvalue⟩ := exists_toInt_eq hbound
    have hlexes := lexes_natDigits hvalue
    have hspells := SpellsName.number hn
    have hnat : n.toInt.toNat = Text.digitsValue name.toList := by omega
    rw [hnat, hcanonical, String.ofList_toList] at hspells
    rw [hcanonical] at hlexes
    exact ⟨[.integer n], hlexes, hspells⟩
  · have hother : ∃ c ∈ name.toList, c.isDigit = false := by simpa using hdigits
    have hlexes := lexes_word hname.chars hother
    rw [hname.ofWord] at hlexes
    exact ⟨[.word name], hlexes, .word name⟩

theorem writes_literal (value : Value) : Writes SpellsLiteral value.chars value := by
  cases value with
  | null => exact ⟨_, lexes_keyword .NULL, .null⟩
  | integer n =>
    refine ⟨[.integer n], ?_, .integer n⟩
    rw [Value.chars, Value.literal, String.toList_ofList]
    exact lexes_integer n
  | text s =>
    have hlexes := lexes_quoted s.toList
    rw [String.ofList_toList] at hlexes
    refine ⟨[.text s], ?_, .text s⟩
    rwa [Value.chars, Value.literal, String.toList_ofList]

/-! Lists. -/

section

variable {Spells : List Token → α → Prop} {chars : α → List Char}

/-- What is written between two items is read as the separator, whatever follows on it. -/
def Separates (between : List Char) (separator : Token) : Prop :=
  (∀ {text : List Char} {tokens : List Token}, Lexes text tokens →
    Lexes (between ++ text) (separator :: tokens)) ∧ ∀ text, Ends (between ++ text)

theorem separates_comma : Separates [',', ' '] .comma :=
  ⟨fun htext => lexes_sign (by decide) htext.blank, ends_cons (by decide) (by decide)⟩

theorem separates_and : Separates " AND ".toList (.keyword .AND) :=
  ⟨fun htext => ((lexes_keyword .AND).append_blank htext).blank, ends_blank⟩

theorem writes_intercalate {between : List Char} {separator : Token}
    (hbetween : Separates between separator) {items : List α} (hitems : items ≠ [])
    (hwrites : ∀ item ∈ items, Writes Spells (chars item) item) :
    Writes (SpellsList separator Spells) (List.intercalate between (items.map chars)) items := by
  induction items with
  | nil => exact absurd rfl hitems
  | cons first others ih =>
    rw [List.forall_mem_cons] at hwrites
    obtain ⟨front, hfront, hfirst⟩ := hwrites.1
    cases others with
    | nil =>
      refine ⟨front, ?_, .last hfirst⟩
      simpa [List.intercalate] using hfront
    | cons second others =>
      obtain ⟨back, hback, hothers⟩ := ih (List.cons_ne_nil _ _) hwrites.2
      have htext : List.intercalate between ((first :: second :: others).map chars) =
          chars first ++ (between ++ List.intercalate between ((second :: others).map chars)) := by
        simp [List.intercalate]
      refine ⟨front ++ separator :: back, ?_, .more hfirst hothers⟩
      rw [htext]
      refine hfront.append (hbetween.1 hback) fun rest _ => ?_
      rw [List.append_assoc]
      exact hbetween.2 _

theorem writes_commaSeparated {items : List α} (hitems : items ≠ [])
    (hwrites : ∀ item ∈ items, Writes Spells (chars item) item) :
    Writes (SpellsList .comma Spells) (Printer.commaSeparated (items.map chars)) items :=
  writes_intercalate separates_comma hitems hwrites

theorem writes_parenthesized {items : List α} (hitems : items ≠ [])
    (hwrites : ∀ item ∈ items, Writes Spells (chars item) item) :
    Writes (SpellsTuple Spells) (Printer.parenthesized (items.map chars)) items := by
  obtain ⟨tokens, htokens, hspells⟩ := writes_commaSeparated hitems hwrites
  exact ⟨_, lexes_sign (by decide) htokens.append_close, .intro hspells⟩

end

/-! Types. -/

theorem lexes_kind (kind : ColumnKind) : Lexes kind.keyword.toList [.word kind.keyword] := by
  have htoken : Token.ofWord kind.keyword.toList = .word kind.keyword := by cases kind <;> decide
  have hword : kind.keyword.toList.all isWordChar = true := by cases kind <;> decide
  have hother : kind.keyword.toList.any (!·.isDigit) = true := by cases kind <;> decide
  rw [← htoken]
  exact lexes_word (List.all_eq_true.1 hword) (by simpa using hother)

theorem writes_type {type : ColumnType}
    (hsize : ∀ size ∈ type.size, (size.toNat : Int) ≤ Int64.maxValue.toInt) :
    Writes SpellsType type.display.toList type.display := by
  obtain ⟨kind, size⟩ := type
  have hne : kind.keyword ≠ "" := by cases kind <;> decide
  cases size with
  | none =>
    refine ⟨[.word kind.keyword], lexes_kind kind, spellsType_iff.2 ⟨hne, ?_⟩⟩
    exact (spellsRawText_cons_iff rfl).2
      ⟨nofun, nofun, "", (String.append_empty).symm, spellsRawText_nil_iff.2 ⟨rfl, rfl⟩⟩
  | some size =>
    obtain ⟨n, hnonneg, hn⟩ := exists_toInt_eq (hsize size rfl)
    have htext : (ColumnType.display ⟨kind, some size⟩).toList =
        kind.keyword.toList ++ '(' :: (Text.natDigits size.toNat ++ [')']) := by
      simp [ColumnType.display]
    have hopen : Lexes ('(' :: (Text.natDigits size.toNat ++ [')']))
        [.openParen, .integer n, .closeParen] :=
      lexes_sign (by decide) (lexes_natDigits hn).append_close
    have hlexes := (lexes_kind kind).append hopen fun _ _ => ends_cons (by decide) (by decide) _
    refine ⟨[.word kind.keyword, .openParen, .integer n, .closeParen], ?_,
      spellsType_iff.2 ⟨?_, ?_⟩⟩
    · rw [htext]
      exact hlexes
    · intro hempty
      have hchars := congrArg String.toList hempty
      rw [htext] at hchars
      simp at hchars
    · have hdigits : (Token.integer n).display = String.ofList (Text.natDigits size.toNat) := by
        rw [display_integer hnonneg, ← hn, Int.toNat_natCast]
      have hlast : SpellsRawText 1 [.closeParen] ")" :=
        (spellsRawText_cons_iff rfl).2
          ⟨fun _ => Nat.one_pos, nofun, "", rfl, spellsRawText_nil_iff.2 ⟨rfl, rfl⟩⟩
      have hnumber : SpellsRawText 1 [.integer n, .closeParen]
          (String.ofList (Text.natDigits size.toNat) ++ ")") :=
        (spellsRawText_cons_iff rfl).2 ⟨nofun, nofun, ")", by rw [hdigits], hlast⟩
      have hsize : SpellsRawText 0 [.openParen, .integer n, .closeParen]
          ("(" ++ (String.ofList (Text.natDigits size.toNat) ++ ")")) :=
        (spellsRawText_cons_iff rfl).2 ⟨nofun, nofun, _, rfl, hnumber⟩
      refine (spellsRawText_cons_iff rfl).2 ⟨nofun, nofun, _, ?_, hsize⟩
      simp [ColumnType.display, Token.display, String.append_assoc]

/-! Columns, conditions and assignments. -/

theorem writes_column {spec : ColumnSpec} (hspec : spec.IsPrintable) :
    Writes SpellsColumn spec.chars spec := by
  obtain ⟨front, hfront, hname⟩ := writes_name hspec.name
  obtain ⟨type, htype, hsize⟩ := hspec.type
  obtain ⟨back, hback, hspells⟩ := writes_type hsize
  rw [← htype] at hback hspells
  exact ⟨front ++ back, hfront.append_blank hback, .intro hname hspells⟩

/-- The signs that an equals sign or a greater-than sign would prolong. -/
theorem lexes_comparison (c : Comparison) : Lexes c.display.toList [comparisonToken c] := by
  have hsign {sign : Char} {others : List Char} {token : Token} (htoken : token ≠ .endOfInput)
      (hvisible : Text.isBlank sign = false ∧ sign ≠ '-' ∧ sign ≠ '/')
      (hread : ∀ rest, Ends rest → sign? (sign :: (others ++ rest)) = some (token, rest)) :
      Lexes (sign :: others) [token] := by
    refine lexes_of_next htoken fun rest hends => ?_
    rw [List.cons_append, next_of_visible hvisible.1 (.inl hvisible.2.1) hvisible.2.2,
      readToken_of_sign? (hread rest hends)]
  cases c with
  | eq => exact hsign (by decide) (by decide) fun _ _ => rfl
  | ne => exact hsign (by decide) (by decide) fun _ _ => rfl
  | lt =>
    refine hsign (by decide) (by decide) fun _ hends => ?_
    exact sign?_less (hends.ne (by decide)) (hends.ne (by decide))
  | gt => exact hsign (by decide) (by decide) fun _ hends => sign?_greater (hends.ne (by decide))
  | le => exact hsign (by decide) (by decide) fun _ _ => rfl
  | ge => exact hsign (by decide) (by decide) fun _ _ => rfl
  | like => exact lexes_keyword .LIKE

theorem writes_condition {condition : Condition} (hcolumn : IsName condition.column) :
    Writes SpellsCondition condition.chars condition := by
  obtain ⟨front, hfront, hname⟩ := writes_name hcolumn
  obtain ⟨back, hback, hliteral⟩ := writes_literal condition.literal
  have hsign := lexes_comparison condition.comparison
  refine ⟨_, ?_, .intro condition.comparison hname hliteral⟩
  rw [Condition.chars, List.append_assoc]
  exact hfront.append_blank (hsign.append_blank hback)

theorem writes_assignment {assignment : Assignment} (hcolumn : IsName assignment.column) :
    Writes SpellsAssignment assignment.chars assignment := by
  obtain ⟨front, hfront, hname⟩ := writes_name hcolumn
  obtain ⟨back, hback, hvalue⟩ := writes_literal assignment.value
  have hsign := lexes_comparison .eq
  refine ⟨_, ?_, .intro hname hvalue⟩
  rw [Assignment.chars, List.append_assoc]
  exact hfront.append_blank (hsign.append_blank hback)

/-! Clauses. -/

/-- A text that is empty or starts with a blank, which may stand behind everything. -/
def Detached (text : List Char) : Prop :=
  ∀ c ∈ text.head?, c = ' '

theorem detached_nil : Detached [] :=
  nofun

theorem detached_blank (text : List Char) : Detached (' ' :: text) := by
  intro c hc
  exact (Option.some.inj hc).symm

theorem Detached.append {front back : List Char} (hfront : Detached front) (hback : Detached back) :
    Detached (front ++ back) := by
  cases front with
  | nil => exact hback
  | cons c front => exact hfront

theorem Detached.ends {text : List Char} (htext : Detached text) {rest : List Char}
    (hrest : Ends rest) : Ends (text ++ rest) := by
  cases text with
  | nil => exact hrest
  | cons c text =>
    obtain rfl := htext c rfl
    exact ends_blank _

theorem Lexer.Lexes.append_detached {front back : List Char} {tokens others : List Token}
    (hfront : Lexes front tokens) (hback : Lexes back others) (hdetached : Detached back) :
    Lexes (front ++ back) (tokens ++ others) :=
  hfront.append hback fun _ => hdetached.ends

theorem detached_where (clause : Clause) : Detached clause.whereChars := by
  unfold Clause.whereChars
  split
  · exact detached_nil
  · exact detached_blank _

theorem detached_order (clause : Clause) : Detached clause.orderChars := by
  unfold Clause.orderChars
  split
  · exact detached_nil
  · exact detached_blank _
  · exact detached_blank _

theorem detached_limit (clause : Clause) : Detached clause.limitChars := by
  unfold Clause.limitChars
  split
  · exact detached_nil
  · exact detached_blank _

theorem detached_clause (clause : Clause) : Detached clause.chars :=
  ((detached_where clause).append (detached_order clause)).append (detached_limit clause)

/-- A keyword with a blank in front and behind. -/
theorem lexes_inner_keyword (k : Keyword) {text : List Char} {tokens : List Token}
    (htext : Lexes text tokens) :
    Lexes (' ' :: (k.text.toList ++ ' ' :: text)) (.keyword k :: tokens) :=
  ((lexes_keyword k).append_blank htext).blank

theorem writes_where {clause : Clause} (hclause : clause.IsPrintable) :
    Writes SpellsWhere clause.whereChars clause.conditions := by
  unfold Clause.whereChars
  split
  · next hempty =>
    rw [List.isEmpty_iff.1 hempty]
    exact ⟨[], lexes_nil, .none⟩
  · next hsome =>
    have hne : clause.conditions ≠ [] := fun hempty => hsome (List.isEmpty_iff.2 hempty)
    obtain ⟨tokens, htokens, hspells⟩ := writes_intercalate separates_and hne
      fun condition hmem => writes_condition (hclause.conditions condition hmem)
    exact ⟨.keyword .WHERE :: tokens, lexes_inner_keyword .WHERE htokens, .some hspells⟩

theorem writes_order {clause : Clause} (hclause : clause.IsPrintable) :
    ∃ tokens, Lexes clause.orderChars tokens ∧
      SpellsOrder tokens clause.orderBy clause.direction := by
  obtain ⟨conditions, orderBy, direction, limit⟩ := clause
  cases orderBy with
  | none =>
    cases direction with
    | ascending => exact ⟨[], lexes_nil, .none⟩
    | descending => exact absurd rfl (hclause.direction rfl)
  | some column =>
    obtain ⟨tokens, htokens, hspells⟩ := writes_name (hclause.orderBy column rfl)
    cases direction with
    | ascending =>
      have hby := (lexes_keyword .BY).append_blank htokens
      refine ⟨_, lexes_inner_keyword .ORDER hby, ?_⟩
      have horder := SpellsOrder.some hspells .none
      rwa [List.append_nil] at horder
    | descending =>
      have hdesc := htokens.append_blank (lexes_keyword .DESC)
      have hby := (lexes_keyword .BY).append_blank hdesc
      have horder := SpellsOrder.some hspells .descending
      exact ⟨_, lexes_inner_keyword .ORDER hby, horder⟩

theorem writes_limit {clause : Clause} (hclause : clause.IsPrintable) :
    Writes SpellsLimit clause.limitChars clause.limit := by
  obtain ⟨conditions, orderBy, direction, limit⟩ := clause
  cases limit with
  | none => exact ⟨[], lexes_nil, .none⟩
  | some m =>
    obtain ⟨n, hnonneg, hn⟩ := exists_toInt_eq (hclause.limit m rfl)
    have hspells := SpellsLimit.some hnonneg
    rw [← hn, Int.toNat_natCast] at hspells
    exact ⟨_, lexes_inner_keyword .LIMIT (lexes_natDigits hn), hspells⟩

theorem writes_clause {clause : Clause} (hclause : clause.IsPrintable) :
    Writes SpellsClause clause.chars clause := by
  obtain ⟨front, hfront, hwhere⟩ := writes_where hclause
  obtain ⟨middle, hmiddle, horder⟩ := writes_order hclause
  obtain ⟨back, hback, hlimit⟩ := writes_limit hclause
  have hfirst := hfront.append_detached hmiddle (detached_order clause)
  exact ⟨_, hfirst.append_detached hback (detached_limit clause), .intro hwhere horder hlimit⟩

/-! Statements. -/

theorem writes_projection {projection : Projection} (hprojection : projection.IsPrintable) :
    Writes SpellsProjection projection.chars projection := by
  cases projection with
  | all => exact ⟨[.star], lexes_sign (by decide) lexes_nil, .star⟩
  | columns names =>
    obtain ⟨hne, hnames, hfirst⟩ := hprojection
    obtain ⟨tokens, htokens, hspells⟩ :=
      writes_commaSeparated hne fun name hmem => writes_name (hnames name hmem)
    refine ⟨tokens, htokens, .columns hspells ?_⟩
    intro hhead
    obtain ⟨token, others, s, rfl, hname, hmeaning⟩ := exists_first_name hspells
    obtain rfl : token = .integer 1 := Option.some.inj hhead
    rw [hname, ← hmeaning] at hfirst
    exact hfirst (by decide)

theorem detached_targets (columns : Option (List String)) :
    Detached (Statement.targetChars columns) := by
  cases columns with
  | none => exact detached_nil
  | some names => exact detached_blank _

theorem writes_targets {columns : Option (List String)}
    (hcolumns : ∀ names ∈ columns, names ≠ [] ∧ ∀ name ∈ names, IsName name) :
    Writes SpellsTargets (Statement.targetChars columns) columns := by
  cases columns with
  | none => exact ⟨[], lexes_nil, .none⟩
  | some names =>
    obtain ⟨hne, hnames⟩ := hcolumns names rfl
    obtain ⟨tokens, htokens, hspells⟩ :=
      writes_parenthesized hne fun name hmem => writes_name (hnames name hmem)
    exact ⟨tokens, htokens.blank, .some hspells⟩

theorem writes_statement {s : Statement} (hs : s.IsPrintable) :
    Writes SpellsStatement s.chars s := by
  cases s with
  | createDatabase name =>
    obtain ⟨tokens, htokens, hname⟩ := writes_name hs
    exact ⟨_, (lexes_keyword .CREATE).append_blank ((lexes_keyword .DATABASE).append_blank htokens),
      .createDatabase hname⟩
  | dropDatabase name =>
    obtain ⟨tokens, htokens, hname⟩ := writes_name hs
    exact ⟨_, (lexes_keyword .DROP).append_blank ((lexes_keyword .DATABASE).append_blank htokens),
      .dropDatabase hname⟩
  | useDatabase name =>
    obtain ⟨tokens, htokens, hname⟩ := writes_name hs
    exact ⟨_, (lexes_keyword .USE).append_blank htokens, .useDatabase hname⟩
  | showDatabases =>
    exact ⟨_, (lexes_keyword .SHOW).append_blank (lexes_keyword .DATABASES), .showDatabases⟩
  | showTables =>
    exact ⟨_, (lexes_keyword .SHOW).append_blank (lexes_keyword .TABLES), .showTables⟩
  | createTable table columns =>
    obtain ⟨htable, hne, hcolumns⟩ := hs
    obtain ⟨front, hfront, hname⟩ := writes_name htable
    obtain ⟨back, hback, hspecs⟩ :=
      writes_parenthesized hne fun spec hmem => writes_column (hcolumns spec hmem)
    have hspells := SpellsStatement.createTable hname hspecs
    have hlexes := (lexes_keyword .CREATE).append_blank
      ((lexes_keyword .TABLE).append_blank (hfront.append_blank hback))
    refine ⟨_, ?_, hspells⟩
    -- The two sides differ in their brackets and in that the keywords are one text on the left.
    change Lexes (_ ++ _ ++ _) _
    rw [List.append_assoc]
    exact hlexes
  | dropTable table =>
    obtain ⟨tokens, htokens, hname⟩ := writes_name hs
    exact ⟨_, (lexes_keyword .DROP).append_blank ((lexes_keyword .TABLE).append_blank htokens),
      .dropTable hname⟩
  | describe table =>
    obtain ⟨tokens, htokens, hname⟩ := writes_name hs
    exact ⟨_, (lexes_keyword .DESCRIBE).append_blank htokens, .describe hname⟩
  | insert table columns tuples =>
    obtain ⟨htable, hcolumns, hne, htuples⟩ := hs
    obtain ⟨front, hfront, hname⟩ := writes_name htable
    obtain ⟨middle, hmiddle, htargets⟩ := writes_targets hcolumns
    obtain ⟨back, hback, hvalues⟩ :=
      writes_commaSeparated hne fun tuple hmem =>
        writes_parenthesized (htuples tuple hmem) fun value _ => writes_literal value
    have hspells := SpellsStatement.insert hname htargets hvalues
    have hbehind := hmiddle.append_blank ((lexes_keyword .VALUES).append_blank hback)
    have hinto := hfront.append_detached hbehind
      ((detached_targets columns).append (detached_blank _))
    have hlexes := (lexes_keyword .INSERT).append_blank ((lexes_keyword .INTO).append_blank hinto)
    refine ⟨_, ?_, hspells⟩
    change Lexes (_ ++ _ ++ _ ++ _ ++ _) _
    rw [List.append_assoc, List.append_assoc, List.append_assoc, List.append_assoc]
    exact hlexes
  | select projection table clause =>
    obtain ⟨hprojection, htable, hclause⟩ := hs
    obtain ⟨front, hfront, hcolumns⟩ := writes_projection hprojection
    obtain ⟨middle, hmiddle, hname⟩ := writes_name htable
    obtain ⟨back, hback, hparts⟩ := writes_clause hclause
    have hspells := SpellsStatement.select hcolumns hname hparts
    have hbehind := hmiddle.append_detached hback (detached_clause clause)
    have hlexes := (lexes_keyword .SELECT).append_blank
      (hfront.append_blank ((lexes_keyword .FROM).append_blank hbehind))
    refine ⟨_, ?_, hspells⟩
    change Lexes (_ ++ _ ++ _ ++ _ ++ _) _
    rw [List.append_assoc, List.append_assoc, List.append_assoc, List.append_assoc]
    exact hlexes
  | update table assignments clause =>
    obtain ⟨htable, ⟨hne, hassignments⟩, hclause⟩ := hs
    obtain ⟨front, hfront, hname⟩ := writes_name htable
    obtain ⟨middle, hmiddle, hcells⟩ :=
      writes_commaSeparated hne fun assignment hmem => writes_assignment (hassignments assignment hmem)
    obtain ⟨back, hback, hparts⟩ := writes_clause hclause
    have hspells := SpellsStatement.update hname hcells hparts
    have hbehind := hmiddle.append_detached hback (detached_clause clause)
    have hlexes := (lexes_keyword .UPDATE).append_blank
      (hfront.append_blank ((lexes_keyword .SET).append_blank hbehind))
    refine ⟨_, ?_, hspells⟩
    change Lexes (_ ++ _ ++ _ ++ _ ++ _) _
    rw [List.append_assoc, List.append_assoc, List.append_assoc, List.append_assoc]
    exact hlexes
  | delete table clause =>
    obtain ⟨htable, hclause⟩ := hs
    obtain ⟨front, hfront, hname⟩ := writes_name htable
    obtain ⟨back, hback, hparts⟩ := writes_clause hclause
    have hspells := SpellsStatement.delete hname hparts
    have hbehind := hfront.append_detached hback (detached_clause clause)
    have hlexes := (lexes_keyword .DELETE).append_blank ((lexes_keyword .FROM).append_blank hbehind)
    refine ⟨_, ?_, hspells⟩
    change Lexes (_ ++ _ ++ _) _
    rw [List.append_assoc]
    exact hlexes

/-! The ends of printed texts. -/

/-- A text whose last character is no blank. -/
def Closes (text : List Char) : Prop :=
  ∃ front c, text = front ++ [c] ∧ Text.isBlank c = false

theorem Closes.after {back : List Char} (hback : Closes back) (front : List Char) :
    Closes (front ++ back) := by
  obtain ⟨inner, c, rfl, hc⟩ := hback
  exact ⟨front ++ inner, c, by simp, hc⟩

theorem closes_of_visible {text : List Char} (hne : text ≠ [])
    (hvisible : ∀ c ∈ text, Text.isBlank c = false) : Closes text :=
  ⟨text.dropLast, text.getLast hne, (List.dropLast_concat_getLast hne).symm,
    hvisible _ (List.getLast_mem hne)⟩

theorem closes_name {name : String} (hname : IsName name) : Closes name.toList :=
  closes_of_visible (by simpa using hname.ne) fun c hc => isBlank_of_isWordChar (hname.chars c hc)

theorem closes_natDigits (n : Nat) : Closes (Text.natDigits n) :=
  closes_of_visible (Text.natDigits_ne_nil n) fun _ hc =>
    isBlank_of_isWordChar (isWordChar_of_isDigit (Text.isDigit_of_mem_natDigits hc))

theorem closes_literal (value : Value) : Closes value.chars := by
  cases value with
  | null => exact ⟨"NUL".toList, 'L', rfl, rfl⟩
  | integer n =>
    rw [Value.chars, Value.literal, String.toList_ofList, Text.intDigits]
    split
    · exact (closes_natDigits _).after ['-']
    · exact closes_natDigits _
  | text s =>
    rw [Value.chars, Value.literal, String.toList_ofList]
    exact ⟨_, '\'', rfl, rfl⟩

theorem closes_intercalate {chars : α → List Char} (between : List Char) {items : List α}
    (hitems : items ≠ []) (hcloses : ∀ item ∈ items, Closes (chars item)) :
    Closes (List.intercalate between (items.map chars)) := by
  induction items with
  | nil => exact absurd rfl hitems
  | cons first others ih =>
    rw [List.forall_mem_cons] at hcloses
    cases others with
    | nil => simpa [List.intercalate] using hcloses.1
    | cons second others =>
      have hothers := (ih (List.cons_ne_nil _ _) hcloses.2).after (chars first ++ between)
      simpa [List.intercalate] using hothers

theorem closes_parenthesized (items : List (List Char)) : Closes (Printer.parenthesized items) :=
  ⟨'(' :: Printer.commaSeparated items, ')', rfl, rfl⟩

/-- The parts of a clause may be missing, so that what stands in front of them has to be looked at. -/
theorem closes_clause {front : List Char} (hfront : Closes front) {clause : Clause}
    (hclause : clause.IsPrintable) : Closes (front ++ clause.chars) := by
  have hwhere : Closes (front ++ clause.whereChars) := by
    unfold Clause.whereChars
    split
    · rwa [List.append_nil]
    · next hsome =>
      have hne : clause.conditions ≠ [] := fun hempty => hsome (List.isEmpty_iff.2 hempty)
      have hconditions := closes_intercalate " AND ".toList hne fun condition _ =>
        ((closes_literal condition.literal).after [' ']).after
          (condition.column.toList ++ ' ' :: condition.comparison.display.toList)
      exact (hconditions.after _).after _
  have horder : Closes (front ++ clause.whereChars ++ clause.orderChars) := by
    unfold Clause.orderChars
    split
    · rwa [List.append_nil]
    · next column hcolumn _ =>
      exact ((closes_name (hclause.orderBy column hcolumn)).after _).after _
    · have hdesc : Closes " DESC".toList := ⟨" DES".toList, 'C', rfl, rfl⟩
      exact (hdesc.after _).after _
  have hlimit : Closes (front ++ clause.whereChars ++ clause.orderChars ++ clause.limitChars) := by
    unfold Clause.limitChars
    split
    · rwa [List.append_nil]
    · exact ((closes_natDigits _).after _).after _
  simpa [Clause.chars] using hlimit

theorem closes_statement {s : Statement} (hs : s.IsPrintable) : Closes s.chars := by
  cases s with
  | createDatabase name => exact (closes_name hs).after _
  | dropDatabase name => exact (closes_name hs).after _
  | useDatabase name => exact (closes_name hs).after _
  | showDatabases => exact ⟨"SHOW DATABASE".toList, 'S', rfl, rfl⟩
  | showTables => exact ⟨"SHOW TABLE".toList, 'S', rfl, rfl⟩
  | createTable table columns =>
    exact ((closes_parenthesized (columns.map ColumnSpec.chars)).after [' ']).after _
  | dropTable table => exact (closes_name hs).after _
  | describe table => exact (closes_name hs).after _
  | insert table columns tuples =>
    obtain ⟨-, -, hne, -⟩ := hs
    have htuples := closes_intercalate [',', ' '] hne fun tuple _ =>
      closes_parenthesized (tuple.map Value.chars)
    exact htuples.after _
  | select projection table clause =>
    obtain ⟨-, htable, hclause⟩ := hs
    exact closes_clause ((closes_name htable).after _) hclause
  | update table assignments clause =>
    obtain ⟨-, ⟨hne, -⟩, hclause⟩ := hs
    have hassignments := closes_intercalate [',', ' '] hne fun assignment _ =>
      (closes_literal assignment.value).after (assignment.column.toList ++ " = ".toList)
    exact closes_clause (hassignments.after _) hclause
  | delete table clause =>
    obtain ⟨htable, hclause⟩ := hs
    exact closes_clause ((closes_name htable).after _) hclause

/-- A printed statement stands between no blanks. -/
theorem trim_chars {s : Statement} (hs : s.IsPrintable) : Text.trim s.chars = s.chars := by
  apply Text.trim_of_ends
  · intro c hc
    cases s
    all_goals
      obtain rfl := Option.some.inj hc
      rfl
  · intro c hc
    obtain ⟨front, last, htext, hlast⟩ := closes_statement hs
    rw [htext, List.getLast?_concat] at hc
    cases hc
    exact hlast

/-- The printed text of a statement holds the tokens of that statement. -/
theorem reads_print {s : Statement} (hs : s.IsPrintable) :
    ∃ found, readAll (Text.trim s.print.toList) = .ok found ∧ SpellsInput found s := by
  obtain ⟨tokens, htokens, hspells⟩ := writes_statement hs
  have hread := htokens [] ends_nil
  rw [List.append_nil, readAll_nil] at hread
  refine ⟨tokens ++ [.endOfInput], ?_, .bare hspells⟩
  rw [Statement.print, String.toList_ofList, trim_chars hs, hread]
  rfl

/-- The text of a printable statement is read as that statement. -/
theorem Statement.parse_print {s : Statement} (hs : s.IsPrintable) :
    Statement.parse s.print = .ok s :=
  Statement.parse_eq_ok_iff.2 (reads_print hs)

example : Statement.print (.insert "shelf" (some ["title"]) [[.text "it's"], [.null]]) =
    "INSERT INTO shelf (title) VALUES ('it''s'), (NULL)" := by decide

/-- An update with a quote, a semicolon, the signs of comments and a line end in its texts, the least
    integer, and names that start with digits or consist of them. -/
def awkward : Statement :=
  .update "2024_sales" [⟨"note", .text "it's; -- /* \\g \n"⟩, ⟨"7", .integer Int64.minValue⟩]
    ⟨[⟨"title", .like, .text "\"%"⟩, ⟨"id", .ne, .null⟩], some "id", .descending, some 3⟩

theorem Statement.parse_print_awkward :
    awkward.IsPrintable ∧ Statement.parse awkward.print = .ok awkward := by
  have hclause : Clause.IsPrintable
      ⟨[⟨"title", .like, .text "\"%"⟩, ⟨"id", .ne, .null⟩], some "id", .descending, some 3⟩ := by
    constructor
    · decide
    · decide
    · decide
    · decide
  have hprintable : awkward.IsPrintable := ⟨by decide, ⟨by decide, by decide⟩, hclause⟩
  exact ⟨hprintable, Statement.parse_print hprintable⟩

end TableEngine
