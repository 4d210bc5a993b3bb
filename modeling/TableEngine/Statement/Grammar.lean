import TableEngine.Statement
import TableEngine.Token

/-!
The grammar of statements, as relations between tokens and what they spell. Nothing here takes tokens
one after the other: a list of tokens spells a statement if it can be put together from lists that
spell the parts of the statement.
-/

namespace TableEngine.Grammar

/-- A name is a word that is no keyword, or a number that is not negative, in decimal. -/
inductive SpellsName : List Token → String → Prop
  | word (s : String) : SpellsName [.word s] s
  | number {n : Int64} (hn : 0 ≤ n) :
      SpellsName [.integer n] (String.ofList (Text.natDigits n.toInt.toNat))

/-- A literal is NULL, an integer, a text in quotes or a bare word. -/
inductive SpellsLiteral : List Token → Value → Prop
  | null : SpellsLiteral [.keyword .NULL] .null
  | integer (n : Int64) : SpellsLiteral [.integer n] (.integer n)
  | text (s : String) : SpellsLiteral [.text s] (.text s)
  | word (s : String) : SpellsLiteral [.word s] (.text s)

/-- Items, of which there is one at least, with a separator between any two. -/
inductive SpellsList {α : Type} (separator : Token) (Spells : List Token → α → Prop) :
    List Token → List α → Prop
  | last {tokens : List Token} {item : α} (hitem : Spells tokens item) :
      SpellsList separator Spells tokens [item]
  | more {first others : List Token} {item : α} {items : List α} (hitem : Spells first item)
      (hitems : SpellsList separator Spells others items) :
      SpellsList separator Spells (first ++ separator :: others) (item :: items)

/-- Items with commas between them, between parentheses. -/
inductive SpellsTuple {α : Type} (Spells : List Token → α → Prop) : List Token → List α → Prop
  | intro {tokens : List Token} {items : List α} (hitems : SpellsList .comma Spells tokens items) :
      SpellsTuple Spells (.openParen :: tokens ++ [.closeParen]) items

/-- The text of a type is what its tokens are written as, one behind the other. There has to be some
    text. Parentheses are balanced, and commas and closing parentheses stand inside of parentheses
    alone, so that the first of them outside ends the type. -/
structure SpellsType (tokens : List Token) (text : String) : Prop where
  text_eq : text = String.join (tokens.map Token.display)
  text_ne : text ≠ ""
  balanced : tokens.count .openParen = tokens.count .closeParen
  inside : ∀ front token back, tokens = front ++ token :: back →
    token = .comma ∨ token = .closeParen → front.count .closeParen < front.count .openParen
  unended : .endOfInput ∉ tokens

/-- A declared column is its name and the text of its type. -/
inductive SpellsColumn : List Token → ColumnSpec → Prop
  | intro {front back : List Token} {name type : String} (hname : SpellsName front name)
      (htype : SpellsType back type) : SpellsColumn (front ++ back) ⟨name, type⟩

/-- The sign or the keyword of a comparison. -/
def comparisonToken : Comparison → Token
  | .eq => .eq
  | .ne => .ne
  | .lt => .lt
  | .gt => .gt
  | .le => .le
  | .ge => .ge
  | .like => .keyword .LIKE

inductive SpellsCondition : List Token → Condition → Prop
  | intro {front back : List Token} {column : String} {literal : Value} (comparison : Comparison)
      (hcolumn : SpellsName front column) (hliteral : SpellsLiteral back literal) :
      SpellsCondition (front ++ comparisonToken comparison :: back) ⟨column, comparison, literal⟩

/-- The conditions of a clause, joined by AND, or none. -/
inductive SpellsWhere : List Token → List Condition → Prop
  | none : SpellsWhere [] []
  | some {tokens : List Token} {conditions : List Condition}
      (hconditions : SpellsList (.keyword .AND) SpellsCondition tokens conditions) :
      SpellsWhere (.keyword .WHERE :: tokens) conditions

/-- The keyword of a direction. An ascending order needs none. -/
inductive SpellsDirection : List Token → Direction → Prop
  | none : SpellsDirection [] .ascending
  | ascending : SpellsDirection [.keyword .ASC] .ascending
  | descending : SpellsDirection [.keyword .DESC] .descending

inductive SpellsOrder : List Token → Option String → Direction → Prop
  | none : SpellsOrder [] none .ascending
  | some {front back : List Token} {column : String} {direction : Direction}
      (hcolumn : SpellsName front column) (hdirection : SpellsDirection back direction) :
      SpellsOrder (.keyword .ORDER :: .keyword .BY :: front ++ back) (some column) direction

inductive SpellsLimit : List Token → Option Nat → Prop
  | none : SpellsLimit [] none
  | some {n : Int64} (hn : 0 ≤ n) :
      SpellsLimit [.keyword .LIMIT, .integer n] (some n.toInt.toNat)

inductive SpellsClause : List Token → Clause → Prop
  | intro {front middle back : List Token} {conditions : List Condition} {column : Option String}
      {direction : Direction} {limit : Option Nat} (hwhere : SpellsWhere front conditions)
      (horder : SpellsOrder middle column direction) (hlimit : SpellsLimit back limit) :
      SpellsClause (front ++ middle ++ back) ⟨conditions, column, direction, limit⟩

/-- All columns are asked for by a star or by the number one, which is thus no name in front. -/
inductive SpellsProjection : List Token → Projection → Prop
  | star : SpellsProjection [.star] .all
  | one : SpellsProjection [.integer 1] .all
  | columns {tokens : List Token} {names : List String}
      (hnames : SpellsList .comma SpellsName tokens names)
      (hfirst : tokens.head? ≠ some (.integer 1)) : SpellsProjection tokens (.columns names)

inductive SpellsAssignment : List Token → Assignment → Prop
  | intro {front back : List Token} {column : String} {value : Value}
      (hcolumn : SpellsName front column) (hvalue : SpellsLiteral back value) :
      SpellsAssignment (front ++ .eq :: back) ⟨column, value⟩

/-- The columns that an insertion lists, if it lists any. -/
inductive SpellsTargets : List Token → Option (List String) → Prop
  | none : SpellsTargets [] none
  | some {tokens : List Token} {names : List String} (hnames : SpellsTuple SpellsName tokens names) :
      SpellsTargets tokens (some names)

inductive SpellsStatement : List Token → Statement → Prop
  | createDatabase {tokens : List Token} {name : String} (hname : SpellsName tokens name) :
      SpellsStatement (.keyword .CREATE :: .keyword .DATABASE :: tokens) (.createDatabase name)
  | dropDatabase {tokens : List Token} {name : String} (hname : SpellsName tokens name) :
      SpellsStatement (.keyword .DROP :: .keyword .DATABASE :: tokens) (.dropDatabase name)
  | useDatabase {tokens : List Token} {name : String} (hname : SpellsName tokens name) :
      SpellsStatement (.keyword .USE :: tokens) (.useDatabase name)
  | showDatabases : SpellsStatement [.keyword .SHOW, .keyword .DATABASES] .showDatabases
  | showTables : SpellsStatement [.keyword .SHOW, .keyword .TABLES] .showTables
  | createTable {front back : List Token} {table : String} {columns : List ColumnSpec}
      (htable : SpellsName front table) (hcolumns : SpellsTuple SpellsColumn back columns) :
      SpellsStatement (.keyword .CREATE :: .keyword .TABLE :: front ++ back)
        (.createTable table columns)
  | dropTable {tokens : List Token} {table : String} (htable : SpellsName tokens table) :
      SpellsStatement (.keyword .DROP :: .keyword .TABLE :: tokens) (.dropTable table)
  | describe {tokens : List Token} {table : String} (htable : SpellsName tokens table) :
      SpellsStatement (.keyword .DESCRIBE :: tokens) (.describe table)
  | insert {front middle back : List Token} {table : String} {columns : Option (List String)}
      {tuples : List (List Value)} (htable : SpellsName front table)
      (hcolumns : SpellsTargets middle columns)
      (htuples : SpellsList .comma (SpellsTuple SpellsLiteral) back tuples) :
      SpellsStatement
        (.keyword .INSERT :: .keyword .INTO :: front ++ middle ++ .keyword .VALUES :: back)
        (.insert table columns tuples)
  | select {front middle back : List Token} {projection : Projection} {table : String}
      {clause : Clause} (hprojection : SpellsProjection front projection)
      (htable : SpellsName middle table) (hclause : SpellsClause back clause) :
      SpellsStatement (.keyword .SELECT :: front ++ .keyword .FROM :: middle ++ back)
        (.select projection table clause)
  | update {front middle back : List Token} {table : String} {assignments : List Assignment}
      {clause : Clause} (htable : SpellsName front table)
      (hassignments : SpellsList .comma SpellsAssignment middle assignments)
      (hclause : SpellsClause back clause) :
      SpellsStatement (.keyword .UPDATE :: front ++ .keyword .SET :: middle ++ back)
        (.update table assignments clause)
  | delete {front back : List Token} {table : String} {clause : Clause}
      (htable : SpellsName front table) (hclause : SpellsClause back clause) :
      SpellsStatement (.keyword .DELETE :: .keyword .FROM :: front ++ back) (.delete table clause)

/-- The end marker stands behind all tokens and nowhere else. -/
def Closed (tokens : List Token) : Prop :=
  ∃ body, tokens = body ++ [.endOfInput] ∧ .endOfInput ∉ body

/-- A statement behind which one semicolon may stand, and then nothing but the end marker. -/
inductive SpellsInput : List Token → Statement → Prop
  | bare {tokens : List Token} {statement : Statement}
      (hstatement : SpellsStatement tokens statement) :
      SpellsInput (tokens ++ [.endOfInput]) statement
  | ended {tokens : List Token} {statement : Statement}
      (hstatement : SpellsStatement tokens statement) :
      SpellsInput (tokens ++ [.semicolon, .endOfInput]) statement

/-- No statement starts like this: the first token is not the keyword of a command, or it is one that
    has to say what it is about and is followed by something else. -/
def StartsNoCommand (tokens : List Token) : Prop :=
  (∀ keyword ∈ Keyword.commands, tokens.head? ≠ some (.keyword keyword)) ∨
    (tokens.head? = some (.keyword .CREATE) ∨ tokens.head? = some (.keyword .DROP)) ∧
      tokens[1]? ≠ some (.keyword .DATABASE) ∧ tokens[1]? ≠ some (.keyword .TABLE) ∨
    tokens.head? = some (.keyword .SHOW) ∧
      tokens[1]? ≠ some (.keyword .DATABASES) ∧ tokens[1]? ≠ some (.keyword .TABLES)

end TableEngine.Grammar
