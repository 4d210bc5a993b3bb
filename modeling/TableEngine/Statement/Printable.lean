import TableEngine.ColumnType
import TableEngine.Statement
import TableEngine.Token.Lexer

/-!
The statements that are read back from the text that they are printed as.
-/

namespace TableEngine

/-- A name that is written as it is and read as that name: a word that is no keyword in any letter
    case. A word of digits alone is read as a number, and has to be written as that number is. -/
structure IsName (name : String) : Prop where
  ne : name ≠ ""
  chars : ∀ c ∈ name.toList, Lexer.isWordChar c = true
  not_keyword : ∀ keyword ∈ Keyword.all, name.toList.map Char.toUpper ≠ keyword.text.toList
  decimal : (∀ c ∈ name.toList, c.isDigit = true) →
    Text.natDigits (Text.digitsValue name.toList) = name.toList ∧
      (Text.digitsValue name.toList : Int) ≤ Int64.maxValue.toInt

instance (name : String) : Decidable (IsName name) :=
  decidable_of_iff
    (name ≠ "" ∧ name.toList.all Lexer.isWordChar = true ∧
      (∀ keyword ∈ Keyword.all, name.toList.map Char.toUpper ≠ keyword.text.toList) ∧
      (name.toList.all Char.isDigit = true →
        Text.natDigits (Text.digitsValue name.toList) = name.toList ∧
          (Text.digitsValue name.toList : Int) ≤ Int64.maxValue.toInt))
    (by
      rw [List.all_eq_true, List.all_eq_true]
      exact ⟨fun ⟨hne, hchars, hkeyword, hdecimal⟩ => ⟨hne, hchars, hkeyword, hdecimal⟩,
        fun ⟨hne, hchars, hkeyword, hdecimal⟩ => ⟨hne, hchars, hkeyword, hdecimal⟩⟩)

/-- The type of a printable column is the written form of a type. -/
structure ColumnSpec.IsPrintable (spec : ColumnSpec) : Prop where
  name : IsName spec.name
  type : ∃ type : ColumnType, spec.type = type.display ∧
    ∀ size ∈ type.size, (size.toNat : Int) ≤ Int64.maxValue.toInt

/-- A descending order has to be the order of a column. -/
structure Clause.IsPrintable (clause : Clause) : Prop where
  conditions : ∀ condition ∈ clause.conditions, IsName condition.column
  orderBy : ∀ column ∈ clause.orderBy, IsName column
  direction : clause.direction = .descending → clause.orderBy ≠ none
  limit : ∀ n ∈ clause.limit, (n : Int) ≤ Int64.maxValue.toInt

/-- A list of columns that starts with the number one would be read as a request for all columns. -/
def Projection.IsPrintable : Projection → Prop
  | all => True
  | columns names => names ≠ [] ∧ (∀ name ∈ names, IsName name) ∧ names.head? ≠ some "1"

/-- Names that stand for themselves, lists with an item at least, and numbers that a token can hold. The
    literals of a statement may be any. -/
def Statement.IsPrintable : Statement → Prop
  | createDatabase name => IsName name
  | dropDatabase name => IsName name
  | useDatabase name => IsName name
  | showDatabases => True
  | showTables => True
  | createTable table columns => IsName table ∧ columns ≠ [] ∧ ∀ spec ∈ columns, spec.IsPrintable
  | dropTable table => IsName table
  | describe table => IsName table
  | insert table columns tuples =>
    IsName table ∧ (∀ names ∈ columns, names ≠ [] ∧ ∀ name ∈ names, IsName name) ∧
      tuples ≠ [] ∧ ∀ tuple ∈ tuples, tuple ≠ []
  | select projection table clause => projection.IsPrintable ∧ IsName table ∧ clause.IsPrintable
  | update table assignments clause =>
    IsName table ∧ (assignments ≠ [] ∧ ∀ assignment ∈ assignments, IsName assignment.column) ∧
      clause.IsPrintable
  | delete table clause => IsName table ∧ clause.IsPrintable

end TableEngine
