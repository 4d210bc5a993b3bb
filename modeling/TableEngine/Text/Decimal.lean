/-!
Decimal numbers: the digits of a number, the number behind digits, and the integers that fit in
64 bits, which are the only ones that statements and tables hold.
-/

namespace TableEngine.Text

/-- The decimal digits of a natural number, without leading zeros. -/
def natDigits (n : Nat) : List Char :=
  Nat.toDigits 10 n

/-- The decimal text of an integer: its digits, behind a minus sign if it is negative. -/
def intDigits (n : Int) : List Char :=
  if n < 0 then '-' :: natDigits n.natAbs else natDigits n.natAbs

/-- The number that a run of decimal digits stands for. The empty run stands for zero. -/
def digitsValue (digits : List Char) : Nat :=
  Nat.ofDigitChars 10 digits 0

theorem digitsValue_natDigits (n : Nat) : digitsValue (natDigits n) = n :=
  Nat.ofDigitChars_ten_toDigits

theorem isDigit_of_mem_natDigits {n : Nat} {c : Char} (hc : c ∈ natDigits n) : c.isDigit = true :=
  Nat.isDigit_of_mem_toDigits (by omega) (by omega) hc

theorem natDigits_ne_nil (n : Nat) : natDigits n ≠ [] :=
  Nat.toDigits_ne_nil

/-- An integer is written in digits, with a minus sign in front of them if it is negative. -/
theorem exists_digits_of_intDigits (n : Int) :
    ∃ digits, digits ≠ [] ∧ (∀ c ∈ digits, c.isDigit = true) ∧
      (intDigits n = digits ∧ (digitsValue digits : Int) = n ∨
        intDigits n = '-' :: digits ∧ -(digitsValue digits : Int) = n) := by
  refine ⟨natDigits n.natAbs, natDigits_ne_nil _, fun _ => isDigit_of_mem_natDigits, ?_⟩
  rw [digitsValue_natDigits]
  unfold intDigits
  split
  · exact .inr ⟨rfl, by omega⟩
  · exact .inl ⟨rfl, by omega⟩

/-- Only zero is written with a zero in front. -/
theorem head?_natDigits_ne {n : Nat} (hn : 0 < n) : (natDigits n).head? ≠ some '0' := by
  induction n using Nat.strongRecOn with
  | ind n ih =>
    unfold natDigits at ih ⊢
    by_cases hsmall : n < 10
    · rw [Nat.toDigits_of_lt_base hsmall]
      have hdigit : ∀ d < 10, 0 < d → d.digitChar ≠ '0' := by decide
      simpa using hdigit n hsmall hn
    · have hfront := ih (n / 10) (by omega) (by omega)
      rw [Nat.toDigits_of_base_le (by omega) (by omega), List.head?_append]
      cases hhead : (Nat.toDigits 10 (n / 10)).head? with
      | none => exact absurd (List.head?_eq_none_iff.1 hhead) Nat.toDigits_ne_nil
      | some c => simpa [hhead] using hfront

/-- A run of characters is taken as far as it goes, if what follows does not go on with it. -/
theorem takeWhile_append_of_stop {p : Char → Bool} {front rest : List Char}
    (hfront : ∀ c ∈ front, p c = true) (hrest : ∀ c ∈ rest.head?, p c = false) :
    (front ++ rest).takeWhile p = front := by
  rw [List.takeWhile_append_of_pos hfront]
  cases rest with
  | nil => simp
  | cons c rest => simp [hrest c rfl]

theorem dropWhile_append_of_stop {p : Char → Bool} {front rest : List Char}
    (hfront : ∀ c ∈ front, p c = true) (hrest : ∀ c ∈ rest.head?, p c = false) :
    (front ++ rest).dropWhile p = rest := by
  rw [List.dropWhile_append_of_pos hfront]
  cases rest with
  | nil => simp
  | cons c rest => simp [hrest c rfl]

/-- What is left behind a run of characters does not go on with it. -/
theorem stop_of_dropWhile (p : Char → Bool) (text : List Char) :
    ∀ c ∈ (text.dropWhile p).head?, p c = false := by
  intro c hc
  have hstop := List.head?_dropWhile_not p text
  rw [Option.mem_def.1 hc] at hstop
  simpa using hstop

theorem takeWhile_natDigits_append (n : Nat) {rest : List Char}
    (hrest : ∀ c ∈ rest.head?, c.isDigit = false) :
    (natDigits n ++ rest).takeWhile Char.isDigit = natDigits n :=
  takeWhile_append_of_stop (fun _ hc => isDigit_of_mem_natDigits hc) hrest

theorem dropWhile_natDigits_append (n : Nat) {rest : List Char}
    (hrest : ∀ c ∈ rest.head?, c.isDigit = false) :
    (natDigits n ++ rest).dropWhile Char.isDigit = rest :=
  dropWhile_append_of_stop (fun _ hc => isDigit_of_mem_natDigits hc) hrest

/-- An integer as a signed 64-bit number, if it is in range. -/
def toInt64? (n : Int) : Option Int64 :=
  if Int64.minValue.toInt ≤ n ∧ n ≤ Int64.maxValue.toInt then some (Int64.ofInt n) else none

theorem toInt64?_toInt (n : Int64) : toInt64? n.toInt = some n := by
  have hmin := Int64.minValue_le_toInt n
  have hmax := Int64.toInt_le n
  simp only [toInt64?, hmin, hmax, and_self, if_true, Int64.ofInt_toInt]

theorem toInt64?_eq_some_iff {k : Int} {n : Int64} : toInt64? k = some n ↔ n.toInt = k := by
  constructor
  · intro hread
    unfold toInt64? at hread
    split at hread
    · next hrange =>
      obtain rfl := Option.some.inj hread
      exact Int64.toInt_ofInt_of_le hrange.1 (Int.lt_of_le_of_lt hrange.2 (by decide))
    · cases hread
  · rintro rfl
    exact toInt64?_toInt n

/-- The number before which a sign stands, if a sign stands there at all. -/
def splitSign : List Char → Bool × List Char
  | '-' :: rest => (true, rest)
  | '+' :: rest => (false, rest)
  | text => (false, text)

/-- Applies a sign to a magnitude. -/
def signed (negative : Bool) (magnitude : Nat) : Int :=
  if negative then -magnitude else magnitude

/-- Reads a whole text as a 64-bit integer: an optional sign and at least one digit. -/
def readInt64? (text : List Char) : Option Int64 :=
  let (negative, digits) := splitSign text
  if digits.isEmpty || !digits.all Char.isDigit then none
  else toInt64? (signed negative (digitsValue digits))

/-- Reads a 64-bit integer off the front of a text: an optional sign, then all the digits that
    follow, of which there has to be one. What stands behind them does not matter. -/
def readLeadingInt64? (text : List Char) : Option Int64 :=
  let (negative, rest) := splitSign text
  let digits := rest.takeWhile Char.isDigit
  if digits.isEmpty then none else toInt64? (signed negative (digitsValue digits))

end TableEngine.Text
