import TableEngine.Proofs.StoredForm
import TableEngine.Selection

/-!
The order of values that sorting uses. It is a linear order on all values (`Value.compare_linear`).
Conditions compare with the same result, equal texts in different letter case apart, unless they take two
texts for numbers (`Value.Alike.compare_eq_then`).
-/

namespace TableEngine

namespace Value

/-- The order of texts: without regard to case, and by their characters where that leaves them equal. -/
def compareTexts : String → String → Ordering :=
  compareLex (compareOn fun s => Text.lower s.toList) (compareOn String.toList)

instance : Std.TransCmp compareTexts :=
  inferInstanceAs (Std.TransCmp (compareLex _ _))

theorem eq_of_compareTexts {s t : String} (heq : compareTexts s t = .eq) : s = t := by
  have hchars : Ord.compare s.toList t.toList = .eq := (Ordering.then_eq_eq.1 heq).2
  exact String.toList_injective (Std.LawfulEqCmp.eq_of_compare hchars)

theorem compare_eq_swap (a b : Value) : a.compare b = (b.compare a).swap := by
  cases a <;> cases b
  case integer.integer => exact Std.OrientedOrd.eq_swap
  case text.text s t =>
    change compareTexts s t = (compareTexts t s).swap
    exact Std.OrientedCmp.eq_swap
  all_goals rfl

instance : Std.OrientedCmp compare :=
  ⟨compare_eq_swap _ _⟩

instance : Std.TransCmp compare where
  isLE_trans {a b c} hab hbc := by
    cases a <;> cases b <;> cases c
    case integer.integer.integer => exact Std.TransOrd.isLE_trans hab hbc
    case text.text.text s t u =>
      change (compareTexts s u).isLE = true
      exact Std.TransCmp.isLE_trans hab hbc
    all_goals simp_all [compare]

instance : Std.LawfulEqCmp compare where
  eq_of_compare {a b} heq := by
    cases a <;> cases b
    case integer.integer => exact congrArg integer (Std.LawfulEqOrd.eq_of_compare heq)
    case text.text => exact congrArg text (eq_of_compareTexts heq)
    case null.null => rfl
    all_goals cases heq

/-- Sorting goes by a linear order of all values, in which only equal values are equal. NULL comes first,
    and the integers come in front of the texts. -/
theorem compare_linear :
    (∀ a b : Value, a.compare b = .eq ↔ a = b) ∧
      (∀ a b : Value, b.compare a = (a.compare b).swap) ∧
      (∀ a b c : Value, a.compare b ≠ .gt → b.compare c ≠ .gt → a.compare c ≠ .gt) ∧
      (∀ n, null.compare (integer n) = .lt) ∧
      ∀ n s, (integer n).compare (text s) = .lt := by
  refine ⟨fun a b => Std.LawfulEqCmp.compare_eq_iff_eq, fun a b => compare_eq_swap b a, ?_,
    fun _ => rfl, fun _ _ => rfl⟩
  intro a b c hab hbc
  have hle : (a.compare b).isLE = true := Ordering.isLE_iff_ne_gt.2 hab
  have hle' : (b.compare c).isLE = true := Ordering.isLE_iff_ne_gt.2 hbc
  exact Ordering.isLE_iff_ne_gt.1 (Std.TransCmp.isLE_trans hle hle')

/-- Texts that are equal without regard to case follow on each other, in the order of their
    characters. -/
theorem compare_linear_cased :
    (text "AB").compare (text "Ab") ≠ .gt ∧ (text "Ab").compare (text "aC") ≠ .gt ∧
      (text "AB").compare (text "aC") ≠ .gt ∧ (text "Ab").compare (text "AB") = .gt := by
  obtain ⟨-, hswap, htrans, -, -⟩ := compare_linear
  have hfirst : (text "AB").compare (text "Ab") = .lt := by decide +kernel
  have hsecond : (text "Ab").compare (text "aC") = .lt := by decide +kernel
  have hle : (text "AB").compare (text "Ab") ≠ .gt := by rw [hfirst]; decide
  have hle' : (text "Ab").compare (text "aC") ≠ .gt := by rw [hsecond]; decide
  refine ⟨hle, hle', htrans _ _ _ hle hle', ?_⟩
  rw [hswap (text "AB"), hfirst]
  rfl

/-! Sorting and conditions. -/

/-- Two values that a column can hold, neither of them NULL. -/
inductive Alike : Value → Value → Prop
  | integers (m n : Int64) : Alike (integer m) (integer n)
  | texts (s t : String) : Alike (text s) (text t)

theorem alike_of_admits {type : ColumnType} {a b : Value} (ha : type.Admits a) (hb : type.Admits b)
    (hna : a ≠ null) (hnb : b ≠ null) : Alike a b := by
  cases a <;> cases b
  case integer.integer m n => exact .integers m n
  case text.text s t => exact .texts s t
  case integer.text => exact absurd ha hb.1
  case text.integer => exact absurd hb ha.1
  all_goals contradiction

/-- Two texts that both read as numbers. -/
def BothNumerals (a b : Value) : Prop :=
  ∃ s t m n, a = text s ∧ b = text t ∧ a.asInteger = some m ∧ b.asInteger = some n

/-- Two texts that both read as numbers, the first as the smaller one. -/
def ReadsBelow (a b : Value) : Prop :=
  ∃ s t m n, a = text s ∧ b = text t ∧ a.asInteger = some m ∧ b.asInteger = some n ∧ m < n

theorem ReadsBelow.bothNumerals {a b : Value} (hbelow : ReadsBelow a b) :
    BothNumerals a b ∧ BothNumerals b a := by
  obtain ⟨s, t, m, n, ha, hb, hm, hn, -⟩ := hbelow
  exact ⟨⟨s, t, m, n, ha, hb, hm, hn⟩, ⟨t, s, n, m, hb, ha, hn, hm⟩⟩

/-- As long as conditions do not take two texts for numbers, sorting goes by what conditions compare
    and settles only what these leave open. -/
theorem Alike.compare_eq_then {a b : Value} (halike : Alike a b) (hnumerals : ¬BothNumerals a b) :
    ∃ ties, a.compare b = (a.compareRead b).then ties := by
  cases halike with
  | integers m n => exact ⟨.eq, Ordering.then_eq.symm⟩
  | texts s t =>
    refine ⟨Ord.compare s.toList t.toList, ?_⟩
    unfold compareRead
    split
    · next m n hm hn => exact absurd ⟨s, t, m, n, rfl, rfl, hm, hn⟩ hnumerals
    · rfl

/-- Two texts that both read as numbers are compared as these numbers by conditions. -/
theorem BothNumerals.compareRead_iff {a b : Value} (hnumerals : BothNumerals a b) :
    (a.compareRead b = .lt ↔ ReadsBelow a b) ∧ (a.compareRead b = .gt ↔ ReadsBelow b a) := by
  obtain ⟨s, t, m, n, rfl, rfl, hm, hn⟩ := hnumerals
  have hcompare : (text s).compareRead (text t) = Ord.compare m n := by
    unfold compareRead
    rw [hm, hn]
  rw [hcompare, Std.compare_eq_lt, Std.compare_eq_gt]
  refine ⟨⟨fun hlt => ⟨s, t, m, n, rfl, rfl, hm, hn, hlt⟩, ?_⟩,
    ⟨fun hlt => ⟨t, s, n, m, rfl, rfl, hn, hm, hlt⟩, ?_⟩⟩
  · rintro ⟨_, _, k, l, -, -, hk, hl, hlt⟩
    obtain rfl := Option.some.inj (hm.symm.trans hk)
    obtain rfl := Option.some.inj (hn.symm.trans hl)
    exact hlt
  · rintro ⟨_, _, l, k, -, -, hl, hk, hlt⟩
    obtain rfl := Option.some.inj (hm.symm.trans hk)
    obtain rfl := Option.some.inj (hn.symm.trans hl)
    exact hlt

/-- Of two values in descending order, the first is at least the second for a condition too, unless
    both are texts that read as numbers and the first one is the smaller number. -/
theorem Alike.isGE_compareRead_iff {a b : Value} (halike : Alike a b)
    (horder : (a.compare b).isGE = true) :
    (a.compareRead b).isGE = true ↔ ¬ReadsBelow a b := by
  by_cases hnumerals : BothNumerals a b
  · rw [Ordering.isGE_iff_ne_lt, hnumerals.compareRead_iff.1]
  · obtain ⟨ties, hthen⟩ := halike.compare_eq_then hnumerals
    have hnot : ¬ReadsBelow a b := fun hbelow => hnumerals hbelow.bothNumerals.1
    rw [hthen] at horder
    cases hread : a.compareRead b <;> simp_all

/-- Sorting puts one value first, and conditions put the other one first. -/
def OrderedOppositely (a b : Value) : Prop :=
  a.compare b ≠ .eq ∧ a.compareRead b = (a.compare b).swap

theorem Alike.orderedOppositely_iff {a b : Value} (halike : Alike a b) :
    OrderedOppositely a b ↔
      a.compare b = .gt ∧ ReadsBelow a b ∨ a.compare b = .lt ∧ ReadsBelow b a := by
  unfold OrderedOppositely
  by_cases hnumerals : BothNumerals a b
  · obtain ⟨hlt, hgt⟩ := hnumerals.compareRead_iff
    rw [← hlt, ← hgt]
    cases a.compare b <;> simp
  · have hnot : ¬ReadsBelow a b := fun hbelow => hnumerals hbelow.bothNumerals.1
    have hnot' : ¬ReadsBelow b a := fun hbelow => hnumerals hbelow.bothNumerals.2
    obtain ⟨ties, hthen⟩ := halike.compare_eq_then hnumerals
    rw [hthen]
    cases hread : a.compareRead b <;> cases ties <;> simp_all

end Value

end TableEngine
