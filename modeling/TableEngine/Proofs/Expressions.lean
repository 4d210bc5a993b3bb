import Mathlib.Data.List.Basic
import TableEngine.Regex.Matcher

/-!
The library of regular expressions that the program uses does what is documented of such libraries
(`Regex.documented`). An expression is read back from its text, and the places that are marked, from the
last item to the first, are those from which the items read what comes next (`Regex.Marks`).
-/

namespace TableEngine.Regex

/-! Texts of expressions. -/

theorem Spelled.append {front back : List Item} {source other : List Char} (hfront : Spelled front source)
    (hback : Spelled back other) : Spelled (front ++ back) (source ++ other) := by
  induction hfront with
  | nil => exact hback
  | cons hitem _ ih =>
    rw [List.append_assoc]
    exact .cons hitem ih

theorem isEscapable_of_mem_specials {c : Char} (hc : c ∈ specials) : isEscapable c = true := by
  have hall : specials.all isEscapable = true := by decide
  exact List.all_eq_true.1 hall c hc

theorem escape_spelled (text : List Char) : Spelled (literally text) (escape text) := by
  induction text with
  | nil => exact .nil
  | cons c text ih =>
    rw [escape, List.flatMap_cons]
    refine .cons (.one ?_) ih
    split
    · next hc => exact .escaped (isEscapable_of_mem_specials hc)
    · next hc => exact .plain hc

/-! Reading expressions. -/

theorem readItems?_escaped {c : Char} (hc : isEscapable c = true) (done : List Item)
    (source : List Char) :
    readItems? done ('\\' :: c :: source) = readItems? (.one (.character c) :: done) source := by
  cases done <;> simp [readItems?, hc]

theorem readItems?_sign {sign : Char} {item : Item} (hitem : Item.ofSign? sign = some item)
    (done : List Item) (source : List Char) :
    readItems? done (sign :: source) = readItems? (item :: done) source := by
  have hstar : sign ≠ '*' := by
    rintro rfl
    simp [Item.ofSign?, specials] at hitem
  have hbackslash : sign ≠ '\\' := by
    rintro rfl
    simp [Item.ofSign?, specials] at hitem
  rw [readItems?, hitem]
  · exact fun _ _ hsign _ => hbackslash hsign
  · exact fun _ _ _ hsign => hstar hsign

theorem readItems?_atom {atom : Atom} {source : List Char} (hatom : atom.Spelled source)
    (done : List Item) (rest : List Char) :
    readItems? done (source ++ rest) = readItems? (.one atom :: done) rest := by
  cases hatom with
  | dot => exact readItems?_sign rfl done rest
  | @plain c hc =>
    have hmem : ∀ d ∈ specials, c ≠ d := fun d hd heq => hc (heq ▸ hd)
    have hsign : Item.ofSign? c = some (.one (.character c)) := by
      rw [Item.ofSign?, if_neg (hmem _ (by decide)), if_neg (hmem _ (by decide)),
        if_neg (hmem _ (by decide)), if_neg hc]
    exact readItems?_sign hsign done rest
  | escaped hc => exact readItems?_escaped hc done rest

theorem readItems?_item {item : Item} {source : List Char} (hitem : item.Spelled source)
    (done : List Item) (rest : List Char) :
    readItems? done (source ++ rest) = readItems? (item :: done) rest := by
  cases hitem with
  | one hatom => exact readItems?_atom hatom done rest
  | many hatom =>
    rw [List.append_assoc, readItems?_atom hatom, List.singleton_append, readItems?]
  | start => exact readItems?_sign rfl done rest
  | finish => exact readItems?_sign rfl done rest

theorem readItems?_of_spelled {items : List Item} {source : List Char} (hitems : Spelled items source)
    (done : List Item) : readItems? done source = some (done.reverse ++ items) := by
  induction hitems generalizing done with
  | nil => simp [readItems?]
  | cons hitem _ ih => simp [readItems?_item hitem, ih]

theorem Atom.Spelled.exists_cons {atom : Atom} {source : List Char} (hatom : atom.Spelled source) :
    ∃ c rest, source = c :: rest ∧ c ≠ '(' := by
  cases hatom with
  | dot => exact ⟨'.', [], rfl, by decide⟩
  | plain hc => exact ⟨_, [], rfl, fun heq => hc (heq ▸ by decide)⟩
  | escaped => exact ⟨'\\', _, rfl, by decide⟩

theorem Item.Spelled.exists_cons {item : Item} {source : List Char} (hitem : item.Spelled source) :
    ∃ c rest, source = c :: rest ∧ c ≠ '(' := by
  cases hitem with
  | one hatom => exact hatom.exists_cons
  | many hatom =>
    obtain ⟨c, rest, rfl, hc⟩ := hatom.exists_cons
    exact ⟨c, rest ++ ['*'], rfl, hc⟩
  | start => exact ⟨'^', [], rfl, by decide⟩
  | finish => exact ⟨'$', [], rfl, by decide⟩

/-- What starts with a parenthesis stands for no items. -/
theorem Spelled.head?_ne {items : List Item} {source : List Char} (hitems : Spelled items source) :
    source.head? ≠ some '(' := by
  cases hitems with
  | nil => simp
  | cons hitem =>
    obtain ⟨c, rest, rfl, hc⟩ := hitem.exists_cons
    simpa using hc

theorem readExpression?_of_spelled {expression : Expression} {source : List Char}
    (hexpression : expression.Spelled source) : readExpression? source = some expression := by
  obtain ⟨⟨caseless, dotAll⟩, items⟩ := expression
  obtain ⟨body, hbody, rfl⟩ := hexpression
  have hread : readItems? [] body = some items := readItems?_of_spelled hbody []
  cases caseless <;> cases dotAll
  case false.false =>
    -- Where no flags are set, the first item must not be taken for a group that sets some.
    have hgroup (flags : List Char) : ('(' :: flags).isPrefixOf body = false := by
      have hhead := hbody.head?_ne
      cases body with
      | nil => rfl
      | cons c body => simp [List.isPrefixOf, show '(' ≠ c from fun heq => hhead (heq ▸ rfl)]
    simp [readExpression?, Flags.source, hgroup, hread]
  all_goals simp [readExpression?, Flags.source, hread]

/-! Places from which items read what comes next. -/

/-- Marks for the places of a text, behind a part of it, that tell where a property holds of what stands
    in front and what comes next. -/
inductive Marks (P : List Char → List Char → Prop) : List Char → List Char → List Bool → Prop
  | nil {before : List Char} {mark : Bool} (hmark : mark = true ↔ P before []) : Marks P before [] [mark]
  | cons {before rest : List Char} {c : Char} {mark : Bool} {later : List Bool}
      (hmark : mark = true ↔ P before (c :: rest)) (hlater : Marks P (before ++ [c]) rest later) :
      Marks P before (c :: rest) (mark :: later)

namespace Marks

variable {P Q : List Char → List Char → Prop} {before rest : List Char} {marks : List Bool}

theorem congr (hmarks : Marks P before rest marks) (hsame : ∀ before rest, P before rest ↔ Q before rest) :
    Marks Q before rest marks := by
  induction hmarks with
  | nil hmark => exact .nil (hmark.trans (hsame _ _))
  | cons hmark _ ih => exact .cons (hmark.trans (hsame _ _)) ih

theorem headD_iff (hmarks : Marks P before rest marks) : marks.headD false = true ↔ P before rest := by
  cases hmarks with
  | nil hmark => exact hmark
  | cons hmark => exact hmark

theorem any_iff (hmarks : Marks P before rest marks) :
    marks.any id = true ↔ ∃ front after, rest = front ++ after ∧ P (before ++ front) after := by
  induction hmarks with
  | nil hmark => simpa using hmark
  | @cons before rest c mark later hmark _ ih =>
    rw [List.any_cons, Bool.or_eq_true, ih]
    constructor
    · rintro (hhere | ⟨front, after, rfl, hlater⟩)
      · exact ⟨[], c :: rest, rfl, by simpa using hmark.1 hhere⟩
      · exact ⟨c :: front, after, rfl, by simpa using hlater⟩
    · rintro ⟨front, after, heq, hholds⟩
      cases front with
      | nil =>
        obtain rfl : c :: rest = after := heq
        exact .inl (hmark.2 (by simpa using hholds))
      | cons d front =>
        obtain ⟨rfl, rfl⟩ := List.cons.inj heq
        exact .inr ⟨front, after, rfl, by simpa using hholds⟩

variable {sign : Char → Sign} {test : Sign → Bool}

theorem oneUpTo (hmarks : Marks P before rest marks) :
    Marks (fun before rest => ∃ c after, rest = c :: after ∧ test (sign c) = true ∧ P (before ++ [c]) after)
      before rest (oneUpTo test (rest.map sign) marks) := by
  induction hmarks with
  | nil => exact .nil (by simp)
  | cons _ hlater ih =>
    refine .cons ?_ ih
    rw [Bool.and_eq_true, hlater.headD_iff]
    simp

theorem manyUpTo (hmarks : Marks P before rest marks) :
    Marks (fun before rest => ∃ part after, rest = part ++ after ∧ (∀ c ∈ part, test (sign c) = true) ∧
        P (before ++ part) after)
      before rest (manyUpTo test (rest.map sign) marks) := by
  induction hmarks with
  | nil hmark => exact .nil (by simpa [Regex.manyUpTo] using hmark)
  | @cons before rest c mark later hmark _ ih =>
    refine .cons ?_ ih
    rw [Bool.or_eq_true, Bool.and_eq_true, ih.headD_iff, hmark]
    constructor
    · rintro (hhere | ⟨hc, part, after, rfl, hpart, hholds⟩)
      · exact ⟨[], c :: rest, rfl, List.forall_mem_nil _, by simpa using hhere⟩
      · exact ⟨c :: part, after, rfl, List.forall_mem_cons.2 ⟨hc, hpart⟩, by simpa using hholds⟩
    · rintro ⟨part, after, heq, hpart, hholds⟩
      cases part with
      | nil =>
        obtain rfl : c :: rest = after := heq
        exact .inl (by simpa using hholds)
      | cons d part =>
        obtain ⟨rfl, rfl⟩ := List.cons.inj heq
        obtain ⟨hc, hpart⟩ := List.forall_mem_cons.1 hpart
        exact .inr ⟨hc, part, after, rfl, hpart, by simpa using hholds⟩

theorem finishAt (hmarks : Marks P before rest marks) :
    Marks (fun before rest => rest = [] ∧ P before []) before rest (finishAt marks) := by
  induction hmarks with
  | nil hmark => exact .nil (by simpa using hmark)
  | @cons _ _ _ _ later _ hlater ih =>
    cases later with
    | nil => cases hlater
    | cons next later => exact .cons (by simp) ih

/-- Behind some characters there is no start of the text. -/
theorem start_of_ne (hmarks : Marks P before rest marks) (hbefore : before ≠ []) :
    Marks (fun before rest => before = [] ∧ P [] rest) before rest (marks.map fun _ => false) := by
  induction hmarks with
  | nil => exact .nil (by simp [hbefore])
  | cons _ _ ih => exact .cons (by simp [hbefore]) (ih (by simp))

theorem startAt (hmarks : Marks P [] rest marks) :
    Marks (fun before rest => before = [] ∧ P [] rest) [] rest (startAt marks) := by
  cases hmarks with
  | nil hmark => exact .nil (by simpa using hmark)
  | cons hmark hlater => exact .cons (by simpa using hmark) (hlater.start_of_ne (by simp))

end Marks

theorem readsSign_plain (flags : Flags) (atom : Atom) (c : Char) :
    (atom.plain flags).readsSign flags (flags.sign c) = atom.reads flags c := by
  cases atom <;> rfl

theorem marks_upTo {flags : Flags} {item : Item} {items : List Item} {text : List Char} {marks : List Bool}
    (hmarks : Marks (ReadsFrom flags items) [] text marks) :
    Marks (ReadsFrom flags (item :: items)) [] text (item.upTo flags (text.map flags.sign) marks) := by
  cases item with
  | one atom =>
    refine hmarks.oneUpTo.congr fun before rest => ?_
    simp only [readsSign_plain, ReadsFrom, Item.Reads]
    constructor
    · rintro ⟨c, after, rfl, hc, hafter⟩
      exact ⟨[c], after, rfl, ⟨c, rfl, hc⟩, hafter⟩
    · rintro ⟨_, after, rfl, ⟨c, rfl, hc⟩, hafter⟩
      exact ⟨c, after, rfl, hc, hafter⟩
  | many atom =>
    refine hmarks.manyUpTo.congr fun before rest => ?_
    simp only [readsSign_plain, ReadsFrom, Item.Reads]
  | start =>
    refine hmarks.startAt.congr fun before rest => ?_
    constructor
    · rintro ⟨rfl, hrest⟩
      exact ⟨[], rest, rfl, ⟨rfl, rfl⟩, hrest⟩
    · rintro ⟨_, after, rfl, ⟨rfl, rfl⟩, hafter⟩
      exact ⟨rfl, hafter⟩
  | finish =>
    refine hmarks.finishAt.congr fun before rest => ?_
    constructor
    · rintro ⟨rfl, hrest⟩
      exact ⟨[], [], rfl, ⟨rfl, rfl⟩, by simpa using hrest⟩
    · rintro ⟨_, after, rfl, ⟨rfl, rfl⟩, hafter⟩
      exact ⟨rfl, by simpa using hafter⟩

theorem marks_places (flags : Flags) (items : List Item) (text : List Char) :
    Marks (ReadsFrom flags items) [] text (places flags (text.map flags.sign) items) := by
  induction items with
  | nil =>
    have hall (before : List Char) : Marks (ReadsFrom flags []) before text
        (true :: (text.map flags.sign).map fun _ => true) := by
      induction text generalizing before with
      | nil => exact .nil (by simp [ReadsFrom])
      | cons c text ih => exact .cons (by simp [ReadsFrom]) (ih _)
    exact hall []
  | cons item items ih => exact marks_upTo ih

/-- The test for an expression finds it wherever it occurs. -/
theorem test_iff_occurs (expression : Expression) (text : List Char) :
    expression.test text = true ↔ expression.Occurs text := by
  have hmarks := marks_places expression.flags expression.items text
  rw [Expression.test, hmarks.any_iff]
  rfl

theorem documented : Library.Documented where
  escape_spelled := escape_spelled
  test_iff := by
    intro expression source test hsource htest text
    have hcompile : compile source = some test := htest
    simp only [compile, readExpression?_of_spelled hsource, Option.bind_eq_bind, Option.bind_some,
      Option.ite_none_right_eq_some, Option.some.injEq] at hcompile
    rw [← hcompile.2]
    exact test_iff_occurs expression text

end TableEngine.Regex
