/-!
White space: which characters count as blank, how a text is cut free of them at its ends, and how
it falls into words. Texts are lists of characters here, as everywhere below the printed surface.
-/

namespace TableEngine.Text

/-- The characters that carry Unicode's property White_Space. -/
def isBlank (c : Char) : Bool :=
  (0x9 ≤ c.toNat && c.toNat ≤ 0xD) || c.toNat == 0x20 || c.toNat == 0x85 || c.toNat == 0xA0 ||
    c.toNat == 0x1680 || (0x2000 ≤ c.toNat && c.toNat ≤ 0x200A) || c.toNat == 0x2028 ||
    c.toNat == 0x2029 || c.toNat == 0x202F || c.toNat == 0x205F || c.toNat == 0x3000

/-- Drops the blanks in front of a text. -/
def trimStart (text : List Char) : List Char :=
  text.dropWhile isBlank

/-- Drops the blanks behind a text. -/
def trimEnd (text : List Char) : List Char :=
  (text.reverse.dropWhile isBlank).reverse

/-- Drops the blanks at both ends of a text and keeps those inside. -/
def trim (text : List Char) : List Char :=
  trimEnd (trimStart text)

theorem dropWhile_isBlank_of_head? {text : List Char} (hfirst : ∀ c ∈ text.head?, isBlank c = false) :
    text.dropWhile isBlank = text := by
  cases text with
  | nil => rfl
  | cons c rest => rw [List.dropWhile_cons_of_neg (by simp [hfirst c rfl])]

/-- A text with no blank at either end is not cut. -/
theorem trim_of_ends {text : List Char} (hfirst : ∀ c ∈ text.head?, isBlank c = false)
    (hlast : ∀ c ∈ text.getLast?, isBlank c = false) : trim text = text := by
  rw [trim, trimStart, dropWhile_isBlank_of_head? hfirst, trimEnd, dropWhile_isBlank_of_head?,
    List.reverse_reverse]
  rwa [List.head?_reverse]

theorem trim_append_of_isBlank {blanks : List Char} (hblanks : ∀ c ∈ blanks, isBlank c = true)
    (text : List Char) : trim (blanks ++ text) = trim text := by
  rw [trim, trimStart, List.dropWhile_append_of_pos hblanks]
  rfl

/-- What is cut off behind a text are blanks. -/
theorem exists_trimEnd_append (text : List Char) :
    ∃ blanks, (∀ c ∈ blanks, isBlank c = true) ∧ text = trimEnd text ++ blanks := by
  refine ⟨(text.reverse.takeWhile isBlank).reverse, fun c hc => ?_, ?_⟩
  · exact List.all_eq_true.1 List.all_takeWhile c (List.mem_reverse.1 hc)
  · rw [trimEnd, ← List.reverse_append, List.takeWhile_append_dropWhile, List.reverse_reverse]

/-- What is cut off around a text are blanks. -/
theorem exists_trim_append (text : List Char) :
    ∃ front back, (∀ c ∈ front, isBlank c = true) ∧ (∀ c ∈ back, isBlank c = true) ∧
      text = front ++ (trim text ++ back) := by
  obtain ⟨back, hback, htext⟩ := exists_trimEnd_append (trimStart text)
  refine ⟨text.takeWhile isBlank, back, ?_, hback, ?_⟩
  · exact fun c hc => List.all_eq_true.1 List.all_takeWhile c hc
  · rw [trim, ← htext, trimStart, List.takeWhile_append_dropWhile]

theorem trim_eq_nil_iff {text : List Char} : trim text = [] ↔ ∀ c ∈ text, isBlank c = true := by
  constructor
  · intro htrim
    obtain ⟨blanks, hblanks, hstart⟩ := exists_trimEnd_append (trimStart text)
    have hnil : trimEnd (trimStart text) = [] := htrim
    rw [hnil, List.nil_append] at hstart
    intro c hc
    rw [← List.takeWhile_append_dropWhile (p := isBlank) (l := text), List.mem_append] at hc
    rcases hc with hfront | hrest
    · exact List.all_eq_true.1 List.all_takeWhile c hfront
    · exact hblanks c (hstart ▸ hrest)
  · intro hblanks
    have htrim := trim_append_of_isBlank hblanks []
    rwa [List.append_nil] at htrim

/-- The maximal runs without a blank, from left to right. -/
def words : List Char → List (List Char)
  | [] => []
  | c :: rest =>
    if isBlank c then words rest
    else (c :: rest.takeWhile (!isBlank ·)) :: words (rest.dropWhile (!isBlank ·))
termination_by text => text.length
decreasing_by
  · simp
  · have hshort := (List.dropWhile_suffix (l := rest) (!isBlank ·)).length_le
    simp only [List.length_cons]
    omega

end TableEngine.Text
