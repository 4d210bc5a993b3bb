import TableEngine.Text.CaseTable
import TableEngine.Text.Ranges

/-!
Letter case beyond ASCII. Three readings of it are needed: the lower-case text that comparisons and
sorting use, the folding of single characters that patterns match under, and the capitals in which
keywords are looked up.
-/

namespace TableEngine.Text

/-- The lower-case form of a character for which that form is one character. Every other character,
    `İ` among them, is its own. -/
def lowerChar (c : Char) : Char :=
  let row := CaseTable.lower.find? fun (first, last, step, _) =>
    first ≤ c.toNat && c.toNat ≤ last && (c.toNat - first) % step == 0
  match row with
  | some (_, _, _, offset) => Char.ofNat (c.toNat + offset).toNat
  | none => c

/-- Whether a character has a letter case of its own. -/
def isCased (c : Char) : Bool :=
  inRanges CaseTable.cased c

/-- Whether a character, an accent or an apostrophe for instance, leaves the case of its word open. -/
def isCaseIgnorable (c : Char) : Bool :=
  inRanges CaseTable.ignorable c

/-- Whether the first character that decides about case is a cased one. -/
def leadsToCased (text : List Char) : Bool :=
  match text.dropWhile isCaseIgnorable with
  | [] => false
  | c :: _ => isCased c

/-- The lower-case form of a character between the text `before` it, nearest character first, and the
    text `after` it. A sigma at the end of a word is written `ς`, and `İ` keeps its dot as a
    combining mark. -/
def lowerForm (before : List Char) (c : Char) (after : List Char) : List Char :=
  if c = '\u03A3' then
    if leadsToCased before && !leadsToCased after then ['\u03C2'] else ['\u03C3']
  else if c = '\u0130' then ['i', '\u0307']
  else [lowerChar c]

/-- The lower-case form of a text that follows on `before`, nearest character first. -/
def lowerAfter (before : List Char) : List Char → List Char
  | [] => []
  | c :: rest => lowerForm before c rest ++ lowerAfter (c :: before) rest

/-- The lower-case form of a text. -/
def lower (text : List Char) : List Char :=
  lowerAfter [] text

/-- The representative of all characters that differ from `c` in case alone, by Unicode's simple case
    folding: the lower-case form, with variants such as `ſ`, `ς` and `ϑ` led back to the plain
    letter. Since every character keeps its length, `ß` folds with `ẞ` but not with `ss`. Folding
    follows an older version of Unicode than lower-case forms do, and leaves the capitals that are new
    since then as they are. -/
def fold (c : Char) : Char :=
  if inRanges CaseTable.unfolded c then c
  else
    let small := lowerChar c
    match CaseTable.variants.lookup small.toNat with
    | some plain => Char.ofNat plain
    | none => small

/-- The characters that have `small` as their lower-case form, itself not counted. -/
def capitalsOf (small : Char) : List Char :=
  CaseTable.lower.filterMap fun (first, last, step, offset) =>
    let capital := (small.toNat - offset).toNat
    if first ≤ capital && capital ≤ last && (capital - first) % step == 0 then
      some (Char.ofNat capital)
    else none

/-- All characters that fold as `c` does, `c` among them: the plain letter, its lower-case variants and
    the capitals of these. -/
def caseVariants (c : Char) : List Char :=
  let plain := fold c
  let others := CaseTable.variants.filterMap fun (variant, target) =>
    if target = plain.toNat then some (Char.ofNat variant) else none
  let smalls := plain :: others
  smalls ++ (smalls.flatMap capitalsOf).filter (fold · = plain)

/-- The capitals of a character, where they are ASCII: `ſ`, `ı`, `ß` and the Latin ligatures are the
    only characters outside ASCII that have such capitals. -/
def asciiCapitals? (c : Char) : Option (List Char) :=
  if c.toNat < 0x80 then some [c.toUpper]
  else match c with
    | '\u00DF' => some ['S', 'S']
    | '\u0131' => some ['I']
    | '\u017F' => some ['S']
    | '\uFB00' => some ['F', 'F']
    | '\uFB01' => some ['F', 'I']
    | '\uFB02' => some ['F', 'L']
    | '\uFB03' => some ['F', 'F', 'I']
    | '\uFB04' => some ['F', 'F', 'L']
    | '\uFB05' => some ['S', 'T']
    | '\uFB06' => some ['S', 'T']
    | _ => none

/-- The capitals of a word, or nothing when one of them lies outside ASCII. -/
def capitals? (word : List Char) : Option (List Char) :=
  (word.mapM asciiCapitals?).map List.flatten

end TableEngine.Text
