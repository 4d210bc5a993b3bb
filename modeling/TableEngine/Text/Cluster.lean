import TableEngine.Text.ClusterTable
import TableEngine.Text.Ranges

/-!
The pieces of a text that people take for one character: a letter with its accents, a Hangul syllable,
a conjunct of consonants, an emoji made of several, a flag. The pieces are Unicode's extended grapheme
clusters, here called clusters. A text is the concatenation of its clusters.
-/

namespace TableEngine.Text

/-- What a character does at the border of two clusters. -/
inductive ClusterClass where
  | carriageReturn
  | lineFeed
  | control
  | extend
  | joiner
  | spacingMark
  | prepended
  /-- Half of a flag. -/
  | regional
  | leading
  | vowel
  | trailing
  /-- A Hangul syllable that can still take a closing letter. -/
  | openSyllable
  | closedSyllable
  | pictographic
  | consonant
  | other
  deriving DecidableEq

/-- The class of a character outside ASCII, whose part in clusters is told by the tables. -/
def wideClass (c : Char) : ClusterClass :=
  if c = '\u200D' then .joiner
  else if inRanges ClusterTable.control c then .control
  else if inRanges ClusterTable.extend c then .extend
  else if inRanges ClusterTable.spacingMark c then .spacingMark
  else if inRanges ClusterTable.prepended c then .prepended
  else if inRanges [(0x1F1E6, 0x1F1FF)] c then .regional
  else if inRanges ClusterTable.leading c then .leading
  else if inRanges ClusterTable.vowel c then .vowel
  else if inRanges ClusterTable.trailing c then .trailing
  else if inRanges [(0xAC00, 0xD7A3)] c then
    if (c.toNat - 0xAC00) % 28 = 0 then .openSyllable else .closedSyllable
  else if inRanges ClusterTable.pictographic c then .pictographic
  else if inRanges ClusterTable.consonant c then .consonant
  else .other

def clusterClass (c : Char) : ClusterClass :=
  if c = '\r' then .carriageReturn
  else if c = '\n' then .lineFeed
  else if c.toNat < 0x20 then .control
  else if c.toNat < 0x7F then .other
  else wideClass c

def isLinker (c : Char) : Bool :=
  inRanges ClusterTable.linker c

/-- Whether a mark can stand between the consonants of a conjunct. All marks can but one, which keeps
    them apart. -/
def isConjunctMark (c : Char) : Bool :=
  clusterClass c == .joiner || clusterClass c == .extend && c != '\u200C'

/-- Whether a text, nearest character first, ends with a consonant that is linked to what follows. -/
def endsLinked (before : List Char) : Bool :=
  match before.dropWhile isConjunctMark with
  | c :: _ => clusterClass c == .consonant && (before.takeWhile isConjunctMark).any isLinker
  | [] => false

/-- Whether a text, nearest character first, ends with a picture and marks on it. -/
def endsPictured (before : List Char) : Bool :=
  match before.dropWhile (clusterClass · == .extend) with
  | c :: _ => clusterClass c == .pictographic
  | [] => false

/-- Whether a text, nearest character first, ends with a half flag that still lacks its other half. -/
def endsHalfFlag (before : List Char) : Bool :=
  (before.takeWhile (clusterClass · == .regional)).length % 2 = 1

/-- Whether a character continues the cluster with which the text before it ends, nearest character
    first. -/
def continuesCluster (before : List Char) (c : Char) : Bool :=
  match before with
  | [] => false
  | b :: earlier =>
    match clusterClass b, clusterClass c with
    | .carriageReturn, .lineFeed => true
    | .carriageReturn, _ | .lineFeed, _ | .control, _ => false
    | _, .carriageReturn | _, .lineFeed | _, .control => false
    | .leading, .leading | .leading, .vowel | .leading, .openSyllable | .leading, .closedSyllable => true
    | .openSyllable, .vowel | .openSyllable, .trailing | .vowel, .vowel | .vowel, .trailing => true
    | .closedSyllable, .trailing | .trailing, .trailing => true
    | _, .extend | _, .joiner | _, .spacingMark => true
    | .prepended, _ => true
    | _, .consonant => endsLinked before
    | .joiner, .pictographic => endsPictured earlier
    | .regional, .regional => endsHalfFlag before
    | _, _ => false

/-- The clusters of a text that follows on `before`, nearest character first, where a new cluster is
    known to begin. -/
def clustersAfter (before : List Char) : List Char → List (List Char)
  | [] => []
  | c :: rest =>
    match rest, clustersAfter (c :: before) rest with
    | d :: _, cluster :: clusters =>
      if continuesCluster (c :: before) d then (c :: cluster) :: clusters
      else [c] :: cluster :: clusters
    | _, _ => [[c]]

theorem flatten_clustersAfter (before text : List Char) :
    (clustersAfter before text).flatten = text := by
  induction text generalizing before with
  | nil => rfl
  | cons c rest ih =>
    have hrest := ih (c :: before)
    cases rest with
    | nil => rfl
    | cons d rest =>
      cases hclusters : clustersAfter (c :: before) (d :: rest) with
      | nil => simp [hclusters] at hrest
      | cons cluster clusters =>
        rw [hclusters] at hrest
        rw [clustersAfter.eq_def]
        simp only [hclusters]
        split <;> simpa using hrest

/-- The clusters of a text, from left to right. -/
def clusters (text : List Char) : List (List Char) :=
  clustersAfter [] text

/-- No character of a text is lost, and none changes its place. -/
theorem flatten_clusters (text : List Char) : (clusters text).flatten = text :=
  flatten_clustersAfter [] text

end TableEngine.Text
