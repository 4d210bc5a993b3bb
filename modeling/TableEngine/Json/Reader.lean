import TableEngine.Error
import TableEngine.Json.Lexer
import TableEngine.OrderedMap
import TableEngine.Value

/-!
Reading values from JSON tokens, one token after the other. The first fault in the order of the text
is the one that is reported; whatever is not of the expected shape is `ImportFault.malformed`.
-/

namespace TableEngine.Json

/-- A reader of tokens. It gives a value and the tokens behind it, or says what is wrong. -/
structure Reader (α : Type) where
  run : List Token → Except ImportFault (α × List Token)
  run_suffix : ∀ {tokens a rest}, run tokens = .ok (a, rest) → rest <:+ tokens

namespace Reader

variable {α : Type}

instance : Monad Reader where
  pure a := {
    run := fun tokens => .ok (a, tokens)
    run_suffix := by
      intro tokens a rest hrun
      simp only [Except.ok.injEq, Prod.mk.injEq] at hrun
      exact hrun.2 ▸ List.suffix_rfl }
  bind r f := {
    run := fun tokens =>
      match r.run tokens with
      | .ok (a, rest) => (f a).run rest
      | .error fault => .error fault
    run_suffix := by
      intro tokens b rest hrun
      split at hrun
      · next a behind hfirst => exact ((f a).run_suffix hrun).trans (r.run_suffix hfirst)
      · simp at hrun }

@[simp]
theorem run_pure (a : α) (tokens : List Token) : (pure a : Reader α).run tokens = .ok (a, tokens) :=
  rfl

@[simp]
theorem run_bind {β : Type} (r : Reader α) (f : α → Reader β) (tokens : List Token) :
    (r >>= f).run tokens =
      match r.run tokens with
      | .ok (a, rest) => (f a).run rest
      | .error fault => .error fault :=
  rfl

/-- Reports a fault. -/
def fail (fault : ImportFault) : Reader α where
  run _ := .error fault
  run_suffix hrun := by simp at hrun

def malformed : Reader α :=
  fail .malformed

/-- Looks at the token to read next, if there is one, and leaves it there. -/
def peek : Reader (Option Token) where
  run tokens := .ok (tokens.head?, tokens)
  run_suffix := by
    intro tokens a rest hrun
    simp only [Except.ok.injEq, Prod.mk.injEq] at hrun
    exact hrun.2 ▸ List.suffix_rfl

/-- Takes the token to read next, which has to have a meaning. -/
def takeSome (meaning? : Token → Option α) : Reader α where
  run tokens :=
    match tokens with
    | [] => .error .malformed
    | token :: rest =>
      match meaning? token with
      | some a => .ok (a, rest)
      | none => .error .malformed
  run_suffix := by
    intro tokens a rest hrun
    split at hrun
    · simp at hrun
    · split at hrun
      · simp only [Except.ok.injEq, Prod.mk.injEq] at hrun
        exact hrun.2 ▸ List.suffix_cons _ _
      · simp at hrun

/-- Takes the given token, which has to come next. -/
def expect (token : Token) : Reader Unit :=
  takeSome fun next => if next = token then some () else none

/-- Takes the given token if it comes next, and says whether it did. -/
def accept (token : Token) : Reader Bool := do
  if (← peek) = some token then
    expect token
    pure true
  else pure false

/-- The text that a token holds. -/
def text? : Token → Option String
  | .text s => some s
  | _ => none

def text : Reader String :=
  takeSome text?

/-- The cell that a token stands for: null, a text or an integer in range. -/
def cell? : Token → Option Value
  | .null => some .null
  | .text s => some (.text s)
  | .integer n => (Text.toInt64? n).map Value.integer
  | _ => none

def cell : Reader Value :=
  takeSome cell?

/-- Reads the members of an object that is open already, up to its end. Each member is handed on with
    what `name?` makes of its name, and changes the state. -/
def runMembers {κ σ : Type} (name? : Token → Option κ) (member : σ → κ → Reader σ) (state : σ) :
    (tokens : List Token) → Except ImportFault (σ × List Token)
  | key :: .colon :: value =>
    match name? key with
    | none => .error .malformed
    | some name =>
      match _ : (member state name).run value with
      | .ok (state, .closeObject :: rest) => .ok (state, rest)
      | .ok (state, .comma :: rest) => runMembers name? member state rest
      | .ok _ => .error .malformed
      | .error fault => .error fault
  | _ => .error .malformed
termination_by tokens => tokens.length
decreasing_by
  have hmember := ((member _ _).run_suffix ‹_›).length_le
  simp only [List.length_cons] at hmember ⊢
  omega

theorem runMembers_suffix {κ σ : Type} {name? : Token → Option κ} {member : σ → κ → Reader σ}
    {state final : σ} {tokens rest : List Token}
    (hrun : runMembers name? member state tokens = .ok (final, rest)) : rest <:+ tokens := by
  fun_induction runMembers name? member state tokens with
  | case1 => simp at hrun
  | case2 state key value name hname state' behind hmember =>
    simp only [Except.ok.injEq, Prod.mk.injEq] at hrun
    have hvalue := (member state name).run_suffix hmember
    rw [← hrun.2]
    exact ((List.suffix_cons _ _).trans hvalue).trans
      ((List.suffix_cons _ _).trans (List.suffix_cons _ _))
  | case3 state key value name hname state' behind hmember ih =>
    have hvalue := (member state name).run_suffix hmember
    exact (((ih hrun).trans (List.suffix_cons _ _)).trans hvalue).trans
      ((List.suffix_cons _ _).trans (List.suffix_cons _ _))
  | case4 => simp at hrun
  | case5 => simp at hrun
  | case6 => simp at hrun

/-- Reads an object member by member, starting from a state. -/
def objectBy {κ σ : Type} (name? : Token → Option κ) (member : σ → κ → Reader σ) (state : σ) :
    Reader σ := do
  expect .openObject
  if ← accept .closeObject then pure state
  else ⟨runMembers name? member state, runMembers_suffix⟩

/-- Reads an object member by member, starting from a state. The names are made of characters. -/
def object {σ : Type} (member : σ → String → Reader σ) (state : σ) : Reader σ :=
  objectBy text? member state

/-- Reads an object whose members are all of one kind. A name that is repeated keeps its first place
    and its last value. -/
def map (value : Reader α) : Reader (OrderedMap α) :=
  object (fun entries name => do pure (entries.insert name (← value))) .empty

/-- Puts an element in front of the elements behind it, if these could be read. -/
def prepend (first : α) (others : Except ImportFault (List α × List Token)) :
    Except ImportFault (List α × List Token) :=
  others.map fun (others, rest) => (first :: others, rest)

/-- Reads the elements of an array that is open already, up to its end. -/
def runElements (element : Reader α) (tokens : List Token) :
    Except ImportFault (List α × List Token) :=
  match _ : element.run tokens with
  | .ok (first, .closeArray :: rest) => .ok ([first], rest)
  | .ok (first, .comma :: rest) => prepend first (runElements element rest)
  | .ok _ => .error .malformed
  | .error fault => .error fault
termination_by tokens.length
decreasing_by
  have helement := (element.run_suffix ‹_›).length_le
  simp only [List.length_cons] at helement
  omega

theorem runElements_suffix {element : Reader α} {tokens rest : List Token} {elements : List α}
    (hrun : runElements element tokens = .ok (elements, rest)) : rest <:+ tokens := by
  fun_induction runElements element tokens generalizing elements with
  | case1 tokens first behind helement =>
    simp only [Except.ok.injEq, Prod.mk.injEq] at hrun
    rw [← hrun.2]
    exact (List.suffix_cons _ _).trans (element.run_suffix helement)
  | case2 tokens first behind helement ih =>
    unfold prepend at hrun
    cases hothers : runElements element behind with
    | error fault => simp [hothers, Except.map] at hrun
    | ok others =>
      simp only [hothers, Except.map, Except.ok.injEq, Prod.mk.injEq] at hrun
      have hrest : rest <:+ behind := ih (by rw [hothers, ← hrun.2])
      exact (hrest.trans (List.suffix_cons _ _)).trans (element.run_suffix helement)
  | case3 => simp at hrun
  | case4 => simp at hrun

/-- Reads an array whose elements are all of one kind. -/
def array (element : Reader α) : Reader (List α) := do
  expect .openArray
  if ← accept .closeArray then pure [] else ⟨runElements element, runElements_suffix⟩

/-- Whether a token can be the name of a member that is forgotten. -/
def anyName? : Token → Option Unit
  | .text _ => some ()
  | .brokenText => some ()
  | _ => none

/-- Whether a token makes up a value on its own. -/
def anyScalar? : Token → Option Unit
  | .null => some ()
  | .boolean _ => some ()
  | .integer _ => some ()
  | .otherNumber => some ()
  | .text _ => some ()
  | .brokenText => some ()
  | _ => none

/-- Reads a value of any shape that nests at most `depth` objects and arrays, and forgets it. The
    texts in it need not be made of characters. -/
def skipNested : (depth : Nat) → Reader Unit
  | 0 => takeSome anyScalar?
  | depth + 1 => do
    match ← peek with
    | some .openObject => objectBy anyName? (fun _ _ => skipNested depth) ()
    | some .openArray =>
      let _ ← array (skipNested depth)
      pure ()
    | _ => takeSome anyScalar?

/-- The number of tokens that are still to be read. -/
def remaining : Reader Nat where
  run tokens := .ok (tokens.length, tokens)
  run_suffix := by
    intro tokens a rest hrun
    simp only [Except.ok.injEq, Prod.mk.injEq] at hrun
    exact hrun.2 ▸ List.suffix_rfl

/-- Reads a value of any shape and forgets it. It cannot nest deeper than there are tokens. -/
def skip : Reader Unit := do
  skipNested (← remaining)

/-- What a reader makes of a whole text. Nothing may follow on the value. -/
def readText (reader : Reader α) (text : List Char) : Except ImportFault α :=
  match reader.run (Lexer.readAll text) with
  | .ok (value, []) => .ok value
  | .ok _ => .error .malformed
  | .error fault => .error fault

end Reader

end TableEngine.Json
