import TableEngine.Dump

/-!
What a statement that succeeds gives back, and how it is written as JSON.
-/

namespace TableEngine

/-- The result of a statement. -/
inductive Outcome where
  /-- A change, with the number of rows or tables it counts. -/
  | affected (count : Nat)
  /-- Rows, with the columns they are to be shown under. -/
  | rowSet (columns : List String) (rows : List Row)
  deriving DecidableEq, Inhabited

/-- A span of time: whole seconds and less than a second more. -/
structure Elapsed where
  seconds : Nat
  nanoseconds : Nat
  deriving DecidableEq

namespace Elapsed

def second : Nat :=
  1000000000

/-- A span in which the nanoseconds may make up whole seconds. -/
def of (seconds nanoseconds : Nat) : Elapsed :=
  ⟨seconds + nanoseconds / second, nanoseconds % second⟩

def json (elapsed : Elapsed) : List Json.Token :=
  Json.object [("secs", [.integer elapsed.seconds]), ("nanos", [.integer elapsed.nanoseconds])]

/-- The span in seconds with two places, rounded to the nearest. -/
def display (elapsed : Elapsed) : String :=
  let hundredths := elapsed.seconds * 100 + (elapsed.nanoseconds + 5000000) / 10000000
  String.ofList (Text.natDigits (hundredths / 100) ++ '.' ::
    [Nat.digitChar (hundredths % 100 / 10), Nat.digitChar (hundredths % 10)]) ++ " sec"

end Elapsed

namespace Outcome

/-- An outcome and the time it took as a JSON object. -/
def json (outcome : Outcome) (elapsed : Elapsed) : List Json.Token :=
  match outcome with
  | affected count =>
    Json.object [("type", [.text "ok"]), ("affected_rows", [.integer count]),
      ("elapsed", elapsed.json)]
  | rowSet columns rows =>
    Json.object [("type", [.text "rows"]), ("columns", Json.texts columns),
      ("rows", Json.array (rows.map Row.json)), ("elapsed", elapsed.json)]

def toJson (outcome : Outcome) (elapsed : Elapsed) : String :=
  String.ofList (Json.compact (outcome.json elapsed))

end Outcome

end TableEngine
