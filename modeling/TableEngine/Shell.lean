import TableEngine.Session
import TableEngine.Shell.Backspace
import TableEngine.Shell.Buffer
import TableEngine.Shell.Grid
import TableEngine.Shell.Options

/-!
The interactive shell, without its surroundings. It takes lines and answers with effects that are to
be carried out in order; files and clocks are left to whoever carries them out.
-/

namespace TableEngine

/-- What the shell asks its surroundings to do. -/
inductive Effect where
  /-- Print a text. -/
  | print (text : String)
  /-- Print a text where errors go. -/
  | complain (text : String)
  /-- Print the outcome of a statement with the time it took. -/
  | report (outcome : Outcome)
  /-- Write a text to a file, and print how that went. -/
  | save (path text : String)
  deriving DecidableEq

namespace Effect

/-- The complaint about an error. -/
def ofError (error : Error) : Effect :=
  .complain ("ERROR " ++ error.code ++ ": " ++ error.message ++ "\n")

/-- What is printed after a file has been written, or could not be for the given reason. -/
def saved (path : String) : Except String Unit → Effect
  | .ok _ => .print ("Saved to " ++ path ++ "\n")
  | .error reason => .ofError (.fileAccess reason)

/-- The text in which an outcome is reported. -/
def reportText (outcome : Outcome) (elapsed : Elapsed) : String :=
  let time := " (" ++ elapsed.display ++ ")\n"
  let count (n : Nat) := String.ofList (Text.natDigits n)
  match outcome with
  | .affected n => "Query OK, " ++ count n ++ " rows affected" ++ time
  | .rowSet columns rows =>
    if rows.isEmpty then "Empty set" ++ time
    else Grid.render columns rows ++ count rows.length ++ " rows in set" ++ time

end Effect

/-- A session and the lines gathered for its next statements. -/
structure Shell where
  session : Session
  gathered : List Char

namespace Shell

/-- The shell's state and effects after a line, and whether the line leaves the shell. -/
structure Step where
  shell : Shell
  effects : List Effect
  leaves : Bool

def version : String :=
  "sqlstash-cli 0.1.0\n"

def banner : String :=
  "\n sqlstash - an in-memory SQL engine\n Type '.help' for help, '.quit' to exit\n\n"

def farewell : String :=
  "Bye\n"

def help : String :=
  "\nCommands:\n" ++
  "  .help              Show this help message\n" ++
  "  .quit              Exit sqlstash\n" ++
  "  .dump              Print all databases as JSON\n" ++
  "  .save <file>       Write all databases to a JSON file\n" ++
  "  .log               Show the statements run so far\n" ++
  "\n" ++
  "Statements end with ';' or '\\g':\n" ++
  "  CREATE DATABASE shop;\n" ++
  "  USE shop;\n" ++
  "  CREATE TABLE user (id INT(10), name VARCHAR(10));\n" ++
  "  INSERT INTO user (id, name) VALUES (1, 'Jack'), (2, 'John');\n" ++
  "  SELECT * FROM user WHERE id > 1 ORDER BY id DESC LIMIT 5;\n" ++
  "  UPDATE user SET name = 'Jim' WHERE id = 2;\n" ++
  "  DELETE FROM user WHERE id >= 2;\n" ++
  "  SHOW DATABASES; SHOW TABLES; DESCRIBE user;\n" ++
  "\n"

/-- What is asked of the user when a line is to be entered. -/
def prompt (shell : Shell) : String :=
  if shell.gathered.isEmpty then "sqlstash> " else "       -> "

/-- The effects of a command of the shell, or nothing if the command leaves it. -/
def command? (session : Session) (words : List String) : Option (List Effect) :=
  match words with
  | ".help" :: _ => some [.print help]
  | ".quit" :: _ => none
  | ".exit" :: _ => none
  | ".dump" :: _ =>
    match session.exportJson with
    | .ok dump => some [.print (dump ++ "\n")]
    | .error error => some [.ofError error]
  | ".save" :: words =>
    match words, session.catalog with
    | [], _ => some [.complain "Usage: .save <file>\n"]
    | _ :: _, none => some [.complain "Nothing to save\n"]
    | path :: _, some catalog => some [.save path catalog.toJson]
  | ".log" :: _ => some (session.log.map fun text => .print (text ++ "\n"))
  | word :: _ =>
    some [.complain ("Unknown command: " ++ word ++ "\n"),
      .complain "Type '.help' for available commands.\n"]
  | [] => some []

/-- The effect that shows the result of a statement. -/
def resultEffect : Except Error Outcome → Effect
  | .ok outcome => .report outcome
  | .error error => .ofError error

/-- What a line of input says: without its end, and as its backspaces leave it. -/
def lineOf (input : List Char) : List Char :=
  Backspace.apply (Buffer.chomp input)

/-- Takes what a line of input says. -/
def feed (shell : Shell) (line : List Char) : Step :=
  match Buffer.enter shell.gathered line with
  | (.nothing, gathered) => ⟨{ shell with gathered }, [], false⟩
  | (.leave, gathered) => ⟨{ shell with gathered }, [], true⟩
  | (.command words, gathered) =>
    match command? shell.session (words.map String.ofList) with
    | some effects => ⟨{ shell with gathered }, effects, false⟩
    | none => ⟨{ shell with gathered }, [], true⟩
  | (.script text, gathered) =>
    let (session, results) := shell.session.executeScript (String.ofList text)
    ⟨⟨session, gathered⟩, results.map resultEffect, false⟩

/-- The effects of what lines of input say, up to the one that leaves the shell. -/
def feedAll (shell : Shell) : List (List Char) → List Effect
  | [] => []
  | line :: lines =>
    let step := shell.feed line
    step.effects ++ if step.leaves then [] else feedAll step.shell lines

/-- All effects of a run on a whole input. -/
def run (session : Session) (input : String) : List Effect :=
  .print banner :: feedAll ⟨session, []⟩ ((Buffer.splitLines input.toList).map lineOf) ++
    [.print farewell]

/-- Why the shell cannot start. -/
inductive StartFault where
  | failed (error : Error)
  /-- The databases could not be taken from a file. -/
  | importFailed (path : String) (error : Error)

/-- A text whose lines are indented. -/
def indent (indentation : List Char) (text : String) : List Char :=
  text.toList.flatMap fun c => if c = '\n' then '\n' :: indentation else [c]

/-- The causes of an error, from the nearest on. -/
def causes : Error → List String
  | .fileAccess reason => [(Error.fileAccess reason).message, reason]
  | error => [error.message]

/-- The text in which causes are listed. They are numbered if there are several. -/
def causesText : List String → List Char
  | [cause] => '\n' :: List.replicate 4 ' ' ++ indent (List.replicate 4 ' ') cause
  | causes => causes.zipIdx.flatMap fun (cause, n) =>
    '\n' :: List.replicate 4 ' ' ++ Text.natDigits n ++ [':', ' '] ++
      indent (List.replicate 7 ' ') cause

/-- The text in which it is said that the shell cannot start. -/
def StartFault.message : StartFault → String
  | failed error => "Error: " ++ error.message ++ "\n"
  | importFailed path error =>
    "Error: failed to import '" ++ path ++ "'\n\nCaused by:" ++
      String.ofList (causesText (causes error)) ++ "\n"

/-- The session to start with when no file is to be read. -/
def startSession (database : Option String) : Except StartFault Session :=
  (Session.start { SessionConfig.standard with defaultDatabase := database }).mapError .failed

/-- The session to start with when the databases come from a file. The database to use is chosen by a
    statement, which is logged. -/
def importSession (path : String) (contents : Except String String) (database : Option String) :
    Except StartFault Session := do
  let session := Session.fresh { SessionConfig.standard with createStorage := false }
  let imported : Except Error Session := match contents with
    | .ok text => (Session.importCatalog text).runOk session
    | .error reason => .error (.fileAccess reason)
  let session ← imported.mapError (.importFailed path)
  match database with
  | none => pure session
  | some name =>
    let (session, result) := session.execute ("USE " ++ name)
    match result with
    | .ok _ => pure session
    | .error error => .error (.failed error)

/-- The reason why a file is missing or cannot be created, in the words of the operating system. -/
def missingFile : String :=
  "No such file or directory (os error 2)"

end Shell

end TableEngine
