import TableEngine.Shell

/-!
The command line: carries out the shell's effects on real files and streams.
-/

namespace TableEngine.Main

/-- The reason for a failed file operation. -/
def reason : IO.Error → String
  | .noFileOrDirectory .. => Shell.missingFile
  | error => toString error

/-- The result of a file operation, or the reason why it failed. -/
def attempt {α : Type} (action : IO α) : IO (Except String α) := do
  match ← action.toBaseIO with
  | .ok a => pure (.ok a)
  | .error error => pure (.error (reason error))

def carryOut (elapsed : Elapsed) (effect : Effect) : IO Unit := do
  let output ← IO.getStdout
  match effect with
  | .print text => output.putStr text
  | .complain text => (← IO.getStderr).putStr text
  | .report outcome => output.putStr (Effect.reportText outcome elapsed)
  | .save path text =>
    match Effect.saved path (← attempt (IO.FS.writeFile path text)) with
    | .complain text => (← IO.getStderr).putStr text
    | .print text => output.putStr text
    | _ => pure ()
  output.flush

partial def loop (shell : Shell) : IO Unit := do
  let input ← IO.getStdin
  if ← input.isTty then
    IO.print shell.prompt
    (← IO.getStdout).flush
  let line ← input.getLine
  if line.isEmpty then return
  let before ← IO.monoNanosNow
  let step := shell.feed (Shell.lineOf line.toList)
  let leaves := step.leaves
  let after ← IO.monoNanosNow
  for effect in step.effects do
    carryOut (.of 0 (after - before)) effect
  unless leaves do loop step.shell

def open? (options : Options) : IO (Except Shell.StartFault Session) := do
  match options.importPath with
  | none => pure (Shell.startSession options.database)
  | some path =>
    pure (Shell.importSession path (← attempt (IO.FS.readFile path)) options.database)

def run (options : Options) : IO UInt32 := do
  match ← open? options with
  | .error fault =>
    IO.eprint fault.message
    pure 1
  | .ok session =>
    IO.print Shell.banner
    loop ⟨session, []⟩
    IO.print Shell.farewell
    pure 0

end TableEngine.Main

def main (arguments : List String) : IO UInt32 := do
  match TableEngine.Options.parse arguments with
  | .version =>
    IO.print TableEngine.Shell.version
    pure 0
  | .misuse argument =>
    IO.eprintln ("error: unexpected argument '" ++ argument ++ "'")
    pure 2
  | .run options => TableEngine.Main.run options
