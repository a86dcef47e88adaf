import EnumNames.Command.Start

/-!
# The program

The outermost layer: the files of the machine as a store, and the streams of the process. A run that
does not start because of its arguments ends with code 2, or 0 if the user asked for help.
-/

namespace EnumNames

/-- The file error behind an error of the machine, whose code comes with either sign. -/
def FileError.ofMachine (e : IO.Error) : FileError :=
  match e with
  | .noFileOrDirectory .. => .notFound
  | .alreadyExists .. => .alreadyExists
  | .inappropriateType _ code _ => if code = 20 ∨ code = -20 then .notDirectory else .isDirectory
  | .invalidArgument _ code message =>
    if code = 36 ∨ code = -36 then .nameTooLong else .other message
  | e => .other (toString e)

/-- Turns an exception into an answer. -/
def answering {α : Type} (action : IO α) : IO (Except FileError α) := do
  match ← action.toBaseIO with
  | .ok a => return .ok a
  | .error e => return .error (.ofMachine e)

instance : FileStore IO where
  read path := answering do return (← IO.FS.readBinFile path).toList
  write path content := answering (IO.FS.writeBinFile path ⟨content.toArray⟩)
  makeDirectory path := answering (IO.FS.createDir path)
  isDirectory path := do
    match ← answering (do (← IO.FS.realPath path).isDir) with
    | .ok isThere => return isThere
    | .error _ => return false

/-- Runs the program with some arguments. -/
def runProgram (arguments : List String) : IO UInt32 := do
  let stderr ← IO.getStderr
  let ending ← Command.start (m := IO) arguments
  match ending with
  | .error .helpWanted => IO.println Command.UsageError.helpWanted.message
  | .error e => stderr.putStrLn e.message
  | .ok result =>
    for line in result.log do
      stderr.putStrLn line.text
    IO.print result.stdout
    if let some e := result.error then
      stderr.putStrLn e.message
  return (Command.endCode ending).toUInt32

end EnumNames

/-- Runs the program. -/
def main (arguments : List String) : IO UInt32 :=
  EnumNames.runProgram arguments
