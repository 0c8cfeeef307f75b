import LinePatch.Command.Run

/-!
# The program on files

Reads the files that a command needs, runs it, and carries out its output.

* `main`: the program.
-/

namespace LinePatch

/-! ## Files -/

/-- Whether a system reports an error code, which may come with its sign turned. -/
def reports (reported code : UInt32) : Bool := reported == code || reported == 0 - code

/-- The reason of a failed system call. -/
def FileError.ofSystem : IO.Error → FileError
  | .noFileOrDirectory _ _ _ => .notFound
  | .inappropriateType _ code details =>
    if reports code 20 then .notADirectory
    else if reports code 21 then .isADirectory
    else .other details
  | .invalidArgument _ code details =>
    if reports code 36 then .nameTooLong
    else if reports code 22 then .embeddedNul
    else .other details
  | e => .other (toString e)

/-- Reads the text of a file. -/
def readFile (path : Text) : IO (Except FileError Text) := do
  match ← (IO.FS.readBinFile path.asString).toBaseIO with
  | .error e => return .error (.ofSystem e)
  | .ok bytes =>
    match Text.ofUtf8? bytes.toList with
    | none => return .error .invalidUtf8
    | some t => return .ok t

/-- Writes the text of a file into a new one in its directory and then puts that in its place, so
that no reader meets half of it. The name of the new file is short, whatever the other one is. -/
def writeFile (path t : Text) : IO (Except FileError Unit) := do
  let name := ".part-" ++ toString (← IO.monoNanosNow)
  let draft := (Path.join (Path.parent path) name.toList).asString
  let write : IO Unit := do
    IO.FS.withFile draft .writeNew (·.putStr t.asString)
    IO.FS.rename draft path.asString
  match ← write.toBaseIO with
  | .error e => return .error (.ofSystem e)
  | .ok () => return .ok ()

/-! ## Commands -/

/-- What was read of some files. -/
def known (files : List (Text × Except FileError Text)) (path : Text) : Except FileError Text :=
  match files.find? (·.1 == path) with
  | none => .error .notFound
  | some (_, contents) => contents

/-- Reads the files of a command: its first one, then the one that it works on. -/
def readFiles (command : Command) : IO (Text → Except FileError Text) := do
  let first ← command.firstFile?.toList.mapM fun path => return (path, ← readFile path)
  let last ← (command.target? (known first)).toList.mapM fun path =>
    return (path, ← readFile path)
  return known (first ++ last)

/-- Prints an output; the exit code that it leaves. -/
def Output.print (o : Output) : IO UInt32 := do
  IO.print o.stdout
  IO.eprint o.stderr
  return UInt32.ofNat o.exitCode

/-- Commits the outcome of an output and prints it, or the failure of the commit. -/
def Output.carryOut (o : Output) : IO UInt32 := do
  match o.outcome.filter (·.written) with
  | none => o.print
  | some outcome =>
    match ← writeFile outcome.path outcome.after with
    | .ok () => o.print
    | .error e =>
      let failure := FileFailure.unreadable outcome.path e
      Output.print
        { exitCode := failure.exitCode, stderr := unlines (Command.failureLines [] failure) }

end LinePatch

open LinePatch in
/-- Runs the command that the arguments ask for. -/
def main (args : List String) : IO UInt32 := do
  match Command.ofArguments (args.map String.toList) with
  | .error stop => (Program.stopped stop).print
  | .ok command => (command.run (← readFiles command)).carryOut
