/-
The program.

It reads and writes real files.  Its steps and problems go to the error stream, and the
declarations to the output stream unless they are written to a file.
-/
import ApiTypings.CommandLine.Run
import Std.Time.DateTime.Timestamp

namespace ApiTypings.CommandLine

/-- Whether an action ends without an error. -/
def succeeds (action : IO Unit) : IO Bool := do
  try
    action
    return true
  catch _ => return false

/-- Access to the files of the system. -/
def realFiles : FileSystem IO where
  read path := do
    try return some (← IO.FS.readFile path)
    catch _ => return none
  makeDirectories path := succeeds (IO.FS.createDirAll path)
  write path content := succeeds (IO.FS.writeFile path content)

/-- The present point in time. -/
def presentTime : IO Timestamp := do
  let now ← Std.Time.Timestamp.now
  let nanoseconds := now.toNanosecondsSinceUnixEpoch.val
  return ⟨nanoseconds / 1000000000, (nanoseconds % 1000000000).toNat⟩

/-- Shows what a run tells, and answers with the exit code. -/
def tell (report : Report) : IO UInt32 := do
  for line in report.progress do
    IO.eprintln ("✔ " ++ line)
  for warning in report.warnings do
    IO.eprintln ("WARN " ++ warning.text ++ " location=" ++ warning.location)
  IO.print report.standardOutput
  match report.problem with
  | none => return 0
  | some problem =>
    IO.eprintln ("error: " ++ problem.fullMessage)
    return 1

end ApiTypings.CommandLine

open ApiTypings.CommandLine in
/-- Runs the program with its arguments. -/
def main (arguments : List String) : IO UInt32 := do
  match Arguments.ofList arguments with
  | .ok arguments => tell (← arguments.run realFiles (← presentTime))
  | .error refusal =>
    if refusal.isRequest then
      IO.print refusal.message
      return 0
    else
      IO.eprint refusal.message
      return 2
