import Reckon.Cli.Run

/-!
# The command-line program

The program reads the files a run may need from the working directory, runs the command line
on them, prints what the run printed, logs to standard error, writes back the files the run
changed, and exits with the run's status. The interactive calculator is fed one line of
standard input at a time, so that each answer is printed as soon as its line is read; a batch
reads all of standard input first.
-/

open Reckon Reckon.Cli

/-- The text of a file, if it can be read. -/
def readText (path : String) : IO (Option String) := do
  try
    return some (← IO.FS.readFile path)
  catch _ =>
    return none

/-- The working directory with the files a run may read. -/
def loadDisk (root : String) (paths : List String) : IO Disk := do
  let mut d := Disk.empty root
  for p in paths do
    if let some text ← readText p then
      d := d.place p text
  return d

/-- All of a stream up to its end. -/
partial def readAll (s : IO.FS.Stream) (acc : String) : IO String := do
  let line ← s.getLine
  if line.isEmpty then return acc else readAll s (acc ++ line)

/-- Prints the output and log entries the console has gained since `shown`. -/
def flush (c : Console) (shown : Nat × Nat) : IO (Nat × Nat) := do
  IO.print (c.out.drop shown.1).toString
  for e in c.logs.toList.drop shown.2 do
    IO.eprintln (Console.jsonLine e)
  (← IO.getStdout).flush
  return (c.out.length, c.logs.size)

/-- Feeds standard input to the interactive calculator, a line at a time. -/
partial def converse (stdin : IO.FS.Stream) (t : Terminal) (shown : Nat × Nat) :
    IO (Terminal × Nat × Nat) := do
  if t.ended then return (t, shown)
  let line ← stdin.getLine
  let t := if line.isEmpty then t.close else t.act (.send line)
  let shown ← flush t.console shown
  converse stdin t shown

/-- Runs the command line on the program's arguments. -/
def main (args : List String) : IO UInt32 := do
  let root := (← IO.currentDir).toString
  let disk ← loadDisk root (inputsOf args)
  let stdin ← IO.getStdin
  let (outcome, shown) ← match launch ⟨args, disk, []⟩ with
    | .waiting t =>
      let shown ← flush t.console (0, 0)
      let (t, shown) ← converse stdin t shown
      pure (t.outcome, shown)
    | .finished o =>
      if readsInput args then
        let text ← readAll stdin ""
        pure (run ⟨args, disk, [.send text]⟩, (0, 0))
      else pure (o, (0, 0))
  let _ ← flush outcome.console shown
  for line in outcome.console.errorLines do
    IO.eprintln line
  for (path, text) in outcome.disk.listing do
    if (disk.read path).toOption != some text then
      IO.FS.writeFile path text
  return outcome.exit.toUInt32
