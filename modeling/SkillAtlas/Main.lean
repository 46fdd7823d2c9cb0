import SkillAtlas.Command.Arguments
import SkillAtlas.Command.Run
import SkillAtlas.Spinner

/-!
# The program

Reads the files that a command line names, carries the command out, and writes what it printed and stored.
-/

namespace SkillAtlas.Program

open Command (Console Ending)

/-- The files with one more path, if there is something under it. -/
def withPath (files : Files) (name : String) : IO Files := do
  let path := Path.ofText name
  try
    let bytes ← IO.FS.readBinFile name
    return { files with files := (path, bytes) :: files.files }
  catch
    | .noFileOrDirectory .. => return files
    | _ => return files.makeFolder path

def configHome : IO String := do
  match ← IO.getEnv "XDG_CONFIG_HOME" with
  | some home => return home
  | none => return (← IO.getEnv "HOME").getD "" ++ "/.config"

/-- Shows the spinner until a task has ended. -/
partial def spin {α : Type} (s : Spinner) (task : Task α) (n width : Nat) : IO Unit := do
  if ← IO.hasFinished task then IO.eprint (Spinner.clearing width)
  else
    let text := s.frameText n
    IO.eprint text
    IO.sleep 200
    spin s task (n + 1) (max width text.length)

/-- Waits for a command, with the spinner where it is wanted. -/
def await {α : Type} (shown : Bool) (task : Task α) : IO α := do
  let s := Spinner.forStream "Analyzing" shown (← (← IO.getStderr).isTty)
  if s.enabled then spin s task 0 0
  return task.get

def store (before : Files) (c : Console) (home : Path) : IO Unit := do
  let path := UserSettings.fileIn home
  if c.files.folders.contains (UserSettings.folderIn home) then
    IO.FS.createDirAll (UserSettings.folderIn home).text
  match c.files.bytes? path with
  | some bytes => if before.bytes? path != some bytes then IO.FS.writeBinFile path.text bytes
  | none => return ()

def finish : Ending → IO UInt32
  | .done code => return code.toUInt32
  | .help code => do
    IO.print (Command.ended Command.helpLines)
    return code.toUInt32
  | .usage => do
    IO.eprintln Command.usageLine
    return 2
  | .fault f => do
    IO.eprintln ("Fault: " ++ f.message?.getD "the command could not be carried out")
    return 1

def run (args : List String) : IO UInt32 := do
  let home := Path.ofText (← configHome)
  let command := (Command.parse args).toOption.bind Invocation.command
  let names := (UserSettings.fileIn home).text :: (command.map Command.filesRead).getD []
  let files ← names.foldlM withPath {}
  let task := Task.spawn fun _ => Command.respond home files args
  let (ending, console) ← await (command.any Command.showsProgress) task
  IO.eprint (Command.ended console.errors)
  IO.print (Command.ended console.output)
  store files console home
  finish ending

end SkillAtlas.Program

def main (args : List String) : IO UInt32 :=
  SkillAtlas.Program.run args
