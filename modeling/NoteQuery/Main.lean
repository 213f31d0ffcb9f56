import NoteQuery.Command.Run

/-!
The program. It takes in the files that a command works on, runs the command, and shows and writes
what comes out of it.
-/

namespace NoteQuery

def Moment.ofFileTime? (t : IO.FS.SystemTime) : Option Moment :=
  Moment.ofLocalMicros? (t.sec * 1000000 + t.nsec.toNat / 1000) none

/-- The time now, which is that of a file just made. -/
def presentMoment : IO Moment := do
  let (_, path) ← IO.FS.createTempFile
  let changed := (← path.metadata).modified
  IO.FS.removeFile path
  return (Moment.ofFileTime? changed).getD (.startOf ⟨1970, 1, 1, by decide, by decide, by decide⟩)

/-- What an entry of a folder holds. What cannot be read is left out. -/
partial def treeOf (entry : IO.FS.DirEntry) : IO (Option FileTree) := do
  try
    if ← entry.path.isDir then
      let mut entries := []
      for below in ← entry.path.readDir do
        if let some t ← treeOf below then
          entries := Entries.put below.fileName t entries
      return some (.folder entries)
    else
      let changed := (← entry.path.metadata).modified
      return some (.file (← IO.FS.readBinFile entry.path) (Moment.ofFileTime? changed))
  catch _ => return none

def straightNames (disk : Disk) (p : Path) : List String :=
  (disk.names p).foldl (fun names n => if n = ".." then names.dropLast else names ++ [n]) []

def addFolder (disk : Disk) (names : List String) : Disk :=
  let place : Path := ⟨"/", names⟩
  if disk.isFolder place then disk else disk.put place .empty

/-- Takes what stands at a path onto a disk, with the folders on the way there. -/
def addPath (disk : Disk) (path : String) : IO Disk := do
  let p := Path.ofText path
  let disk := (List.range p.components.length).foldl (fun disk i =>
    addFolder disk (straightNames disk ⟨p.root, p.components.take i⟩)) disk
  match ← treeOf ⟨← IO.currentDir, path⟩ with
  | some t => return disk.put ⟨"/", straightNames disk p⟩ t
  | none => return disk

def Command.paths : Command → List String
  | .query vault base .. | .write vault base .. => [vault, base]
  | .functions => []
  | .plugins vault _ folder => [vault, (Path.ofText vault |>.join (Path.ofText folder)).text]

def diskFor (arguments : List String) : IO Disk := do
  let here := Path.ofText (← IO.currentDir).toString
  let disk : Disk := addFolder ⟨.empty, here.components⟩ here.components
  match Command.Start.ofArguments arguments with
  | .command _ name rest =>
    match Command.ofArguments? name rest with
    | some (some command) => command.paths.foldlM addPath disk
    | _ => return disk
  | _ => return disk

def settingVariables : IO (List (String × String)) :=
  Settings.fieldNames.filterMapM fun field => do
    let name := (Command.program ++ "_" ++ field).toUpper
    return (← IO.getEnv name).map (name, ·)

/-- Writes the file of an outcome; where that fails, the command is broken. -/
def finish (outcome : Command.Outcome) : IO Command.Outcome := do
  match outcome.file with
  | none => return outcome
  | some (path, text) =>
    try
      IO.FS.writeFile path.text text
      return outcome
    catch _ => return .broken

end NoteQuery

open NoteQuery in
def main (arguments : List String) : IO UInt32 := do
  let surface : Command.Surface :=
    ⟨← diskFor arguments, ← settingVariables, ← presentMoment⟩
  let outcome ← finish (Command.run surface arguments)
  IO.print outcome.output
  return outcome.exitCode.toUInt32
