import JournalScript.CommandLine.Run

/-!
# JournalScript.Main

The command on a real file system. What the command may touch is read into a tree, the command runs
on that tree, and the file that it has written goes back to disk.
-/

namespace JournalScript
namespace Command

def locationOf (cwd : Location) (name : Text) : Location :=
  ((Path.ofText name).normal cwd).parts

/-- The places on the way to a place, the nearest to the root first. -/
def waypoints (loc : Location) : List Location :=
  (List.range loc.length).map fun n => loc.take (n + 1)

def diskName (loc : Location) : String := String.ofList ('/' :: Text.join ['/'] loc)

def addPlace (t : Tree) (loc : Location) : IO Tree := do
  let onDisk := (← IO.currentDir) / diskName loc
  if ← onDisk.isDir then return t.set loc .directory
  else if ← onDisk.pathExists then
    return t.set loc (.file (← IO.FS.readBinFile onDisk).toList)
  else return t

def readVars : IO Variables := do
  let mut vs := Variables.empty
  for name in [Layout.lineVariable, Layout.outputVariable, Layout.skipVariable,
      Help.columnsVariable] do
    match ← IO.getEnv (String.ofList name) with
    | some value => vs := vs.set name value.toList
    | none => pure ()
  return vs

/-- Writes the files at the given places that are not as they were. -/
def writeBack (before after : Tree) (places : List Location) : IO Unit := do
  for loc in places do
    match after.get? loc with
    | some (.file content) =>
      if after.get? loc ≠ before.get? loc then
        IO.FS.writeBinFile (diskName loc) content.toByteArray
    | _ => pure ()

def run (argv : List Text) : IO UInt32 := do
  let cwd := (Path.ofText (← IO.currentDir).toString.toList).parts
  let names := match Arguments.parse argv with
    | .ok a => a.path :: a.write.toList
    | .error _ => []
  let places := names.map (locationOf cwd)
  let tree ← (waypoints cwd ++ places.flatMap waypoints).foldlM addPlace .empty
  let ending := CommandLine.run ⟨.plain cwd, ← readVars, []⟩ tree argv
  writeBack tree ending.tree places
  IO.print (String.ofList ending.output)
  IO.eprint (String.ofList ending.errors)
  match ending.exit with
  | .ok code => return UInt32.ofNat code
  | .error fault =>
    IO.eprintln (String.ofList fault.message)
    return 1

end Command
end JournalScript

def main (args : List String) : IO UInt32 := JournalScript.Command.run (args.map String.toList)
