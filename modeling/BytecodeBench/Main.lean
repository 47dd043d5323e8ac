import BytecodeBench.CommandLine.Entry
import BytecodeBench.Sieve

/-!
The program on a real folder. It loads the files of the folder it is called in, runs the command on
them, and writes back the files that the command made or changed. It starts no other programs: to a
command, none is found.
-/

namespace BytecodeBench

/-- What lies outside when no other program is there and the clock stands still. -/
def Outside.alone : Outside where
  behaviour _ _ := none
  tick _ := 0
  prime n := some (Sieve.nthPrime n)
  interpreter := "python"
  find _ := none

/-- The entries at and below a place, by the parts of their paths. Links and hidden folders are passed
over, and a file that is no text counts as empty. -/
partial def loadEntries (above : List String) (place : IO.FS.DirEntry) :
    IO (List (List String × Entry)) := do
  let parts := above ++ [place.fileName]
  match (← place.path.symlinkMetadata).type with
  | .dir =>
    if place.fileName.startsWith "." then return []
    let below ← (← place.path.readDir).toList.mapM (loadEntries parts)
    return (parts, .folder) :: below.flatten
  | .file =>
    let content ← try IO.FS.readFile place.path catch _ => pure ""
    return [(parts, .file content)]
  | _ => return []

/-- The folder that the program is called in. -/
def loadFolder : IO Folder := do
  let here ← IO.currentDir
  let entries ← (← here.readDir).toList.mapM (loadEntries [])
  return { root := .ofText here.toString, entries := entries.flatten }

/-- The entries of a folder that are not the same in an earlier one. -/
def Folder.changesSince (after before : Folder) : List (List String × Entry) :=
  after.entries.filter fun (parts, entry) => before.entries.find? parts != some entry

/-- Makes an entry in the folder that the program is called in. -/
def storeEntry (parts : List String) (entry : Entry) : IO Unit := do
  let place := Text.join "/" parts
  match entry with
  | .file content =>
    if parts.length > 1 then IO.FS.createDirAll (Text.join "/" parts.dropLast)
    IO.FS.writeFile place content
  | .folder => IO.FS.createDirAll place
  | .archive _ => return ()

/-- The code of an exit as a program gives it back. -/
def exitCode (exit : Int) : UInt32 := (exit % 256).toNat.toUInt32

end BytecodeBench

open BytecodeBench in
/-- Runs a command in the folder it is called in. -/
def main (words : List String) : IO UInt32 := do
  let before ← loadFolder
  let ending := CommandLine.runIn Outside.alone before words
  for (parts, entry) in ending.bench.suite.folder.changesSince before do
    storeEntry parts entry
  IO.print ending.bench.out
  IO.eprint ending.errors
  if let some fault := ending.escaped then
    IO.eprintln fault.message
  return exitCode ending.exit
