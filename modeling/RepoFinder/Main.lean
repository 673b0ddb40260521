import RepoFinder.FileSystem.Listing
import RepoFinder.Json.Reader
import RepoFinder.Program

namespace RepoFinder.Main

def environmentOf (files : FileSystem) : Environment :=
  ⟨some files.current.toPath, none, none, 1, 0⟩

def runOn (listing : String) (arguments : List String) : Option Program.Output := do
  let files ← FileSystem.ofListing? (← Json.parse? listing.toList)
  let (_, output) := Program.run (environmentOf files) Time.Timestamp.epoch files
    (arguments.map Text.Utf8.ofString)
  return output

end RepoFinder.Main

partial def readAll (input : IO.FS.Stream) (sofar : String) : IO String := do
  let line ← input.getLine
  if line.isEmpty then return sofar
  readAll input (sofar ++ line)

def main (arguments : List String) : IO UInt32 := do
  let listing ← readAll (← IO.getStdin) ""
  match RepoFinder.Main.runOn listing arguments with
  | none =>
    IO.eprintln "The file tree on standard input cannot be read."
    return 1
  | some output =>
    IO.print output.text
    return output.status.toUInt32
