import RepoFinder.FileSystem.Edit
import RepoFinder.Json.Path

namespace RepoFinder.FileSystem

def directoryPermissions : Nat := 0o755

def withDirectory (fs : FileSystem) (p : Path) : FileSystem :=
  (fs.makeDirectories directoryPermissions p).1

def withFolderOf (fs : FileSystem) (p : Path) : FileSystem :=
  match p.parent? with
  | none => fs
  | some folder => fs.withDirectory folder

def addDirectory (fs : FileSystem) (json : Json) : Option FileSystem :=
  (Path.ofJson? json).map fs.withDirectory

def addFile (fs : FileSystem) (json : Json) : Option FileSystem :=
  match json with
  | .array [path, content] => do
    let path ← Path.ofJson? path
    ((fs.withFolderOf path).writeFile path (Text.Utf8.encode (← content.text?))).toOption
  | _ => none

def addLink (fs : FileSystem) (json : Json) : Option FileSystem :=
  match json with
  | .array [path, target] => do
    let path ← Path.ofJson? path
    ((fs.withFolderOf path).makeLink path (← Path.ofJson? target)).toOption
  | _ => none

def itemsOf? : Option Json → Option (List Json)
  | none => some []
  | some json => json.items?

def ofListing? (json : Json) : Option FileSystem := do
  let keys := ["directories", "files", "links", "current"].map String.toList
  match ← json.record? keys with
  | [directories, files, links, current] =>
    let fs ← (← itemsOf? directories).foldlM addDirectory FileSystem.empty
    let fs ← (← itemsOf? files).foldlM addFile fs
    let fs ← (← itemsOf? links).foldlM addLink fs
    match current with
    | none => return fs
    | some current =>
      let current ← (fs.locate (← Path.ofJson? current)).toOption
      return { fs with current }
  | _ => none

end RepoFinder.FileSystem
