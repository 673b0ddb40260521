import RepoFinder.FileSystem.Edit
import RepoFinder.Git.Line

namespace RepoFinder.Git

open FileSystem

def isFile (fs : FileSystem) (p : Path) : Bool :=
  match fs.status p with
  | .ok (.file ..) => true
  | _ => false

def entryOf (folder : Path) (name : String) : Path := folder.join (Path.ofString name)

-- A path that a file in a folder names. Unless it starts with a dot step it does not depend on
-- the folder.
def fromFolder (folder : Path) (target : Line) : Path :=
  if Line.isDotted target then folder.join target.toPath else target.toPath

def commonFolder? (fs : FileSystem) (folder : Path) : Option Path :=
  let file := entryOf folder "commondir"
  if isFile fs file then
    match fs.contentOf file with
    | .error _ => none
    | .ok content => (fs.canonical (fromFolder folder (Line.ofFile content))).toOption
  else some folder

def pointerMark : Line := "gitdir:".toList

def pointed? (fs : FileSystem) (file : Path) : Option Path :=
  match fs.contentOf file with
  | .error _ => none
  | .ok content => match pointerMark.isPrefixOf? (Line.trimEnd (Line.ofBytes content)) with
    | none => none
    | some [] => none
    | some target =>
      let target := Line.beforeZero (Line.skipSpace target)
      (fs.canonical ((file.parent?.getD Path.empty).join target.toPath)).toOption

def resolveNames? (kept : List Name) : List Name → Option (List Name)
  | [] => some kept.reverse
  | name :: rest =>
    if name = [] || name = Name.here then resolveNames? kept rest
    else if name = Name.parent then match kept with
      | [] => none
      | _ :: kept => resolveNames? kept rest
    else resolveNames? (name :: kept) rest

-- An absolute path with its dots resolved by its text alone. A separator is left at its end where
-- a dot stood there.
def resolve? (p : Path) : Option Path :=
  let isDirectory := match p.segments.getLast? with
    | none => false
    | some name => name = [] || name = Name.here || name = Name.parent
  (resolveNames? [] p.segments).map fun names =>
    ⟨Path.joinSegments ([] :: names ++ if isDirectory && !names.isEmpty then [[]] else [])⟩

def wayBackFile (folder : Path) : Path := entryOf folder "gitdir"

def wayBack? (fs : FileSystem) (folder : Path) : Option Path :=
  match fs.contentOf (wayBackFile folder) with
  | .error _ => none
  | .ok content =>
    let target := Line.ofFile content
    if Line.isDotted target then resolve? (folder.join target.toPath) else some target.toPath

def isUnharmed (fs : FileSystem) (p : Path) : Bool :=
  match fs.slot p with
  | .error failure => failure = .notFound
  | .ok slot =>
    if slot.isEntry && !slot.slashed then true
    else match fs.status p with
      | .error failure => failure = .notFound
      | .ok _ => true

end RepoFinder.Git
