import RepoFinder.FileSystem.Basic
import RepoFinder.FileSystem.Failure

namespace RepoFinder.FileSystem

inductive Place where
  | taken (location : Location)
  | free (directory : Location) (name : Name)
deriving DecidableEq, Repr

def longestName : Nat := 255

def longestPath : Nat := 4095

def mostLinks : Nat := 40

def entriesAt (root : Node) (location : Location) : Except Failure Entries :=
  match root.get? location with
  | some (.directory _ _ entries) => .ok entries
  | some _ => .error .notDirectory
  | none => .error .notFound

def startOf (current : Location) (p : Path) : Location := if p.isAbsolute then [] else current

def walkWith (root : Node) (follow : Location → List Name → Except Failure Place) :
    Location → List Name → Except Failure Place
  | location, [] => .ok (.taken location)
  | location, segment :: rest =>
    match entriesAt root location with
    | .error failure => .error failure
    | .ok entries =>
      if segment = [] || segment = Name.here then walkWith root follow location rest
      else if segment = Name.parent then walkWith root follow location.dropLast rest
      else if longestName < segment.length then .error .nameTooLong
      else match entries.find? segment with
        | none => if rest.isEmpty then .ok (.free location segment) else .error .notFound
        | some (.link target) => follow (startOf location target) (target.segments ++ rest)
        | some _ => walkWith root follow (location ++ [segment]) rest

def walk (root : Node) : (links : Nat) → Location → List Name → Except Failure Place
  | 0 => walkWith root fun _ _ => .error .tooManyLinks
  | links + 1 => walkWith root (walk root links)

def checkPath (p : Path) : Except Failure Unit :=
  if p.bytes.contains 0 then .error .zeroByte
  else if p.bytes.isEmpty then .error .notFound
  else if longestPath < p.bytes.length then .error .nameTooLong
  else .ok ()

def place (fs : FileSystem) (p : Path) : Except Failure Place :=
  match checkPath p with
  | .error failure => .error failure
  | .ok () => walk fs.root mostLinks (startOf fs.current p) p.segments

def locate (fs : FileSystem) (p : Path) : Except Failure Location :=
  match fs.place p with
  | .ok (.taken location) => .ok location
  | .ok (.free ..) => .error .notFound
  | .error failure => .error failure

def status (fs : FileSystem) (p : Path) : Except Failure Node :=
  match fs.locate p with
  | .error failure => .error failure
  | .ok location => match fs.get? location with
    | some node => .ok node
    | none => .error .notFound

def isPresent (fs : FileSystem) (p : Path) : Bool := (fs.status p).isOk

def isDirectory (fs : FileSystem) (p : Path) : Bool :=
  match fs.status p with
  | .ok node => node.isDirectory
  | .error _ => false

def canonical (fs : FileSystem) (p : Path) : Except Failure Path :=
  (fs.locate p).map Location.toPath

def contentOf (fs : FileSystem) (p : Path) : Except Failure (List UInt8) :=
  match fs.status p with
  | .ok (.file content _) => .ok content
  | .ok _ => .error .isDirectory
  | .error failure => .error failure

def readDirectory (fs : FileSystem) (p : Path) : Except Failure (List (Name × Kind)) :=
  match fs.status p with
  | .ok (.directory _ _ entries) => .ok (entries.map fun (name, node) => (name, node.kind))
  | .ok _ => .error .notDirectory
  | .error failure => .error failure

-- When the directory that a path leads to was modified; for anything else, and for nothing, the
-- start of 1970.
def modified (fs : FileSystem) (p : Path) : Time.Timestamp :=
  match fs.status p with
  | .ok (.directory _ modified _) => modified
  | _ => Time.Timestamp.epoch

end RepoFinder.FileSystem
