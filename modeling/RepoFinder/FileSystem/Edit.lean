import RepoFinder.FileSystem.Walk

namespace RepoFinder.FileSystem

-- What the last segment of a path names inside the directory before it.
structure Slot where
  directory : Location
  name : Name
  -- Whether separators follow the name.
  slashed : Bool

def Slot.isEntry (slot : Slot) : Bool :=
  slot.name ≠ [] && slot.name ≠ Name.here && slot.name ≠ Name.parent

-- The slot of a path: all segments but the last are walked, and must lead to a directory.
def slot (fs : FileSystem) (p : Path) : Except Failure Slot := do
  checkPath p
  let trailing := p.segments.reverse.takeWhile (· = [])
  match p.segments.reverse.dropWhile (· = []) with
  | [] => return ⟨[], [], true⟩
  | name :: before =>
    match ← walk fs.root mostLinks (startOf fs.current p) before.reverse with
    | .free .. => .error .notFound
    | .taken directory =>
      let _ ← entriesAt fs.root directory
      if longestName < name.length then .error .nameTooLong
      return ⟨directory, name, !trailing.isEmpty⟩

def atSlot? (fs : FileSystem) (slot : Slot) : Option Node :=
  fs.get? (slot.directory ++ [slot.name])

def fill (fs : FileSystem) (slot : Slot) (node : Node) : FileSystem :=
  fs.alter slot.directory (·.insert slot.name node)

def clear (fs : FileSystem) (slot : Slot) : FileSystem :=
  fs.alter slot.directory (·.erase slot.name)

def makeDirectory (fs : FileSystem) (mode : Nat) (p : Path) : Except Failure FileSystem := do
  let slot ← fs.slot p
  if !slot.isEntry || (fs.atSlot? slot).isSome then .error .alreadyExists
  return fs.fill slot (.directory mode Time.Timestamp.epoch [])

def ancestorsUpTo (fuel : Nat) (p : Path) : List Path :=
  match fuel with
  | 0 => []
  | fuel + 1 => p :: match p.parent? with
    | none => []
    | some parent => ancestorsUpTo fuel parent

def ancestors (p : Path) : List Path := ancestorsUpTo (p.bytes.length + 2) p

-- Makes the first of some directories, of which each lies in the next, and before it those of the
-- others that are missing.
def makeAlong (fs : FileSystem) (mode : Nat) : List Path → FileSystem × Except Failure Unit
  | [] => (fs, .error .notFound)
  | p :: above =>
    if p.bytes.isEmpty then (fs, .ok ())
    else match fs.makeDirectory mode p with
      | .ok made => (made, .ok ())
      | .error .notFound =>
        match fs.makeAlong mode above with
        | (made, .error failure) => (made, .error failure)
        | (made, .ok ()) => match made.makeDirectory mode p with
          | .ok made => (made, .ok ())
          | .error failure => (made, if made.isDirectory p then .ok () else .error failure)
      | .error failure => (fs, if fs.isDirectory p then .ok () else .error failure)

def makeDirectories (fs : FileSystem) (mode : Nat) (p : Path) : FileSystem × Except Failure Unit :=
  fs.makeAlong mode (ancestors p)

def filePermissions : Nat := 0o644

-- Writes a file, through links; a new file has the usual permissions, an old one keeps its own.
def writeFile (fs : FileSystem) (p : Path) (content : List UInt8) : Except Failure FileSystem := do
  match ← fs.place p with
  | .free directory name =>
    return fs.fill ⟨directory, name, false⟩ (.file content filePermissions)
  | .taken location =>
    match fs.get? location, location.getLast? with
    | some (.file _ mode), some name =>
      return fs.fill ⟨location.dropLast, name, false⟩ (.file content mode)
    | _, _ => .error .isDirectory

def makeLink (fs : FileSystem) (p target : Path) : Except Failure FileSystem := do
  let slot ← fs.slot p
  if !slot.isEntry || (fs.atSlot? slot).isSome then .error .alreadyExists
  return fs.fill slot (.link target)

def checkRename (fs : FileSystem) (node : Node) (target : Slot) : Except Failure Unit :=
  if !target.isEntry then .error .busy
  else if target.slashed && !node.isDirectory then .error .notDirectory
  else match fs.atSlot? target with
    | none => .ok ()
    | some (.directory _ _ entries) =>
      if !node.isDirectory then .error .isDirectory
      else if entries.isEmpty then .ok ()
      else .error .notEmpty
    | some _ => if node.isDirectory then .error .notDirectory else .ok ()

def renameSlot (fs : FileSystem) (source : Slot) (target : Path) : Except Failure FileSystem := do
  let goal ← fs.slot target
  match fs.atSlot? source with
  | none => .error .notFound
  | some node =>
    checkRename fs node goal
    if source.directory = goal.directory && source.name = goal.name then return fs
    return (fs.clear source).fill goal node

def rename (fs : FileSystem) (source target : Path) : Except Failure FileSystem := do
  let slot ← fs.slot source
  if !slot.isEntry then .error .busy
  fs.renameSlot slot target

def removeFile (fs : FileSystem) (p : Path) : Except Failure FileSystem := do
  let slot ← fs.slot p
  if !slot.isEntry then .error .isDirectory
  match fs.atSlot? slot with
  | none => .error .notFound
  | some (.directory ..) => .error .isDirectory
  | some _ => if slot.slashed then .error .notDirectory else return fs.clear slot

def removeTree (fs : FileSystem) (p : Path) : Except Failure FileSystem := do
  let slot ← fs.slot p
  if !slot.isEntry then .error .busy
  match fs.atSlot? slot with
  | none => .error .notFound
  | some _ => return fs.clear slot

end RepoFinder.FileSystem
