import RepoFinder.FileSystem.Edit
import RepoFinder.Snapshot.Format

namespace RepoFinder.Snapshot

open FileSystem

inductive Problem where
  | failed (path : Path) (failure : Failure)
  -- A path in the snapshot has no text; the file is the temporary one.
  | noText (file : Path)
deriving Repr

def Problem.message : Problem → String
  | failed path failure => "I/O error on " ++ path.display ++ ": " ++ failure.message
  | noText file => "I/O error on " ++ file.display ++ ": path contains invalid UTF-8 characters"

def folderOf (file : Path) : Path :=
  match file.parent? with
  | some parent => if parent.bytes.isEmpty then ⟨Name.here⟩ else parent
  | none => ⟨Name.here⟩

def folderPermissions : Nat := 0o700

def filePermissions : Nat := 0o600

inductive Stage where
  | starting
  | creating
  -- Still to write: the given bytes, or a text that does not exist.
  | writing (temporary : Slot) (rest : Option (List UInt8))
  | restricting (temporary : Slot)
  | syncing (temporary : Slot)
  | renaming (temporary : Slot)
  | saved
  | failed (problem : Problem)

structure Save where
  target : Path
  text : Option (List UInt8)
  temporary : Name
  stage : Stage

-- What the system does with one stage of a save. Only taking the temporary file away again is never
-- refused.
inductive Turnout where
  -- Lets it happen; a stage of writing writes so many bytes.
  | granted (piece : Nat)
  -- Refuses it. Where folders are made, so many of the innermost ones are missing by then.
  | refused (failure : Failure) (missing : Nat)

namespace Save

def begun (file : Path) (snapshot : Snapshot) (temporary : Name) : Save :=
  ⟨file, snapshot.render?, temporary, .starting⟩

def folder (save : Save) : Path := folderOf save.target

def temporaryPath (save : Save) : Path := save.folder.child save.temporary

def inStage (save : Save) (stage : Stage) : Save := { save with stage }

def alterSlot (fs : FileSystem) (slot : Slot) (f : Node → Node) : FileSystem :=
  fs.alter slot.directory (·.modify slot.name f)

def append (piece : List UInt8) : Node → Node
  | .file content mode => .file (content ++ piece) mode
  | node => node

def draft? (save : Save) : Option (Slot × Option (List UInt8)) :=
  match save.stage with
  | .writing slot rest => some (slot, rest)
  | .restricting slot => some (slot, some [])
  | .syncing slot => some (slot, some [])
  | .renaming slot => some (slot, some [])
  | _ => none

def abandon (fs : FileSystem) (problem : Problem) (save : Save) : FileSystem × Save :=
  match save.draft? with
  | some (slot, _) => (fs.clear slot, save.inStage (.failed problem))
  | none => (fs, save)

def step (fs : FileSystem) (piece : Nat) (save : Save) : FileSystem × Save :=
  match save.stage with
  | .starting =>
    match fs.makeDirectories folderPermissions save.folder with
    | (made, .ok ()) => (made, save.inStage .creating)
    | (made, .error failure) => (made, save.inStage (.failed (.failed save.folder failure)))
  | .creating =>
    match fs.slot save.temporaryPath with
    | .error failure => (fs, save.inStage (.failed (.failed save.folder failure)))
    | .ok slot =>
      if (fs.atSlot? slot).isSome then
        (fs, save.inStage (.failed (.failed save.folder .alreadyExists)))
      else
        (fs.fill slot (.file [] filePermissions), save.inStage (.writing slot save.text))
  | .writing slot none => (fs.clear slot, save.inStage (.failed (.noText save.temporaryPath)))
  | .writing slot (some []) => (fs, save.inStage (.restricting slot))
  | .writing slot (some rest) =>
    (alterSlot fs slot (append (rest.take piece)),
      save.inStage (.writing slot (some (rest.drop piece))))
  | .restricting slot =>
    (alterSlot fs slot (Node.setMode filePermissions), save.inStage (.syncing slot))
  | .syncing slot => (fs, save.inStage (.renaming slot))
  | .renaming slot =>
    match fs.renameSlot slot save.target with
    | .ok renamed => (renamed, save.inStage .saved)
    | .error failure => (fs.clear slot, save.inStage (.failed (.failed save.target failure)))
  | .saved => (fs, save)
  | .failed _ => (fs, save)

-- A stage of a save that the system refuses. What is written is told apart by its stage from what
-- puts it in place: the one fails on the temporary file, the other on the target.
def refuse (fs : FileSystem) (failure : Failure) (missing : Nat) (save : Save) :
    FileSystem × Save :=
  match save.stage with
  | .starting =>
    ((fs.makeAlong folderPermissions ((ancestors save.folder).drop missing)).1,
      save.inStage (.failed (.failed save.folder failure)))
  | .creating => (fs, save.inStage (.failed (.failed save.folder failure)))
  | .renaming _ => save.abandon fs (.failed save.target failure)
  | _ => save.abandon fs (.failed save.temporaryPath failure)

@[irreducible]
def through : List Turnout → FileSystem → Save → FileSystem × Save
  | [], fs, save => (fs, save)
  | turnout :: later, fs, save =>
    let (fs, save) := match turnout with
      | .granted piece => save.step fs piece
      | .refused failure missing => save.refuse fs failure missing
    through later fs save

def result? (save : Save) : Option (Except Problem Unit) :=
  match save.stage with
  | .saved => some (.ok ())
  | .failed problem => some (.error problem)
  | _ => none

def mostStages : Nat := 7

end Save

def temporaryName (n : Nat) : Name := Text.Utf8.ofString (".tmp" ++ toString n)

def freshName (taken : List Name) : Name :=
  match (List.range (taken.length + 1)).find? fun n => !taken.contains (temporaryName n) with
  | some n => temporaryName n
  | none => temporaryName 0

def namesBeside (fs : FileSystem) (file : Path) : List Name :=
  match fs.readDirectory (folderOf file) with
  | .ok entries => entries.map (·.1)
  | .error _ => []

def withFolder (fs : FileSystem) (file : Path) : FileSystem :=
  (fs.makeDirectories folderPermissions (folderOf file)).1

-- A save with which the system goes along, writing its text at once.
def save (fs : FileSystem) (file : Path) (snapshot : Snapshot) :
    FileSystem × Except Problem Unit :=
  let start := Save.begun file snapshot (freshName (namesBeside (withFolder fs file) file))
  let goesAlong : Turnout := .granted (start.text.getD []).length
  let (fs, ended) := start.through (List.replicate Save.mostStages goesAlong) fs
  (fs, ended.result?.getD (.ok ()))

def load? (fs : FileSystem) (file : Path) : Option Snapshot :=
  match fs.contentOf file with
  | .ok content => parse? content
  | .error _ => none

def discard (fs : FileSystem) (file : Path) : FileSystem × Except Problem Unit :=
  match fs.removeFile file with
  | .ok removed => (removed, .ok ())
  | .error .notFound => (fs, .ok ())
  | .error failure => (fs, .error (.failed file failure))

end RepoFinder.Snapshot
