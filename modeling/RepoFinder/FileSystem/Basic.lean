import RepoFinder.Path.Basic
import RepoFinder.Time.Timestamp

namespace RepoFinder

namespace FileSystem

open RepoFinder.Time

-- A node of a file tree. Only a directory's time of modification is ever asked for.
inductive Node where
  | file (content : List UInt8) (mode : Nat)
  | link (target : Path)
  | directory (mode : Nat) (modified : Timestamp) (entries : List (Name × Node))
deriving Inhabited

-- The entries of a directory. Of two entries with one name only the first counts.
abbrev Entries := List (Name × Node)

namespace Entries

def find? (entries : Entries) (name : Name) : Option Node :=
  match entries with
  | [] => none
  | (n, node) :: rest => if n = name then some node else find? rest name

def erase (entries : Entries) (name : Name) : Entries :=
  match entries with
  | [] => []
  | (n, node) :: rest => if n = name then erase rest name else (n, node) :: erase rest name

def insert (entries : Entries) (name : Name) (node : Node) : Entries :=
  match entries with
  | [] => [(name, node)]
  | (n, old) :: rest => if n = name then (n, node) :: rest else (n, old) :: insert rest name node

def modify (entries : Entries) (name : Name) (f : Node → Node) : Entries :=
  match entries with
  | [] => []
  | (n, node) :: rest =>
    if n = name then (n, f node) :: rest else (n, node) :: modify rest name f

theorem find?_insert_self (entries : Entries) (name : Name) (node : Node) :
    (entries.insert name node).find? name = some node := by
  induction entries with
  | nil => simp [insert, find?]
  | cons entry rest ih =>
    obtain ⟨n, old⟩ := entry
    by_cases same : n = name <;> simp [insert, find?, same, ih]

theorem find?_insert_of_ne (entries : Entries) {name other : Name} (node : Node)
    (different : other ≠ name) :
    (entries.insert name node).find? other = entries.find? other := by
  induction entries with
  | nil => simp [insert, find?, Ne.symm different]
  | cons entry rest ih =>
    obtain ⟨n, old⟩ := entry
    by_cases same : n = name
    · subst same
      simp [insert, find?, Ne.symm different]
    · simp [insert, find?, same, ih]

theorem find?_erase_self (entries : Entries) (name : Name) :
    (entries.erase name).find? name = none := by
  induction entries with
  | nil => simp [erase, find?]
  | cons entry rest ih =>
    obtain ⟨n, old⟩ := entry
    by_cases same : n = name <;> simp [erase, find?, same, ih]

theorem find?_erase_of_ne (entries : Entries) {name other : Name} (different : other ≠ name) :
    (entries.erase name).find? other = entries.find? other := by
  induction entries with
  | nil => simp [erase, find?]
  | cons entry rest ih =>
    obtain ⟨n, old⟩ := entry
    by_cases same : n = name
    · subst same
      simp [erase, find?, Ne.symm different, ih]
    · simp [erase, find?, same, ih]

end Entries

abbrev Location := List Name

def Location.toPath (location : Location) : Path :=
  Path.ofComponents (.root :: location.map .name)

inductive Kind where
  | directory
  | link
  | other
deriving DecidableEq, Repr

namespace Node

def kind : Node → Kind
  | file .. => .other
  | link .. => .link
  | directory .. => .directory

def isDirectory : Node → Bool
  | directory .. => true
  | _ => false

def mode : Node → Nat
  | file _ mode => mode
  | link _ => 0o777
  | directory mode .. => mode

def setMode (mode : Nat) : Node → Node
  | file content _ => file content mode
  | link target => link target
  | directory _ modified entries => directory mode modified entries

def get? : Node → Location → Option Node
  | node, [] => some node
  | directory _ _ entries, name :: rest =>
    match Entries.find? entries name with
    | some node => get? node rest
    | none => none
  | _, _ :: _ => none

def alter (f : Entries → Entries) : Location → Node → Node
  | [], directory mode modified entries => directory mode modified (f entries)
  | name :: rest, directory mode modified entries =>
    directory mode modified (Entries.modify entries name (alter f rest))
  | _, node => node

mutual

def directoryCount : Node → Nat
  | directory _ _ entries => 1 + directoryCountIn entries
  | file .. => 0
  | link .. => 0

def directoryCountIn : List (Name × Node) → Nat
  | [] => 0
  | (_, node) :: rest => directoryCount node + directoryCountIn rest

end

mutual

def descendants (location : Location) : Node → List (Location × Node)
  | directory _ _ entries => descendantsIn location entries
  | file .. => []
  | link .. => []

def descendantsIn (location : Location) : List (Name × Node) → List (Location × Node)
  | [] => []
  | (name, node) :: rest =>
    (location ++ [name], node) :: descendants (location ++ [name]) node
      ++ descendantsIn location rest

end

end Node

end FileSystem

open FileSystem

structure FileSystem where
  root : Node
  current : Location

namespace FileSystem

def empty : FileSystem := ⟨.directory 0o755 Time.Timestamp.epoch [], []⟩

def get? (fs : FileSystem) (location : Location) : Option Node := fs.root.get? location

def alter (fs : FileSystem) (location : Location) (f : Entries → Entries) : FileSystem :=
  { fs with root := fs.root.alter f location }

end FileSystem

end RepoFinder
