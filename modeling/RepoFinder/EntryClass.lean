import RepoFinder.FileSystem.Basic

namespace RepoFinder

open FileSystem

inductive EntryClass where
  | sentinel
  | link
  | noise
  | hidden
  | descend
  | ignored
deriving DecidableEq, Repr

namespace EntryClass

def sentinelName : String := ".git"

def noiseNames : List String := [
  "node_modules", "bower_components", "jspm_packages", "vendor", "Pods", "site-packages", ".npm",
  ".yarn", ".pnpm-store", ".cargo", ".rustup", ".gradle", ".m2",
  "target", "build", "dist", "out", "obj", "DerivedData", "CMakeFiles", ".next", ".nuxt",
  ".terraform",
  "__pycache__", "venv", ".venv", ".tox", ".pytest_cache", ".mypy_cache", ".cache",
  ".idea", ".vscode", ".vs",
  ".svn", ".hg", ".bzr", "CVS", "_darcs",
  "Library", "Applications", "System", ".Trash", "AppData", "$RECYCLE.BIN",
  "System Volume Information", "lost+found"]

def sameName (a b : String) : Bool := a.toList.map Char.toLower = b.toList.map Char.toLower

def isNoise (name : String) : Bool := noiseNames.any (sameName name)

def ofEntry (name : String) : Kind → EntryClass
  | .other => ignored
  | .link => link
  | .directory =>
    if name = sentinelName then sentinel
    else if isNoise name then noise
    else if name.toList.head? = some '.' then hidden
    else descend

def countsAsSkipped : EntryClass → Bool
  | noise => true
  | hidden => true
  | _ => false

end EntryClass

def withinDepth (depth limit : Nat) : Bool := limit == 0 || depth ≤ limit

end RepoFinder
