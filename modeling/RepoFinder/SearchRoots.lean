import RepoFinder.FileSystem.Walk
import RepoFinder.Path.Clean

namespace RepoFinder.SearchRoots

def usualFolders : List Path := [
  "Projects", "projects", "Code", "code", "Developer", "dev", "Repos", "repos", "src", "go/src",
  "workspace", "Workspace", "GitHub", "Desktop"].map Path.ofString

def candidates (home : Option Path) (asked extra : List Path) : List Path :=
  if asked.isEmpty then
    extra.map (Path.expandTilde home) ++ match home with
      | none => []
      | some home => usualFolders.map home.join
  else asked.map (Path.expandTilde home)

def absolute (current p : Path) : Path := (current.join p).clean

def firstOfEachKey (seen : List Path.Key) : List Path → List Path
  | [] => []
  | p :: rest =>
    if seen.contains p.key then firstOfEachKey seen rest
    else p :: firstOfEachKey (p.key :: seen) rest

def resolve (fs : FileSystem) (home : Option Path) (asked extra : List Path) : List Path :=
  let current := fs.current.toPath
  firstOfEachKey [] (((candidates home asked extra).map (absolute current)).filter fs.isDirectory)

end RepoFinder.SearchRoots
