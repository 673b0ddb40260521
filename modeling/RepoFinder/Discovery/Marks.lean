import RepoFinder.FileSystem.Walk
import RepoFinder.Path.Clean

namespace RepoFinder.Discovery.Marks

-- Paths, each with whether it is configured. Paths with the same components are one path.
abbrev Choices := List (Path × Bool)

def choose (choices : Choices) (path : Path) (enabled : Bool) : Choices :=
  if choices.any fun choice => choice.1.components = path.components then
    choices.map fun choice =>
      if choice.1.components = path.components then (choice.1, enabled) else choice
  else choices ++ [(path, enabled)]

def ofList (choices : List (Path × Bool)) : Choices :=
  choices.foldl (fun chosen choice => choose chosen choice.1 choice.2) []

def keysOf (fs : FileSystem) (path : Path) : List Path.Key :=
  match fs.canonical path with
  | .ok real => [path.key, real.key]
  | .error _ => [path.key]

def keys (fs : FileSystem) (choices : Choices) : List Path.Key :=
  (choices.filter (·.2)).flatMap fun choice => keysOf fs choice.1

end RepoFinder.Discovery.Marks
