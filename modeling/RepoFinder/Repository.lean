import RepoFinder.Path.Clean
import RepoFinder.Time.Timestamp

namespace RepoFinder

-- A directory that holds a repository. Its name is the last component of its path; the address of
-- its remote is kept beside it, so that two copies of one remote stay apart.
structure Repository where
  path : Path
  name : String
  remoteUrl : String
  modified : Time.Timestamp
  isConfigured : Bool
deriving DecidableEq, Repr, Inhabited

namespace Repository

def nameOf (path : Path) : String :=
  match path.fileName? with
  | some name => name.display
  | none => path.display

def ofPath (path : Path) (remoteUrl : String) (modified : Time.Timestamp) : Repository :=
  ⟨path, nameOf path, remoteUrl, modified, false⟩

def display (repository : Repository) : String :=
  repository.name ++ " (" ++ repository.path.display ++ ")"

def mark (configured : List Path.Key) (repository : Repository) : Repository :=
  { repository with isConfigured := configured.contains repository.path.key }

def unmark (repository : Repository) : Repository := { repository with isConfigured := false }

end Repository

end RepoFinder
