import RepoFinder.Git.Remote
import RepoFinder.Scan.Machine

namespace RepoFinder.Git

-- The answer for a folder. A remote without an address takes the asker down.
def answer (home : Option Path) (fs : FileSystem) (folder : Path) : Scan.Answer :=
  match remoteUrl fs home folder with
  | .ok url => .address url
  | .error .noAddress => .crash
  | .error _ => .failure

end RepoFinder.Git
