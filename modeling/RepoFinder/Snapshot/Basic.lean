import RepoFinder.Repository

namespace RepoFinder

structure Snapshot where
  repositories : List Repository
  searchPaths : List Path
  timestamp : Time.Timestamp
  version : Nat
deriving DecidableEq, Repr

namespace Snapshot

def currentVersion : Nat := 1

-- The snapshot of a scan's repositories. What is configured is a matter of each answer, so the
-- marks are taken off.
def take (now : Time.Timestamp) (repositories : List Repository) (searchPaths : List Path) :
    Snapshot :=
  ⟨repositories.map Repository.unmark, searchPaths, now, currentVersion⟩

def age (snapshot : Snapshot) (now : Time.Timestamp) : Time.Duration := snapshot.timestamp.age now

def isFor (snapshot : Snapshot) (searchPaths : List Path) : Bool :=
  Path.sameKeys snapshot.searchPaths searchPaths

end Snapshot

end RepoFinder
