import RepoFinder.Scan.Machine
import RepoFinder.Snapshot.Format

namespace RepoFinder.Discovery

structure Answer where
  repositories : List Repository
  count : Nat
  cached : Bool
  ageMillis : Option Nat
  refreshing : Bool
  elapsedMillis : Nat
  stats : Scan.Stats
  searchPaths : List Path
deriving DecidableEq, Repr

namespace Answer

def ofScan (repositories : List Repository) (stats : Scan.Stats) (searchPaths : List Path)
    (elapsedMillis : Nat) : Answer :=
  ⟨repositories, repositories.length, false, none, false, elapsedMillis, stats, searchPaths⟩

def ofSnapshot (repositories : List Repository) (searchPaths : List Path) (ageMillis : Nat)
    (refreshing : Bool) (elapsedMillis : Nat) : Answer :=
  ⟨repositories, repositories.length, true, some ageMillis, refreshing, elapsedMillis,
    ⟨0, 0, false⟩, searchPaths⟩

def toJson? (answer : Answer) : Option Json := do
  let repositories ← answer.repositories.mapM Repository.toJson?
  let searchPaths ← answer.searchPaths.mapM Path.toJson?
  return Json.ofFields [
    ("repositories", .array repositories),
    ("count", Json.ofNat answer.count),
    ("cached", .bool answer.cached),
    ("cache_age_ms", match answer.ageMillis with
      | none => .null
      | some age => Json.ofNat age),
    ("refresh_in_progress", .bool answer.refreshing),
    ("elapsed_ms", Json.ofNat answer.elapsedMillis),
    ("scanned_dirs", Json.ofNat answer.stats.scannedDirs),
    ("skipped_dirs", Json.ofNat answer.stats.skippedDirs),
    ("timed_out", .bool answer.stats.timedOut),
    ("search_paths", .array searchPaths)]

end Answer

end RepoFinder.Discovery
