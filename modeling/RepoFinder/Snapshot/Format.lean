import RepoFinder.Json.Path
import RepoFinder.Json.Printer
import RepoFinder.Json.Reader
import RepoFinder.Snapshot.Basic
import RepoFinder.Time.Rfc3339

namespace RepoFinder

namespace Time.Timestamp

def toJson (t : Timestamp) : Json := Json.ofText (Rfc3339.render t)

def ofJson? (json : Json) : Option Timestamp := json.text?.bind Rfc3339.parse?

end Time.Timestamp

namespace Repository

def toJson? (repository : Repository) : Option Json :=
  repository.path.toJson?.map fun path => Json.ofFields [
    ("path", path),
    ("name", Json.ofString repository.name),
    ("remote_url", Json.ofString repository.remoteUrl),
    ("last_modified", repository.modified.toJson),
    ("is_configured", .bool repository.isConfigured)]

def fieldNames : List (List Char) :=
  ["path", "name", "remote_url", "last_modified", "is_configured"].map String.toList

def ofJson? (json : Json) : Option Repository := do
  match ← json.record? fieldNames with
  | [some path, some name, url, some modified, configured] =>
    let path ← Path.ofJson? path
    let name ← name.text?
    let url ← match url with
      | none => some []
      | some url => url.text?
    let modified ← Time.Timestamp.ofJson? modified
    let configured ← match configured with
      | none => some false
      | some configured => configured.bool?
    return ⟨path, String.ofList name, String.ofList url, modified, configured⟩
  | _ => none

end Repository

namespace Snapshot

def toJson? (snapshot : Snapshot) : Option Json := do
  let repositories ← snapshot.repositories.mapM Repository.toJson?
  let searchPaths ← snapshot.searchPaths.mapM Path.toJson?
  return Json.ofFields [
    ("repositories", .array repositories),
    ("search_paths", .array searchPaths),
    ("timestamp", snapshot.timestamp.toJson),
    ("version", Json.ofNat snapshot.version)]

def versionBound : Nat := UInt32.size

def version? (json : Json) : Option Nat := do
  match ← json.record? ["version".toList] with
  | [some version] => version.natural? versionBound
  | _ => none

def fieldNames : List (List Char) :=
  ["repositories", "search_paths", "timestamp", "version"].map String.toList

def ofJson? (json : Json) : Option Snapshot := do
  match ← json.record? fieldNames with
  | [some repositories, some searchPaths, some timestamp, some version] =>
    let repositories ← (← repositories.items?).mapM Repository.ofJson?
    let searchPaths ← (← searchPaths.items?).mapM Path.ofJson?
    let timestamp ← Time.Timestamp.ofJson? timestamp
    let version ← version.natural? versionBound
    return ⟨repositories, searchPaths, timestamp, version⟩
  | _ => none

def render? (snapshot : Snapshot) : Option (List UInt8) :=
  snapshot.toJson?.map fun json => Text.Utf8.encode json.compact

def parse? (bytes : List UInt8) : Option Snapshot := do
  let json ← Json.parse? (← Text.Utf8.decode? bytes)
  if (← version? json) = currentVersion then ofJson? json else none

end Snapshot

end RepoFinder
