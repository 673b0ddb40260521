import RepoFinder.Settings.Basic
import RepoFinder.Toml.Printer
import RepoFinder.Toml.Reader

namespace RepoFinder

open Time

namespace SearchSettings

def wordBound : Nat := UInt64.size

def pathOf? (value : Toml.Value) : Option Path := value.text?.map Path.ofText

def pathsOf? (value : Toml.Value) : Option (List Path) := value.items?.bind (·.mapM pathOf?)

def secondsOf? (value : Toml.Value) : Option Duration :=
  (value.natural? wordBound).map Duration.ofSeconds

def fieldOr (usual : α) (read : Toml.Value → Option α) : Option Toml.Value → Option α
  | none => some usual
  | some value => read value

def ofFields? : List (Option Toml.Value) → Option SearchSettings
  | [depthLimit, timeout, workers, snapshotLife, snapshotFile, extraPaths] => do
    return {
      depthLimit := ← fieldOr usual.depthLimit (·.natural? wordBound) depthLimit
      timeout := ← fieldOr usual.timeout secondsOf? timeout
      workers := ← fieldOr usual.workers (·.natural? wordBound) workers
      snapshotLife := ← fieldOr usual.snapshotLife secondsOf? snapshotLife
      snapshotFile := ← fieldOr none (fun value => (pathOf? value).map some) snapshotFile
      extraPaths := ← fieldOr usual.extraPaths pathsOf? extraPaths }
  | _ => none

def fieldNames : List Toml.Key :=
  ["max_depth", "timeout_secs", "workers", "cache_ttl_secs", "cache_file", "extra_paths"].map
    String.toList

-- The settings of a table, or of an array of the fields in their order; a date sets nothing.
def ofToml? : Toml.Value → Option SearchSettings
  | .table entries => ofFields? (fieldNames.map (Toml.Value.entry? entries))
  | .array items =>
    let given := items.take fieldNames.length
    ofFields? (given.map some ++ List.replicate (fieldNames.length - given.length) none)
  | .date => some usual
  | _ => none

def numberOf? (n : Nat) : Option Toml.Content :=
  if (n : Int) ≤ Toml.Value.greatest then some (.integer n) else none

def entries? (settings : SearchSettings) : Option (List (Toml.Key × Toml.Content)) := do
  let depthLimit ← numberOf? settings.depthLimit
  let timeout ← numberOf? settings.timeout.roundToSeconds
  let workers ← numberOf? settings.workers
  let snapshotLife ← numberOf? settings.snapshotLife.roundToSeconds
  let snapshotFile ← match settings.snapshotFile with
    | none => some []
    | some file => file.text?.map fun text => [("cache_file".toList, Toml.Content.text text)]
  let extraPaths ← settings.extraPaths.mapM Path.text?
  return [("max_depth".toList, depthLimit), ("timeout_secs".toList, timeout),
    ("workers".toList, workers), ("cache_ttl_secs".toList, snapshotLife)] ++ snapshotFile
    ++ [("extra_paths".toList, .texts extraPaths)]

end SearchSettings

namespace Settings

def versionBound : Nat := UInt32.size

def ofToml? (entries : List (Toml.Key × Toml.Value)) : Option Settings := do
  let entry (name : String) : Option Toml.Value := Toml.Value.entry? entries name.toList
  let version ← (← entry "version").natural? versionBound
  let workspaces ← match entry "workspaces" with
    | none => some []
    | some value => SearchSettings.pathsOf? value
  let search ← match entry "discovery" with
    | none => some SearchSettings.usual
    | some value => SearchSettings.ofToml? value
  return ⟨version, workspaces, search⟩

def render? (settings : Settings) : Option (List Char) := do
  let version ← SearchSettings.numberOf? settings.version
  let workspaces ← settings.workspaces.mapM Path.text?
  let search ← settings.search.entries?
  return Toml.renderEntry "version".toList version
    ++ Toml.renderEntry "workspaces".toList (.texts workspaces)
    ++ '\n' :: Toml.renderHeader "discovery".toList
    ++ search.flatMap fun (key, content) => Toml.renderEntry key content

def parse? (text : List Char) : Option Settings := (Toml.parse? text).bind ofToml?

end Settings

end RepoFinder
