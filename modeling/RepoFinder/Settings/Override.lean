import RepoFinder.CommandLine
import RepoFinder.Settings.File

namespace RepoFinder.Settings

open CommandLine Time

def override (settings : Settings) (arguments : Arguments) : Settings :=
  let search := settings.search
  { settings with search := {
    depthLimit := arguments.depthLimit.getD search.depthLimit
    timeout := (arguments.timeout.map Duration.ofSeconds).getD search.timeout
    workers := arguments.workers.getD search.workers
    snapshotLife := (arguments.snapshotLife.map Duration.ofSeconds).getD search.snapshotLife
    snapshotFile := arguments.snapshotFile.or search.snapshotFile
    extraPaths := search.extraPaths } }

def forRun (fs : FileSystem) (env : Environment) (arguments : Arguments) :
    FileSystem × Except Problem Settings :=
  match load fs env arguments.settingsFile with
  | (fs, .error problem) => (fs, .error problem)
  | (fs, .ok settings) => (fs, .ok (settings.override arguments))

end RepoFinder.Settings
