import RepoFinder.Environment
import RepoFinder.Scan.Run

namespace RepoFinder

open Time

structure SearchSettings where
  depthLimit : Nat
  timeout : Duration
  -- The number of workers; zero stands for one for each processor.
  workers : Nat
  snapshotLife : Duration
  snapshotFile : Option Path
  extraPaths : List Path
deriving DecidableEq, Repr

namespace SearchSettings

def usualTimeout : Duration := Duration.ofSeconds 10

def usualLife : Duration := Duration.ofSeconds 3600

def usual : SearchSettings := ⟨4, usualTimeout, 0, usualLife, none, []⟩

def normalized (env : Environment) (settings : SearchSettings) : SearchSettings where
  depthLimit := settings.depthLimit
  timeout := if settings.timeout.isZero then usualTimeout else settings.timeout
  workers := if settings.workers = 0 then max 1 env.processors else settings.workers
  snapshotLife := if settings.snapshotLife.isZero then usualLife else settings.snapshotLife
  snapshotFile := some (settings.snapshotFile.getD env.snapshotPath)
  extraPaths := settings.extraPaths

def snapshotPath (env : Environment) (settings : SearchSettings) : Path :=
  settings.snapshotFile.getD env.snapshotPath

def scanOptions (settings : SearchSettings) : Scan.Options where
  depthLimit := settings.depthLimit
  workers := max 1 settings.workers
  timeout := settings.timeout
  capacity := Scan.Queue.usualCapacity

end SearchSettings

structure Settings where
  version : Nat
  workspaces : List Path
  search : SearchSettings
deriving DecidableEq, Repr

namespace Settings

def usual : Settings := ⟨1, [], SearchSettings.usual⟩

end Settings

end RepoFinder
