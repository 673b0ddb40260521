import RepoFinder.Discovery.Answer
import RepoFinder.Discovery.Marks
import RepoFinder.Scan.Run
import RepoFinder.SearchRoots
import RepoFinder.Settings.Basic
import RepoFinder.Snapshot.Store

namespace RepoFinder.Discovery

open Time

structure Host where
  settings : SearchSettings
  home : Option Path
  file : Path
  scan : FileSystem → List Path → Scan.Sink → Scan.Result
  launch : List Path → Except Scan.Fault Scan.Course
  -- How far a background scan gets on a tree, from so many roots.
  proceed : FileSystem → (roots : Nat) → Scan.Course → Scan.Course

inductive Refresh where
  | started (roots : List Path)
  | counted (roots : List Path)
  | scanning (roots : List Path) (course : Scan.Course)
  | scanned (roots : List Path) (outcome : Scan.Outcome)
  -- Is about to clear the flag.
  | ending

structure State where
  files : FileSystem
  now : Timestamp
  configured : List Path.Key
  refreshing : Bool
  refreshes : List Refresh
  scans : Nat

namespace State

def start (files : FileSystem) (now : Timestamp) : State := ⟨files, now, [], false, [], 0⟩

def overlay (state : State) (repositories : List Repository) : List Repository :=
  repositories.map (Repository.mark state.configured)

def countScan (state : State) : State := { state with scans := state.scans + 1 }

def persist (host : Host) (state : State) (repositories : List Repository) (roots : List Path) :
    State :=
  { state with
    files := (Snapshot.save state.files host.file
      (Snapshot.take state.now repositories roots)).1 }

-- The snapshot in the file, if it was taken for these roots.
def snapshotFor? (host : Host) (state : State) (roots : List Path) : Option Snapshot :=
  match Snapshot.load? state.files host.file with
  | some snapshot => if snapshot.isFor roots then some snapshot else none
  | none => none

def configure (state : State) (choices : Marks.Choices) : State :=
  { state with configured := Marks.keys state.files choices }

def invalidate (host : Host) (state : State) : State × Except Snapshot.Problem Unit :=
  let (files, result) := Snapshot.discard state.files host.file
  ({ state with files }, result)

end State

inductive Demand where
  | cached
  | fresh
  | streaming (sink : Scan.Sink)
deriving DecidableEq, Repr

inductive Reply where
  | found (answer : Answer)
  | streamed (delivered : List Repository) (stats : Scan.Stats)
  | cancelled (delivered : List Repository)
  | fell (delivered : List Repository) (fault : Scan.Fault)
deriving Repr

inductive Call where
  | begun (demand : Demand) (paths : List Path)
  | looking (roots : List Path)
  | dating (roots : List Path) (snapshot : Snapshot)
  -- Has an old snapshot and is about to claim the refresh.
  | claiming (roots : List Path) (snapshot : Snapshot) (age : Duration)
  -- Has claimed the refresh and is about to start it.
  | spawning (roots : List Path) (snapshot : Snapshot) (age : Duration)
  -- Is about to count its scan. A stream's marks are those of its beginning.
  | counting (demand : Demand) (roots : List Path) (marks : List Path.Key)
  | scanning (demand : Demand) (roots : List Path) (marks : List Path.Key)
  | saving (demand : Demand) (roots : List Path) (outcome : Scan.Outcome)
      (delivered : List Repository)
  | concluding (demand : Demand) (roots : List Path) (outcome : Scan.Outcome)
      (delivered : List Repository)
  | done (reply : Reply)

def cancelledMessage : String := "Discovery cancelled by caller"

namespace Call

def sinkOf : Demand → Scan.Sink
  | .streaming sink => sink
  | _ => .absent

def serve (state : State) (roots : List Path) (snapshot : Snapshot) (age : Duration)
    (refreshing : Bool) : Reply :=
  .found (Answer.ofSnapshot (state.overlay snapshot.repositories) roots age.toMillis refreshing 0)

def afterScan (demand : Demand) (roots : List Path) (marks : List Path.Key)
    (result : Scan.Result) : Call :=
  let delivered := result.kept.map fun kept => kept.1.mark marks
  match result.outcome with
  | .error fault => .done (.fell delivered fault)
  | .ok outcome =>
    if outcome.stop = .cancelled then .done (.cancelled delivered)
    else .saving demand roots outcome delivered

def conclude (state : State) (demand : Demand) (roots : List Path) (outcome : Scan.Outcome)
    (delivered : List Repository) : Reply :=
  match demand with
  | .streaming _ => .streamed delivered outcome.stats
  | _ =>
    .found { Answer.ofScan (state.overlay outcome.repositories) outcome.stats roots 0 with
      refreshing := state.refreshing }

def step (host : Host) (state : State) : Call → State × Call
  | begun demand paths =>
    let roots := SearchRoots.resolve state.files host.home paths host.settings.extraPaths
    match demand with
    | .cached => (state, looking roots)
    | demand => (state, counting demand roots state.configured)
  | looking roots =>
    match state.snapshotFor? host roots with
    | none => (state, counting .cached roots state.configured)
    | some snapshot => (state, dating roots snapshot)
  | dating roots snapshot =>
    let age := snapshot.age state.now
    if age.lt host.settings.snapshotLife then
      (state, done (serve state roots snapshot age state.refreshing))
    else (state, claiming roots snapshot age)
  | claiming roots snapshot age =>
    if state.refreshing then (state, done (serve state roots snapshot age true))
    else ({ state with refreshing := true }, spawning roots snapshot age)
  | spawning roots snapshot age =>
    ({ state with refreshes := state.refreshes ++ [.started roots] },
      done (serve state roots snapshot age true))
  | counting demand roots marks => (state.countScan, scanning demand roots marks)
  | scanning demand roots marks =>
    (state, afterScan demand roots marks (host.scan state.files roots (sinkOf demand)))
  | saving demand roots outcome delivered =>
    (state.persist host outcome.repositories roots, concluding demand roots outcome delivered)
  | concluding demand roots outcome delivered =>
    (state, done (conclude state demand roots outcome delivered))
  | done reply => (state, done reply)

def run (host : Host) : (steps : Nat) → State → Call → State × Call
  | 0, state, call => (state, call)
  | steps + 1, state, call =>
    let (state, call) := call.step host state
    run host steps state call

def mostSteps : Nat := 8

end Call

-- A whole call that nothing else comes between; no call takes more than `Call.mostSteps` steps.
def answer (host : Host) (state : State) (demand : Demand) (paths : List Path) : State × Reply :=
  match (Call.begun demand paths).run host Call.mostSteps state with
  | (state, .done reply) => (state, reply)
  | (state, _) => (state, .cancelled [])

namespace Refresh

def step (host : Host) (state : State) : Refresh → State × Option Refresh
  | started roots => (state.countScan, some (counted roots))
  | counted roots =>
    match host.launch roots with
    | .error _ => (state, some ending)
    | .ok course => (state, some (scanning roots course))
  | scanning roots course =>
    let course := host.proceed state.files roots.length course
    match course.ending? with
    | none => (state, some (scanning roots course))
    | some (.error _) => (state, some ending)
    | some (.ok outcome) => (state, some (scanned roots outcome))
  | scanned roots outcome => (state.persist host outcome.repositories roots, some ending)
  | ending => ({ state with refreshing := false }, none)

end Refresh

namespace State

def stepRefresh (host : Host) (state : State) (index : Nat) : Option State :=
  match state.refreshes[index]? with
  | none => none
  | some refresh => match refresh.step host state with
    | (state, some refresh) =>
      some { state with refreshes := state.refreshes.set index refresh }
    | (state, none) => some { state with refreshes := state.refreshes.eraseIdx index }

-- Lets the first refresh go on for so many steps.
def settleFor (host : Host) : (steps : Nat) → State → State
  | 0, state => state
  | steps + 1, state => match state.stepRefresh host 0 with
    | none => state
    | some state => settleFor host steps state

def settle (host : Host) (state : State) : State := settleFor host 6 state

end State

def Host.ofSettings (env : Environment) (settings : SearchSettings)
    (remote : FileSystem → Path → Scan.Answer) (answering background : Scan.Answering)
    (cancelled : Bool) : Host :=
  let scene (files : FileSystem) (sink : Scan.Sink) : Scan.Scene :=
    ⟨files, remote files, settings.depthLimit, sink⟩
  let options := settings.scanOptions
  { settings
    home := env.home
    file := settings.snapshotPath env
    scan := fun files roots sink =>
      Scan.scan (scene files sink) env.uptime roots options answering cancelled
    launch := fun roots =>
      if Scan.clockReaches env.uptime options.timeout then
        .ok (Scan.Course.start roots options false)
      else .error .clockOverflow
    proceed := fun files roots course => course.run (scene files .absent) background roots }

end RepoFinder.Discovery
