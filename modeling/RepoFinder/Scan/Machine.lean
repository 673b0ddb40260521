import RepoFinder.EntryClass
import RepoFinder.FileSystem.Walk
import RepoFinder.Repository
import RepoFinder.Scan.Queue

namespace RepoFinder.Scan

open FileSystem

inductive Answer where
  | address (url : String)
  | failure
  -- The question takes its worker down.
  | crash
deriving DecidableEq, Repr

inductive Sink where
  | absent
  | collect
  -- Takes everything, but nothing before the stop signal.
  | afterStop
  | channel (room : Option Nat)
  | severed
deriving DecidableEq, Repr

structure Reader where
  asked : Nat
  gone : Bool
deriving DecidableEq, Repr

namespace Reader

def idle : Reader := ⟨0, false⟩

-- Asks for the next repository, once everything that was asked for before has been handed over.
def ask (reader : Reader) (kept : Nat) : Option Reader :=
  if !reader.gone && reader.asked ≤ kept then some { reader with asked := reader.asked + 1 }
  else none

def leave (reader : Reader) : Reader := { reader with gone := true }

end Reader

-- What a sink that has kept so many repositories does with the next one: keep it, drop it, or
-- (`none`) let its worker wait. A full channel is waited for until the scan is stopped.
def Sink.offer (sink : Sink) (stopped : Bool) (reader : Reader) (kept : Nat) : Option Bool :=
  match sink with
  | absent => some false
  | collect => some true
  | afterStop => if stopped then some true else none
  | channel room =>
    if reader.gone then some false
    else match room with
      | none => some true
      | some room =>
        if kept < reader.asked + room then some true else if stopped then some false else none
  | severed => some false

structure Scene where
  files : FileSystem
  remote : Path → Answer
  depthLimit : Nat
  sink : Sink

abbrev Entry := Name × Kind

-- Where a worker stands. `job` is the directory that it holds, `rest` are the entries that it has
-- not come to yet.
inductive Phase where
  | looping
  -- Is about to look again, inside the pop.
  | popping
  | receiving
  | opening (job : Job)
  | reading (job : Job) (rest : List Entry)
  | meeting (job : Job) (entry : Entry) (rest : List Entry)
  | offering (job : Job) (child : Job) (rest : List Entry)
  | counting (job : Job) (child : Job) (rest : List Entry)
  | sending (job : Job) (child : Job) (rest : List Entry)
  -- Found the queue full and is about to take its count back.
  | retracting (job : Job) (rest : List Entry)
  | claiming (job : Job) (rest : List Entry)
  | asking (job : Job) (rest : List Entry)
  | stamping (job : Job) (url : String) (rest : List Entry)
  | delivering (job : Job) (found : Repository) (rest : List Entry)
  | storing (job : Job) (found : Repository) (rest : List Entry)
  | releasing (job : Job)
  | falling (job : Job)
  | exited
  | fallen
deriving DecidableEq, Repr

inductive StopReason where
  | idle
  | deadlineExceeded
  | cancelled
deriving DecidableEq, Repr

inductive Watch where
  | watching
  -- Saw an empty queue and is about to read the number of jobs in flight.
  | sawEmpty
  | sawWork
  -- Saw no cancellation and is about to look at the clock.
  | patient
  | decided (reason : StopReason)
  | closed (reason : StopReason)
  | finished (reason : StopReason)
deriving DecidableEq, Repr

structure State where
  queue : Queue
  workers : List Phase
  watch : Watch
  seen : List Path.Key
  found : List Repository
  scanned : Nat
  skipped : Nat
  -- What the sink kept, each with whether the scan had been stopped by then.
  kept : List (Repository × Bool)
  reader : Reader
  stopped : Bool
  cancelled : Bool
  late : Bool

namespace State

def skip (state : State) : State := { state with skipped := state.skipped + 1 }

def pushRoot (state : State) (root : Path) : State :=
  match state.queue.push (Job.ofRoot root) with
  | (queue, true) => { state with queue }
  | (queue, false) => { state with queue }.skip

def initial (roots : List Path) (workers capacity : Nat) : State :=
  roots.foldl pushRoot
    ⟨Queue.ofCapacity capacity, List.replicate (max 1 workers) .looping, .watching, [], [], 0, 0,
      [], .idle, false, false, false⟩

end State

def isListing (entries actual : List Entry) : Bool := entries == actual || entries.isPerm actual

-- What a worker does with its turn. Only two turns leave a choice: the order in which a directory
-- lists its entries, and when a wait for a job ends without one.
inductive Move where
  | proceed
  | list (entries : List Entry)
  | giveUp
deriving DecidableEq, Repr

def meet (scene : Scene) (state : State) (job : Job) (entry : Entry) (rest : List Entry) :
    State × Phase :=
  match EntryClass.ofEntry entry.1.display entry.2 with
  | .sentinel => (state, .claiming job rest)
  | .descend =>
    let child := job.child (job.path.child entry.1)
    if withinDepth child.depth scene.depthLimit then (state, .offering job child rest)
    else (state.skip, .reading job rest)
  | entryClass =>
    (if entryClass.countsAsSkipped then state.skip else state, .reading job rest)

def openDirectory (scene : Scene) (state : State) (job : Job) (move : Move) :
    Option (State × Phase) :=
  if !withinDepth job.depth scene.depthLimit then some (state.skip, .releasing job)
  else match scene.files.readDirectory job.path, move with
    | .error _, _ => some (state, .releasing job)
    | .ok actual, .list entries =>
      if isListing entries actual then
        some ({ state with scanned := state.scanned + 1 }, .reading job entries)
      else none
    | .ok _, _ => none

def advance (scene : Scene) (state : State) (move : Move) : Phase → Option (State × Phase)
  | .looping => some (state, if state.queue.closed then .exited else .popping)
  | .popping => some (state, if state.queue.closed then .looping else .receiving)
  | .receiving =>
    match state.queue.take? with
    | some (job, queue) => some ({ state with queue }, .opening job)
    | none => if move = .giveUp then some (state, .looping) else none
  | .opening job => openDirectory scene state job move
  | .reading job [] => some (state, .releasing job)
  | .reading job (entry :: rest) =>
    some (state, if state.queue.closed then .releasing job else .meeting job entry rest)
  | .meeting job entry rest => some (meet scene state job entry rest)
  | .offering job child rest =>
    if state.queue.closed then some (state.skip, .reading job rest)
    else some (state, .counting job child rest)
  | .counting job child rest =>
    some ({ state with queue := state.queue.count }, .sending job child rest)
  | .sending job child rest =>
    match state.queue.send? child with
    | some queue => some ({ state with queue }, .reading job rest)
    | none => some (state, .retracting job rest)
  | .retracting job rest =>
    some ({ state with queue := state.queue.finish }.skip, .reading job rest)
  | .claiming job rest =>
    let key := job.path.key
    if state.seen.contains key then some (state, .reading job rest)
    else some ({ state with seen := key :: state.seen }, .asking job rest)
  | .asking job rest =>
    match scene.remote job.path with
    | .address url => some (state, .stamping job url rest)
    | .failure => some (state, .stamping job "" rest)
    | .crash => some (state, .falling job)
  | .stamping job url rest =>
    let modified := scene.files.modified job.path
    -- A time without a place in the calendar takes its worker down.
    if modified.IsMoment then some (state, .delivering job (.ofPath job.path url modified) rest)
    else some (state, .falling job)
  | .delivering job found rest =>
    match scene.sink.offer state.stopped state.reader state.kept.length with
    | none => none
    | some true =>
      some ({ state with kept := state.kept ++ [(found, state.stopped)] }, .storing job found rest)
    | some false => some (state, .storing job found rest)
  | .storing job found rest =>
    some ({ state with found := state.found ++ [found] }, .reading job rest)
  | .releasing _ => some ({ state with queue := state.queue.finish }, .looping)
  | .falling _ => some ({ state with queue := state.queue.finish }, .fallen)
  | .exited => none
  | .fallen => none

def watchStep (state : State) : Option State :=
  match state.watch with
  | .watching =>
    some { state with watch := if state.queue.isEmpty then .sawEmpty else .sawWork }
  | .sawEmpty =>
    some { state with watch := if state.queue.inFlight == 0 then .decided .idle else .sawWork }
  | .sawWork =>
    some { state with watch := if state.cancelled then .decided .cancelled else .patient }
  | .patient =>
    some { state with watch := if state.late then .decided .deadlineExceeded else .watching }
  | .decided reason => some { state with queue := state.queue.close, watch := .closed reason }
  | .closed reason => some { state with stopped := true, watch := .finished reason }
  | .finished _ => none

inductive Action where
  | work (worker : Nat) (move : Move)
  | watch
  | cancel
  | expire
  | ask
  | leave
deriving DecidableEq, Repr

def execute (scene : Scene) (state : State) : Action → Option State
  | .work worker move =>
    match state.workers[worker]? with
    | none => none
    | some phase => match advance scene state move phase with
      | none => none
      | some (next, phase) => some { next with workers := next.workers.set worker phase }
  | .watch => watchStep state
  | .cancel => some { state with cancelled := true }
  | .expire => some { state with late := true }
  | .ask => (state.reader.ask state.kept.length).map fun reader => { state with reader }
  | .leave => some { state with reader := state.reader.leave }

structure Stats where
  scannedDirs : Nat
  skippedDirs : Nat
  timedOut : Bool
deriving DecidableEq, Repr, Inhabited

structure Outcome where
  repositories : List Repository
  stats : Stats
  stop : StopReason
deriving Repr

namespace Phase

def isDone : Phase → Bool
  | exited => true
  | fallen => true
  | _ => false

end Phase

namespace State

def stopReason? (state : State) : Option StopReason :=
  match state.watch with
  | .finished reason => if state.workers.all Phase.isDone then some reason else none
  | _ => none

def hasFallen (state : State) : Bool := state.workers.contains .fallen

def outcome (state : State) (stop : StopReason) : Outcome :=
  ⟨state.found.mergeSort fun a b => a.path.le b.path,
    ⟨state.scanned, state.skipped, stop == .deadlineExceeded⟩, stop⟩

end State

end RepoFinder.Scan
