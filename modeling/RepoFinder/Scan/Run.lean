import RepoFinder.Scan.Machine

namespace RepoFinder.Scan

open RepoFinder.Time

structure Options where
  depthLimit : Nat
  workers : Nat
  timeout : Duration
  capacity : Nat
deriving Repr

inductive Answering where
  | promptly
  -- The first question cancels the request, and is answered only after the scan has stopped.
  | firstCancels
  | notNow
deriving DecidableEq, Repr

inductive Fault where
  | clockOverflow
  | workerFell
deriving DecidableEq, Repr

def Fault.message : Fault → String
  | clockOverflow => "overflow when adding duration to instant"
  | workerFell => "a scoped thread panicked"

-- The last second that the machine's clock can count, in a signed word of 64 bits.
def lastTick : Nat := 0x7FFFFFFFFFFFFFFF

def clockReaches (uptime : Nat) (ahead : Duration) : Bool := uptime + ahead.seconds ≤ lastTick

structure Course where
  state : State
  slow : Option Nat

namespace Course

def canMove (scene : Scene) (answering : Answering) (course : Course) (worker : Nat) :
    Phase → Bool
  | .receiving => !course.state.queue.isEmpty || course.state.queue.closed
  | .asking .. => match answering with
    | .promptly => true
    | .firstCancels => course.slow ≠ some worker || course.state.stopped
    | .notNow => false
  | .delivering .. =>
    (scene.sink.offer course.state.stopped course.state.reader course.state.kept.length).isSome
  | .exited => false
  | .fallen => false
  | _ => true

def moveOf (scene : Scene) : Phase → Move
  | .receiving => .giveUp
  | .opening job => match scene.files.readDirectory job.path with
    | .ok entries => .list entries
    | .error _ => .proceed
  | _ => .proceed

def firstMover (scene : Scene) (answering : Answering) (course : Course) (worker : Nat) :
    List Phase → Option (Nat × Phase)
  | [] => none
  | phase :: rest =>
    if course.canMove scene answering worker phase then some (worker, phase)
    else firstMover scene answering course (worker + 1) rest

-- The monitor's turn. Where all that is left is waiting, the deadline passes; but a scan whose
-- questions are not answered for now rests.
def watchAction? (answering : Answering) (state : State) : Option Action :=
  match state.watch with
  | .finished _ => none
  | .patient =>
    if state.late || state.cancelled || state.queue.isQuiescent then some .watch
    else if answering = .notNow then none
    else some .expire
  | _ => some .watch

-- One interleaving: the first worker that can move moves, and the monitor has its turn when no
-- worker can. A scan without time lets the monitor go first.
def next? (scene : Scene) (answering : Answering) (course : Course) : Option Action :=
  let watching := watchAction? answering course.state
  if course.state.late && watching.isSome then watching
  else match course.firstMover scene answering 0 course.state.workers with
    | some (worker, .asking ..) =>
      if answering = .firstCancels && course.slow.isNone then some .cancel
      else some (.work worker .proceed)
    | some (worker, phase) => some (.work worker (moveOf scene phase))
    | none => watching

def slowAfter (scene : Scene) (answering : Answering) (course : Course) (action : Action) :
    Option Nat :=
  match action with
  | .cancel => (course.firstMover scene answering 0 course.state.workers).map (·.1)
  | _ => course.slow

def step? (scene : Scene) (answering : Answering) (course : Course) : Option Course :=
  match course.next? scene answering with
  | none => none
  | some action => match execute scene course.state action with
    | none => none
    | some state => some ⟨state, course.slowAfter scene answering action⟩

def runFor (scene : Scene) (answering : Answering) : (steps : Nat) → Course → Course
  | 0, course => course
  | steps + 1, course => match course.step? scene answering with
    | none => course
    | some next => runFor scene answering steps next

def stepBound (scene : Scene) (roots workers : Nat) : Nat :=
  (roots + 1) * ((scene.files.root.descendants []).length + 2) * 24 + (workers + 1) * 16 + 64

def run (scene : Scene) (answering : Answering) (roots : Nat) (course : Course) : Course :=
  course.runFor scene answering (stepBound scene roots course.state.workers.length)

def start (roots : List Path) (options : Options) (cancelled : Bool) : Course :=
  let state := State.initial roots options.workers options.capacity
  ⟨{ state with cancelled, late := options.timeout.isZero }, none⟩

def ending? (course : Course) : Option (Except Fault Outcome) :=
  course.state.stopReason?.map fun reason =>
    if course.state.hasFallen then .error .workerFell else .ok (course.state.outcome reason)

end Course

structure Result where
  outcome : Except Fault Outcome
  kept : List (Repository × Bool)

def scan (scene : Scene) (uptime : Nat) (roots : List Path) (options : Options)
    (answering : Answering) (cancelled : Bool) : Result :=
  if clockReaches uptime options.timeout then
    let course := (Course.start roots options cancelled).run scene answering roots.length
    ⟨(course.ending?).getD (.error .workerFell), course.state.kept⟩
  else ⟨.error .clockOverflow, []⟩

end RepoFinder.Scan
