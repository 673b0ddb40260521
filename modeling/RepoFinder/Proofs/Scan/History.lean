import RepoFinder.Scan.Machine

namespace RepoFinder.Scan

open FileSystem

variable {scene : Scene} {state next : State}

-- What a worker in a phase can do with its turn: the state and the phase that follow. Whether a
-- delivery is kept or dropped is left open here, so the turns do not depend on the sink.
inductive Turn (scene : Scene) (state : State) : Phase → State → Phase → Prop where
  | goOn (isOpen : state.queue.closed = false) : Turn scene state .looping state .popping
  | leave (closed : state.queue.closed = true) : Turn scene state .looping state .exited
  | wait (isOpen : state.queue.closed = false) : Turn scene state .popping state .receiving
  | turnBack (closed : state.queue.closed = true) : Turn scene state .popping state .looping
  | take {job : Job} {jobs : List Job} (waiting : state.queue.jobs = job :: jobs) :
      Turn scene state .receiving { state with queue := { state.queue with jobs } } (.opening job)
  | giveUp : Turn scene state .receiving state .looping
  | tooDeep {job : Job} (beyond : withinDepth job.depth scene.depthLimit = false) :
      Turn scene state (.opening job) state.skip (.releasing job)
  | unreadable {job : Job} {failure : Failure}
      (failed : scene.files.readDirectory job.path = .error failure) :
      Turn scene state (.opening job) state (.releasing job)
  | read {job : Job} {actual entries : List Entry}
      (within : withinDepth job.depth scene.depthLimit = true)
      (listed : scene.files.readDirectory job.path = .ok actual)
      (listing : isListing entries actual = true) :
      Turn scene state (.opening job) { state with scanned := state.scanned + 1 }
        (.reading job entries)
  | readAll {job : Job} : Turn scene state (.reading job []) state (.releasing job)
  | breakOff {job : Job} {entry : Entry} {rest : List Entry}
      (closed : state.queue.closed = true) :
      Turn scene state (.reading job (entry :: rest)) state (.releasing job)
  | come {job : Job} {entry : Entry} {rest : List Entry}
      (isOpen : state.queue.closed = false) :
      Turn scene state (.reading job (entry :: rest)) state (.meeting job entry rest)
  | meetSentinel {job : Job} {entry : Entry} {rest : List Entry}
      (meets : EntryClass.ofEntry entry.1.display entry.2 = .sentinel) :
      Turn scene state (.meeting job entry rest) state (.claiming job rest)
  | meetBelow {job : Job} {entry : Entry} {rest : List Entry}
      (meets : EntryClass.ofEntry entry.1.display entry.2 = .descend)
      (within : withinDepth (job.depth + 1) scene.depthLimit = true) :
      Turn scene state (.meeting job entry rest) state
        (.offering job (job.child (job.path.child entry.1)) rest)
  | meetTooDeep {job : Job} {entry : Entry} {rest : List Entry}
      (meets : EntryClass.ofEntry entry.1.display entry.2 = .descend)
      (beyond : withinDepth (job.depth + 1) scene.depthLimit = false) :
      Turn scene state (.meeting job entry rest) state.skip (.reading job rest)
  | passBy {job : Job} {entry : Entry} {rest : List Entry}
      (noSentinel : EntryClass.ofEntry entry.1.display entry.2 ≠ .sentinel)
      (noDescent : EntryClass.ofEntry entry.1.display entry.2 ≠ .descend) :
      Turn scene state (.meeting job entry rest)
        { state with
          skipped := state.skipped +
            (EntryClass.ofEntry entry.1.display entry.2).countsAsSkipped.toNat }
        (.reading job rest)
  | refuseClosed {job child : Job} {rest : List Entry} (closed : state.queue.closed = true) :
      Turn scene state (.offering job child rest) state.skip (.reading job rest)
  | offer {job child : Job} {rest : List Entry} (isOpen : state.queue.closed = false) :
      Turn scene state (.offering job child rest) state (.counting job child rest)
  | count {job child : Job} {rest : List Entry} :
      Turn scene state (.counting job child rest) { state with queue := state.queue.count }
        (.sending job child rest)
  | send {job child : Job} {rest : List Entry} (room : state.queue.hasRoom = true) :
      Turn scene state (.sending job child rest)
        { state with queue := { state.queue with jobs := state.queue.jobs ++ [child] } }
        (.reading job rest)
  | refuseFull {job child : Job} {rest : List Entry} (full : state.queue.hasRoom = false) :
      Turn scene state (.sending job child rest) state (.retracting job rest)
  | retract {job : Job} {rest : List Entry} :
      Turn scene state (.retracting job rest)
        { state with queue := state.queue.finish }.skip (.reading job rest)
  | known {job : Job} {rest : List Entry} (known : job.path.key ∈ state.seen) :
      Turn scene state (.claiming job rest) state (.reading job rest)
  | claim {job : Job} {rest : List Entry} (unknown : job.path.key ∉ state.seen) :
      Turn scene state (.claiming job rest) { state with seen := job.path.key :: state.seen }
        (.asking job rest)
  | learn {job : Job} {rest : List Entry} {url : String}
      (answered : scene.remote job.path = .address url) :
      Turn scene state (.asking job rest) state (.stamping job url rest)
  | learnNothing {job : Job} {rest : List Entry} (answered : scene.remote job.path = .failure) :
      Turn scene state (.asking job rest) state (.stamping job "" rest)
  | crash {job : Job} {rest : List Entry} (answered : scene.remote job.path = .crash) :
      Turn scene state (.asking job rest) state (.falling job)
  | stamp {job : Job} {url : String} {rest : List Entry}
      (dated : (scene.files.modified job.path).IsMoment) :
      Turn scene state (.stamping job url rest) state
        (.delivering job (.ofPath job.path url (scene.files.modified job.path)) rest)
  | misdate {job : Job} {url : String} {rest : List Entry}
      (undated : ¬(scene.files.modified job.path).IsMoment) :
      Turn scene state (.stamping job url rest) state (.falling job)
  | keep {job : Job} {found : Repository} {rest : List Entry} :
      Turn scene state (.delivering job found rest)
        { state with kept := state.kept ++ [(found, state.stopped)] } (.storing job found rest)
  | drop {job : Job} {found : Repository} {rest : List Entry} :
      Turn scene state (.delivering job found rest) state (.storing job found rest)
  | store {job : Job} {found : Repository} {rest : List Entry} :
      Turn scene state (.storing job found rest) { state with found := state.found ++ [found] }
        (.reading job rest)
  | release {job : Job} :
      Turn scene state (.releasing job) { state with queue := state.queue.finish } .looping
  | fall {job : Job} :
      Turn scene state (.falling job) { state with queue := state.queue.finish } .fallen

theorem Turn.workers {phase after : Phase} (turn : Turn scene state phase next after) :
    next.workers = state.workers := by
  cases turn <;> rfl

theorem openDirectory_turn {job : Job} {move : Move} {after : Phase}
    (moved : openDirectory scene state job move = some (next, after)) :
    Turn scene state (.opening job) next after := by
  unfold openDirectory at moved
  split at moved
  · rename_i beyond
    cases moved
    exact .tooDeep (by simpa using beyond)
  · rename_i within
    have within : withinDepth job.depth scene.depthLimit = true := by simpa using within
    split at moved
    · rename_i failed
      cases moved
      exact .unreadable failed
    · rename_i listed
      split at moved
      · rename_i listing
        cases moved
        exact .read within listed listing
      · cases moved
    · cases moved

theorem meet_turn {job : Job} {entry : Entry} {rest : List Entry} {after : Phase}
    (met : meet scene state job entry rest = (next, after)) :
    Turn scene state (.meeting job entry rest) next after := by
  unfold meet at met
  split at met
  · rename_i meets
    cases met
    exact .meetSentinel meets
  · rename_i meets
    dsimp only at met
    split at met
    · rename_i within
      cases met
      exact .meetBelow meets within
    · rename_i beyond
      cases met
      exact .meetTooDeep meets (by simpa [Job.child] using beyond)
  · rename_i noSentinel noDescent
    have turn : Turn scene state (.meeting job entry rest) _ (.reading job rest) :=
      .passBy noSentinel noDescent
    cases counts : (EntryClass.ofEntry entry.1.display entry.2).countsAsSkipped <;>
      simp only [counts] at met turn <;> cases met <;> exact turn

-- The only place where the step of a worker is opened. What later proofs know of it is a Turn.
theorem advance_turn {move : Move} {phase after : Phase}
    (moved : advance scene state move phase = some (next, after)) :
    Turn scene state phase next after := by
  cases phase with
  | looping =>
    cases closed : state.queue.closed <;> simp only [advance, closed] at moved <;> cases moved
    · exact .goOn closed
    · exact .leave closed
  | popping =>
    cases closed : state.queue.closed <;> simp only [advance, closed] at moved <;> cases moved
    · exact .wait closed
    · exact .turnBack closed
  | receiving =>
    simp only [advance, Queue.take?] at moved
    cases waiting : state.queue.jobs with
    | cons job jobs =>
      simp only [waiting] at moved
      cases moved
      exact .take waiting
    | nil =>
      simp only [waiting] at moved
      split at moved
      · cases moved
        exact .giveUp
      · cases moved
  | opening job => exact openDirectory_turn moved
  | reading job rest =>
    cases rest with
    | nil =>
      cases moved
      exact .readAll
    | cons entry rest =>
      cases closed : state.queue.closed <;> simp only [advance, closed] at moved <;> cases moved
      · exact .come closed
      · exact .breakOff closed
  | meeting job entry rest => exact meet_turn (Option.some.inj moved)
  | offering job child rest =>
    cases closed : state.queue.closed <;> simp only [advance, closed] at moved <;> cases moved
    · exact .offer closed
    · exact .refuseClosed closed
  | counting job child rest =>
    cases moved
    exact .count
  | sending job child rest =>
    cases room : state.queue.hasRoom <;> simp [advance, Queue.send?, room] at moved <;>
      obtain ⟨rfl, rfl⟩ := moved
    · exact .refuseFull room
    · exact .send room
  | retracting job rest =>
    cases moved
    exact .retract
  | claiming job rest =>
    simp only [advance] at moved
    split at moved
    · rename_i known
      cases moved
      exact .known (by simpa using known)
    · rename_i unknown
      cases moved
      exact .claim (by simpa using unknown)
  | asking job rest =>
    simp only [advance] at moved
    split at moved <;> rename_i answered <;> cases moved
    · exact .learn answered
    · exact .learnNothing answered
    · exact .crash answered
  | stamping job url rest =>
    simp only [advance] at moved
    split at moved <;> cases moved
    · exact .stamp ‹_›
    · exact .misdate ‹_›
  | delivering job found rest =>
    simp only [advance] at moved
    split at moved <;> cases moved
    · exact .keep
    · exact .drop
  | storing job found rest =>
    cases moved
    exact .store
  | releasing job =>
    cases moved
    exact .release
  | falling job =>
    cases moved
    exact .fall
  | exited => cases moved
  | fallen => cases moved

def Watch.reason? : Watch → Option StopReason
  | .decided reason => some reason
  | .closed reason => some reason
  | .finished reason => some reason
  | _ => none

-- What the monitor can do with its turn. Why it waits is left out: no result depends on it.
inductive Look (state : State) : State → Prop where
  | wait {watch : Watch} (before : state.watch.reason? = none) (after : watch.reason? = none) :
      Look state { state with watch }
  | settle (sawEmpty : state.watch = .sawEmpty) (noneLeft : state.queue.inFlight = 0) :
      Look state { state with watch := .decided .idle }
  | giveUp {reason : StopReason} (before : state.watch.reason? = none) (notIdle : reason ≠ .idle)
      (asked : reason = .cancelled → state.cancelled = true) :
      Look state { state with watch := .decided reason }
  | close {reason : StopReason} (decided : state.watch = .decided reason) :
      Look state { state with queue := state.queue.close, watch := .closed reason }
  | stop {reason : StopReason} (closed : state.watch = .closed reason) :
      Look state { state with stopped := true, watch := .finished reason }

theorem watchStep_look (watched : watchStep state = some next) : Look state next := by
  unfold watchStep at watched
  split at watched
  · rename_i watching
    cases watched
    exact .wait (by rw [watching]; rfl) (by split <;> rfl)
  · rename_i sawEmpty
    by_cases noneLeft : state.queue.inFlight = 0 <;> simp [noneLeft] at watched <;> subst watched
    · exact .settle sawEmpty noneLeft
    · exact .wait (by rw [sawEmpty]; rfl) (by rfl)
  · rename_i sawWork
    have before : state.watch.reason? = none := by rw [sawWork]; rfl
    obtain rfl := Option.some.inj watched
    by_cases cancelled : state.cancelled = true
    · rw [if_pos cancelled]
      apply Look.giveUp before (by decide)
      intro _
      exact cancelled
    · rw [if_neg cancelled]
      exact .wait before rfl
  · rename_i patient
    have before : state.watch.reason? = none := by rw [patient]; rfl
    obtain rfl := Option.some.inj watched
    by_cases late : state.late = true
    · rw [if_pos late]
      apply Look.giveUp before (by decide)
      intro called
      cases called
    · rw [if_neg late]
      exact .wait before rfl
  · rename_i decided
    cases watched
    exact .close decided
  · rename_i closed
    cases watched
    exact .stop closed
  · cases watched

inductive Event where
  | accepted (job : Job)
  -- The queue was full or closed.
  | refused (job : Job)
  | finished (job : Job)
deriving DecidableEq, Repr

-- A push is refused where it finds the queue closed or full. It is counted in between, but that
-- does nothing to the job itself.
def Phase.event? (queue : Queue) : Phase → Option Event
  | .offering _ child _ => if queue.closed then some (.refused child) else none
  | .sending _ child _ => some (if queue.hasRoom then .accepted child else .refused child)
  | .releasing job => some (.finished job)
  | .falling job => some (.finished job)
  | _ => none

def State.event? (state : State) : Action → Option Event
  | .work worker _ => state.workers[worker]?.bind (Phase.event? state.queue)
  | _ => none

inductive Step (scene : Scene) (state : State) : Option Event → State → Prop where
  | work {worker : Nat} {phase after : Phase} {next : State}
      (stands : state.workers[worker]? = some phase) (turn : Turn scene state phase next after) :
      Step scene state (phase.event? state.queue)
        { next with workers := next.workers.set worker after }
  | look {next : State} (look : Look state next) : Step scene state none next
  | outside {cancelled late : Bool} {reader : Reader}
      (stays : state.cancelled = true → cancelled = true) :
      Step scene state none { state with cancelled, late, reader }

theorem execute_work {worker : Nat} {move : Move}
    (executed : execute scene state (.work worker move) = some next) :
    ∃ phase moved after, state.workers[worker]? = some phase ∧
      advance scene state move phase = some (moved, after) ∧
      next = { moved with workers := moved.workers.set worker after } := by
  simp only [execute] at executed
  split at executed
  · cases executed
  rename_i phase stands
  split at executed
  · cases executed
  rename_i moved after advanced
  cases executed
  exact ⟨phase, moved, after, stands, advanced, rfl⟩

theorem execute_step {action : Action} (executed : execute scene state action = some next) :
    Step scene state (state.event? action) next := by
  cases action with
  | work worker move =>
    obtain ⟨phase, moved, after, stands, advanced, rfl⟩ := execute_work executed
    simpa only [State.event?, stands, Option.bind_some] using
      Step.work stands (advance_turn advanced)
  | watch => exact .look (watchStep_look executed)
  | cancel =>
    cases executed
    apply Step.outside
    intro _
    rfl
  | expire | leave =>
    cases executed
    exact .outside id
  | ask =>
    obtain ⟨reader, _, rfl⟩ := Option.map_eq_some_iff.mp executed
    exact .outside id

-- A run of a scan, with what happened to jobs on the way, the earliest first. Any worker may take
-- the next turn, so the runs are all the interleavings.
inductive Run (scene : Scene) (start : State) : List Event → State → Prop where
  | start : Run scene start [] start
  | step {events : List Event} {state next : State} (action : Action)
      (before : Run scene start events state) (executed : execute scene state action = some next) :
      Run scene start (events ++ (state.event? action).toList) next

theorem Run.append {start : State} {earlier later : List Event}
    (before : Run scene start earlier state) (after : Run scene state later next) :
    Run scene start (earlier ++ later) next := by
  induction after with
  | start => simpa using before
  | step action _ executed ih => simpa only [List.append_assoc] using ih.step action executed

structure Fresh (workers capacity : Nat) (roots : List Path) (state : State) : Prop where
  crew : state.workers = List.replicate (max 1 workers) .looping
  watching : state.watch = .watching
  unseen : state.seen = []
  unfound : state.found = []
  isOpen : state.queue.closed = false
  size : state.queue.capacity = max 1 capacity
  counted : state.queue.inFlight = UInt64.ofNat state.queue.jobs.length
  bounded : state.queue.jobs.length ≤ state.queue.capacity
  ofRoots : ∀ job ∈ state.queue.jobs, ∃ root ∈ roots, job = .ofRoot root

theorem pushRoot_fresh {workers capacity : Nat} {roots : List Path} {root : Path}
    (listed : root ∈ roots) (fresh : Fresh workers capacity roots state) :
    Fresh workers capacity roots (state.pushRoot root) := by
  unfold State.pushRoot
  cases room : state.queue.hasRoom with
  | false =>
    rw [Queue.push_of_full room]
    exact { fresh with }
  | true =>
    rw [Queue.push_of_room fresh.isOpen room]
    have space : state.queue.jobs.length < state.queue.capacity := by
      simpa [Queue.hasRoom] using room
    refine { fresh with counted := ?_, bounded := ?_, ofRoots := ?_ }
    · simp [Queue.count, fresh.counted, UInt64.ofNat_add]
    · simpa [Queue.count] using Nat.succ_le_of_lt space
    · intro job present
      rcases List.mem_append.mp present with old | new
      · exact fresh.ofRoots job old
      · exact ⟨root, listed, List.mem_singleton.mp new⟩

theorem initial_fresh (roots : List Path) (workers capacity : Nat) :
    Fresh workers capacity roots (State.initial roots workers capacity) := by
  -- The roots are pushed one by one, so the induction is on those that are still to be pushed.
  have pushed : ∀ (some : List Path) (state : State), some ⊆ roots →
      Fresh workers capacity roots state →
      Fresh workers capacity roots (some.foldl State.pushRoot state) := by
    intro some
    induction some with
    | nil =>
      intro state _ fresh
      exact fresh
    | cons root rest ih =>
      intro state listed fresh
      have here := pushRoot_fresh (listed (List.mem_cons_self ..)) fresh
      have others : rest ⊆ roots := by
        intro other present
        exact listed (List.mem_cons_of_mem _ present)
      exact ih _ others here
  apply pushed roots _ (List.Subset.refl _)
  constructor <;> simp [Queue.ofCapacity]

end RepoFinder.Scan
