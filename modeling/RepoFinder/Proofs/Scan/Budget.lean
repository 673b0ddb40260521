import Mathlib.Algebra.BigOperators.Ring.List
import Mathlib.Algebra.Ring.Nat
import Mathlib.Data.Nat.Cast.Basic
import RepoFinder.Proofs.Scan.Delivery
import RepoFinder.Proofs.Scan.Shutdown

namespace RepoFinder.Scan

open FileSystem

variable {scene : Scene} {roots : List Path} {workers capacity : Nat} {state next : State}

-- Counts for each job the turns that it and the directories below it take at most. An entry takes
-- eight of them, and a job six besides.
def Tally.toil (files : FileSystem) : Tally := ⟨0, 0, fun job => 6 + 14 * files.volume job.path⟩

theorem Tally.toil_entry_le (job : Job) (entry : Entry) :
    8 + (toil scene.files).entry scene job entry ≤
      14 * (1 + if entry.2 = .directory then scene.files.volume (job.path.child entry.1) else 0) := by
  unfold Tally.entry
  split
  · omega
  · rename_i descends
    rw [if_pos (EntryClass.of_descend descends)]
    split
    · simp only [toil, Job.child]
      omega
    · simp only [toil]
      omega
  · simp only [toil]
    omega

theorem Tally.toil_directory (tidy : scene.files.root.isTidy = true) (job : Job) :
    8 * (scene.listed job.path).length + (toil scene.files).directory scene job ≤
      14 * scene.files.volume job.path := by
  unfold directory Scene.listed
  cases read : scene.files.readDirectory job.path with
  | error failure => exact Nat.zero_le _
  | ok actual =>
    have below := volume_below tidy read
    have each : (actual.map fun entry => 8 + (toil scene.files).entry scene job entry).sum ≤
        (actual.map fun entry => 14 * (1 + if entry.2 = .directory then
          scene.files.volume (job.path.child entry.1) else 0)).sum :=
      List.sum_le_sum fun entry _ => toil_entry_le job entry
    rw [List.sum_map_mul_left, List.sum_map_add] at each
    have unread : (toil scene.files).read = 0 := rfl
    simp only [List.map_const', List.sum_replicate, nsmul_eq_mul, Nat.cast_id] at each
    simp only [Except.toOption, Option.getD_some, Tally.entries]
    omega

-- What a worker can spend. Once the queue is closed, its loop leads outside.
def Phase.effort (scene : Scene) (closed : Bool) : Phase → Nat
  | .looping => if closed then 1 else 5
  | .popping => if closed then 2 else 4
  | .receiving => 3
  | .opening job =>
    5 + Phase.turnsLeft scene (.opening job) + (Tally.toil scene.files).directory scene job
  | .exited => 0
  | .fallen => 0
  | phase => 5 + phase.turnsLeft scene + phase.ahead (.toil scene.files) scene

theorem Turn.effort_lt (tidy : scene.files.root.isTidy = true) {phase after : Phase}
    (turn : Turn scene state phase next after)
    (restless : phase = .receiving → after = .looping → state.queue.closed = true) :
    (Tally.toil scene.files).jobs next.queue.jobs + after.effort scene next.queue.closed <
      (Tally.toil scene.files).jobs state.queue.jobs + phase.effort scene state.queue.closed := by
  rw [turn.closed_eq]
  cases turn with
  | goOn isOpen | wait isOpen => simp [Phase.effort, isOpen]
  | leave closed | turnBack closed => simp [Phase.effort, closed]
  | giveUp => simp [Phase.effort, restless rfl rfl]
  | @take job jobs waiting =>
    have worth := Tally.toil_directory tidy job
    have accepted : (Tally.toil scene.files).accepted job =
      6 + 14 * scene.files.volume job.path := rfl
    simp only [Phase.effort, Phase.turnsLeft, waiting, Tally.jobs_cons]
    omega
  | @read job actual entries _ listed listing =>
    have perm := isListing_perm listing
    have same := (Tally.toil scene.files).entries_perm scene job perm
    simp only [Phase.effort, Phase.turnsLeft, Phase.ahead, Scene.listed, Tally.directory, listed,
      same, perm.length_eq, Except.toOption, Option.getD_some]
    omega
  | meetBelow meets within => simp [Phase.effort, Phase.turnsLeft, Tally.entry, meets, within]
  | send room =>
    simp [Phase.effort, Phase.turnsLeft, Tally.jobs_append]
    omega
  | refuseFull full =>
    have free : (Tally.toil scene.files).skipped = 0 := rfl
    simp [Phase.effort, Phase.turnsLeft, free]
    omega
  | release =>
    simp only [Phase.effort, Phase.turnsLeft, Phase.ahead, Queue.finish]
    split <;> omega
  | _ =>
    simp [Phase.effort, Phase.turnsLeft, State.skip, Queue.count, Queue.finish] <;> omega

def State.effort (scene : Scene) (state : State) : Nat :=
  (Tally.toil scene.files).jobs state.queue.jobs +
    (state.workers.map (Phase.effort scene state.queue.closed)).sum

theorem Phase.effort_closed_le (scene : Scene) (closed : Bool) (phase : Phase) :
    phase.effort scene true ≤ phase.effort scene closed := by
  cases phase <;> cases closed <;> simp [Phase.effort]

theorem execute_effort_lt (tidy : scene.files.root.isTidy = true) {worker : Nat} {move : Move}
    {phase : Phase} (stands : state.workers[worker]? = some phase)
    (moves : phase = .receiving → state.queue.jobs ≠ [] ∨ state.queue.closed = true)
    (executed : execute scene state (.work worker move) = some next) :
    next.effort scene < state.effort scene := by
  obtain ⟨phase', moved, after, stood, advanced, rfl⟩ := execute_work executed
  obtain rfl := Option.some.inj (stands.symm.trans stood)
  have turn := advance_turn advanced
  have spent := turn.effort_lt tidy (by
    rintro rfl rfl
    rcases moves rfl with waiting | closed
    · obtain ⟨job, jobs, waiting⟩ := List.exists_cons_of_ne_nil waiting
      simp [advance, Queue.take?, waiting] at advanced
    · exact closed)
  have same : moved.queue.closed = state.queue.closed := turn.closed_eq
  have others := sum_map_set stands after (Phase.effort scene state.queue.closed)
  rw [same] at spent
  simp only [State.effort, turn.workers, same] at others ⊢
  omega

theorem effort_initial (scene : Scene) (roots : List Path) (workers capacity : Nat) :
    (State.initial roots workers capacity).effort scene ≤
      roots.length * (6 + 14 * (scene.files.root.descendants []).length) + 5 * max 1 workers := by
  have fresh := initial_fresh roots workers capacity
  have counted := (initial_counters roots workers capacity).2
  have each (jobs : List Job) : (Tally.toil scene.files).jobs jobs ≤
      jobs.length * (6 + 14 * (scene.files.root.descendants []).length) := by
    induction jobs with
    | nil => exact Nat.zero_le _
    | cons job rest ih =>
      have here := scene.files.volume_le job.path
      have accepted : (Tally.toil scene.files).accepted job =
        6 + 14 * scene.files.volume job.path := rfl
      rw [Tally.jobs_cons, List.length_cons, Nat.add_one_mul]
      omega
  have crew : ((State.initial roots workers capacity).workers.map
      (Phase.effort scene (State.initial roots workers capacity).queue.closed)).sum =
        5 * max 1 workers := by
    simp [fresh.crew, fresh.isOpen, Phase.effort, Nat.mul_comm]
  rw [State.effort, crew]
  refine Nat.add_le_add_right ((each _).trans (Nat.mul_le_mul_right _ ?_)) _
  omega

-- How often the monitor still looks before it is done, once nobody else can move. Whatever it sees, it
-- decides within one round, or the deadline passes at the end of the round and it decides in the next.
def Watch.patience (late cancelled quiescent : Bool) : Watch → Nat
  | .finished _ => 0
  | .closed _ => 1
  | .decided _ => 2
  | .patient => if late then 3 else if cancelled then 6 else if quiescent then 5 else 4
  | .sawWork => if late then 4 else if cancelled then 3 else if quiescent then 6 else 5
  | .sawEmpty => if late then 5 else if cancelled then 4 else if quiescent then 3 else 6
  | .watching => if late then 6 else if cancelled then 5 else if quiescent then 4 else 7

def Watch.mostPatience : Nat := 8

namespace Course

variable {answering : Answering} {course : Course}

def isBusy (scene : Scene) (answering : Answering) (course : Course) : Bool :=
  (course.firstMover scene answering 0 course.state.workers).isSome

def patience (scene : Scene) (answering : Answering) (course : Course) : Nat :=
  if course.isBusy scene answering && !course.state.late && course.state.watch.reason?.isNone then
    Watch.mostPatience
  else course.state.watch.patience course.state.late course.state.cancelled
    course.state.queue.isQuiescent

-- What is left for the whole course. One step is for the request that a question cancels.
def budget (scene : Scene) (answering : Answering) (course : Course) : Nat :=
  course.state.effort scene + course.patience scene answering + course.slow.isNone.toNat

theorem firstMover_some {worker first : Nat} {phase : Phase} {phases : List Phase}
    (picked : course.firstMover scene answering first phases = some (worker, phase)) :
    first ≤ worker ∧ phases[worker - first]? = some phase ∧
      course.canMove scene answering worker phase = true := by
  induction phases generalizing first with
  | nil => cases picked
  | cons here rest ih =>
    unfold firstMover at picked
    split at picked
    · rename_i able
      cases picked
      simp [able]
    · obtain ⟨order, stands, able⟩ := ih picked
      obtain ⟨more, rfl⟩ := Nat.exists_eq_add_of_lt order
      refine ⟨by omega, ?_, able⟩
      have ahead : first + more + 1 - first = (first + more + 1 - (first + 1)) + 1 := by omega
      rw [ahead, List.getElem?_cons_succ]
      exact stands

theorem firstMover_none {first : Nat} {phases : List Phase} :
    course.firstMover scene answering first phases = none ↔
      ∀ index phase, phases[index]? = some phase →
        course.canMove scene answering (first + index) phase = false := by
  induction phases generalizing first with
  | nil => simp [firstMover]
  | cons here rest ih =>
    unfold firstMover
    split
    · rename_i able
      refine iff_of_false (by simp) ?_
      intro none
      have unable := none 0 here rfl
      simp [able] at unable
    · rename_i unable
      rw [ih]
      constructor
      · intro none index phase stands
        cases index with
        | zero =>
          obtain rfl := Option.some.inj stands
          simpa using unable
        | succ index =>
          have later := none index phase stands
          rwa [Nat.add_right_comm, Nat.add_assoc] at later
      · intro none index phase stands
        have later := none (index + 1) phase stands
        rwa [← Nat.add_assoc, Nat.add_right_comm] at later

theorem isBusy_watch (watch : Watch) :
    isBusy scene answering ⟨{ course.state with watch }, course.slow⟩ =
      course.isBusy scene answering := by
  have same (first : Nat) (phases : List Phase) :
      firstMover scene answering ⟨{ course.state with watch }, course.slow⟩ first phases =
        course.firstMover scene answering first phases := by
    induction phases generalizing first with
    | nil => rfl
    | cons here rest ih =>
      have able : canMove scene answering ⟨{ course.state with watch }, course.slow⟩ first here =
          course.canMove scene answering first here := by
        cases here <;> rfl
      simp only [firstMover, able, ih]
  simp only [isBusy, same]

inductive Choice (scene : Scene) (answering : Answering) (course : Course) : Action → Prop
  | work {worker : Nat} {phase : Phase}
      (stands : course.state.workers[worker]? = some phase)
      (able : course.canMove scene answering worker phase = true)
      (busy : course.isBusy scene answering = true)
      (early : course.state.late = true → course.state.watch.reason?.isSome = true) :
      Choice scene answering course (.work worker (moveOf scene phase))
  | cancel (busy : course.isBusy scene answering = true) (unslowed : course.slow = none)
      (early : course.state.late = true → course.state.watch.reason?.isSome = true) :
      Choice scene answering course .cancel
  | watch (alone : course.state.late = true ∨ course.isBusy scene answering = false)
      (unfinished : ∀ reason, course.state.watch ≠ .finished reason)
      (looks : course.state.watch = .patient → course.state.late = true ∨
        course.state.cancelled = true ∨ course.state.queue.isQuiescent = true) :
      Choice scene answering course .watch
  | expire (alone : course.isBusy scene answering = false)
      (patient : course.state.watch = .patient) (inTime : course.state.late = false)
      (unasked : course.state.cancelled = false)
      (working : course.state.queue.isQuiescent = false) :
      Choice scene answering course .expire

theorem watchAction?_choice {action : Action}
    (alone : course.state.late = true ∨ course.isBusy scene answering = false)
    (chosen : watchAction? answering course.state = some action) :
    Choice scene answering course action := by
  unfold watchAction? at chosen
  split at chosen
  · cases chosen
  · rename_i patient
    split at chosen
    · rename_i looks
      cases chosen
      refine .watch alone (by simp [patient]) ?_
      intro _
      simpa [or_assoc] using looks
    · rename_i waits
      simp only [Bool.or_eq_true, not_or, Bool.not_eq_true] at waits
      split at chosen <;> cases chosen
      obtain ⟨⟨inTime, unasked⟩, working⟩ := waits
      refine .expire (alone.resolve_left ?_) patient inTime unasked working
      simp [inTime]
  · rename_i unfinished impatient
    cases chosen
    exact .watch alone unfinished fun patient => absurd patient impatient

theorem next?_choice {action : Action} (chosen : course.next? scene answering = some action) :
    Choice scene answering course action := by
  unfold next? at chosen
  dsimp only at chosen
  split at chosen
  · rename_i first
    simp only [Bool.and_eq_true] at first
    exact watchAction?_choice (.inl first.1) chosen
  · rename_i behind
    have early (late : course.state.late = true) : course.state.watch.reason?.isSome = true := by
      simp only [late, Bool.true_and, Bool.not_eq_true, Option.isSome_eq_false_iff,
        Option.isNone_iff_eq_none, watchAction?, Bool.true_or, if_true] at behind
      split at behind <;> simp_all [Watch.reason?]
    cases picked : course.firstMover scene answering 0 course.state.workers with
    | none =>
      rw [picked] at chosen
      exact watchAction?_choice (.inr (by simp [isBusy, picked])) chosen
    | some mover =>
      obtain ⟨worker, phase⟩ := mover
      have busy : course.isBusy scene answering = true := by simp [isBusy, picked]
      obtain ⟨_, stands, able⟩ := firstMover_some picked
      rw [picked] at chosen
      split at chosen
      · rename_i same
        cases same
        split at chosen <;> cases chosen
        · rename_i unslowed
          simp only [Bool.and_eq_true, Option.isNone_iff_eq_none] at unslowed
          exact .cancel busy unslowed.2 early
        · exact .work stands able busy early
      · rename_i same
        cases same
        cases chosen
        exact .work stands able busy early
      · rename_i none
        cases none

theorem patience_le (scene : Scene) (answering : Answering) (course : Course) :
    course.patience scene answering ≤ Watch.mostPatience := by
  unfold patience
  split
  · exact Nat.le_refl _
  · cases course.state.watch <;> simp only [Watch.patience, Watch.mostPatience] <;>
      (repeat' split) <;> omega

-- A worker's turn leaves the monitor the looks that it has.
theorem patience_le_of_busy {next : Course} (busy : course.isBusy scene answering = true)
    (early : course.state.late = true → course.state.watch.reason?.isSome = true)
    (same : next.state.watch = course.state.watch) :
    next.patience scene answering ≤ course.patience scene answering := by
  cases decided : course.state.watch.reason? with
  | some reason =>
    cases watch : course.state.watch <;> simp [watch, Watch.reason?] at decided <;>
      simp [patience, same, watch, Watch.reason?, Watch.patience]
  | none =>
    have inTime : course.state.late = false := by
      rw [← Bool.not_eq_true]
      intro late
      simp [decided] at early
      simp [early] at late
    have all : course.patience scene answering = Watch.mostPatience := by
      simp [patience, busy, inTime, decided]
    rw [all]
    exact patience_le scene answering next

theorem patience_alone
    (alone : course.state.late = true ∨ course.isBusy scene answering = false) :
    course.patience scene answering = course.state.watch.patience course.state.late
      course.state.cancelled course.state.queue.isQuiescent := by
  unfold patience
  rw [if_neg]
  rcases alone with late | idle
  · simp [late]
  · simp [idle]

-- A look of the monitor is one of those that it has left.
theorem watch_spends (alone : course.state.late = true ∨ course.isBusy scene answering = false)
    (looks : course.state.watch = .patient → course.state.late = true ∨
      course.state.cancelled = true ∨ course.state.queue.isQuiescent = true)
    (watched : watchStep course.state = some next) :
    next.effort scene ≤ course.state.effort scene ∧
      patience scene answering ⟨next, course.slow⟩ < course.patience scene answering := by
  have still (watch : Watch) :
      patience scene answering ⟨{ course.state with watch }, course.slow⟩ =
        watch.patience course.state.late course.state.cancelled course.state.queue.isQuiescent := by
    apply patience_alone
    rwa [isBusy_watch]
  rw [patience_alone alone]
  unfold watchStep at watched
  split at watched
  · rename_i watch
    cases watched
    refine ⟨Nat.le_refl _, ?_⟩
    rw [still, watch]
    cases empty : course.state.queue.isEmpty <;>
      simp [Watch.patience, Queue.isQuiescent, empty] <;> split_ifs <;> omega
  · rename_i watch
    cases watched
    refine ⟨Nat.le_refl _, ?_⟩
    rw [still, watch]
    cases none : course.state.queue.inFlight == 0 <;>
      simp [Watch.patience, Queue.isQuiescent, none] <;> split_ifs <;> omega
  · rename_i watch
    cases watched
    refine ⟨Nat.le_refl _, ?_⟩
    rw [still, watch]
    cases asked : course.state.cancelled <;> simp [Watch.patience] <;> split_ifs <;> omega
  · rename_i watch
    cases watched
    refine ⟨Nat.le_refl _, ?_⟩
    rw [still, watch]
    cases late : course.state.late with
    | true => simp [Watch.patience]
    | false =>
      have hurries := (looks watch).resolve_left (by simp [late])
      rcases hurries with asked | quiescent
      · simp [Watch.patience, asked]
      · cases course.state.cancelled <;> simp [Watch.patience, quiescent]
  · rename_i reason watch
    cases watched
    constructor
    · refine Nat.add_le_add_left (List.sum_le_sum fun phase _ => ?_) _
      exact phase.effort_closed_le scene _
    · simp [patience, watch, Watch.reason?, Watch.patience]
  · rename_i reason watch
    cases watched
    refine ⟨Nat.le_refl _, ?_⟩
    simp [patience, watch, Watch.reason?, Watch.patience]
  · cases watched

theorem step?_budget_lt {next : Course} (tidy : scene.files.root.isTidy = true)
    (moved : course.step? scene answering = some next) :
    next.budget scene answering < course.budget scene answering := by
  unfold step? at moved
  split at moved
  · cases moved
  rename_i action chosen
  split at moved
  · cases moved
  rename_i state executed
  cases moved
  unfold budget
  cases next?_choice chosen with
  | @work worker phase stands able busy early =>
    have spent := execute_effort_lt tidy stands (by
      rintro rfl
      simpa [canMove, Queue.isEmpty] using able) executed
    have watch : state.watch = course.state.watch := by
      obtain ⟨_, _, _, _, advanced, rfl⟩ := execute_work executed
      exact (advance_turn advanced).outer.1
    have stays : patience scene answering ⟨state, course.slow⟩ ≤ course.patience scene answering :=
      patience_le_of_busy busy early watch
    simp only [slowAfter]
    omega
  | cancel busy unslowed early =>
    obtain ⟨mover, picked⟩ := Option.isSome_iff_exists.mp busy
    have slow : course.slowAfter scene answering .cancel = some mover.1 := by
      simp [slowAfter, picked]
    have effort : state.effort scene = course.state.effort scene := by
      cases executed
      rfl
    have watch : state.watch = course.state.watch := by
      cases executed
      rfl
    have stays : patience scene answering ⟨state, some mover.1⟩ ≤ course.patience scene answering :=
      patience_le_of_busy busy early watch
    simp only [slow, unslowed, effort, Option.isNone_some, Option.isNone_none, Bool.toNat_true,
      Bool.toNat_false]
    omega
  | watch alone _ looks =>
    obtain ⟨effort, patience⟩ := watch_spends alone looks executed
    simp only [slowAfter]
    omega
  | expire alone patient inTime unasked working =>
    have effort : state.effort scene = course.state.effort scene := by
      cases executed
      rfl
    have after : patience scene answering ⟨state, course.slow⟩ = 3 := by
      cases executed
      rw [patience_alone (.inl rfl)]
      simp [patient, Watch.patience]
    have before : course.patience scene answering = 4 := by
      rw [patience_alone (.inr alone)]
      simp [patient, Watch.patience, inTime, unasked, working]
    simp only [slowAfter, effort, after, before]
    omega

theorem runFor_still_of_budget (tidy : scene.files.root.isTidy = true) {steps : Nat}
    (enough : course.budget scene answering ≤ steps) :
    (course.runFor scene answering steps).step? scene answering = none := by
  induction steps generalizing course with
  | zero =>
    rw [runFor, Option.eq_none_iff_forall_ne_some]
    intro next moved
    have spent := step?_budget_lt tidy moved
    omega
  | succ steps ih =>
    rw [runFor]
    cases moved : course.step? scene answering with
    | none => exact moved
    | some next =>
      have spent := step?_budget_lt tidy moved
      exact ih (by omega)

theorem budget_start (scene : Scene) (answering : Answering) (roots : List Path)
    (options : Options) (cancelled : Bool) :
    (Course.start roots options cancelled).budget scene answering ≤
      stepBound scene roots.length (Course.start roots options cancelled).state.workers.length := by
  have effort := effort_initial scene roots options.workers options.capacity
  have crew := (initial_fresh roots options.workers options.capacity).crew
  have looks := patience_le scene answering (Course.start roots options cancelled)
  have same : (Course.start roots options cancelled).state.effort scene =
    (State.initial roots options.workers options.capacity).effort scene := rfl
  have length : (Course.start roots options cancelled).state.workers.length =
      max 1 options.workers := by
    simp [Course.start, crew]
  have slow := Bool.toNat_le (Course.start roots options cancelled).slow.isNone
  have widened : roots.length * (6 + 14 * (scene.files.root.descendants []).length) ≤
      (roots.length + 1) * ((scene.files.root.descendants []).length + 2) * 24 := by
    rw [Nat.mul_assoc]
    apply Nat.mul_le_mul (Nat.le_succ _)
    omega
  simp only [budget, stepBound, same, length, Watch.mostPatience] at looks ⊢
  omega

end Course

structure State.Shut (state : State) : Prop where
  closed : ∀ reason, state.watch = .closed reason ∨ state.watch = .finished reason →
    state.queue.closed = true
  stopped : ∀ reason, state.watch = .finished reason → state.stopped = true

theorem Step.shut {event : Option Event} (shut : state.Shut) (step : Step scene state event next) :
    next.Shut := by
  cases step with
  | outside => exact ⟨shut.closed, shut.stopped⟩
  | @work worker phase after next stands turn =>
    have stopped : next.stopped = state.stopped := by cases turn <;> rfl
    constructor
    · intro reason through
      exact turn.closed_eq.trans (shut.closed reason (turn.outer.1 ▸ through))
    · intro reason through
      exact stopped.trans (shut.stopped reason (turn.outer.1 ▸ through))
  | look look =>
    cases look with
    | wait _ after =>
      constructor
      · rintro reason (rfl | rfl) <;> cases after
      · rintro reason rfl
        cases after
    | settle | giveUp => constructor <;> simp
    | close => exact ⟨fun _ _ => rfl, by simp⟩
    | stop closed => exact ⟨fun _ _ => shut.closed _ (.inl closed), fun _ _ => rfl⟩

theorem Run.shut {start : State} {events : List Event} (fresh : Fresh workers capacity roots start)
    (run : Run scene start events state) : state.Shut := by
  induction run with
  | start => constructor <;> simp [fresh.watching]
  | step action _ executed ih => exact (execute_step executed).shut ih

namespace Course

variable {answering : Answering} {course : Course}

theorem execute_isSome_of_choice {action : Action} (choice : Choice scene answering course action) :
    (execute scene course.state action).isSome = true := by
  cases choice with
  | @work worker phase stands able =>
    have undone : phase.isDone = false := by
      cases phase <;> first | rfl | cases able
    have moves : (advance scene course.state (moveOf scene phase) phase).isSome = true := by
      apply Timeline.advance_isSome_of_offer _ undone
      rintro job found rest rfl
      exact able
    obtain ⟨moved, advanced⟩ := Option.isSome_iff_exists.mp moves
    simp [execute, stands, advanced]
  | watch _ unfinished =>
    simp only [execute]
    unfold watchStep
    split
    all_goals first | rfl | exact absurd ‹_› (unfinished _)
  | cancel | expire => rfl

theorem next?_eq_none_of_still (still : course.step? scene answering = none) :
    course.next? scene answering = none := by
  cases chosen : course.next? scene answering with
  | none => rfl
  | some action =>
    have moves := execute_isSome_of_choice (next?_choice chosen)
    obtain ⟨next, executed⟩ := Option.isSome_iff_exists.mp moves
    simp [step?, chosen, executed] at still

theorem still_of_next?_eq_none (answers : answering ≠ .notNow)
    (nothing : course.next? scene answering = none) :
    (∃ reason, course.state.watch = .finished reason) ∧
      course.firstMover scene answering 0 course.state.workers = none := by
  unfold next? at nothing
  dsimp only at nothing
  split at nothing
  · rename_i first
    simp [nothing] at first
  · cases picked : course.firstMover scene answering 0 course.state.workers with
    | some mover =>
      rw [picked] at nothing
      split at nothing
      · split at nothing <;> cases nothing
      · cases nothing
      · rename_i none
        cases none
    | none =>
      rw [picked] at nothing
      refine ⟨?_, rfl⟩
      dsimp only at nothing
      unfold watchAction? at nothing
      split at nothing
      · exact ⟨_, ‹_›⟩
      · rw [if_neg answers] at nothing
        split at nothing <;> cases nothing
      · cases nothing

theorem stops_of_still (answers : answering ≠ .notNow) (shut : course.state.Shut)
    (still : course.step? scene answering = none) :
    ∃ reason, course.state.stopReason? = some reason := by
  obtain ⟨⟨reason, finished⟩, noneMoves⟩ :=
    still_of_next?_eq_none answers (next?_eq_none_of_still still)
  have closed := shut.closed reason (.inr finished)
  have stopped := shut.stopped reason finished
  have done : course.state.workers.all Phase.isDone = true := by
    rw [List.all_eq_true]
    intro phase present
    obtain ⟨worker, stands⟩ := List.getElem?_of_mem present
    have unable := firstMover_none.mp noneMoves worker phase stands
    cases phase with
    | exited | fallen => rfl
    | receiving => simp [canMove, closed] at unable
    | asking => cases answering <;> simp [canMove, stopped] at unable answers
    | delivering =>
      have offered := scene.sink.offer_stopped course.state.reader course.state.kept.length
      simp only [canMove, stopped] at unable
      cases unable.symm.trans offered
    | _ => cases unable
  exact ⟨reason, by simp [State.stopReason?, finished, done]⟩

theorem run_stops (tidy : scene.files.root.isTidy = true) (answers : answering ≠ .notNow)
    (roots : List Path) (options : Options) (cancelled : Bool) :
    ∃ reason, ((Course.start roots options cancelled).run scene answering
      roots.length).state.stopReason? = some reason := by
  have began : Run scene _ _ _ := Course.start_run roots options cancelled
  apply stops_of_still answers
  · exact (began.append (runFor_run answering _ _)).shut (initial_fresh ..)
  · exact runFor_still_of_budget tidy (budget_start scene answering roots options cancelled)

end Course

theorem Course.run_stands (recordable : ∀ path, Target scene roots path → scene.Recordable path)
    (answering : Answering) (options : Options) (cancelled : Bool) :
    ((Course.start roots options cancelled).run scene answering roots.length).state.hasFallen =
      false := by
  have began : Run scene _ _ _ := Course.start_run roots options cancelled
  have standing := (began.append (Course.runFor_run answering
    (Course.stepBound scene roots.length (Course.start roots options cancelled).state.workers.length)
    (Course.start roots options cancelled))).stands (initial_fresh ..) recordable
  rw [← Bool.not_eq_true]
  intro fallen
  have down := standing .fallen (by simpa [State.hasFallen, Course.run] using fallen)
  cases down

theorem scan_returns (tidy : scene.files.root.isTidy = true)
    (recordable : ∀ path, Target scene roots path → scene.Recordable path)
    {answering : Answering} (answers : answering ≠ .notNow) {uptime : Nat} {options : Options}
    (reaches : clockReaches uptime options.timeout = true) (cancelled : Bool) :
    ∃ outcome, (scan scene uptime roots options answering cancelled).outcome = .ok outcome := by
  obtain ⟨reason, stopped⟩ := Course.run_stops tidy answers roots options cancelled
  have standing := Course.run_stands recordable answering options cancelled
  exact ⟨_, congrArg Result.outcome (scan_eq reaches stopped standing)⟩

theorem scan_beyond (scene : Scene) (roots : List Path) (answering : Answering) {uptime : Nat}
    {options : Options} (beyond : clockReaches uptime options.timeout = false) (cancelled : Bool) :
    scan scene uptime roots options answering cancelled = ⟨.error .clockOverflow, []⟩ := by
  simp [scan, beyond]

end RepoFinder.Scan
