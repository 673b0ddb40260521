import RepoFinder.Proofs.Scan.Dialogue

namespace RepoFinder

def Repository.unaddressed (repository : Repository) : Repository :=
  { repository with remoteUrl := "" }

namespace Scan

variable {scene : Scene} {roots : List Path} {workers capacity : Nat} {start state next : State}
  {events : List Event} {reason : StopReason} {asked : List Path} {handed : List Repository}

def Scene.unasked (scene : Scene) : Scene := { scene with remote := fun _ => .address "" }

def Phase.unaddressed : Phase → Phase
  | .stamping job _ rest => .stamping job "" rest
  | .delivering job found rest => .delivering job found.unaddressed rest
  | .storing job found rest => .storing job found.unaddressed rest
  | phase => phase

def State.unaddressed (state : State) : State :=
  { state with
    workers := state.workers.map Phase.unaddressed
    found := state.found.map Repository.unaddressed
    kept := state.kept.map fun kept => (kept.1.unaddressed, kept.2) }

theorem Phase.event?_unaddressed (queue : Queue) (phase : Phase) :
    phase.unaddressed.event? queue = phase.event? queue := by
  cases phase <;> rfl

theorem Phase.isDone_unaddressed (phase : Phase) : phase.unaddressed.isDone = phase.isDone := by
  cases phase <;> rfl

theorem Phase.eq_fallen_of_unaddressed {phase : Phase} :
    phase.unaddressed = .fallen ↔ phase = .fallen := by
  cases phase <;> simp [unaddressed]

theorem State.event?_unaddressed (state : State) (action : Action) :
    state.unaddressed.event? action = state.event? action := by
  cases action with
  | work worker move =>
    simp only [event?, unaddressed, List.getElem?_map]
    cases state.workers[worker]? with
    | none => rfl
    | some phase => exact phase.event?_unaddressed state.queue
  | _ => rfl

theorem openDirectory_unaddressed (scene : Scene) (state : State) (job : Job) (move : Move) :
    openDirectory scene.unasked state.unaddressed job move =
      (openDirectory scene state job move).map (Prod.map .unaddressed .unaddressed) := by
  have files : scene.unasked.files = scene.files := rfl
  have limit : scene.unasked.depthLimit = scene.depthLimit := rfl
  simp only [openDirectory, files, limit]
  split
  · rfl
  · cases scene.files.readDirectory job.path with
    | error failure => rfl
    | ok actual =>
      cases move with
      | list entries =>
        dsimp only
        split <;> rfl
      | _ => rfl

theorem meet_unaddressed (scene : Scene) (state : State) (job : Job) (entry : Entry)
    (rest : List Entry) :
    meet scene.unasked state.unaddressed job entry rest =
      (meet scene state job entry rest).map .unaddressed .unaddressed := by
  unfold meet
  have limit : scene.unasked.depthLimit = scene.depthLimit := rfl
  cases EntryClass.ofEntry entry.1.display entry.2 with
  | descend =>
    simp only [limit]
    split <;> rfl
  | _ => rfl

-- A turn whose question, if it asks one, leaves its worker up is the same turn without it.
theorem advance_unaddressed (move : Move) {phase : Phase}
    (answered : ∀ job rest, phase = .asking job rest → scene.remote job.path ≠ .crash) :
    advance scene.unasked state.unaddressed move phase.unaddressed =
      (advance scene state move phase).map (Prod.map .unaddressed .unaddressed) := by
  have queue : state.unaddressed.queue = state.queue := rfl
  have sink : scene.unasked.sink = scene.sink := rfl
  cases phase with
  | looping | popping =>
    simp only [advance, Phase.unaddressed, queue]
    split <;> rfl
  | receiving =>
    simp only [advance, Phase.unaddressed, queue, Queue.take?]
    cases state.queue.jobs with
    | cons job rest => rfl
    | nil => cases move <;> rfl
  | opening job => exact openDirectory_unaddressed scene state job move
  | reading job rest =>
    cases rest with
    | nil => rfl
    | cons entry rest =>
      simp only [advance, Phase.unaddressed, queue]
      split <;> rfl
  | meeting job entry rest => exact congrArg some (meet_unaddressed scene state job entry rest)
  | offering job child rest =>
    simp only [advance, Phase.unaddressed, queue]
    split <;> rfl
  | sending job child rest =>
    simp only [advance, Phase.unaddressed, queue]
    cases state.queue.send? child <;> rfl
  | claiming job rest =>
    have seen : state.unaddressed.seen = state.seen := rfl
    simp only [advance, Phase.unaddressed, seen]
    split <;> rfl
  | asking job rest =>
    simp only [advance, Phase.unaddressed]
    cases answer : scene.remote job.path with
    | crash => exact absurd answer (answered job rest rfl)
    | _ => rfl
  | stamping job url rest =>
    have files : scene.unasked.files = scene.files := rfl
    simp only [advance, Phase.unaddressed, files]
    split <;> rfl
  | delivering job found rest =>
    have given : state.unaddressed.kept.length = state.kept.length := by simp [State.unaddressed]
    have stopped : state.unaddressed.stopped = state.stopped := rfl
    have reader : state.unaddressed.reader = state.reader := rfl
    simp only [advance, Phase.unaddressed, sink, given, stopped, reader]
    cases scene.sink.offer state.stopped state.reader state.kept.length with
    | none => rfl
    | some keeps => cases keeps <;> simp [State.unaddressed, Phase.unaddressed]
  | storing job found rest => simp [advance, Phase.unaddressed, State.unaddressed]
  | _ => rfl

theorem watchStep_unaddressed (state : State) :
    watchStep state.unaddressed = (watchStep state).map .unaddressed := by
  have watch : state.unaddressed.watch = state.watch := rfl
  unfold watchStep
  rw [watch]
  cases state.watch <;> rfl

theorem execute_unaddressed {action : Action} (executed : execute scene state action = some next)
    (standing : Standing next) :
    execute scene.unasked state.unaddressed action = some next.unaddressed := by
  cases action with
  | work worker move =>
    obtain ⟨phase, moved, after, stands, advanced, rfl⟩ := execute_work executed
    have turn := advance_turn advanced
    have up := turn.upright stands standing
    have same : advance scene.unasked state.unaddressed move phase.unaddressed =
        (advance scene state move phase).map (Prod.map .unaddressed .unaddressed) := by
      apply advance_unaddressed
      rintro job rest rfl crashes
      simp only [advance, crashes] at advanced
      cases advanced
      cases up
    have there : state.unaddressed.workers[worker]? = some phase.unaddressed := by
      simp [State.unaddressed, stands]
    simp only [execute, there, same, advanced, Option.map_some, Prod.map_apply]
    simp [State.unaddressed]
  | watch => exact (watchStep_unaddressed state).trans (congrArg _ executed)
  | cancel | expire | leave =>
    cases executed
    rfl
  | ask =>
    obtain ⟨reader, asked, rfl⟩ := Option.map_eq_some_iff.mp executed
    have given : state.unaddressed.kept.length = state.kept.length := by simp [State.unaddressed]
    have same : state.unaddressed.reader = state.reader := rfl
    simp only [execute, given, same, asked, Option.map_some]
    rfl

theorem initial_unaddressed (roots : List Path) (workers capacity : Nat) :
    (State.initial roots workers capacity).unaddressed = State.initial roots workers capacity := by
  have fresh := initial_fresh roots workers capacity
  have unkept := (initial_unkept roots workers capacity).1
  generalize State.initial roots workers capacity = state at fresh unkept
  obtain ⟨queue, crew, watch, seen, found, scanned, skipped, kept, reader, stopped, cancelled, late⟩ :=
    state
  have crew := fresh.crew
  have unfound := fresh.unfound
  simp only at crew unfound unkept
  simp [State.unaddressed, crew, unfound, unkept, Phase.unaddressed]

-- A run that leaves everybody standing is, but for the addresses, a run in which nobody is asked.
theorem Run.unasked (run : Run scene (State.initial roots workers capacity) events state)
    (standing : Standing state) :
    Run scene.unasked (State.initial roots workers capacity) events state.unaddressed := by
  induction run with
  | start =>
    rw [initial_unaddressed]
    exact .start
  | @step events state next action before executed ih =>
    have soFar := ih ((execute_step executed).standing standing)
    rw [← State.event?_unaddressed]
    exact soFar.step action (execute_unaddressed executed standing)

theorem State.stopReason?_unaddressed (state : State) :
    state.unaddressed.stopReason? = state.stopReason? := by
  have watch : state.unaddressed.watch = state.watch := rfl
  have same : state.unaddressed.workers.all Phase.isDone = state.workers.all Phase.isDone := by
    simp [unaddressed, List.all_map, Function.comp_def, Phase.isDone_unaddressed]
  simp only [stopReason?, watch, same]

theorem State.hasFallen_unaddressed (state : State) :
    state.unaddressed.hasFallen = state.hasFallen := by
  rw [Bool.eq_iff_iff]
  simp [hasFallen, unaddressed, Phase.eq_fallen_of_unaddressed]

theorem State.outcome_unaddressed (state : State) (reason : StopReason) :
    state.unaddressed.outcome reason =
      ⟨(state.outcome reason).repositories.map Repository.unaddressed,
        (state.outcome reason).stats, reason⟩ := by
  have sorted : (state.found.mergeSort fun a b => a.path.le b.path).map Repository.unaddressed =
      (state.found.map Repository.unaddressed).mergeSort fun a b => a.path.le b.path :=
    List.map_mergeSort fun _ _ _ _ => rfl
  simp only [outcome, unaddressed, sorted]

theorem Exhaustive.unasked (full : Exhaustive scene roots workers capacity events state) :
    Exhaustive scene.unasked roots workers capacity events state.unaddressed where
  fits := full.fits
  run := full.run.unasked (State.standing_of_stopped full.idle full.standing)
  rootsTaken := full.rootsTaken
  unrefused := full.unrefused
  idle := state.stopReason?_unaddressed.trans full.idle
  standing := state.hasFallen_unaddressed.trans full.standing

theorem Told.answered (told : Told scene start asked handed state) (standing : Standing state) :
    ∀ path ∈ asked, scene.remote path ≠ .crash := by
  induction told with
  | start => simp
  | @step asked handed state next action _ executed ih =>
    intro path present crashes
    rcases List.mem_append.mp present with old | new
    · exact ih ((execute_step executed).standing standing) path old crashes
    · cases action with
      | work worker move =>
        obtain ⟨phase, moved, after, stands, advanced, rfl⟩ := execute_work executed
        simp only [State.asked?, stands, Option.bind_some, Option.mem_toList] at new
        have up := (advance_turn advanced).upright stands standing
        cases phase <;> simp only [Phase.asks?, Option.some.injEq, reduceCtorEq] at new
        subst new
        simp only [advance, crashes] at advanced
        cases advanced
        cases up
      | _ => cases new

-- What is found was recorded, so it could be.
theorem Run.recordable (run : Run scene (State.initial roots workers capacity) events state)
    (standing : Standing state) :
    ∀ repository ∈ state.found, scene.Recordable repository.path := by
  intro repository found
  have sound := run.sound (initial_fresh roots workers capacity)
  have dated := sound.dated repository found
  rw [(sound.found repository found).2] at dated
  refine ⟨?_, dated⟩
  obtain ⟨asked, handed, told⟩ := run.told
  apply told.answered standing
  have counted := told.questionsOn standing repository.path
  have some : 0 < (state.found.map Repository.path).count repository.path :=
    List.count_pos_iff.mpr (List.mem_map_of_mem found)
  unfold State.questionsOn at counted
  exact List.count_pos_iff.mp (by omega)

end Scan

end RepoFinder
