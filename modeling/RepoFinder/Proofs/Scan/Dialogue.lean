import RepoFinder.Proofs.Scan.Delivery

namespace RepoFinder.Scan

variable {scene : Scene} {roots : List Path} {workers capacity : Nat}
  {start state next : State} {events : List Event} {reason : StopReason} {asked : List Path}
  {handed : List Repository}

def Phase.asks? : Phase → Option Path
  | .asking job _ => some job.path
  | _ => none

namespace State

def asked? (state : State) : Action → Option Path
  | .work worker _ => state.workers[worker]?.bind Phase.asks?
  | _ => none

def handed? (state : State) (sink : Sink) : Action → Option Repository
  | .work worker _ => if sink = .absent then none else state.workers[worker]?.bind Phase.hands?
  | _ => none

end State

-- A run of a scan, with the paths that were asked about and the repositories that were handed over
-- in it, the earliest first.
inductive Told (scene : Scene) (start : State) : List Path → List Repository → State → Prop where
  | start : Told scene start [] [] start
  | step {asked : List Path} {handed : List Repository} {state next : State} (action : Action)
      (before : Told scene start asked handed state)
      (executed : execute scene state action = some next) :
      Told scene start (asked ++ (state.asked? action).toList)
        (handed ++ (state.handed? scene.sink action).toList) next

theorem Told.run (told : Told scene start asked handed state) :
    ∃ events, Run scene start events state := by
  induction told with
  | start => exact ⟨[], .start⟩
  | step action _ executed ih =>
    obtain ⟨events, run⟩ := ih
    exact ⟨_, run.step action executed⟩

theorem Run.told (run : Run scene start events state) :
    ∃ asked handed, Told scene start asked handed state := by
  induction run with
  | start => exact ⟨[], [], .start⟩
  | step action _ executed ih =>
    obtain ⟨asked, handed, told⟩ := ih
    exact ⟨_, _, told.step action executed⟩

def Phase.hasAsked (path : Path) : Phase → Bool
  | .stamping job _ _ => job.path = path
  | .delivering _ found _ => found.path = path
  | .storing _ found _ => found.path = path
  | _ => false

def State.questionsOn (state : State) (path : Path) : Nat :=
  (state.found.map Repository.path).count path + state.workers.countP (Phase.hasAsked path)

-- A worker that is taken down by its question forgets it, so all must stay up.
theorem Turn.questionsOn {worker : Nat} {phase after : Phase}
    (stands : state.workers[worker]? = some phase) (turn : Turn scene state phase next after)
    (up : after.isDown = false) (path : Path) :
    State.questionsOn { next with workers := next.workers.set worker after } path =
      state.questionsOn path + phase.asks?.toList.count path := by
  have asking := countP_set_add stands after (Phase.hasAsked path)
  unfold State.questionsOn
  cases turn with
  | crash | misdate => cases up
  | learn | learnNothing =>
    simp only [Phase.hasAsked, Bool.false_eq_true, if_false, decide_eq_true_eq] at asking
    simp only [Phase.asks?, Option.toList_some, List.count_singleton, beq_iff_eq]
    omega
  | @stamp job url rest =>
    have same : Phase.hasAsked path (.delivering job (.ofPath job.path url
        (scene.files.modified job.path)) rest) = Phase.hasAsked path (.stamping job url rest) := rfl
    rw [same] at asking
    simp only [Phase.asks?, Option.toList_none, List.count_nil]
    omega
  | @keep job found rest | @drop job found rest =>
    have same : Phase.hasAsked path (.delivering job found rest) =
      Phase.hasAsked path (.storing job found rest) := rfl
    rw [same] at asking
    simp only [Phase.asks?, Option.toList_none, List.count_nil]
    omega
  | store =>
    simp only [Phase.hasAsked, Bool.false_eq_true, if_false, decide_eq_true_eq] at asking
    simp only [Phase.asks?, List.map_append, List.map_singleton, List.count_append,
      List.count_singleton, beq_iff_eq, Option.toList_none, List.count_nil]
    omega
  | _ =>
    simp only [Phase.hasAsked, Bool.false_eq_true, if_false] at asking
    simp only [State.skip, Phase.asks?, Option.toList_none, List.count_nil]
    omega

theorem Told.questionsOn (told : Told scene (State.initial roots workers capacity) asked handed state)
    (standing : Standing state) (path : Path) : state.questionsOn path = asked.count path := by
  induction told with
  | start =>
    have fresh := initial_fresh roots workers capacity
    simp [State.questionsOn, fresh.unfound, fresh.crew, List.countP_replicate, Phase.hasAsked]
  | @step asked handed state next action _ executed ih =>
    have soFar := ih ((execute_step executed).standing standing)
    rw [List.count_append, ← soFar]
    cases action with
    | work worker move =>
      obtain ⟨phase, moved, after, stands, advanced, rfl⟩ := execute_work executed
      have turn := advance_turn advanced
      have up := turn.upright stands standing
      simp only [State.asked?, stands, Option.bind_some]
      exact turn.questionsOn stands up path
    | watch => cases watchStep_look executed <;> rfl
    | cancel | expire | leave =>
      cases executed
      rfl
    | ask =>
      obtain ⟨reader, _, rfl⟩ := Option.map_eq_some_iff.mp executed
      rfl

theorem Told.offersOf (told : Told scene (State.initial roots workers capacity) asked handed state)
    (listens : scene.sink ≠ .absent) (repository : Repository) :
    state.offersOf repository = handed.count repository := by
  induction told with
  | start =>
    have fresh := initial_fresh roots workers capacity
    simp [State.offersOf, fresh.unfound, fresh.crew, List.countP_replicate, Phase.hasOffered]
  | @step asked handed state next action _ executed ih =>
    rw [List.count_append, ← ih]
    cases action with
    | work worker move =>
      obtain ⟨phase, moved, after, stands, advanced, rfl⟩ := execute_work executed
      simp only [State.handed?, listens, if_false, stands, Option.bind_some]
      exact (advance_turn advanced).offersOf stands repository
    | watch => cases watchStep_look executed <;> rfl
    | cancel | expire | leave =>
      cases executed
      rfl
    | ask =>
      obtain ⟨reader, _, rfl⟩ := Option.map_eq_some_iff.mp executed
      rfl

theorem State.questionsOn_stopped (stopped : state.stopReason? = some reason) (path : Path) :
    state.questionsOn path = ((state.outcome reason).repositories.map Repository.path).count path := by
  have none : state.workers.countP (Phase.hasAsked path) = 0 := by
    apply List.countP_eq_zero.mpr
    intro phase present
    rcases state.stopped_phases stopped phase present with rfl | rfl <;> simp [Phase.hasAsked]
  rw [questionsOn, none, outcome, ((List.mergeSort_perm state.found _).map _).count_eq]
  rfl

-- Once a scan has ended, for whatever reason, its sink was given just the repositories that it
-- reports, each of them once, and the remote addresses of just these were asked for, each once.
theorem sink_and_questions_agree
    (told : Told scene (State.initial roots workers capacity) asked handed state)
    (listens : scene.sink ≠ .absent) (stopped : state.stopReason? = some reason)
    (standing : state.hasFallen = false) :
    handed.Perm (state.outcome reason).repositories ∧ handed.Nodup ∧
      asked.Perm ((state.outcome reason).repositories.map Repository.path) ∧ asked.Nodup := by
  have given : handed.Perm (state.outcome reason).repositories := by
    apply List.perm_iff_count.mpr
    intro repository
    rw [← told.offersOf listens, state.offersOf_stopped stopped]
  have questioned : asked.Perm ((state.outcome reason).repositories.map Repository.path) := by
    apply List.perm_iff_count.mpr
    intro path
    rw [← told.questionsOn (State.standing_of_stopped stopped standing),
      State.questionsOn_stopped stopped]
  obtain ⟨events, run⟩ := told.run
  have apart : ((state.outcome reason).repositories.map Repository.path).Nodup := by
    refine List.pairwise_map.mpr ((run.orderly reason).distinct.imp ?_)
    intro one other differ same
    exact differ (congrArg Path.key same)
  exact ⟨given, given.nodup_iff.mpr apart.of_map, questioned, questioned.nodup_iff.mpr apart⟩

def patientScene : Scene := { crowdedScene with sink := .afterStop }

theorem patientCourse_facts :
    ((overlappingCourse ["/w", "/w/p"] 3).runFor patientScene .promptly 130).state.stopReason? =
        some .deadlineExceeded ∧
      ((overlappingCourse ["/w", "/w/p"] 3).runFor patientScene .promptly 130).state.hasFallen =
        false ∧
      ((overlappingCourse ["/w", "/w/p"] 3).runFor patientScene .promptly 130).state.found.map
        Repository.name = ["w", "p", "q"] := by
  decide +kernel

theorem sink_and_questions_agree_late :
    let state := ((overlappingCourse ["/w", "/w/p"] 3).runFor patientScene .promptly 130).state
    state.stopReason? = some .deadlineExceeded ∧
      state.found.map Repository.name = ["w", "p", "q"] ∧
      ∃ asked handed,
        Told patientScene (State.initial (["/w", "/w/p"].map Path.ofString) 3 8) asked handed
          state ∧
        handed.Perm (state.outcome .deadlineExceeded).repositories ∧ handed.Nodup ∧
        asked.Perm ((state.outcome .deadlineExceeded).repositories.map Repository.path) ∧
        asked.Nodup := by
  obtain ⟨stopped, standing, names⟩ := patientCourse_facts
  have run : Run patientScene (State.initial (["/w", "/w/p"].map Path.ofString) 3 8) _ _ :=
    (overlappingCourse ["/w", "/w/p"] 3).runFor_run .promptly 130
  obtain ⟨asked, handed, told⟩ := run.told
  exact ⟨stopped, names, asked, handed, told,
    sink_and_questions_agree told (by simp [patientScene]) stopped standing⟩

end RepoFinder.Scan
