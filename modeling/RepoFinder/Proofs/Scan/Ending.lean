import RepoFinder.Proofs.Scan.Reach

namespace RepoFinder.Scan

variable {scene : Scene} {roots : List Path} {options : Options} {outcome : Outcome}
  {cancelled : Bool}

def Ends (scene : Scene) (roots : List Path) (options : Options) (cancelled : Bool)
    (outcome : Outcome) : Prop :=
  ∃ events state, Run scene (State.initial roots options.workers options.capacity) events state ∧
    state.cancelled = cancelled ∧ state.hasFallen = false ∧
    state.stopReason? = some outcome.stop ∧ outcome = state.outcome outcome.stop

theorem Ends.stop_ne_cancelled (ends : Ends scene roots options false outcome) :
    outcome.stop ≠ .cancelled := by
  obtain ⟨events, state, run, uncancelled, _, stopped, _⟩ := ends
  intro stop
  have heeded := run.heeded (initial_fresh roots options.workers options.capacity)
  rw [stop] at stopped
  cases uncancelled.symm.trans (heeded (State.reason?_of_stopReason? stopped))

-- What is reported has a time of the calendar: with any other its worker would have been taken down.
theorem Ends.dated (ends : Ends scene roots options cancelled outcome) :
    ∀ repository ∈ outcome.repositories, repository.modified.IsMoment := by
  obtain ⟨events, state, run, _, _, _, same⟩ := ends
  intro repository present
  rw [same] at present
  have found : repository ∈ state.found := by simpa [State.outcome] using present
  exact (run.sound (initial_fresh roots options.workers options.capacity)).dated repository found

theorem execute_cancelled {state next : State} {action : Action} (other : action ≠ .cancel)
    (executed : execute scene state action = some next) : next.cancelled = state.cancelled := by
  cases action with
  | work worker move =>
    obtain ⟨phase, moved, after, _, advanced, rfl⟩ := execute_work executed
    exact (advance_turn advanced).outer.2
  | watch => cases watchStep_look executed <;> rfl
  | cancel => exact absurd rfl other
  | expire | leave =>
    cases executed
    rfl
  | ask =>
    obtain ⟨reader, _, rfl⟩ := Option.map_eq_some_iff.mp executed
    rfl

theorem Course.next?_cancel {answering : Answering} {course : Course}
    (chosen : course.next? scene answering = some .cancel) : answering = .firstCancels := by
  have watching : watchAction? answering course.state ≠ some .cancel := by
    unfold watchAction?
    repeat' split
    all_goals simp
  unfold next? at chosen
  dsimp only at chosen
  split at chosen
  · exact absurd chosen watching
  split at chosen
  · split at chosen
    · rename_i asks
      simp only [Bool.and_eq_true, decide_eq_true_eq] at asks
      exact asks.1
    · cases chosen
  · cases chosen
  · exact absurd chosen watching

theorem Course.runFor_cancelled {answering : Answering} (never : answering ≠ .firstCancels)
    (steps : Nat) (course : Course) :
    (course.runFor scene answering steps).state.cancelled = course.state.cancelled := by
  induction steps generalizing course with
  | zero => rfl
  | succ steps ih =>
    cases moved : course.step? scene answering with
    | none => simp [runFor, moved]
    | some next =>
      obtain ⟨action, chosen, executed⟩ := step?_next? moved
      have other : action ≠ .cancel := by
        intro is
        subst is
        exact never (next?_cancel chosen)
      rw [runFor, moved]
      exact (ih next).trans (execute_cancelled other executed)

theorem initial_uncancelled (roots : List Path) (workers capacity : Nat) :
    (State.initial roots workers capacity).cancelled = false ∧
      (State.initial roots workers capacity).late = false := by
  have pushed (roots : List Path) (state : State) :
      (roots.foldl State.pushRoot state).cancelled = state.cancelled ∧
        (roots.foldl State.pushRoot state).late = state.late := by
    induction roots generalizing state with
    | nil => exact ⟨rfl, rfl⟩
    | cons root rest ih =>
      have here : (state.pushRoot root).cancelled = state.cancelled ∧
          (state.pushRoot root).late = state.late := by
        unfold State.pushRoot
        split <;> exact ⟨rfl, rfl⟩
      exact ⟨(ih _).1.trans here.1, (ih _).2.trans here.2⟩
  exact pushed roots _

-- A scan that is cancelled or out of time from the beginning is one where that happens first, so
-- the start of a course is reached by steps like everything else.
theorem Course.start_run (roots : List Path) (options : Options) (cancelled : Bool) :
    Run scene (State.initial roots options.workers options.capacity) []
      (Course.start roots options cancelled).state := by
  obtain ⟨uncancelled, inTime⟩ := initial_uncancelled roots options.workers options.capacity
  unfold Course.start
  generalize State.initial roots options.workers options.capacity = state at uncancelled inTime ⊢
  have first : Run scene state [] { state with cancelled } := by
    cases cancelled with
    | false =>
      rw [← uncancelled]
      exact .start
    | true => exact Run.start.step .cancel rfl
  cases out : options.timeout.isZero with
  | false =>
    rw [← inTime]
    exact first
  | true => exact first.step .expire rfl

theorem scan_ends {uptime : Nat} {answering : Answering} {requested : Bool}
    (scanned : (scan scene uptime roots options answering requested).outcome = .ok outcome) :
    ∃ cancelled, Ends scene roots options cancelled outcome ∧
      (requested = false → answering ≠ .firstCancels → cancelled = false) := by
  unfold scan at scanned
  split at scanned
  · obtain ⟨course, is⟩ : ∃ course,
        course = (Course.start roots options requested).run scene answering roots.length := ⟨_, rfl⟩
    simp only [← is] at scanned
    unfold Course.ending? at scanned
    cases stopped : course.state.stopReason? with
    | none => simp [stopped] at scanned
    | some reason =>
      simp only [stopped, Option.map_some, Option.getD_some] at scanned
      split at scanned
      · cases scanned
      · rename_i standing
        obtain rfl := Except.ok.inj scanned
        have began : Run scene _ _ _ := Course.start_run roots options requested
        obtain ⟨events, went⟩ : ∃ events,
            Run scene (Course.start roots options requested).state events course.state := by
          rw [is]
          exact ⟨_, Course.runFor_run answering _ _⟩
        refine ⟨course.state.cancelled, ⟨_, _, began.append went, rfl, ?_, stopped, rfl⟩, ?_⟩
        · simpa using standing
        · intro calm never
          subst calm
          rw [is]
          exact Course.runFor_cancelled never _ _
  · cases scanned

theorem scan_outcome {uptime : Nat} {answering : Answering} {requested : Bool} {reason : StopReason}
    (inTime : clockReaches uptime options.timeout = true)
    (stopped : ((Course.start roots options requested).run scene answering
      roots.length).state.stopReason? = some reason)
    (standing : ((Course.start roots options requested).run scene answering
      roots.length).state.hasFallen = false) :
    (scan scene uptime roots options answering requested).outcome =
      .ok (((Course.start roots options requested).run scene answering
        roots.length).state.outcome reason) := by
  simp [scan, inTime, Course.ending?, stopped, standing]

end RepoFinder.Scan
