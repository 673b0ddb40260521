import Mathlib.Data.List.Perm.Subperm
import RepoFinder.Proofs.Scan.Schedules

namespace RepoFinder.Scan

variable {scene : Scene} {roots : List Path} {workers crew capacity places : Nat}
  {start state next state' : State} {events events' : List Event} {reason : StopReason}
  {repository : Repository} {sink : Sink} {room : Option Nat}

def Phase.hasOffered (repository : Repository) : Phase → Bool
  | .storing _ found _ => found = repository
  | _ => false

namespace State

def offersOf (state : State) (repository : Repository) : Nat :=
  state.found.count repository + state.workers.countP (Phase.hasOffered repository)

def keptOf (state : State) (repository : Repository) : Nat :=
  (state.kept.map Prod.fst).count repository

end State

def Phase.hands? : Phase → Option Repository
  | .delivering _ found _ => some found
  | _ => none

theorem Turn.offersOf {worker : Nat} {phase after : Phase}
    (stands : state.workers[worker]? = some phase) (turn : Turn scene state phase next after)
    (repository : Repository) :
    State.offersOf { next with workers := next.workers.set worker after } repository =
      state.offersOf repository + phase.hands?.toList.count repository := by
  have offering := countP_set_add stands after (Phase.hasOffered repository)
  unfold State.offersOf
  cases turn with
  | keep | drop =>
    simp only [Phase.hasOffered, Bool.false_eq_true, if_false, decide_eq_true_eq] at offering
    simp only [Phase.hands?, Option.toList_some, List.count_singleton, beq_iff_eq]
    omega
  | store =>
    simp only [Phase.hasOffered, Bool.false_eq_true, if_false, decide_eq_true_eq] at offering
    simp only [Phase.hands?, List.count_append, List.count_singleton, beq_iff_eq,
      Option.toList_none, List.count_nil]
    omega
  | _ =>
    simp only [Phase.hasOffered, Bool.false_eq_true, if_false] at offering
    simp only [State.skip, Phase.hands?, Option.toList_none, List.count_nil]
    omega

theorem Turn.kept {phase after : Phase} (turn : Turn scene state phase next after) :
    next.kept = state.kept ∨
      ∃ found, phase.hands? = some found ∧
        next.kept = state.kept ++ [(found, state.stopped)] := by
  cases turn with
  | keep => exact .inr ⟨_, rfl, rfl⟩
  | _ => exact .inl rfl

theorem State.keptOf_append (state : State) (found repository : Repository) (stopped : Bool) :
    State.keptOf { state with kept := state.kept ++ [(found, stopped)] } repository =
      state.keptOf repository + if found = repository then 1 else 0 := by
  simp [keptOf, List.count_singleton]

theorem initial_unkept (roots : List Path) (workers capacity : Nat) :
    (State.initial roots workers capacity).kept = [] ∧
      (State.initial roots workers capacity).stopped = false := by
  have pushed (roots : List Path) (state : State) :
      (roots.foldl State.pushRoot state).kept = state.kept ∧
        (roots.foldl State.pushRoot state).stopped = state.stopped := by
    induction roots generalizing state with
    | nil => exact ⟨rfl, rfl⟩
    | cons root rest ih =>
      have here : (state.pushRoot root).kept = state.kept ∧
          (state.pushRoot root).stopped = state.stopped := by
        unfold State.pushRoot
        split <;> exact ⟨rfl, rfl⟩
      exact ⟨(ih _).1.trans here.1, (ih _).2.trans here.2⟩
  exact pushed roots _

theorem Step.keptOf_le {event : Option Event} (step : Step scene state event next)
    (within : state.keptOf repository ≤ state.offersOf repository) :
    next.keptOf repository ≤ next.offersOf repository := by
  cases step with
  | look look => cases look <;> exact within
  | outside => exact within
  | @work worker phase after next stands turn =>
    rw [turn.offersOf stands repository]
    rcases turn.kept with dropped | ⟨found, hands, kept⟩
    · have same : (state.kept.map Prod.fst).count repository ≤ state.offersOf repository := within
      simp only [State.keptOf, dropped]
      omega
    · have more := state.keptOf_append found repository state.stopped
      simp only [hands, Option.toList_some, List.count_singleton, beq_iff_eq]
      simp only [State.keptOf, kept] at within more ⊢
      omega

theorem Run.keptOf_le (run : Run scene (State.initial roots workers capacity) events state)
    (repository : Repository) : state.keptOf repository ≤ state.offersOf repository := by
  induction run with
  | start => simp [State.keptOf, (initial_unkept roots workers capacity).1]
  | step _ _ executed ih => exact (execute_step executed).keptOf_le ih

-- Once the workers are gone, what was offered is what is reported.
theorem State.offersOf_stopped (stopped : state.stopReason? = some reason)
    (repository : Repository) :
    state.offersOf repository = (state.outcome reason).repositories.count repository := by
  have none : state.workers.countP (Phase.hasOffered repository) = 0 := by
    apply List.countP_eq_zero.mpr
    intro phase present
    rcases state.stopped_phases stopped phase present with rfl | rfl <;>
      simp [Phase.hasOffered]
  rw [offersOf, none, outcome, (List.mergeSort_perm state.found _).count_eq]
  rfl

theorem Run.kept_subperm (run : Run scene (State.initial roots workers capacity) events state)
    (stopped : state.stopReason? = some reason) :
    List.Subperm (state.kept.map Prod.fst) (state.outcome reason).repositories := by
  apply List.subperm_iff_count.mpr
  intro repository
  rw [← state.offersOf_stopped stopped]
  exact run.keptOf_le repository

theorem Step.stopped_decided {event : Option Event} (step : Step scene state event next)
    (decided : state.stopped = true → state.watch.reason? ≠ none) :
    next.stopped = true → next.watch.reason? ≠ none := by
  cases step with
  | outside => exact decided
  | @work worker phase after next stands turn =>
    have same : next.stopped = state.stopped := by cases turn <;> rfl
    simpa only [turn.outer.1, same] using decided
  | look look =>
    cases look with
    | wait before =>
      intro stopped
      exact absurd before (decided stopped)
    | settle | giveUp | close | stop => simp [Watch.reason?]

theorem Run.stopped_decided (run : Run scene (State.initial roots workers capacity) events state) :
    state.stopped = true → state.watch.reason? ≠ none := by
  induction run with
  | start => simp [(initial_unkept roots workers capacity).2]
  | step _ _ executed ih => exact (execute_step executed).stopped_decided ih

theorem execute_gone {action : Action} (executed : execute scene state action = some next)
    (gone : state.reader.gone = true) : next.reader.gone = true := by
  cases action with
  | work worker move =>
    obtain ⟨phase, moved, after, _, advanced, rfl⟩ := execute_work executed
    have same : moved.reader = state.reader := by cases advance_turn advanced <;> rfl
    rw [same]
    exact gone
  | watch => cases watchStep_look executed <;> exact gone
  | cancel | expire =>
    cases executed
    exact gone
  | ask =>
    obtain ⟨reader, asked, rfl⟩ := Option.map_eq_some_iff.mp executed
    simp [Reader.ask, gone] at asked
  | leave =>
    cases executed
    rfl

theorem advance_delivers {move : Move} {job : Job} {found : Repository} {rest : List Entry}
    {after : Phase} (channel : scene.sink = .channel room) (stays : state.reader.gone = false)
    (running : state.stopped = false)
    (moved : advance scene state move (.delivering job found rest) = some (next, after)) :
    next.kept = state.kept ++ [(found, state.stopped)] := by
  have offer : scene.sink.offer state.stopped state.reader state.kept.length ≠ some false := by
    rw [channel, running]
    unfold Sink.offer
    simp only [stays, Bool.false_eq_true, if_false]
    repeat' split
    all_goals simp
  simp only [advance] at moved
  split at moved
  · cases moved
  · cases moved
    rfl
  · rename_i dropped
    exact absurd dropped offer

-- A channel that is read takes everything, as long as the scan goes on. After that it is enough that
-- no worker holds anything.
theorem execute_keptOf {action : Action} (channel : scene.sink = .channel room)
    (stays : state.reader.gone = false) (rest : state.stopped = true → state.AtRest)
    (even : state.keptOf repository = state.offersOf repository)
    (executed : execute scene state action = some next) :
    next.keptOf repository = next.offersOf repository := by
  cases action with
  | work worker move =>
    obtain ⟨phase, moved, after, stands, advanced, rfl⟩ := execute_work executed
    have turn := advance_turn advanced
    rw [turn.offersOf stands repository, ← even]
    cases phase with
    | delivering job found others =>
      have running : state.stopped = false := by
        cases stopped : state.stopped with
        | false => rfl
        | true => cases (rest stopped).noneHeld _ (List.mem_of_getElem? stands)
      have more := state.keptOf_append found repository state.stopped
      simp only [Phase.hands?, Option.toList_some, List.count_singleton, beq_iff_eq]
      rw [← more]
      simp only [State.keptOf, advance_delivers channel stays running advanced]
    | _ =>
      rcases turn.kept with dropped | ⟨_, hands, _⟩
      · simp [State.keptOf, dropped, Phase.hands?]
      · cases hands
  | watch => cases watchStep_look executed <;> exact even
  | cancel | expire | leave =>
    cases executed
    exact even
  | ask =>
    obtain ⟨reader, _, rfl⟩ := Option.map_eq_some_iff.mp executed
    exact even

theorem Run.keptOf_eq (fits : Fits workers capacity) (channel : scene.sink = .channel room)
    (run : Run scene (State.initial roots workers capacity) events state)
    (onlyIdle : ∀ reason, state.watch.reason? = some reason → reason = .idle)
    (stays : state.reader.gone = false) (repository : Repository) :
    state.keptOf repository = state.offersOf repository := by
  have fresh := initial_fresh roots workers capacity
  induction run with
  | start =>
    simp [State.keptOf, State.offersOf, (initial_unkept roots workers capacity).1, fresh.unfound,
      fresh.crew, List.countP_replicate, Phase.hasOffered]
  | @step events state next action before executed ih =>
    have soFar (reason : StopReason) (decided : state.watch.reason? = some reason) :
        reason = .idle :=
      onlyIdle reason ((execute_step executed).reason?_eq (before.balanced fresh) decided)
    have stayed : state.reader.gone = false := by
      cases gone : state.reader.gone with
      | false => rfl
      | true => cases stays.symm.trans (execute_gone executed gone)
    refine execute_keptOf channel stayed ?_ (ih soFar stayed) executed
    intro stopped
    obtain ⟨reason, decided⟩ := Option.ne_none_iff_exists'.mp (before.stopped_decided stopped)
    exact before.idle_atRest fits fresh (soFar reason decided ▸ decided)

theorem Exhaustive.kept_perm (full : Exhaustive scene roots workers capacity events state)
    (channel : scene.sink = .channel room) (stays : state.reader.gone = false) :
    (state.kept.map Prod.fst).Perm (state.outcome .idle).repositories := by
  apply List.perm_iff_count.mpr
  intro repository
  rw [← state.offersOf_stopped full.idle]
  exact full.run.keptOf_eq full.fits channel full.onlyIdle stays repository

theorem Exhaustive.stats_eq (one : Exhaustive scene roots workers capacity events state)
    (other : Exhaustive { scene with sink } roots crew places events' state') :
    (state.outcome .idle).stats = (state'.outcome .idle).stats := by
  have jobs := one.accepted_perm other (.refl roots)
  have counted (read skipped : Nat) : read * state.scanned + skipped * state.skipped =
      read * state'.scanned + skipped * state'.skipped := by
    rw [one.counted, other.counted]
    exact (jobs.map ((Tally.ofCounts read skipped).directory scene)).sum_nat
  have scanned : state.scanned = state'.scanned := by simpa using counted 1 0
  have skipped : state.skipped = state'.skipped := by simpa using counted 0 1
  simp only [State.outcome, scanned, skipped]

theorem Exhaustive.outcome_eq (one : Exhaustive scene roots workers capacity events state)
    (other : Exhaustive { scene with sink } roots crew places events' state')
    (apart : KeysApart scene roots) : state.outcome .idle = state'.outcome .idle := by
  have repositories :
      (state.outcome .idle).repositories = (state'.outcome .idle).repositories := by
    apply (one.run.orderly .idle).ext (other.run.orderly .idle)
    intro repository
    rw [one.mem_repositories_iff apart, other.mem_repositories_iff apart]
    rfl
  have stats := one.stats_eq other
  simp only [State.outcome] at repositories stats ⊢
  rw [repositories, stats]

theorem scan_eq {options : Options} {uptime : Nat} {answering : Answering} {requested : Bool}
    (inTime : clockReaches uptime options.timeout = true)
    (stopped : ((Course.start roots options requested).run scene answering
      roots.length).state.stopReason? = some reason)
    (standing : ((Course.start roots options requested).run scene answering
      roots.length).state.hasFallen = false) :
    scan scene uptime roots options answering requested =
      ⟨.ok (((Course.start roots options requested).run scene answering
        roots.length).state.outcome reason),
        ((Course.start roots options requested).run scene answering roots.length).state.kept⟩ := by
  simp [scan, inTime, Course.ending?, stopped, standing]

theorem scan_ran {options : Options} {uptime : Nat} {answering : Answering} {requested : Bool}
    {outcome : Outcome}
    (scanned : (scan scene uptime roots options answering requested).outcome = .ok outcome) :
    ∃ events ended, Run scene (State.initial roots options.workers options.capacity) events ended ∧
      ended.stopReason? = some outcome.stop ∧ ended.hasFallen = false ∧
      scan scene uptime roots options answering requested =
        ⟨.ok (ended.outcome outcome.stop), ended.kept⟩ := by
  unfold scan at scanned ⊢
  split at scanned
  · rename_i inTime
    have began : Run scene _ _ _ := Course.start_run roots options requested
    have run := began.append (Course.runFor_run answering
      (Course.stepBound scene roots.length (Course.start roots options requested).state.workers.length)
      (Course.start roots options requested))
    change Run scene _ _ ((Course.start roots options requested).run scene answering
      roots.length).state at run
    generalize (Course.start roots options requested).run scene answering roots.length = course
      at scanned run ⊢
    cases stopped : course.state.stopReason? with
    | none => simp [Course.ending?, stopped] at scanned
    | some reason =>
      cases fallen : course.state.hasFallen with
      | true => simp [Course.ending?, stopped, fallen] at scanned
      | false =>
        simp only [Course.ending?, stopped, fallen, Option.map_some, Option.getD_some,
          Bool.false_eq_true, if_false, Except.ok.injEq] at scanned
        subst scanned
        refine ⟨_, course.state, run, stopped, fallen, ?_⟩
        simp [inTime, Course.ending?, stopped, fallen, State.outcome]
  · cases scanned

end RepoFinder.Scan
