import RepoFinder.Proofs.Scan.Exactness
import RepoFinder.Proofs.Scan.Shifting

namespace RepoFinder.Scan

variable {scene : Scene} {roots : List Path} {workers capacity : Nat} {start state next : State}
  {events : List Event}

structure Exhaustive (scene : Scene) (roots : List Path) (workers capacity : Nat)
    (events : List Event) (state : State) : Prop where
  fits : Fits workers capacity
  run : Run scene (State.initial roots workers capacity) events state
  rootsTaken : (State.initial roots workers capacity).queue.jobs = roots.map Job.ofRoot
  unrefused : ∀ job, Event.refused job ∉ events
  idle : state.stopReason? = some .idle
  standing : state.hasFallen = false

namespace Exhaustive

theorem up (full : Exhaustive scene roots workers capacity events state) : Standing state :=
  State.standing_of_stopped full.idle full.standing

theorem atRest (full : Exhaustive scene roots workers capacity events state) : state.AtRest :=
  full.run.idle_atRest full.fits (initial_fresh roots workers capacity)
    (State.reason?_of_stopReason? full.idle)

theorem finished_perm (full : Exhaustive scene roots workers capacity events state) :
    (finished events).Perm (accepted (State.initial roots workers capacity) events) :=
  (full.run.balanced (initial_fresh roots workers capacity)).finished_perm full.atRest

theorem onlyIdle (full : Exhaustive scene roots workers capacity events state) :
    ∀ reason, state.watch.reason? = some reason → reason = .idle := by
  intro reason given
  exact Option.some.inj (given.symm.trans (State.reason?_of_stopReason? full.idle))

theorem complete (full : Exhaustive scene roots workers capacity events state) :
    Complete scene (State.initial roots workers capacity) events state :=
  full.run.complete full.fits (initial_fresh roots workers capacity) full.up full.unrefused
    full.onlyIdle

theorem root_accepted (full : Exhaustive scene roots workers capacity events state) {root : Path}
    (listed : root ∈ roots) :
    Job.ofRoot root ∈ accepted (State.initial roots workers capacity) events := by
  simp only [accepted, full.rootsTaken]
  exact List.mem_append_left _ (List.mem_map_of_mem listed)

theorem accepted_of_target (full : Exhaustive scene roots workers capacity events state)
    {path : Path} (target : Target scene roots path) :
    ∃ job ∈ accepted (State.initial roots workers capacity) events, job.path = path := by
  obtain ⟨root, listed, depth, within, below, _⟩ := target
  exact ⟨_, full.complete.accepted_of_below full.finished_perm (full.root_accepted listed) below
    (withinDepth_iff.mpr within), rfl⟩

theorem found_of_target (full : Exhaustive scene roots workers capacity events state) {path : Path}
    (target : Target scene roots path) :
    ∃ repository ∈ state.found, repository.path.key = path.key := by
  have kept := full.run.kept (initial_fresh roots workers capacity) full.up
  exact full.complete.found_of_target full.atRest kept full.finished_perm
    (fun _ => full.root_accepted) target

end Exhaustive

def Event.isRefused : Event → Bool
  | refused _ => true
  | _ => false

theorem Exhaustive.ofCourse {course : Course} {answering : Answering} {steps : Nat}
    (fits : Fits workers capacity)
    (rootsTaken : (State.initial roots workers capacity).queue.jobs = roots.map Job.ofRoot)
    (begun : Run scene (State.initial roots workers capacity) [] course.state)
    (unrefused : (course.eventsFor scene answering steps).any Event.isRefused = false)
    (idle : (course.runFor scene answering steps).state.stopReason? = some .idle)
    (standing : (course.runFor scene answering steps).state.hasFallen = false) :
    Exhaustive scene roots workers capacity (course.eventsFor scene answering steps)
      (course.runFor scene answering steps).state := by
  refine ⟨fits, begun.append (course.runFor_run answering steps), rootsTaken, ?_, idle, standing⟩
  intro job refused
  have refuses := List.any_eq_false.mp unrefused _ refused
  exact refuses rfl

def KeysApart (scene : Scene) (roots : List Path) : Prop :=
  ∀ path other, Target scene roots path → Target scene roots other → path.key = other.key →
    path = other

theorem Exhaustive.keysApart (full : Exhaustive scene roots workers capacity events state)
    (distinct : ∀ job ∈ accepted (State.initial roots workers capacity) events,
      ∀ other ∈ accepted (State.initial roots workers capacity) events,
        job.path.key = other.path.key → job.path = other.path) : KeysApart scene roots := by
  intro path other target also same
  obtain ⟨job, taken, rfl⟩ := full.accepted_of_target target
  obtain ⟨job', taken', rfl⟩ := full.accepted_of_target also
  exact distinct job taken job' taken' same

theorem Exhaustive.mem_repositories_iff
    (full : Exhaustive scene roots workers capacity events state) (apart : KeysApart scene roots)
    {repository : Repository} :
    repository ∈ (state.outcome .idle).repositories ↔
      ∃ path, Target scene roots path ∧ repository = repositoryAt scene path := by
  have sound := full.run.sound (initial_fresh roots workers capacity)
  have reported : repository ∈ (state.outcome .idle).repositories ↔ repository ∈ state.found := by
    simp [State.outcome]
  rw [reported]
  constructor
  · intro found
    exact ⟨repository.path, sound.found repository found⟩
  · rintro ⟨path, target, rfl⟩
    obtain ⟨other, found, key⟩ := full.found_of_target target
    obtain ⟨also, same⟩ := sound.found other found
    rw [apart other.path path also target key] at same
    rw [← same]
    exact found

theorem Run.orderly (run : Run scene (State.initial roots workers capacity) events state)
    (reason : StopReason) : Orderly (state.outcome reason).repositories := by
  let options : Options := ⟨scene.depthLimit, workers, ⟨0, 0⟩, capacity⟩
  have begun : Going (· = scene) roots options (State.initial roots workers capacity) := .initial
  exact .ofSort (begun.run rfl run).tidy.distinct

end RepoFinder.Scan
