import RepoFinder.Proofs.Scan.Generations
import RepoFinder.Proofs.Scan.Interruption

namespace RepoFinder

theorem eq_of_ascending {α : Type} (path : α → Path) {items others : List α}
    (one : items.Pairwise fun a b =>
      (path a).le (path b) = true ∧ (path b).le (path a) = false)
    (other : others.Pairwise fun a b =>
      (path a).le (path b) = true ∧ (path b).le (path a) = false)
    (same : ∀ item, item ∈ items ↔ item ∈ others) : items = others := by
  have nodup {list : List α} (ascending : list.Pairwise fun a b =>
      (path a).le (path b) = true ∧ (path b).le (path a) = false) : list.Nodup := by
    refine ascending.imp ?_
    rintro a b ordered rfl
    cases ordered.1.symm.trans ordered.2
  have perm := (List.perm_ext_iff_of_nodup (nodup one) (nodup other)).mpr same
  refine perm.eq_of_pairwise ?_ one other
  intro a b _ _ ahead behind
  cases ahead.1.symm.trans behind.2

theorem Orderly.ext {repositories others : List Repository} (one : Orderly repositories)
    (other : Orderly others)
    (same : ∀ repository, repository ∈ repositories ↔ repository ∈ others) :
    repositories = others := eq_of_ascending Repository.path one.ascending other.ascending same

theorem Orderly.paths_ext {repositories others : List Repository} (one : Orderly repositories)
    (other : Orderly others)
    (same : ∀ path, path ∈ repositories.map Repository.path ↔ path ∈ others.map Repository.path) :
    repositories.map Repository.path = others.map Repository.path :=
  eq_of_ascending id (List.pairwise_map.mpr one.ascending)
    (List.pairwise_map.mpr other.ascending) same

namespace Scan

variable {scene : Scene} {roots others : List Path} {workers crew capacity room : Nat}
  {state state' : State} {events events' : List Event} {sink : Sink}

theorem Job.generation_sink (scene : Scene) (sink : Sink) (job : Job) (depth : Nat) :
    job.generation { scene with sink } depth = job.generation scene depth := by
  induction depth with
  | zero => rfl
  | succ depth ih =>
    simp only [generation, ih]
    rfl

-- The jobs that two whole scans accept are the same, each as often: those of one depth are one
-- generation, whatever the schedule was.
theorem Exhaustive.accepted_perm (one : Exhaustive scene roots workers capacity events state)
    (other : Exhaustive { scene with sink } others crew room events' state')
    (same : roots.Perm others) :
    (accepted (State.initial roots workers capacity) events).Perm
      (accepted (State.initial others crew room) events') := by
  have alike (depth : Nat) :
      ((accepted (State.initial roots workers capacity) events).filter (·.depth = depth)).Perm
        ((accepted (State.initial others crew room) events').filter (·.depth = depth)) := by
    refine (one.generation_perm depth).trans (.trans ?_ (other.generation_perm depth).symm)
    simp only [Job.generation_sink]
    exact (same.map Job.ofRoot).flatMap_right _
  apply List.perm_iff_count.mpr
  intro job
  have counted := (alike job.depth).count_eq job
  rwa [List.count_filter (by simp), List.count_filter (by simp)] at counted

def Tally.ofCounts (read skipped : Nat) : Tally := ⟨read, skipped, fun _ => 0⟩

theorem Tally.ofCounts_jobs (read skipped : Nat) (jobs : List Job) :
    (ofCounts read skipped).jobs jobs = 0 := by
  induction jobs with
  | nil => rfl
  | cons job rest ih => rw [jobs_cons, ih]; rfl

theorem Exhaustive.counted (full : Exhaustive scene roots workers capacity events state)
    (read skipped : Nat) :
    read * state.scanned + skipped * state.skipped =
      (Tally.ofCounts read skipped).directories scene
        (accepted (State.initial roots workers capacity) events) := by
  have settled := full.settled (.ofCounts read skipped)
  simp only [Tally.ofCounts_jobs, Nat.add_zero, Nat.zero_add] at settled
  exact settled

-- Two scans of one tree that are run to their end answer alike in every detail: the same
-- repositories in the same order, and the same numbers of directories read and passed by. The
-- workers may be more or fewer and take their turns in any order, the directories may list their
-- entries in any order, and the roots may stand in any order and overlap. The one thing that a
-- schedule could decide is the spelling of a directory that is reached in two, and so has one key.
theorem outcome_of_any_schedule
    (one : Exhaustive scene roots workers capacity events state)
    (other : Exhaustive { scene with sink } others crew room events' state')
    (same : roots.Perm others) (apart : KeysApart scene roots) :
    state.outcome .idle = state'.outcome .idle := by
  have target (path : Path) :
      Target { scene with sink } others path ↔ Target scene roots path := by
    simp only [Target, same.mem_iff]
  have apart' : KeysApart { scene with sink } others := by
    intro path also listed listed'
    exact apart path also ((target path).mp listed) ((target also).mp listed')
  have repositories :
      (state.outcome .idle).repositories = (state'.outcome .idle).repositories := by
    apply (one.run.orderly .idle).ext (other.run.orderly .idle)
    intro repository
    rw [one.mem_repositories_iff apart, other.mem_repositories_iff apart']
    simp only [target]
    rfl
  have jobs := one.accepted_perm other same
  have counted (read skipped : Nat) : read * state.scanned + skipped * state.skipped =
      read * state'.scanned + skipped * state'.skipped := by
    rw [one.counted, other.counted]
    exact (jobs.map ((Tally.ofCounts read skipped).directory scene)).sum_nat
  have scanned : state.scanned = state'.scanned := by simpa using counted 1 0
  have skipped : state.skipped = state'.skipped := by simpa using counted 0 1
  have stats : (state.outcome .idle).stats = (state'.outcome .idle).stats := by
    simp only [State.outcome, scanned, skipped]
  exact congrArg₂ (Outcome.mk · · .idle) repositories stats

def overlappingCourse (roots : List String) (workers : Nat) : Course :=
  ⟨State.initial (roots.map Path.ofString) workers 8, none⟩

theorem overlappingCourse_alone : Exhaustive crowdedScene (["/w", "/w/p"].map Path.ofString) 1 8
    ((overlappingCourse ["/w", "/w/p"] 1).eventsFor crowdedScene .promptly 130)
    ((overlappingCourse ["/w", "/w/p"] 1).runFor crowdedScene .promptly 130).state :=
  .ofCourse (by decide) rfl .start (by decide +kernel) (by decide +kernel) (by decide +kernel)

theorem overlappingCourse_crew : Exhaustive crowdedScene (["/w/p", "/w"].map Path.ofString) 3 8
    ((overlappingCourse ["/w/p", "/w"] 3).eventsFor crowdedScene .promptly 130)
    ((overlappingCourse ["/w/p", "/w"] 3).runFor crowdedScene .promptly 130).state :=
  .ofCourse (by decide) rfl .start (by decide +kernel) (by decide +kernel) (by decide +kernel)

theorem outcome_of_any_schedule_overlapping :
    let alone := ((overlappingCourse ["/w", "/w/p"] 1).runFor crowdedScene .promptly 130).state
    let shared := ((overlappingCourse ["/w/p", "/w"] 3).runFor crowdedScene .promptly 130).state
    alone.found.map Repository.name = ["w", "p", "q"] ∧
      shared.found.map Repository.name = ["p", "w", "q"] ∧
      alone.outcome .idle = shared.outcome .idle := by
  have apart := overlappingCourse_alone.keysApart (by decide +kernel)
  exact ⟨by decide +kernel, by decide +kernel, outcome_of_any_schedule overlappingCourse_alone
    overlappingCourse_crew (.swap ..) apart⟩

end Scan

end RepoFinder
