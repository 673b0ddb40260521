import RepoFinder.Proofs.Scan.Exhaustion

namespace RepoFinder.Scan

variable {scene : Scene} {roots : List Path} {workers capacity : Nat} {state : State}
  {events : List Event} {reason : StopReason}

theorem Phase.Claims.of_done {phase : Phase} {key : Path.Key}
    (done : phase = .exited ∨ phase = .fallen) : ¬phase.Claims key := by
  rcases done with rfl | rfl <;> exact id

theorem State.countP_outcome (key : Path.Key) :
    (state.outcome reason).repositories.countP (reports key) = state.found.countP (reports key) :=
  (List.mergeSort_perm state.found _).countP_eq _

-- Once its workers are gone, and none of them was taken down, a scan has one repository for each
-- key that was claimed, and none for any other.
theorem Run.countP_found (run : Run scene (State.initial roots workers capacity) events state)
    (stopped : state.stopReason? = some reason) (standing : state.hasFallen = false)
    (key : Path.Key) : state.found.countP (reports key) = if key ∈ state.seen then 1 else 0 := by
  let options : Options := ⟨scene.depthLimit, workers, ⟨0, 0⟩, capacity⟩
  have begun : Going (· = scene) roots options (State.initial roots workers capacity) := .initial
  have once : state.claimsOn key ≤ _ := (begun.run rfl run).tidy.once key
  have least : state.found.countP (reports key) ≤ state.claimsOn key := Nat.le_add_right ..
  by_cases seen : key ∈ state.seen
  · rw [if_pos seen] at once ⊢
    have up := State.standing_of_stopped stopped standing
    rcases run.kept (initial_fresh roots workers capacity) up key seen with ⟨repository, found, same⟩ | ⟨phase, stands, claims⟩
    · have some : 0 < state.found.countP (reports key) :=
        List.countP_pos_iff.mpr ⟨repository, found, by simp [reports, same]⟩
      omega
    · exact absurd claims (Phase.Claims.of_done (state.stopped_phases stopped phase stands))
  · rw [if_neg seen] at once ⊢
    omega

-- Whatever interrupts a scan, and whatever pushes were refused in it, each repository that it
-- reports lies below a root, within the limit of depth and behind real directories that are
-- descended into, and holds a real sentinel. The list is sorted, with one repository for a key. A
-- scan of the same roots that was run to its end reports all its keys. And when nobody was taken
-- down, exactly the keys that were claimed are reported, each of them once.
theorem reports_reachable_once
    (run : Run scene (State.initial roots workers capacity) events state)
    (stopped : state.stopReason? = some reason) :
    (∀ repository ∈ (state.outcome reason).repositories,
      Target scene roots repository.path ∧ repository = repositoryAt scene repository.path) ∧
    Orderly (state.outcome reason).repositories ∧
    (∀ sink crew room history whole,
      Exhaustive { scene with sink } roots crew room history whole →
        ∀ repository ∈ (state.outcome reason).repositories,
          ∃ also ∈ (whole.outcome .idle).repositories, also.path.key = repository.path.key) ∧
    (state.hasFallen = false → ∀ key, (state.outcome reason).repositories.countP (reports key) =
      if key ∈ state.seen then 1 else 0) := by
  have sound := run.sound (initial_fresh roots workers capacity)
  have reported (repository : Repository)
      (present : repository ∈ (state.outcome reason).repositories) : repository ∈ state.found := by
    simpa [State.outcome] using present
  refine ⟨?_, run.orderly reason, ?_, ?_⟩
  · intro repository present
    exact sound.found repository (reported repository present)
  · intro sink crew room history whole full repository present
    obtain ⟨target, _⟩ := sound.found repository (reported repository present)
    obtain ⟨also, found, same⟩ := full.found_of_target target
    exact ⟨also, by simpa [State.outcome] using found, same⟩
  · intro standing key
    rw [State.countP_outcome]
    exact run.countP_found stopped standing key

def crowdedScene : Scene where
  files :=
    let directory (entries : List (String × FileSystem.Node)) : FileSystem.Node :=
      .directory 0o755 .epoch (entries.map fun entry => (Text.Utf8.ofString entry.1, entry.2))
    let inner := directory [(".git", directory [])]
    ⟨directory [("w", directory [("p", inner), ("q", inner), (".git", directory [])])], []⟩
  remote _ := .failure
  depthLimit := 0
  sink := .absent

def crowdedCourse (capacity : Nat) : Course :=
  ⟨State.initial [Path.ofString "/w"] 1 capacity, none⟩

theorem crowdedCourse_whole : Exhaustive crowdedScene [Path.ofString "/w"] 1 8
    ((crowdedCourse 8).eventsFor crowdedScene .promptly 90)
    ((crowdedCourse 8).runFor crowdedScene .promptly 90).state :=
  .ofCourse (by decide) rfl .start (by decide +kernel) (by decide +kernel) (by decide +kernel)

theorem crowdedCourse_facts :
    ((crowdedCourse 1).runFor crowdedScene .firstCancels 30).state.stopReason? = some .cancelled ∧
      ((crowdedCourse 1).eventsFor crowdedScene .firstCancels 30).any Event.isRefused = true ∧
      ((crowdedCourse 1).runFor crowdedScene .firstCancels 30).state.hasFallen = false ∧
      ((crowdedCourse 1).runFor crowdedScene .firstCancels 30).state.seen =
        [(Path.ofString "/w").key] := by
  decide +kernel

theorem reports_reachable_once_crowded :
    let state := ((crowdedCourse 1).runFor crowdedScene .firstCancels 30).state
    state.stopReason? = some .cancelled ∧
      ((crowdedCourse 1).eventsFor crowdedScene .firstCancels 30).any Event.isRefused = true ∧
      Orderly (state.outcome .cancelled).repositories ∧
      (state.outcome .cancelled).repositories.countP (reports (Path.ofString "/w").key) = 1 ∧
      ∀ repository ∈ (state.outcome .cancelled).repositories,
        ∃ also ∈ (((crowdedCourse 8).runFor crowdedScene .promptly 90).state.outcome
          .idle).repositories, also.path.key = repository.path.key := by
  obtain ⟨stopped, refused, standing, seen⟩ := crowdedCourse_facts
  have run : Run crowdedScene (State.initial [Path.ofString "/w"] 1 1) _ _ :=
    (crowdedCourse 1).runFor_run .firstCancels 30
  obtain ⟨_, orderly, within, once⟩ := reports_reachable_once run stopped
  refine ⟨stopped, refused, orderly, ?_, within .absent 1 8 _ _ crowdedCourse_whole⟩
  rw [once standing, seen]
  rfl

end RepoFinder.Scan
