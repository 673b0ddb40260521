import RepoFinder.Proofs.FileSystem.Census
import RepoFinder.Proofs.Scan.Accounting
import RepoFinder.Proofs.Scan.Timeline

namespace RepoFinder.Scan

open FileSystem

variable {scene : Scene} {roots : List Path} {workers capacity : Nat} {state next : State}

def Phase.takes? (queue : Queue) : Phase → Option Job
  | .receiving => queue.jobs.head?
  | _ => none

def State.takes? (state : State) : Action → Option Job
  | .work worker _ => state.workers[worker]?.bind (Phase.takes? state.queue)
  | _ => none

theorem advance_takes {move : Move} {phase after : Phase}
    (moved : advance scene state move phase = some (next, after)) :
    after.opens? = phase.takes? state.queue := by
  by_cases waits : phase = .receiving
  · subst waits
    simp only [advance, Queue.take?] at moved
    cases waiting : state.queue.jobs with
    | cons job jobs =>
      simp only [waiting] at moved
      cases moved
      simp [Phase.opens?, Phase.takes?, waiting]
    | nil =>
      simp only [waiting] at moved
      split at moved <;> cases moved
      simp [Phase.opens?, Phase.takes?, waiting]
  · have none : phase.takes? state.queue = none := by
      cases phase <;> first | rfl | exact absurd rfl waits
    rw [none]
    cases advance_turn moved <;> first | rfl | exact absurd rfl waits

-- Counts for each job how many directories are opened for it and below it at most.
def Tally.extent (files : FileSystem) : Tally := ⟨0, 0, fun job => files.extent job.path⟩

theorem Tally.extent_entry_le (job : Job) (entry : Entry) :
    (extent scene.files).entry scene job entry ≤
      if entry.2 = .directory then scene.files.extent (job.path.child entry.1) else 0 := by
  unfold Tally.entry
  split
  · exact Nat.zero_le _
  · rename_i descends
    rw [if_pos (EntryClass.of_descend descends)]
    split
    · exact Nat.le_refl _
    · exact Nat.zero_le _
  · simp [extent]

theorem Tally.extent_directory (tidy : scene.files.root.isTidy = true) (job : Job) :
    (extent scene.files).directory scene job + 1 ≤ scene.files.extent job.path := by
  unfold directory
  cases read : scene.files.readDirectory job.path with
  | error failure => exact scene.files.extent_pos job.path
  | ok actual =>
    have each : (extent scene.files).entries scene job actual ≤ (actual.map fun entry =>
        if entry.2 = .directory then scene.files.extent (job.path.child entry.1) else 0).sum :=
      List.sum_le_sum fun entry _ => extent_entry_le job entry
    have below := extent_below tidy read
    have unread : (extent scene.files).read = 0 := rfl
    dsimp only
    omega

def Phase.allowance (scene : Scene) : Phase → Nat
  | .opening job => (Tally.extent scene.files).directory scene job
  | phase => phase.ahead (.extent scene.files) scene

def State.allowance (scene : Scene) (state : State) : Nat :=
  (Tally.extent scene.files).jobs state.queue.jobs + (state.workers.map (Phase.allowance scene)).sum

theorem Turn.allowance_le (tidy : scene.files.root.isTidy = true) {phase after : Phase}
    (turn : Turn scene state phase next after) :
    (Tally.extent scene.files).jobs next.queue.jobs + after.allowance scene +
        after.opens?.toList.length ≤
      (Tally.extent scene.files).jobs state.queue.jobs + phase.allowance scene := by
  cases turn with
  | @take job jobs waiting =>
    have worth := Tally.extent_directory tidy job
    simp [Phase.allowance, Phase.opens?, waiting, Tally.extent] at worth ⊢
    omega
  | @read job actual entries _ listed listing =>
    have same := (Tally.extent scene.files).entries_perm scene job (isListing_perm listing)
    simp [Phase.allowance, Phase.opens?, Tally.directory, listed, same]
  | meetBelow meets within => simp [Phase.allowance, Phase.opens?, Tally.entry, meets, within]
  | send room =>
    simp [Phase.allowance, Phase.opens?, Tally.jobs_append]
    omega
  | refuseFull =>
    have free : (Tally.extent scene.files).skipped = 0 := rfl
    simp [Phase.allowance, Phase.opens?, free]
  | _ => simp [Phase.allowance, Phase.opens?, State.skip, Queue.count, Queue.finish]

theorem execute_allowance (tidy : scene.files.root.isTidy = true) {action : Action}
    (executed : execute scene state action = some next) :
    next.allowance scene + (state.takes? action).toList.length ≤ state.allowance scene := by
  cases action with
  | work worker move =>
    obtain ⟨phase, moved, after, stands, advanced, rfl⟩ := execute_work executed
    have turn := advance_turn advanced
    have paid := turn.allowance_le tidy
    have others := sum_map_set stands after (Phase.allowance scene)
    rw [advance_takes advanced] at paid
    simp only [State.takes?, stands, Option.bind_some, State.allowance, turn.workers] at *
    omega
  | _ =>
    obtain ⟨crew, jobs, _⟩ := execute_frame executed (by simp)
    simp [State.takes?, State.allowance, crew, jobs]

theorem Tally.extent_jobs_le (jobs : List Job) :
    (extent scene.files).jobs jobs ≤ jobs.length * (1 + scene.files.folderCount) := by
  induction jobs with
  | nil => exact Nat.zero_le _
  | cons job rest ih =>
    have here : (extent scene.files).accepted job ≤ 1 + scene.files.folderCount :=
      scene.files.extent_le job.path
    rw [jobs_cons, List.length_cons, Nat.add_one_mul]
    omega

theorem allowance_initial (scene : Scene) (roots : List Path) (workers capacity : Nat) :
    (State.initial roots workers capacity).allowance scene ≤
      roots.length * (1 + scene.files.folderCount) := by
  have fresh := initial_fresh roots workers capacity
  have counted := (initial_counters roots workers capacity).2
  have idle : ((State.initial roots workers capacity).workers.map (Phase.allowance scene)).sum = 0 := by
    simp [fresh.crew, Phase.allowance]
  rw [State.allowance, idle]
  refine (Tally.extent_jobs_le _).trans (Nat.mul_le_mul_right _ ?_)
  omega

-- Every job that waits has an allowance of its own.
theorem State.waiting_le_allowance (scene : Scene) (state : State) :
    state.queue.length ≤ state.allowance scene := by
  have each (jobs : List Job) : jobs.length ≤ (Tally.extent scene.files).jobs jobs := by
    induction jobs with
    | nil => exact Nat.zero_le _
    | cons job rest ih =>
      have some : 0 < (Tally.extent scene.files).accepted job := scene.files.extent_pos job.path
      rw [Tally.jobs_cons, List.length_cons]
      omega
  exact (each state.queue.jobs).trans (Nat.le_add_right _ _)

namespace Timeline

variable (timeline : Timeline scene roots workers capacity)

def taken (moments : Nat) : List Job :=
  (List.range moments).filterMap fun moment =>
    (timeline.action moment).bind (timeline.state moment).takes?

theorem taken_succ (moment : Nat) : timeline.taken (moment + 1) = timeline.taken moment ++
    ((timeline.action moment).bind (timeline.state moment).takes?).toList :=
  timeline.record_succ State.takes? moment

theorem allowance_le (tidy : scene.files.root.isTidy = true) (moment : Nat) :
    (timeline.state moment).allowance scene + (timeline.taken moment).length ≤
      roots.length * (1 + scene.files.folderCount) := by
  induction moment with
  | zero =>
    rw [timeline.begins]
    exact allowance_initial scene roots workers capacity
  | succ moment ih =>
    rw [taken_succ, List.length_append]
    cases done : timeline.action moment with
    | none =>
      rw [unmoved done]
      exact ih
    | some action =>
      have paid := execute_allowance tidy (executed done)
      rw [Option.bind_some]
      omega

end Timeline

end RepoFinder.Scan
