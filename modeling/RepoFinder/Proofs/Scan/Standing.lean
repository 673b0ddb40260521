import RepoFinder.Proofs.Scan.Reach

namespace RepoFinder.Scan

variable {scene : Scene} {roots : List Path} {workers capacity : Nat} {start state next : State}
  {events : List Event}

theorem mem_set_or_eq {phases : List Phase} {worker : Nat} {phase other : Phase}
    (stands : phases[worker]? = some phase) (after : Phase) (present : other ∈ phases) :
    other ∈ phases.set worker after ∨ other = phase := by
  obtain ⟨index, found⟩ := List.mem_iff_getElem?.mp present
  by_cases same : index = worker
  · right
    rw [same] at found
    exact Option.some.inj (found.symm.trans stands)
  · left
    apply List.mem_iff_getElem?.mpr
    refine ⟨index, ?_⟩
    rw [List.getElem?_set_ne (Ne.symm same), found]

theorem mem_set_self {phases : List Phase} {worker : Nat} {phase : Phase}
    (stands : phases[worker]? = some phase) (after : Phase) : after ∈ phases.set worker after :=
  List.mem_set (List.getElem?_eq_some_iff.mp stands).1 after

def Phase.isDown : Phase → Bool
  | falling _ => true
  | fallen => true
  | _ => false

def Standing (state : State) : Prop := ∀ phase ∈ state.workers, phase.isDown = false

theorem Turn.isDown {phase after : Phase} (turn : Turn scene state phase next after)
    (down : phase.isDown = true) : after.isDown = true := by
  cases turn <;> first | rfl | cases down

theorem Turn.upright {worker : Nat} {phase after : Phase}
    (turn : Turn scene state phase next after) (stands : state.workers[worker]? = some phase)
    (standing : Standing { next with workers := next.workers.set worker after }) :
    after.isDown = false :=
  standing after (mem_set_self (turn.workers ▸ stands) after)

theorem Step.standing {event : Option Event} (step : Step scene state event next)
    (standing : Standing next) : Standing state := by
  cases step with
  | look look => cases look <;> exact standing
  | outside => exact standing
  | @work worker phase after next stands turn =>
    have upright := turn.upright stands standing
    intro other present
    rw [← turn.workers] at present stands
    rcases mem_set_or_eq stands after present with still | rfl
    · exact standing other still
    · cases down : other.isDown with
      | false => rfl
      | true => exact (turn.isDown down).symm.trans upright

-- Only an answer or a time of modification that nobody gets over takes a worker down.
theorem Turn.up {phase after : Phase} (turn : Turn scene state phase next after)
    (up : phase.isDown = false) (due : ∀ job, phase.held? = some job → job.Due scene roots)
    (sound : phase.Sound scene roots)
    (recordable : ∀ path, Target scene roots path → scene.Recordable path) :
    after.isDown = false := by
  cases turn with
  | crash crashed => exact absurd crashed (recordable _ ((due _ rfl).target sound.1)).answered
  | misdate undated => exact absurd (recordable _ ((due _ rfl).target sound.1.1)).dated undated
  | fall => cases up
  | _ => rfl

-- Only directories that the scan is to find are recorded. Where none of them takes its worker down,
-- everybody stays up.
theorem Run.stands (fresh : Fresh workers capacity roots start)
    (run : Run scene start events state)
    (recordable : ∀ path, Target scene roots path → scene.Recordable path) : Standing state := by
  induction run with
  | start =>
    intro phase present
    rw [fresh.crew] at present
    rw [List.eq_of_mem_replicate present]
    rfl
  | @step events state next action before executed ih =>
    have step := execute_step executed
    generalize state.event? action = event at step
    cases step with
    | look look => cases look <;> exact ih
    | outside => exact ih
    | @work worker phase after next stands turn =>
      intro other present
      rcases List.mem_or_eq_of_mem_set present with old | rfl
      · rw [turn.workers] at old
        exact ih other old
      · have among := List.mem_of_getElem? stands
        have sound := before.sound fresh
        have due (job : Job) (held : phase.held? = some job) : job.Due scene roots :=
          sound.due job ((before.balanced fresh).mem_accepted among held)
        exact turn.up (ih phase among) due (sound.phases phase among) recordable

theorem State.stopped_phases {reason : StopReason} (stopped : state.stopReason? = some reason) :
    ∀ phase ∈ state.workers, phase = .exited ∨ phase = .fallen := by
  intro phase present
  unfold stopReason? at stopped
  split at stopped
  · split at stopped
    · rename_i allDone
      have done := List.all_eq_true.mp allDone phase present
      cases phase <;> simp [Phase.isDone] at done ⊢
    · cases stopped
  · cases stopped

theorem State.standing_of_stopped {reason : StopReason}
    (stopped : state.stopReason? = some reason) (standing : state.hasFallen = false) :
    Standing state := by
  intro phase present
  rcases state.stopped_phases stopped phase present with rfl | rfl
  · rfl
  · simp [hasFallen, present] at standing

end RepoFinder.Scan
