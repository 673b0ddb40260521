import RepoFinder.Proofs.Scan.History
import RepoFinder.Scan.Run

namespace RepoFinder.Scan

variable {scene : Scene} {start state next : State} {events : List Event}

def Course.eventsFor (scene : Scene) (answering : Answering) : (steps : Nat) → Course → List Event
  | 0, _ => []
  | steps + 1, course => match course.next? scene answering, course.step? scene answering with
    | some action, some next =>
      (course.state.event? action).toList ++ eventsFor scene answering steps next
    | _, _ => []

theorem Course.step?_next? {answering : Answering} {course next : Course}
    (moved : course.step? scene answering = some next) :
    ∃ action, course.next? scene answering = some action ∧
      execute scene course.state action = some next.state := by
  unfold step? at moved
  split at moved
  · cases moved
  · rename_i action chosen
    split at moved
    · cases moved
    · rename_i state executed
      cases moved
      exact ⟨action, chosen, executed⟩

theorem Course.runFor_run (answering : Answering) (steps : Nat) (course : Course) :
    Run scene course.state (course.eventsFor scene answering steps)
      (course.runFor scene answering steps).state := by
  induction steps generalizing course with
  | zero => exact .start
  | succ steps ih =>
    cases moved : course.step? scene answering with
    | none =>
      have stays : course.eventsFor scene answering (steps + 1) = [] := by
        unfold eventsFor
        rw [moved]
        split <;> simp_all
      rw [stays, runFor, moved]
      exact .start
    | some next =>
      obtain ⟨action, chosen, executed⟩ := step?_next? moved
      simp only [eventsFor, runFor, chosen, moved]
      simpa using (Run.start.step action executed).append (ih next)

-- A scan is decided to be cancelled only when it was cancelled. The converse fails: what is
-- cancelled too late ends as it would have.
def Heeded (state : State) : Prop :=
  state.watch.reason? = some .cancelled → state.cancelled = true

theorem Turn.outer {phase after : Phase} (turn : Turn scene state phase next after) :
    next.watch = state.watch ∧ next.cancelled = state.cancelled := by
  cases turn <;> exact ⟨rfl, rfl⟩

theorem Step.heeded {event : Option Event} (heeded : Heeded state)
    (step : Step scene state event next) : Heeded next := by
  cases step with
  | @work worker phase after next stands turn =>
    obtain ⟨watch, cancelled⟩ := turn.outer
    simpa only [Heeded, watch, cancelled] using heeded
  | outside stays =>
    intro decided
    exact stays (heeded decided)
  | look look =>
    intro decided
    cases look with
    | wait _ after => cases after.symm.trans decided
    | settle => cases decided
    | giveUp _ _ asked => exact asked (Option.some.inj decided)
    | close watching | stop watching =>
      apply heeded
      simpa [watching, Watch.reason?] using decided

theorem Run.heeded {workers capacity : Nat} {roots : List Path}
    (fresh : Fresh workers capacity roots start) (run : Run scene start events state) :
    Heeded state := by
  induction run with
  | start =>
    intro decided
    simp [fresh.watching, Watch.reason?] at decided
  | step action _ executed ih => exact (execute_step executed).heeded ih

theorem State.reason?_of_stopReason? {reason : StopReason}
    (stopped : state.stopReason? = some reason) : state.watch.reason? = some reason := by
  unfold stopReason? at stopped
  split at stopped
  · rename_i finished
    split at stopped <;> cases stopped
    simp [finished, Watch.reason?]
  · cases stopped

def nestedScene : Scene where
  files :=
    let mark : Name × FileSystem.Node := (Text.Utf8.ofString ".git", .directory 0o755 .epoch [])
    let inner : Name × FileSystem.Node := (Text.Utf8.ofString "p", .directory 0o755 .epoch [mark])
    ⟨.directory 0o755 .epoch [(Text.Utf8.ofString "w", .directory 0o755 .epoch [mark, inner])], []⟩
  remote _ := .failure
  depthLimit := 1
  sink := .absent

def nestedCourse : Course := ⟨State.initial [Path.ofString "/w"] 2 8, none⟩

end RepoFinder.Scan
