import RepoFinder.Proofs.Scan.Exactness

namespace RepoFinder.Scan

variable {scene : Scene} {roots : List Path} {workers capacity : Nat} {start state next : State}
  {events later : List Event} {reason : StopReason}

theorem Run.reason?_eq (fresh : Fresh workers capacity roots start)
    (before : Run scene start events state) (after : Run scene state later next)
    (decided : state.watch.reason? = some reason) : next.watch.reason? = some reason := by
  induction after with
  | start => exact decided
  | step action on executed ih =>
    exact (execute_step executed).reason?_eq ((before.append on).balanced fresh) ih

theorem execute_decides {action : Action} (executed : execute scene state action = some next)
    (before : state.watch.reason? = none) (decided : next.watch.reason? = some reason) :
    action = .watch ∧ next.watch = .decided reason := by
  have undecided {other : State} (same : other.watch = state.watch) :
      other.watch.reason? ≠ some reason := by
    rw [same, before]
    simp
  cases action with
  | watch =>
    refine ⟨rfl, ?_⟩
    cases watchStep_look executed with
    | wait _ after => cases after.symm.trans decided
    | settle | giveUp => simpa [Watch.reason?] using decided
    | close watching | stop watching => simp [watching, Watch.reason?] at before
  | work worker move =>
    obtain ⟨phase, moved, after, _, advanced, rfl⟩ := execute_work executed
    exact absurd decided (undecided (advance_turn advanced).outer.1)
  | cancel | expire | leave =>
    cases executed
    exact absurd decided (undecided rfl)
  | ask =>
    obtain ⟨reader, _, rfl⟩ := Option.map_eq_some_iff.mp executed
    exact absurd decided (undecided rfl)

theorem Run.decision (fresh : Fresh workers capacity roots start)
    (run : Run scene start events state) (decided : state.watch.reason? = some reason) :
    ∃ earlier before after later, Run scene start earlier before ∧
      before.watch.reason? = none ∧ execute scene before .watch = some after ∧
      after.watch = .decided reason ∧ Run scene after later state := by
  induction run with
  | start => simp [fresh.watching, Watch.reason?] at decided
  | @step events state next action before executed ih =>
    cases already : state.watch.reason? with
    | none =>
      obtain ⟨rfl, decides⟩ := execute_decides executed already decided
      exact ⟨events, state, next, [], before, already, executed, decides, .start⟩
    | some other =>
      have same := (execute_step executed).reason?_eq (before.balanced fresh) already
      obtain rfl := Option.some.inj (same.symm.trans decided)
      obtain ⟨earlier, first, after, later, way, undecided, watched, decides, rest⟩ := ih already
      exact ⟨earlier, first, after, _, way, undecided, watched, decides,
        rest.step action executed⟩

-- A scan that was given up for its caller. When the monitor decided so, the request had been made,
-- and up to then nothing had been decided: the scan had not been found idle.
def GaveUp (scene : Scene) (start ended : State) : Prop :=
  ∃ earlier before after later, Run scene start earlier before ∧ before.cancelled = true ∧
    execute scene before .watch = some after ∧ after.watch = .decided .cancelled ∧
    Run scene after later ended ∧
    ∀ way state rest, Run scene start way state → Run scene state rest before →
      state.watch.reason? = none

theorem Run.gaveUp (fresh : Fresh workers capacity roots start)
    (run : Run scene start events state) (stopped : state.stopReason? = some .cancelled) :
    GaveUp scene start state := by
  obtain ⟨earlier, before, after, later, way, undecided, watched, decides, rest⟩ :=
    run.decision fresh (State.reason?_of_stopReason? stopped)
  have asked : before.cancelled = true := by
    cases watchStep_look watched with
    | @wait watch _ none =>
      obtain rfl : watch = .decided .cancelled := decides
      cases none
    | settle => cases decides
    | giveUp _ _ asked => exact asked (Watch.decided.inj decides)
    | close | stop => cases decides
  refine ⟨earlier, before, after, later, way, asked, watched, decides, rest, ?_⟩
  intro passed state on come go
  cases already : state.watch.reason? with
  | none => rfl
  | some reason => cases undecided.symm.trans (come.reason?_eq fresh go already)

end RepoFinder.Scan
