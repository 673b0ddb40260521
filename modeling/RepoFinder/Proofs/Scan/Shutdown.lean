import Mathlib.Data.List.Perm.Subperm
import RepoFinder.Proofs.FileSystem.Times
import RepoFinder.Proofs.Scan.Termination

namespace RepoFinder.Scan

variable {scene : Scene} {roots : List Path} {workers capacity : Nat} {state next : State}

-- What a scan that is to stop can afford only once for each worker.
inductive Deed where
  | opens (job : Job)
  | records (found : Repository)
  | sends (job : Job)
deriving DecidableEq, Repr

def Phase.deed? (scene : Scene) (queue : Queue) : Phase → Option Deed
  | .opening job => if withinDepth job.depth scene.depthLimit then some (.opens job) else none
  | .storing _ found _ => some (.records found)
  | .sending _ child _ => if queue.hasRoom then some (.sends child) else none
  | _ => none

-- How many deeds a worker can still do once the queue is closed. A worker that waits for a job may
-- be given one, and one that has met the sentinel may record it; whoever is about to look at the
-- queue turns back.
def Phase.deedsLeft : Phase → Nat
  | .receiving => 1
  | .opening _ => 1
  | .meeting .. => 1
  | .counting .. => 1
  | .sending .. => 1
  | .claiming .. => 1
  | .asking .. => 1
  | .stamping .. => 1
  | .delivering .. => 1
  | .storing .. => 1
  | _ => 0

def Phase.lastTurns : Phase → Nat
  | .looping => 1
  | .popping => 2
  | .receiving => 5
  | .opening _ => 4
  | .reading .. => 3
  | .meeting .. => 9
  | .offering .. => 4
  | .counting .. => 6
  | .sending .. => 5
  | .retracting .. => 4
  | .claiming .. => 8
  | .asking .. => 7
  | .stamping .. => 6
  | .delivering .. => 5
  | .storing .. => 4
  | .releasing _ => 2
  | .falling _ => 1
  | .exited => 0
  | .fallen => 0

theorem Phase.deedsLeft_le (phase : Phase) : phase.deedsLeft ≤ 1 := by
  cases phase <;> simp [deedsLeft]

theorem Phase.lastTurns_le (phase : Phase) : phase.lastTurns ≤ 9 := by
  cases phase <;> simp [lastTurns]

-- The four looks at the queue that a worker takes all find it closed.
theorem Turn.windsDown {phase after : Phase} (turn : Turn scene state phase next after)
    (closed : state.queue.closed = true) :
    after.deedsLeft + (phase.deed? scene state.queue).toList.length ≤ phase.deedsLeft ∧
      after.lastTurns < phase.lastTurns := by
  cases turn with
  | goOn isOpen | wait isOpen | come isOpen | offer isOpen => cases isOpen.symm.trans closed
  | tooDeep beyond => simp [Phase.deedsLeft, Phase.deed?, Phase.lastTurns, beyond]
  | unreadable =>
    simp [Phase.deedsLeft, Phase.lastTurns]
  | read within => simp [Phase.deedsLeft, Phase.deed?, Phase.lastTurns, within]
  | send room => simp [Phase.deedsLeft, Phase.deed?, Phase.lastTurns, room]
  | refuseFull full => simp [Phase.deedsLeft, Phase.deed?, Phase.lastTurns, full]
  | _ => simp [Phase.deedsLeft, Phase.deed?, Phase.lastTurns]

namespace State

def deedsLeft (state : State) (worker : Nat) : Nat :=
  (state.workers[worker]?.map Phase.deedsLeft).getD 0

def lastTurns (state : State) (worker : Nat) : Nat :=
  (state.workers[worker]?.map Phase.lastTurns).getD 0

def deed? (scene : Scene) (state : State) : Action → Option (Nat × Deed)
  | .work worker _ =>
    (state.workers[worker]?.bind (Phase.deed? scene state.queue)).map fun deed => (worker, deed)
  | _ => none

theorem deedsLeft_le (state : State) (worker : Nat) : state.deedsLeft worker ≤ 1 := by
  unfold deedsLeft
  cases state.workers[worker]? with
  | none => exact Nat.zero_le 1
  | some phase => exact phase.deedsLeft_le

theorem lastTurns_le (state : State) (worker : Nat) : state.lastTurns worker ≤ 9 := by
  unfold lastTurns
  cases state.workers[worker]? with
  | none => exact Nat.zero_le 9
  | some phase => exact phase.lastTurns_le

end State

def Action.isBy (worker : Nat) : Action → Bool
  | .work other _ => other = worker
  | _ => false

theorem execute_windsDown {action : Action} (executed : execute scene state action = some next)
    (closed : state.queue.closed = true) (worker : Nat) :
    next.deedsLeft worker + ((state.deed? scene action).toList.map Prod.fst).count worker ≤
        state.deedsLeft worker ∧
      next.lastTurns worker + (action.isBy worker).toNat ≤ state.lastTurns worker := by
  by_cases own : action.isBy worker = true
  · cases action with
    | work other move =>
      obtain rfl : other = worker := by simpa [Action.isBy] using own
      obtain ⟨phase, moved, after, stands, advanced, rfl⟩ := execute_work executed
      have turn := advance_turn advanced
      have among := (List.getElem?_eq_some_iff.mp stands).1
      obtain ⟨deeds, turns⟩ := turn.windsDown closed
      have counted : ((state.deed? scene (.work other move)).toList.map Prod.fst).count other =
          (phase.deed? scene state.queue).toList.length := by
        cases deed : phase.deed? scene state.queue <;> simp [State.deed?, stands, deed]
      have moves : (moved.workers.set other after)[other]? = some after := by
        rw [List.getElem?_set_self (turn.workers ▸ among)]
      simp only [counted, State.deedsLeft, State.lastTurns, moves, stands, Option.map_some,
        Option.getD_some, own, Bool.toNat_true]
      exact ⟨deeds, turns⟩
    | _ => cases own
  · have elsewhere (move : Move) : action ≠ .work worker move := by
      rintro rfl
      simp [Action.isBy] at own
    have none : ((state.deed? scene action).toList.map Prod.fst).count worker = 0 := by
      rw [List.count_eq_zero]
      intro present
      cases action with
      | work other move =>
        obtain ⟨_, deed, rfl⟩ := List.mem_map.mp present
        simp only [State.deed?, Option.mem_toList, Option.map_eq_some_iff] at deed
        obtain ⟨_, _, rfl⟩ := deed
        exact elsewhere move rfl
      | _ => cases present
    simp only [Bool.not_eq_true] at own
    simp [State.deedsLeft, State.lastTurns, execute_elsewhere executed elsewhere, none, own]

theorem Sink.offer_stopped (sink : Sink) (reader : Reader) (kept : Nat) :
    (sink.offer true reader kept).isSome = true := by
  unfold offer
  repeat' split
  all_goals first | rfl | contradiction

namespace Timeline

variable (timeline : Timeline scene roots workers capacity)

def deeds (start moments : Nat) : List (Nat × Deed) :=
  (List.range moments).filterMap fun passed =>
    (timeline.action (start + passed)).bind ((timeline.state (start + passed)).deed? scene)

def turns (worker start moments : Nat) : Nat :=
  (List.range moments).countP fun passed =>
    (timeline.action (start + passed)).any (Action.isBy worker)

variable {timeline} {start : Nat} {reason : StopReason}

theorem windsDown (closed : (timeline.state start).queue.closed = true) (worker moments : Nat) :
    (timeline.state (start + moments)).deedsLeft worker +
        ((timeline.deeds start moments).map Prod.fst).count worker ≤
      (timeline.state start).deedsLeft worker ∧
    (timeline.state (start + moments)).lastTurns worker + timeline.turns worker start moments ≤
      (timeline.state start).lastTurns worker := by
  induction moments with
  | zero => simp [deeds, turns]
  | succ moments ih =>
    have still : (timeline.state (start + moments)).queue.closed = true := by
      apply timeline.along (fun state => state.queue.closed = true) (Nat.le_add_right ..) closed
      intro _ _ _ _ executed
      exact execute_closed executed
    simp only [deeds, turns, List.range_succ, List.filterMap_append, List.map_append,
      List.count_append, List.countP_append, ← Nat.add_assoc] at ih ⊢
    cases done : timeline.action (start + moments) with
    | none => simpa [unmoved done, done] using ih
    | some action =>
      obtain ⟨deeds, turns⟩ := execute_windsDown (executed done) still worker
      cases deed : (timeline.state (start + moments)).deed? scene action <;>
        cases own : action.isBy worker <;>
        simp [done, deed, own] at deeds turns ih ⊢ <;> omega

theorem closed_after (decided : (timeline.state start).watch = .decided reason)
    (closes : timeline.action start = some .watch) :
    (timeline.state (start + 1)).queue.closed = true := by
  have watched := executed closes
  simp only [execute, watchStep, decided, Option.some.injEq] at watched
  rw [← watched]
  rfl

theorem IsFair.done (fair : timeline.IsFair) {worker : Nat} (among : worker < max 1 workers)
    (closed : (timeline.state start).queue.closed = true) :
    ∃ moment phase, start ≤ moment ∧ (timeline.state moment).workers[worker]? = some phase ∧
      phase.isDone = true := by
  -- The induction is on the turns that are left to the worker.
  have ends : ∀ left moment, start ≤ moment → (timeline.state moment).lastTurns worker ≤ left →
      ∃ later phase, start ≤ later ∧ (timeline.state later).workers[worker]? = some phase ∧
        phase.isDone = true := by
    intro left
    induction left with
    | zero =>
      intro moment order few
      rw [← timeline.crew moment] at among
      refine ⟨moment, _, order, List.getElem?_eq_getElem among, ?_⟩
      simp only [State.lastTurns, List.getElem?_eq_getElem among, Option.map_some,
        Option.getD_some] at few
      cases stands : (timeline.state moment).workers[worker] <;>
        simp [stands, Phase.lastTurns] at few ⊢ <;> rfl
    | succ left ih =>
      intro moment order few
      have here := among
      rw [← timeline.crew moment] at here
      cases done : (timeline.state moment).workers[worker].isDone with
      | true => exact ⟨moment, _, order, List.getElem?_eq_getElem here, done⟩
      | false =>
        obtain ⟨later, move, moved, after, further, turn, _⟩ :=
          fair.turn (List.getElem?_eq_getElem here) done
        have still : (timeline.state moment).queue.closed = true := by
          apply timeline.along (fun state => state.queue.closed = true) order closed
          intro _ _ _ _ executed
          exact execute_closed executed
        obtain ⟨passed, rfl⟩ := Nat.exists_eq_add_of_le further
        have fewer := (windsDown still worker (passed + 1)).2
        have one : 1 ≤ timeline.turns worker moment (passed + 1) := by
          simp [turns, List.range_succ, turn, Action.isBy]
        apply ih (moment + (passed + 1)) (by omega)
        omega
  exact ends _ start (Nat.le_refl start) (Nat.le_refl _)

theorem exited_of_done (recordable : ∀ path, Target scene roots path → scene.Recordable path)
    {moment worker : Nat} {phase : Phase} (stands : (timeline.state moment).workers[worker]? = some phase)
    (done : phase.isDone = true) : phase = .exited := by
  obtain ⟨events, run⟩ := timeline.run moment
  have standing := run.stands (initial_fresh roots workers capacity) recordable
  have up := standing phase (List.mem_of_getElem? stands)
  cases phase with
  | exited => rfl
  | fallen => cases up
  | _ => cases done

theorem lt_of_mem_deeds {moments worker : Nat}
    (present : worker ∈ (timeline.deeds start moments).map Prod.fst) : worker < max 1 workers := by
  obtain ⟨_, among, rfl⟩ := List.mem_map.mp present
  obtain ⟨passed, _, done⟩ := List.mem_filterMap.mp among
  obtain ⟨action, _, does⟩ := Option.bind_eq_some_iff.mp done
  cases action with
  | work other move =>
    obtain ⟨deed, own, rfl⟩ := Option.map_eq_some_iff.mp does
    obtain ⟨phase, stands, _⟩ := Option.bind_eq_some_iff.mp own
    rw [← timeline.crew (start + passed)]
    exact (List.getElem?_eq_some_iff.mp stands).1
  | _ => cases does

end Timeline

-- Once the monitor closes the queue, each worker does at most one deed more, so all of them together
-- no more than they are, and takes at most nine turns more. As soon as the stop signal is raised too,
-- nothing keeps a worker from taking them. So where everybody has its turn, and nobody is taken down by
-- what is to be recorded, each of them leaves.
theorem shutdown_prompt (timeline : Timeline scene roots workers capacity) {start : Nat}
    {reason : StopReason} (decided : (timeline.state start).watch = .decided reason)
    (closes : timeline.action start = some .watch) :
    (∀ moments, ((timeline.deeds (start + 1) moments).map Prod.fst).Nodup ∧
      (timeline.deeds (start + 1) moments).length ≤ max 1 workers ∧
      ∀ worker, timeline.turns worker (start + 1) moments ≤ 9) ∧
    (∀ moment worker phase, (timeline.state moment).stopped = true →
      (timeline.state moment).workers[worker]? = some phase → phase.isDone = false →
        ∃ move, (execute scene (timeline.state moment) (.work worker move)).isSome = true) ∧
    (timeline.IsFair → (∀ path, Target scene roots path → scene.Recordable path) →
      ∀ worker, worker < max 1 workers → ∃ moment, start < moment ∧
        ∀ later, moment ≤ later → (timeline.state later).workers[worker]? = some .exited) := by
  have closed := Timeline.closed_after decided closes
  refine ⟨?_, ?_, ?_⟩
  · intro moments
    have once (worker : Nat) :
        ((timeline.deeds (start + 1) moments).map Prod.fst).count worker ≤ 1 := by
      have bound := (Timeline.windsDown closed worker moments).1
      have most := (timeline.state (start + 1)).deedsLeft_le worker
      omega
    have apart := List.nodup_iff_count_le_one.mpr once
    refine ⟨apart, ?_, ?_⟩
    · have within : (timeline.deeds (start + 1) moments).map Prod.fst ⊆
          List.range (max 1 workers) := by
        intro worker present
        exact List.mem_range.mpr (Timeline.lt_of_mem_deeds present)
      simpa using (List.subperm_of_subset apart within).length_le
    · intro worker
      have bound := (Timeline.windsDown closed worker moments).2
      have most := (timeline.state (start + 1)).lastTurns_le worker
      omega
  · intro moment worker phase stopped stands undone
    have moves : (advance scene (timeline.state moment) (Course.moveOf scene phase) phase).isSome =
        true := by
      apply Timeline.advance_isSome_of_offer _ undone
      intro _ _ _ _
      rw [stopped]
      exact scene.sink.offer_stopped ..
    obtain ⟨moved, advanced⟩ := Option.isSome_iff_exists.mp moves
    exact ⟨Course.moveOf scene phase, by simp [execute, stands, advanced]⟩
  · intro fair recordable worker among
    obtain ⟨moment, phase, order, stands, done⟩ := fair.done among closed
    obtain rfl := Timeline.exited_of_done recordable stands done
    refine ⟨moment, order, ?_⟩
    intro later further
    exact Timeline.done_stays further stands done

def Timeline.ofPlan (scene : Scene) (roots : List Path) (workers capacity : Nat)
    (plan : List Action) : Timeline scene roots workers capacity :=
  let reached (moment : Nat) : State :=
    (plan.take moment).foldl (fun state action => (execute scene state action).getD state)
      (State.initial roots workers capacity)
  { state := reached
    action := fun moment =>
      plan[moment]?.bind fun action => (execute scene (reached moment) action).map fun _ => action
    begins := rfl
    goesOn := by
      intro moment
      dsimp only [reached]
      rw [List.take_add_one, List.foldl_append]
      cases planned : plan[moment]? with
      | none => rfl
      | some action =>
        simp only [Option.bind_some, Option.toList_some, List.foldl_cons, List.foldl_nil]
        generalize List.foldl _ _ (List.take moment plan) = state
        cases executed : execute scene state action <;> simp [executed] }

def closingRoots : List Path := ["/w", "/w/p", "/w/q"].map Path.ofString

def closingPlan : List Action :=
  let goOn (worker turns : Nat) : List Action := List.replicate turns (.work worker .proceed)
  let list (worker : Nat) (folder : String) : Action :=
    .work worker (.list (crowdedScene.listed (Path.ofString folder)))
  goOn 0 3 ++ [list 0 "/w"] ++ goOn 0 4 ++ goOn 2 3 ++ [list 2 "/w/p"] ++ goOn 2 3 ++ goOn 1 2
    ++ [.expire, .watch, .watch, .watch] ++ [.watch] ++ goOn 0 1 ++ goOn 1 1 ++ [list 1 "/w/q"]
    ++ goOn 2 4 ++ [.watch] ++ goOn 0 3 ++ goOn 1 3 ++ goOn 2 3

theorem shutdown_prompt_crowded :
    let timeline := Timeline.ofPlan crowdedScene closingRoots 3 8 closingPlan
    timeline.deeds 22 40 =
        [(0, .sends ⟨Path.ofString "/w/p", 1⟩), (1, .opens ⟨Path.ofString "/w/q", 0⟩),
          (2, .records (repositoryAt crowdedScene (Path.ofString "/w/p")))] ∧
      (∀ moments, (timeline.deeds 22 moments).length ≤ 3) ∧
      ∀ worker, worker < 3 → ∃ moment, 21 < moment ∧
        ∀ later, moment ≤ later → (timeline.state later).workers[worker]? = some .exited := by
  intro timeline
  have decided : (timeline.state 21).watch = .decided .deadlineExceeded := by decide +kernel
  have closes : timeline.action 21 = some .watch := by decide +kernel
  have allLeft : ∀ phase ∈ (timeline.state 40).workers, phase = .exited := by decide +kernel
  obtain ⟨bounds, _, leave⟩ := shutdown_prompt timeline decided closes
  refine ⟨by decide +kernel, fun moments => (bounds moments).2.1, ?_⟩
  have recordable (path : Path) (_ : Target crowdedScene closingRoots path) :
      crowdedScene.Recordable path :=
    ⟨by simp [crowdedScene], FileSystem.modified_isMoment (by decide) path⟩
  exact leave (Timeline.isFair_of_left allLeft) recordable

end RepoFinder.Scan
