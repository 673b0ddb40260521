import Mathlib.Data.Nat.Order.Lemmas
import Mathlib.Data.Prod.Lex
import Mathlib.Order.OrderIsoNat
import RepoFinder.Proofs.Scan.Allowance
import RepoFinder.Proofs.Scan.Decision

namespace RepoFinder.Scan

open FileSystem

variable {scene : Scene} {roots : List Path} {workers capacity : Nat} {state next : State}

def Scene.listed (scene : Scene) (path : Path) : List Entry :=
  (scene.files.readDirectory path).toOption.getD []

-- How many turns a worker needs at most until it is free. Each entry takes it eight of them.
def Phase.turnsLeft (scene : Scene) : Phase → Nat
  | .opening job => 8 * (scene.listed job.path).length + 3
  | .reading _ rest => 8 * rest.length + 2
  | .meeting _ _ rest => 8 * rest.length + 9
  | .offering _ _ rest => 8 * rest.length + 8
  | .counting _ _ rest => 8 * rest.length + 7
  | .sending _ _ rest => 8 * rest.length + 6
  | .retracting _ rest => 8 * rest.length + 5
  | .claiming _ rest => 8 * rest.length + 8
  | .asking _ rest => 8 * rest.length + 7
  | .stamping _ _ rest => 8 * rest.length + 6
  | .delivering _ _ rest => 8 * rest.length + 5
  | .storing _ _ rest => 8 * rest.length + 4
  | .releasing _ => 1
  | .falling _ => 1
  | _ => 0

theorem Turn.turnsLeft_le {phase after : Phase} (turn : Turn scene state phase next after)
    (takesNone : after.opens? = none) :
    after.turnsLeft scene + phase.isHolding.toNat ≤ phase.turnsLeft scene := by
  cases turn with
  | take => cases takesNone
  | @read job actual entries _ listed listing =>
    have same := (isListing_perm listing).length_eq
    simp [Phase.turnsLeft, Phase.isHolding, Phase.held?, Scene.listed, listed, Except.toOption, same]
  | _ => simp [Phase.turnsLeft, Phase.isHolding, Phase.held?] <;> omega

def Phase.isBusy (queue : Queue) (phase : Phase) : Bool :=
  phase.isHolding || (phase.takes? queue).isSome

def State.isBusy (state : State) : Action → Bool
  | .work worker _ => state.workers[worker]?.any (Phase.isBusy state.queue)
  | _ => false

def State.turnsLeft (scene : Scene) (state : State) : Nat :=
  (state.workers.map (Phase.turnsLeft scene)).sum

theorem execute_turnsLeft {action : Action} (executed : execute scene state action = some next)
    (takesNone : state.takes? action = none) :
    next.turnsLeft scene + (state.isBusy action).toNat ≤ state.turnsLeft scene := by
  cases action with
  | work worker move =>
    obtain ⟨phase, moved, after, stands, advanced, rfl⟩ := execute_work executed
    have turn := advance_turn advanced
    simp only [State.takes?, stands, Option.bind_some] at takesNone
    have fewer := turn.turnsLeft_le ((advance_takes advanced).trans takesNone)
    have others := sum_map_set stands after (Phase.turnsLeft scene)
    simp only [State.isBusy, stands, Option.any_some, Phase.isBusy, takesNone, Option.isSome_none,
      Bool.or_false, State.turnsLeft, turn.workers]
    omega
  | _ =>
    obtain ⟨crew, _, _⟩ := execute_frame executed (by simp)
    simp [State.isBusy, State.turnsLeft, crew]

-- The jobs that may still be taken, and then the turns that are left to those who hold one.
def State.remaining (scene : Scene) (state : State) : Nat ×ₗ Nat :=
  toLex (state.allowance scene, state.turnsLeft scene)

theorem execute_remaining (tidy : scene.files.root.isTidy = true) {action : Action}
    (executed : execute scene state action = some next) :
    next.remaining scene ≤ state.remaining scene ∧
      (state.isBusy action = true → next.remaining scene < state.remaining scene) := by
  have paid := execute_allowance tidy executed
  rw [State.remaining, State.remaining, Prod.Lex.toLex_le_toLex, Prod.Lex.toLex_lt_toLex]
  cases taken : state.takes? action with
  | some job =>
    rw [taken] at paid
    exact ⟨.inl paid, fun _ => .inl paid⟩
  | none =>
    rw [taken] at paid
    have fewer := execute_turnsLeft executed taken
    rcases Nat.lt_or_eq_of_le paid with less | same
    · exact ⟨.inl less, fun _ => .inl less⟩
    · refine ⟨.inr ⟨same, by omega⟩, fun busy => .inr ⟨same, ?_⟩⟩
      rwa [busy] at fewer

theorem Turn.jobs_eq {phase after : Phase} (turn : Turn scene state phase next after)
    (free : phase.isHolding = false) (takesNone : after.opens? = none) :
    next.queue.jobs = state.queue.jobs := by
  cases turn with
  | take => cases takesNone
  | send => cases free
  | _ => rfl

theorem execute_jobs {action : Action} (executed : execute scene state action = some next)
    (unbusy : state.isBusy action = false) : next.queue.jobs = state.queue.jobs := by
  cases action with
  | work worker move =>
    obtain ⟨phase, moved, after, stands, advanced, rfl⟩ := execute_work executed
    simp only [State.isBusy, stands, Option.any_some, Phase.isBusy, Bool.or_eq_false_iff,
      Option.isSome_eq_false_iff, Option.isNone_iff_eq_none] at unbusy
    obtain ⟨free, takesNone⟩ := unbusy
    exact (advance_turn advanced).jobs_eq free ((advance_takes advanced).trans takesNone)
  | _ => exact (execute_frame executed (by simp)).2.1

-- Without a request and with time left, the monitor decides only that nothing is in flight.
theorem execute_settles {reason : StopReason} (executed : execute scene state .watch = some next)
    (before : state.watch.reason? = none) (decides : next.watch = .decided reason)
    (unasked : state.cancelled = false) (inTime : state.late = false) :
    state.queue.inFlight = 0 := by
  cases watched : state.watch <;> simp [watched, Watch.reason?] at before <;>
    simp [execute, watchStep, watched, unasked, inTime] at executed <;> subst executed <;>
    simp at decides
  · split at decides <;> cases decides
  · by_contra working
    simp [working] at decides

theorem Turn.closed_eq {phase after : Phase} (turn : Turn scene state phase next after) :
    next.queue.closed = state.queue.closed := by
  cases turn <;> rfl

theorem execute_closed {action : Action} (executed : execute scene state action = some next)
    (closed : state.queue.closed = true) : next.queue.closed = true := by
  cases action with
  | work worker move =>
    obtain ⟨phase, moved, after, _, advanced, rfl⟩ := execute_work executed
    exact (advance_turn advanced).closed_eq.trans closed
  | _ => exact (execute_frame executed (by simp)).2.2 closed

theorem execute_exited {action : Action} (executed : execute scene state action = some next)
    (before : .exited ∈ state.workers → state.queue.closed = true) (left : .exited ∈ next.workers) :
    next.queue.closed = true := by
  cases action with
  | work worker move =>
    obtain ⟨phase, moved, after, stands, advanced, rfl⟩ := execute_work executed
    have turn := advance_turn advanced
    have same : moved.queue.closed = state.queue.closed := turn.closed_eq
    rw [turn.workers] at left
    refine same.trans ?_
    rcases List.mem_or_eq_of_mem_set left with old | rfl
    · exact before old
    · cases turn with
      | leave closed => exact closed
  | _ =>
    obtain ⟨crew, _, stays⟩ := execute_frame executed (by simp)
    exact stays (before (crew ▸ left))

namespace Timeline

def IsIdleFrom (timeline : Timeline scene roots workers capacity) (start : Nat) : Prop :=
  ∀ moment, start ≤ moment → ∀ action, timeline.action moment = some action →
    (timeline.state moment).isBusy action = false

theorem remaining_antitone (timeline : Timeline scene roots workers capacity)
    (tidy : scene.files.root.isTidy = true) :
    Antitone fun moment => (timeline.state moment).remaining scene := by
  intro moment later order
  apply timeline.along (fun state => state.remaining scene ≤ (timeline.state moment).remaining scene)
    order (le_refl _)
  intro _ _ _ _ executed below
  exact (execute_remaining tidy executed).1.trans below

theorem exists_isIdleFrom (timeline : Timeline scene roots workers capacity)
    (tidy : scene.files.root.isTidy = true) : ∃ start, timeline.IsIdleFrom start := by
  obtain ⟨start, constant⟩ :=
    WellFoundedLT.antitone_chain_condition (timeline.remaining_antitone tidy)
  refine ⟨start, ?_⟩
  intro moment order action done
  rw [← Bool.not_eq_true]
  intro busy
  have less := (execute_remaining tidy (executed done)).2 busy
  have same := (constant moment order).symm.trans (constant (moment + 1) (Nat.le_succ_of_le order))
  exact absurd same (ne_of_gt less)

theorem closed_of_exited (timeline : Timeline scene roots workers capacity) {moment : Nat}
    (left : .exited ∈ (timeline.state moment).workers) :
    (timeline.state moment).queue.closed = true := by
  refine timeline.along (fun state => .exited ∈ state.workers → state.queue.closed = true)
    (Nat.zero_le moment) ?_ ?_ left
  · rw [timeline.begins, (initial_fresh roots workers capacity).crew]
    intro among
    cases List.eq_of_mem_replicate among
  · intro between action _ _ executed before
    exact execute_exited executed before

end Timeline

-- The jobs that can wait at one time, with two for each worker, are counted in a machine word. No
-- more of them wait than the queue has room for, and no more than a search can ever take.
def FitsTree (scene : Scene) (roots : List Path) (workers capacity : Nat) : Prop :=
  min (max 1 capacity) (roots.length * (1 + scene.files.folderCount)) + 2 * max 1 workers <
    UInt64.size

instance : Decidable (FitsTree scene roots workers capacity) := inferInstanceAs (Decidable (_ < _))

namespace Timeline

section

variable {timeline : Timeline scene roots workers capacity}
  (tidy : scene.files.root.isTidy = true) (fits : FitsTree scene roots workers capacity)
  (calm : timeline.IsCalm)

include tidy fits

theorem atRest_of_inFlight {moment : Nat} (none : (timeline.state moment).queue.inFlight = 0) :
    (timeline.state moment).AtRest := by
  obtain ⟨events, run⟩ := timeline.run moment
  have fresh := initial_fresh roots workers capacity
  have books := run.balanced fresh
  have crew := timeline.crew moment
  have held : (timeline.state moment).holders ≤ (timeline.state moment).workers.length :=
    List.countP_le_length
  have pushing : (timeline.state moment).pushers ≤ (timeline.state moment).workers.length :=
    List.countP_le_length
  have paid := timeline.allowance_le tidy moment
  have waiting := (timeline.state moment).waiting_le_allowance scene
  have bounded := books.bounded
  apply atRest_of_owed
  have counter := congrArg UInt64.toNat books.counter
  rw [none, UInt64.toNat_ofNat', Nat.mod_eq_of_lt] at counter
  · exact counter.symm
  · have size := books.size
    have room := fresh.size
    simp only [FitsTree, UInt64.size] at fits
    simp only [State.owed, Queue.length] at waiting ⊢
    omega

include calm

theorem atRest_of_decided {moment : Nat} (decided : (timeline.state moment).watch.reason? ≠ none) :
    (timeline.state moment).AtRest := by
  refine timeline.along (fun state => state.watch.reason? ≠ none → state.AtRest)
    (Nat.zero_le moment) ?_ ?_ decided
  · rw [timeline.begins, (initial_fresh roots workers capacity).watching]
    exact fun decided => absurd rfl decided
  · intro between action _ _ executed before decided
    refine ((execute_step executed).atRest ?_).2
    cases already : (timeline.state between).watch.reason? with
    | some reason => exact before (by simp [already])
    | none =>
      obtain ⟨reason, decides⟩ := Option.ne_none_iff_exists'.mp decided
      obtain ⟨rfl, settled⟩ := execute_decides executed already decides
      obtain ⟨unasked, inTime⟩ := calm between
      exact atRest_of_inFlight tidy fits (execute_settles executed already settled unasked inTime)

theorem isOpen {moment : Nat} (waits : (timeline.state moment).queue.jobs ≠ []) :
    (timeline.state moment).queue.closed = false := by
  rw [← Bool.not_eq_true]
  intro closed
  obtain ⟨events, run⟩ := timeline.run moment
  have decided := (run.balanced (initial_fresh roots workers capacity)).closing closed
  exact waits (atRest_of_decided tidy fits calm decided).noneWait

end

section

variable {timeline : Timeline scene roots workers capacity} {start moment : Nat}
  (idle : timeline.IsIdleFrom start) (fair : timeline.IsFair) (order : start ≤ moment)

include idle fair order

theorem noneHeld_of_idle {phase : Phase} (stands : phase ∈ (timeline.state moment).workers) :
    phase.held? = none := by
  rw [← Option.not_isSome_iff_eq_none]
  intro holds
  have undone : phase.isDone = false := by
    cases phase <;> first | rfl | cases holds
  obtain ⟨worker, stands⟩ := List.getElem?_of_mem stands
  obtain ⟨later, move, moved, after, further, done, still, _, _⟩ := fair.turn stands undone
  have unbusy := idle later (order.trans further) _ done
  simp [State.isBusy, still, Phase.isBusy, Phase.isHolding, holds] at unbusy

theorem noneWait_of_idle {worker : Nat} (up : timeline.StaysUp worker)
    (isOpen : ∀ {moment}, (timeline.state moment).queue.jobs ≠ [] →
      (timeline.state moment).queue.closed = false) :
    (timeline.state moment).queue.jobs = [] := by
  by_contra waits
  have stays {later : Nat} (further : moment ≤ later) :
      (timeline.state later).queue.jobs ≠ [] := by
    apply timeline.along (fun state => state.queue.jobs ≠ []) further waits
    intro between action further done executed still
    rwa [execute_jobs executed (idle between (order.trans further) action done)]
  have noneReceives {later : Nat} (further : moment ≤ later) :
      (timeline.state later).workers[worker]? ≠ some .receiving := by
    intro stands
    obtain ⟨last, move, moved, after, behind, done, still, _, _⟩ := fair.turn stands rfl
    have unbusy := idle last (order.trans (further.trans behind)) _ done
    have some := stays (further.trans behind)
    simp [State.isBusy, still, Phase.isBusy, Phase.takes?, some] at unbusy
  have nonePops {later : Nat} (further : moment ≤ later) :
      (timeline.state later).workers[worker]? ≠ some .popping := by
    intro stands
    obtain ⟨last, move, moved, after, behind, _, _, advanced, goes⟩ := fair.turn stands rfl
    cases advance_turn advanced with
    | wait => exact noneReceives (further.trans (Nat.le_succ_of_le behind)) goes
    | turnBack closed => cases (isOpen (stays (further.trans behind))).symm.trans closed
  obtain ⟨phase, stands, standing⟩ := up moment
  have free := noneHeld_of_idle idle fair order (List.mem_of_getElem? stands)
  cases phase with
  | looping =>
    obtain ⟨last, move, moved, after, behind, _, _, advanced, goes⟩ := fair.turn stands rfl
    cases advance_turn advanced with
    | goOn => exact nonePops (Nat.le_succ_of_le behind) goes
    | leave closed => cases (isOpen (stays behind)).symm.trans closed
  | popping => exact nonePops (Nat.le_refl _) stands
  | receiving => exact noneReceives (Nat.le_refl _) stands
  | exited =>
    have closed := timeline.closed_of_exited (List.mem_of_getElem? stands)
    cases (isOpen waits).symm.trans closed
  | fallen => exact standing rfl
  | _ => cases free

end

end Timeline

theorem isQuiescent_of_atRest {events : List Event}
    (books : Balanced (State.initial roots workers capacity) events state) (rest : state.AtRest) :
    state.queue.isQuiescent = true := by
  have noneCounted : state.owed = 0 := by
    have holders : state.holders = 0 := by
      apply List.countP_eq_zero.mpr
      intro phase stands
      simp [Phase.isHolding, rest.noneHeld phase stands]
    have pushers : state.pushers = 0 := by
      apply List.countP_eq_zero.mpr
      intro phase stands
      have free := rest.noneHeld phase stands
      cases phase <;> simp [Phase.held?, Phase.isPushing] at free ⊢
    simp [State.owed, Queue.length, rest.noneWait, holders, pushers]
  simp [Queue.isQuiescent, Queue.isEmpty, rest.noneWait, books.counter, noneCounted]

-- A search takes jobs from the queue finitely often: at most once for each root, and once for each
-- root and each real directory of the tree, wherever links lead. And it comes to its end without a
-- deadline. In a fair timeline that nobody cuts short, and in which one worker stays up, nothing
-- waits and nothing is in flight from some moment on.
theorem search_ends (timeline : Timeline scene roots workers capacity)
    (tidy : scene.files.root.isTidy = true) (fits : FitsTree scene roots workers capacity)
    (calm : timeline.IsCalm) (fair : timeline.IsFair) (up : ∃ worker, timeline.StaysUp worker) :
    (∀ moment, (timeline.taken moment).length ≤ roots.length * (1 + scene.files.folderCount)) ∧
      ∃ start, ∀ moment, start ≤ moment →
        (timeline.state moment).queue.isQuiescent = true ∧ (timeline.state moment).AtRest := by
  constructor
  · intro moment
    have paid := timeline.allowance_le tidy moment
    omega
  · obtain ⟨worker, up⟩ := up
    obtain ⟨start, idle⟩ := timeline.exists_isIdleFrom tidy
    refine ⟨start, ?_⟩
    intro moment order
    have rest : (timeline.state moment).AtRest := by
      constructor
      · exact Timeline.noneWait_of_idle idle fair order up (Timeline.isOpen tidy fits calm)
      · intro phase stands
        exact Timeline.noneHeld_of_idle idle fair order stands
    obtain ⟨events, run⟩ := timeline.run moment
    exact ⟨isQuiescent_of_atRest (run.balanced (initial_fresh roots workers capacity)) rest, rest⟩

def loopedScene : Scene where
  files :=
    let named (name : String) (node : Node) : Name × Node := (Text.Utf8.ofString name, node)
    let link (name target : String) := named name (.link (Path.ofString target))
    let inner := named "a" (.directory 0o755 .epoch [link "up" "../.."])
    ⟨.directory 0o755 .epoch [
        named "w" (.directory 0o755 .epoch [link "loop" ".", inner]),
        link "top" "/"], []⟩
  remote _ := .failure
  depthLimit := 0
  sink := .absent

def loopedRoots : List Path := ["/w", "/top", "/w/a/up/w"].map Path.ofString

def loopedCourse : Course := ⟨State.initial loopedRoots 2 8, none⟩

theorem search_ends_looped :
    let timeline : Timeline loopedScene loopedRoots 2 8 :=
      loopedCourse.timeline loopedScene .promptly rfl
    (∀ moment, (timeline.taken moment).length ≤ 9) ∧
      (timeline.taken 88).map Job.path =
        ["/w", "/top", "/w/a/up/w", "/w/a", "/top/w", "/w/a/up/w/a", "/top/w/a"].map
          Path.ofString ∧
      ∃ start, ∀ moment, start ≤ moment →
        (timeline.state moment).queue.isQuiescent = true ∧ (timeline.state moment).AtRest := by
  intro timeline
  have allLeft : ∀ phase ∈ (timeline.state 88).workers, phase = .exited := by decide +kernel
  have first : (timeline.state 88).workers[0]? = some .exited := by decide +kernel
  have ended : ((loopedCourse.runFor loopedScene .promptly 88).step? loopedScene .promptly).isNone =
      true := by decide +kernel
  have still (later : Nat) (order : 88 ≤ later) : timeline.action later = none :=
    Course.timeline_still (Option.isNone_iff_eq_none.mp ended) order
  have calm := Timeline.isCalm_of_still still (by decide +kernel)
  obtain ⟨few, ends⟩ := search_ends timeline (by decide +kernel) (by decide +kernel) calm
    (Timeline.isFair_of_left allLeft) ⟨0, Timeline.staysUp_of_left first⟩
  exact ⟨few, by decide +kernel, ends⟩

end RepoFinder.Scan
