import RepoFinder.Proofs.Scan.Course

namespace RepoFinder.Scan

variable {scene : Scene} {start state next : State} {events : List Event}

def Phase.held? : Phase → Option Job
  | .opening job => some job
  | .reading job _ => some job
  | .meeting job _ _ => some job
  | .offering job _ _ => some job
  | .counting job _ _ => some job
  | .sending job _ _ => some job
  | .retracting job _ => some job
  | .claiming job _ => some job
  | .asking job _ => some job
  | .stamping job _ _ => some job
  | .delivering job _ _ => some job
  | .storing job _ _ => some job
  | .releasing job => some job
  | .falling job => some job
  | _ => none

def Phase.isHolding (phase : Phase) : Bool := phase.held?.isSome

def Phase.holds (job : Job) (phase : Phase) : Bool := phase.held? = some job

def Phase.isPushing : Phase → Bool
  | .sending .. => true
  | .retracting .. => true
  | _ => false

def Phase.discounts : Phase → Bool
  | .retracting .. => true
  | .releasing _ => true
  | .falling _ => true
  | _ => false

namespace State

def holders (state : State) : Nat := state.workers.countP Phase.isHolding

def holdersOf (state : State) (job : Job) : Nat := state.workers.countP (Phase.holds job)

def pushers (state : State) : Nat := state.workers.countP Phase.isPushing

-- The number of jobs in flight as it should be.
def owed (state : State) : Nat := state.queue.length + state.holders + state.pushers

structure AtRest (state : State) : Prop where
  noneWait : state.queue.jobs = []
  noneHeld : ∀ phase ∈ state.workers, phase.held? = none

end State

def Event.accepted? : Event → Option Job
  | .accepted job => some job
  | _ => none

def Event.finished? : Event → Option Job
  | .finished job => some job
  | _ => none

def accepted (start : State) (events : List Event) : List Job :=
  start.queue.jobs ++ events.filterMap Event.accepted?

def finished (events : List Event) : List Job := events.filterMap Event.finished?

theorem countP_set_add {α : Type} {items : List α} {index : Nat} {item : α}
    (stands : items[index]? = some item) (after : α) (counts : α → Bool) :
    (items.set index after).countP counts + (if counts item then 1 else 0) =
      items.countP counts + (if counts after then 1 else 0) := by
  induction items generalizing index with
  | nil => simp at stands
  | cons first rest ih =>
    cases index with
    | zero =>
      obtain rfl : first = item := by simpa using stands
      cases one : counts first <;> cases other : counts after <;>
        simp [one, other]
    | succ index =>
      have rest := ih (by simpa using stands)
      simp only [List.set_cons_succ, List.countP_cons]
      omega

-- A turn moves the counter of jobs in flight together with the number that it should be. The counter
-- is a machine word, so this says nothing yet about its value: that it does not wrap comes last.
theorem Turn.counter {worker : Nat} {phase after : Phase}
    (stands : state.workers[worker]? = some phase) (turn : Turn scene state phase next after) :
    let moved : State := { next with workers := next.workers.set worker after }
    (moved.queue.inFlight = state.queue.inFlight ∧ moved.owed = state.owed) ∨
      (moved.queue.inFlight = state.queue.inFlight + 1 ∧ moved.owed = state.owed + 1) ∨
      (moved.queue.inFlight = state.queue.inFlight - 1 ∧ moved.owed + 1 = state.owed) := by
  have held := countP_set_add stands after Phase.isHolding
  have pushing := countP_set_add stands after Phase.isPushing
  cases turn <;>
    simp_all [State.owed, State.holders, State.pushers, State.skip, Queue.length, Queue.count,
      Queue.finish, Phase.isHolding, Phase.held?, Phase.isPushing] <;> omega

theorem Turn.ledger {worker : Nat} {phase after : Phase} (job : Job)
    (stands : state.workers[worker]? = some phase) (turn : Turn scene state phase next after) :
    let moved : State := { next with workers := next.workers.set worker after }
    let event := phase.event? state.queue
    (event.toList.filterMap Event.accepted?).count job + state.holdersOf job +
        state.queue.jobs.count job =
      (event.toList.filterMap Event.finished?).count job + moved.holdersOf job +
        moved.queue.jobs.count job := by
  have held := countP_set_add stands after (Phase.holds job)
  cases turn <;>
    simp_all [State.holdersOf, State.skip, Queue.count, Queue.finish, Phase.holds, Phase.held?,
      Phase.event?, Event.accepted?, Event.finished?, List.filterMap_cons, List.count_cons] <;> omega

-- The books of a run: the counter is exact, and nothing that was accepted is lost. This is the
-- invariant of the module; it holds of every run, whatever interrupts it.
structure Balanced (start : State) (events : List Event) (state : State) : Prop where
  counter : state.queue.inFlight = UInt64.ofNat state.owed
  ledger : ∀ job, (accepted start events).count job =
    (finished events).count job + state.holdersOf job + state.queue.jobs.count job
  bounded : state.queue.jobs.length ≤ state.queue.capacity
  size : state.queue.capacity = start.queue.capacity
  crew : state.workers.length = start.workers.length
  closing : state.queue.closed = true → state.watch.reason? ≠ none

theorem balanced_start {workers capacity : Nat} {roots : List Path}
    (fresh : Fresh workers capacity roots start) : Balanced start [] start where
  counter := by
    simp [fresh.counted, State.owed, State.holders, State.pushers, fresh.crew, Queue.length,
      List.countP_replicate, Phase.isHolding, Phase.held?, Phase.isPushing]
  ledger job := by
    simp [accepted, finished, State.holdersOf, fresh.crew, Phase.holds, Phase.held?]
  bounded := fresh.bounded
  size := rfl
  crew := rfl
  closing closed := by simp [fresh.isOpen] at closed

theorem Turn.frame {phase after : Phase} (turn : Turn scene state phase next after)
    (bounded : state.queue.jobs.length ≤ state.queue.capacity) :
    next.queue.jobs.length ≤ next.queue.capacity ∧ next.queue.capacity = state.queue.capacity ∧
      next.watch = state.watch ∧ next.queue.closed = state.queue.closed := by
  -- Only a send makes the queue longer, and it found room for one more job.
  cases turn <;> simp_all [State.skip, Queue.count, Queue.finish, Queue.hasRoom]
  all_goals omega

theorem Turn.balanced {worker : Nat} {phase after : Phase}
    (books : Balanced start events state) (stands : state.workers[worker]? = some phase)
    (turn : Turn scene state phase next after) :
    Balanced start (events ++ (phase.event? state.queue).toList)
      { next with workers := next.workers.set worker after } := by
  obtain ⟨bounded, size, watch, closed⟩ := turn.frame books.bounded
  refine ⟨?_, ?_, bounded, size.trans books.size, ?_, ?_⟩
  · rcases turn.counter stands with ⟨same, owed⟩ | ⟨more, owed⟩ | ⟨less, owed⟩
    · rw [same, owed, books.counter]
    · rw [more, owed, books.counter, UInt64.ofNat_add]
      rfl
    · rw [less, books.counter, ← owed, UInt64.ofNat_add]
      simp
  · intro job
    have before := books.ledger job
    have change := turn.ledger job stands
    simp only [accepted, finished, List.filterMap_append, List.count_append] at before change ⊢
    omega
  · simpa [turn.workers] using books.crew
  · simpa [watch, closed] using books.closing

theorem Look.balanced (books : Balanced start events state) (look : Look state next) :
    Balanced start events next := by
  cases look with
  | wait before after =>
    refine { books with closing := ?_ }
    intro closed
    exact absurd before (books.closing closed)
  | settle | giveUp | close | stop =>
    refine { books with closing := ?_ }
    intro _
    simp [Watch.reason?]

theorem Run.balanced {workers capacity : Nat} {roots : List Path}
    (fresh : Fresh workers capacity roots start) (run : Run scene start events state) :
    Balanced start events state := by
  induction run with
  | start => exact balanced_start fresh
  | @step _ state _ action _ executed books =>
    have step := execute_step executed
    generalize state.event? action = event at step ⊢
    cases step with
    | work stands turn => exact turn.balanced books stands
    | look look => simpa using look.balanced books
    | outside => simpa using { books with }

-- The workers and the places in the queue all lie in one memory, with the counter of jobs in
-- flight a word of the size of an address; each worker counts at most two jobs at a time.
def Fits (workers capacity : Nat) : Prop := max 1 capacity + 2 * max 1 workers < UInt64.size

instance (workers capacity : Nat) : Decidable (Fits workers capacity) :=
  inferInstanceAs (Decidable (_ < _))

theorem Balanced.owed_le (books : Balanced start events state) :
    state.owed ≤ start.queue.capacity + 2 * start.workers.length := by
  have held : state.holders ≤ state.workers.length := List.countP_le_length
  have pushing : state.pushers ≤ state.workers.length := List.countP_le_length
  have waiting := books.bounded
  have size := books.size
  have crew := books.crew
  simp only [State.owed, Queue.length]
  omega

theorem Balanced.toNat_inFlight {workers capacity : Nat} {roots : List Path}
    (books : Balanced start events state) (fresh : Fresh workers capacity roots start)
    (fits : Fits workers capacity) : state.queue.inFlight.toNat = state.owed := by
  have bound := books.owed_le
  have crew : start.workers.length = max 1 workers := by simp [fresh.crew]
  unfold Fits at fits
  rw [books.counter, UInt64.toNat_ofNat', Nat.mod_eq_of_lt]
  have size := fresh.size
  simp only [UInt64.size] at fits
  omega

theorem atRest_of_owed (none : state.owed = 0) : state.AtRest := by
  unfold State.owed State.holders Queue.length at none
  constructor
  · apply List.eq_nil_of_length_eq_zero
    omega
  · intro phase stands
    have free : state.workers.countP Phase.isHolding = 0 := by omega
    simpa [Phase.isHolding] using List.countP_eq_zero.mp free phase stands

theorem Balanced.finished_perm (books : Balanced start events state) (rest : state.AtRest) :
    (finished events).Perm (accepted start events) := by
  apply List.perm_iff_count.mpr
  intro job
  have free : state.holdersOf job = 0 := by
    apply List.countP_eq_zero.mpr
    intro phase stands
    simp [Phase.holds, rest.noneHeld phase stands]
  have ledger := books.ledger job
  simp only [free, rest.noneWait, List.count_nil] at ledger
  omega

theorem Step.atRest {event : Option Event} (rest : state.AtRest)
    (step : Step scene state event next) : event = none ∧ next.AtRest := by
  cases step with
  | look look => cases look <;> exact ⟨rfl, rest.noneWait, rest.noneHeld⟩
  | outside => exact ⟨rfl, rest.noneWait, rest.noneHeld⟩
  | @work worker phase after next stands turn =>
    have free : phase.held? = none := rest.noneHeld phase (List.mem_of_getElem? stands)
    have still : next.queue.jobs = [] ∧ next.workers = state.workers ∧ after.held? = none ∧
        phase.event? state.queue = none := by
      cases turn <;> simp_all [Phase.held?, Phase.event?, rest.noneWait]
    obtain ⟨jobs, workers, idle, silent⟩ := still
    refine ⟨silent, jobs, ?_⟩
    intro other stands
    rcases List.mem_or_eq_of_mem_set stands with old | rfl
    · rw [workers] at old
      exact rest.noneHeld other old
    · exact idle

theorem Run.atRest (rest : start.AtRest) (run : Run scene start events state) :
    events = [] ∧ state.AtRest := by
  induction run with
  | start => exact ⟨rfl, rest⟩
  | step action _ executed ih =>
    obtain ⟨rfl, rest⟩ := ih
    obtain ⟨silent, rest⟩ := (execute_step executed).atRest rest
    exact ⟨by simp [silent], rest⟩

theorem State.owed_pos {phase : Phase} (stands : phase ∈ state.workers)
    (discounts : phase.discounts = true) : 0 < state.owed := by
  have holding : phase.isHolding = true := by cases phase <;> first | rfl | cases discounts
  have held : 0 < state.holders := List.countP_pos_iff.mpr ⟨phase, stands, holding⟩
  unfold State.owed
  omega

-- The monitor that sees an empty queue and then, in a later step, nothing in flight, has seen the
-- end: whatever the workers did between the two reads, the queue is open, every job ever accepted
-- is finished, no worker holds a job or is pushing one, and no later step pushes or finishes one.
-- The counter that it reads is at every step the number of jobs that wait, that are held, and
-- that are counted and not sent yet, so that no worker ever takes one off zero.
theorem quiescence_exact {roots : List Path} {workers capacity : Nat}
    (fits : Fits workers capacity)
    (run : Run scene (State.initial roots workers capacity) events state) :
    state.queue.inFlight.toNat = state.queue.length + state.holders + state.pushers ∧
    (∀ phase ∈ state.workers, phase.discounts = true → 0 < state.queue.inFlight.toNat) ∧
    ∀ next, state.watch = .sawEmpty → execute scene state .watch = some next →
      next.watch = .decided .idle →
        state.queue.closed = false ∧
        (finished events).Perm (accepted (State.initial roots workers capacity) events) ∧
        state.AtRest ∧
        ∀ later after, Run scene next later after → later = [] ∧ after.AtRest := by
  have fresh := initial_fresh roots workers capacity
  have books := run.balanced fresh
  have precise := books.toNat_inFlight fresh fits
  refine ⟨precise, ?_, ?_⟩
  · intro phase stands discounts
    rw [precise]
    exact State.owed_pos stands discounts
  · intro next sawEmpty read idle
    -- Only the second read counts. What the monitor saw of the queue before may be long out of date.
    have noneLeft : state.queue.inFlight = 0 := by
      simp only [execute, watchStep, sawEmpty, Option.some.injEq] at read
      subst read
      by_cases none : state.queue.inFlight = 0
      · exact none
      · simp [none] at idle
    have owed : state.owed = 0 := by
      rw [← precise, noneLeft]
      rfl
    have rest := atRest_of_owed owed
    have isOpen : state.queue.closed = false := by
      cases closed : state.queue.closed with
      | false => rfl
      | true => exact absurd (by simp [sawEmpty, Watch.reason?]) (books.closing closed)
    have restNext := ((execute_step read).atRest rest).2
    refine ⟨isOpen, books.finished_perm rest, rest, ?_⟩
    intro later after run
    exact run.atRest restNext

theorem quiescence_exact_nested :
    let state := (nestedCourse.runFor nestedScene .promptly 36).state
    state.watch = .sawEmpty ∧ state.queue.closed = false ∧ state.AtRest ∧
      (finished (nestedCourse.eventsFor nestedScene .promptly 36)).Perm
        (accepted nestedCourse.state (nestedCourse.eventsFor nestedScene .promptly 36)) := by
  have run : Run nestedScene (State.initial [Path.ofString "/w"] 2 8) _ _ :=
    nestedCourse.runFor_run .promptly 36
  have books := quiescence_exact (by decide) run
  obtain ⟨isOpen, allDone, rest, _⟩ := books.2.2 (nestedCourse.runFor nestedScene .promptly 37).state
    rfl rfl rfl
  exact ⟨rfl, isOpen, rest, allDone⟩

end RepoFinder.Scan
