import RepoFinder.Proofs.Scan.Standing

namespace RepoFinder.Scan

open FileSystem

variable {scene : Scene} {roots : List Path} {start state next : State} {events : List Event}

def Phase.Claims (key : Path.Key) : Phase → Prop
  | .asking job _ => job.path.key = key
  | .stamping job _ _ => job.path.key = key
  | .delivering job _ _ => job.path.key = key
  | .storing job _ _ => job.path.key = key
  | _ => False

-- Every claimed key has its repository, or a worker that is about to store it.
def Kept (state : State) : Prop :=
  ∀ key ∈ state.seen, (∃ repository ∈ state.found, repository.path.key = key) ∨
    ∃ phase ∈ state.workers, phase.Claims key

theorem Turn.found_subset {phase after : Phase} (turn : Turn scene state phase next after) :
    state.found ⊆ next.found := by
  cases turn <;> simp [State.skip]

theorem Turn.seen_subset {phase after : Phase} (turn : Turn scene state phase next after) :
    state.seen ⊆ next.seen := by
  cases turn <;> simp [State.skip]

theorem Turn.claims_new {phase after : Phase} (turn : Turn scene state phase next after)
    {key : Path.Key} (seen : key ∈ next.seen) : key ∈ state.seen ∨ after.Claims key := by
  cases turn with
  | claim unknown =>
    rcases List.mem_cons.mp seen with rfl | old
    · right
      rfl
    · left
      exact old
  | _ => exact .inl seen

-- A claim is kept until its repository is stored. Only a worker that is taken down loses it, and
-- with it the repository: its key stays claimed for good.
theorem Turn.claims_kept {phase after : Phase} (turn : Turn scene state phase next after)
    (up : after.isDown = false) (sound : phase.Sound scene roots)
    {key : Path.Key} (claims : phase.Claims key) :
    after.Claims key ∨ ∃ repository ∈ next.found, repository.path.key = key := by
  cases turn with
  | crash | misdate => cases up
  | learn | learnNothing | stamp | keep | drop => exact .inl claims
  | store =>
    right
    refine ⟨_, List.mem_append_right _ (List.mem_singleton_self _), ?_⟩
    rw [sound.1.2.1]
    exact claims
  | _ => exact claims.elim

theorem Step.seen_subset {event : Option Event} (step : Step scene state event next) :
    state.seen ⊆ next.seen := by
  cases step with
  | work stands turn => exact turn.seen_subset
  | look look => cases look <;> exact List.Subset.refl _
  | outside => exact List.Subset.refl _

theorem Step.kept {event : Option Event} (up : Standing next)
    (sound : Sound scene roots start events state) (kept : Kept state)
    (step : Step scene state event next) : Kept next := by
  cases step with
  | look look => cases look <;> exact kept
  | outside => exact kept
  | @work worker phase after next stands turn =>
    have standing := mem_set_self stands after
    have upright := turn.upright stands up
    intro key seen
    simp only [turn.workers] at seen ⊢
    rcases turn.claims_new seen with old | claims
    · rcases kept key old with ⟨repository, found, same⟩ | ⟨other, present, claims⟩
      · left
        exact ⟨repository, turn.found_subset found, same⟩
      · rcases mem_set_or_eq stands after present with still | rfl
        · right
          exact ⟨other, still, claims⟩
        · rcases turn.claims_kept upright (sound.phases other present) claims with on | stored
          · right
            exact ⟨after, standing, on⟩
          · left
            exact stored
    · right
      exact ⟨after, standing, claims⟩

theorem Run.kept {workers capacity : Nat} (fresh : Fresh workers capacity roots start)
    (run : Run scene start events state) (up : Standing state) : Kept state := by
  induction run with
  | start => simp [Kept, fresh.unseen]
  | step action before executed ih =>
    have step := execute_step executed
    exact step.kept up (before.sound fresh) (ih (step.standing up))

structure Handled (scene : Scene) (jobs : List Job) (seen : List Path.Key) (job : Job)
    (entry : Entry) : Prop where
  claimed : EntryClass.ofEntry entry.1.display entry.2 = .sentinel → job.path.key ∈ seen
  pushed : EntryClass.ofEntry entry.1.display entry.2 = .descend →
    withinDepth (job.depth + 1) scene.depthLimit = true →
      job.child (job.path.child entry.1) ∈ jobs

def Pushes (job child : Job) (entry : Entry) : Prop :=
  EntryClass.ofEntry entry.1.display entry.2 = .descend ∧
    child = job.child (job.path.child entry.1)

-- An entry is still ahead of a worker. A push that was counted is ahead until it is sent, though its
-- entry has left the list already.
def Phase.Ahead (entry : Entry) : Phase → Prop
  | .opening _ => True
  | .reading _ rest => entry ∈ rest
  | .meeting _ met rest => entry ∈ met :: rest
  | .offering job child rest => Pushes job child entry ∨ entry ∈ rest
  | .counting job child rest => Pushes job child entry ∨ entry ∈ rest
  | .sending job child rest => Pushes job child entry ∨ entry ∈ rest
  | .claiming _ rest =>
    EntryClass.ofEntry entry.1.display entry.2 = .sentinel ∨ entry ∈ rest
  | .asking _ rest => entry ∈ rest
  | .stamping _ _ rest => entry ∈ rest
  | .delivering _ _ rest => entry ∈ rest
  | .storing _ _ rest => entry ∈ rest
  | .retracting _ rest => entry ∈ rest
  | _ => False

-- Every entry of a directory that was read is handled, or ahead of the worker that reads it.
structure Complete (scene : Scene) (start : State) (events : List Event) (state : State) :
    Prop where
  done : ∀ job ∈ finished events, ∀ entry, scene.files.Lists job.path entry →
    Handled scene (accepted start events) state.seen job entry
  doing : ∀ phase ∈ state.workers, ∀ job, phase.held? = some job →
    ∀ entry, scene.files.Lists job.path entry →
      phase.Ahead entry ∨ Handled scene (accepted start events) state.seen job entry

theorem Handled.mono {jobs more : List Job} {seen further : List Path.Key} {job : Job}
    {entry : Entry} (handled : Handled scene jobs seen job entry) (jobsKept : jobs ⊆ more)
    (seenKept : seen ⊆ further) : Handled scene more further job entry := by
  constructor
  · intro meets
    exact seenKept (handled.claimed meets)
  · intro meets within
    exact jobsKept (handled.pushed meets within)

theorem accepted_subset (start : State) (events more : List Event) :
    accepted start events ⊆ accepted start (events ++ more) := by
  simp only [accepted, List.filterMap_append, ← List.append_assoc]
  exact List.subset_append_left _ _

-- A turn leaves an entry ahead of its worker, or has handled it. Nothing is refused, nobody is
-- taken down, and the queue is open.
theorem Turn.ahead {phase after : Phase} (turn : Turn scene state phase next after)
    (up : after.isDown = false) (isOpen : state.queue.closed = false)
    (unrefused : ∀ job, phase.event? state.queue ≠ some (.refused job)) {job : Job}
    (due : job.Due scene roots) (held : phase.held? = some job) {entry : Entry}
    (lists : scene.files.Lists job.path entry) (ahead : phase.Ahead entry) :
    after.held? = some job ∧ after.Ahead entry ∨
      Handled scene (accepted start (events ++ (phase.event? state.queue).toList)) next.seen job
        entry := by
  have differs {a b : EntryClass} (one : EntryClass.ofEntry entry.1.display entry.2 = a)
      (other : EntryClass.ofEntry entry.1.display entry.2 = b) (ne : a ≠ b) : False :=
    ne (one.symm.trans other)
  cases turn with
  | goOn | leave | wait | turnBack | take | giveUp => cases held
  | tooDeep beyond =>
    -- Only what lies within the limit is ever pushed, so this check never fails.
    cases held
    exact absurd due.1 (by simp [beyond])
  | unreadable failed =>
    cases held
    obtain ⟨_, read, _⟩ := lists
    cases failed.symm.trans read
  | read within listed listing =>
    cases held
    exact .inl ⟨rfl, (isListing_mem listing).mpr ((lists_of_readDirectory listed).mp lists)⟩
  | readAll => cases ahead
  | breakOff closed | refuseClosed closed => cases isOpen.symm.trans closed
  | meetSentinel meets =>
    cases held
    rcases List.mem_cons.mp ahead with rfl | later
    · exact .inl ⟨rfl, .inl meets⟩
    · exact .inl ⟨rfl, .inr later⟩
  | meetBelow meets within =>
    cases held
    rcases List.mem_cons.mp ahead with rfl | later
    · exact .inl ⟨rfl, .inl ⟨meets, rfl⟩⟩
    · exact .inl ⟨rfl, .inr later⟩
  | meetTooDeep meets beyond =>
    cases held
    rcases List.mem_cons.mp ahead with rfl | later
    · right
      constructor
      · intro sentinel
        exact (differs meets sentinel (by decide)).elim
      · intro _ within
        cases beyond.symm.trans within
    · exact .inl ⟨rfl, later⟩
  | passBy noSentinel noDescent =>
    cases held
    rcases List.mem_cons.mp ahead with rfl | later
    · right
      constructor
      · intro meets
        exact absurd meets noSentinel
      · intro meets
        exact absurd meets noDescent
    · exact .inl ⟨rfl, later⟩
  | send room =>
    cases held
    rcases ahead with ⟨meets, rfl⟩ | later
    · right
      constructor
      · intro sentinel
        exact (differs meets sentinel (by decide)).elim
      · intro _ _
        simp [accepted, Phase.event?, room, Event.accepted?]
    · exact .inl ⟨rfl, later⟩
  | @refuseFull _ child _ full =>
    exact absurd (by simp [Phase.event?, full]) (unrefused child)
  | known known =>
    cases held
    rcases ahead with meets | later
    · right
      constructor
      · intro _
        exact known
      · intro descends
        exact (differs meets descends (by decide)).elim
    · exact .inl ⟨rfl, later⟩
  | claim unknown =>
    cases held
    rcases ahead with meets | later
    · right
      constructor
      · intro _
        exact List.mem_cons_self ..
      · intro descends
        exact (differs meets descends (by decide)).elim
    · exact .inl ⟨rfl, later⟩
  | crash | misdate => cases up
  | come | offer | count | retract | learn | learnNothing | stamp | keep | drop | store =>
    exact .inl ⟨held, ahead⟩
  | release | fall => cases ahead

theorem Step.reason?_eq {event : Option Event} (books : Balanced start events state)
    (step : Step scene state event next) {reason : StopReason}
    (decided : state.watch.reason? = some reason) : next.watch.reason? = some reason := by
  cases step with
  | @work worker phase after next stands turn =>
    simpa [(turn.frame books.bounded).2.2.1] using decided
  | outside => exact decided
  | look look =>
    cases look with
    | wait before | giveUp before => cases before.symm.trans decided
    | settle sawEmpty => simp [sawEmpty, Watch.reason?] at decided
    | close watching | stop watching => simpa [watching, Watch.reason?] using decided

-- From the monitor's second read on, a scan that it found idle is at rest.
theorem Run.idle_atRest {workers capacity : Nat} (fits : Fits workers capacity)
    (fresh : Fresh workers capacity roots start) (run : Run scene start events state)
    (idle : state.watch.reason? = some .idle) : state.AtRest := by
  induction run with
  | start => simp [fresh.watching, Watch.reason?] at idle
  | @step events state next action before executed ih =>
    have books := before.balanced fresh
    have step := execute_step executed
    by_cases already : state.watch.reason? = some .idle
    · exact (step.atRest (ih already)).2
    · generalize state.event? action = event at step
      cases step with
      | @work worker phase after next stands turn =>
        exact absurd (by simpa [(turn.frame books.bounded).2.2.1] using idle) already
      | outside => exact absurd idle already
      | look look =>
        cases look with
        | wait _ after => cases after.symm.trans idle
        | giveUp _ notIdle => exact absurd (Option.some.inj idle) notIdle
        | close watching | stop watching =>
          exact absurd (by simpa [watching, Watch.reason?] using idle) already
        | settle sawEmpty noneLeft =>
          have owed : state.owed = 0 := by
            rw [← books.toNat_inFlight fresh fits, noneLeft]
            rfl
          have rest := atRest_of_owed owed
          exact ⟨rest.noneWait, rest.noneHeld⟩

theorem Phase.Ahead.event? {phase : Phase} {queue : Queue} {job : Job} {entry : Entry}
    (ahead : phase.Ahead entry) : phase.event? queue ≠ some (.finished job) := by
  cases phase with
  | releasing | falling => cases ahead
  | offering => simp only [Phase.event?]; split <;> simp
  | sending => simp only [Phase.event?]; split <;> simp
  | _ => simp [Phase.event?]

theorem Phase.held?_of_finished {phase : Phase} {queue : Queue} {job : Job}
    (finishes : phase.event? queue = some (.finished job)) : phase.held? = some job := by
  cases phase with
  | releasing | falling => simpa [Phase.event?, Phase.held?] using finishes
  | offering => simp only [Phase.event?] at finishes; split at finishes <;> simp at finishes
  | sending => simp only [Phase.event?] at finishes; split at finishes <;> simp at finishes
  | _ => simp [Phase.event?] at finishes

theorem Turn.held?_before {phase after : Phase} (turn : Turn scene state phase next after)
    {job : Job} (held : after.held? = some job) :
    phase.held? = some job ∨ after = .opening job := by
  cases turn with
  | take => exact .inr (congrArg Phase.opening (Option.some.inj held))
  | goOn | leave | wait | turnBack | giveUp | release | fall => cases held
  | _ => exact .inl held

theorem finished_append (events : List Event) (event : Option Event) (job : Job) :
    job ∈ finished (events ++ event.toList) ↔
      job ∈ finished events ∨ event = some (.finished job) := by
  cases event with
  | none => simp [finished]
  | some event => cases event <;> simp [finished, Event.finished?, eq_comm]

theorem Step.complete {event : Option Event} (up : Standing next)
    (unrefused : ∀ job, event ≠ some (.refused job)) (books : Balanced start events state)
    (sound : Sound scene roots start events state) (isOpen : state.queue.closed = false)
    (complete : Complete scene start events state) (step : Step scene state event next) :
    Complete scene start (events ++ event.toList) next := by
  cases step with
  | look look => cases look <;> simpa using { complete with }
  | outside => simpa using { complete with }
  | @work worker phase after next stands turn =>
    have standing := List.mem_of_getElem? stands
    have upright := turn.upright stands up
    have jobsKept := accepted_subset start events (phase.event? state.queue).toList
    have due (job : Job) (held : phase.held? = some job) : job.Due scene roots :=
      sound.due job (books.mem_accepted standing held)
    have own (job : Job) (held : phase.held? = some job) (entry : Entry)
        (lists : scene.files.Lists job.path entry) :
        after.held? = some job ∧ after.Ahead entry ∨
          Handled scene (accepted start (events ++ (phase.event? state.queue).toList)) next.seen
            job entry := by
      rcases complete.doing phase standing job held entry lists with ahead | handled
      · exact turn.ahead upright isOpen unrefused (due job held) held lists ahead
      · exact .inr (handled.mono jobsKept turn.seen_subset)
    constructor
    · intro job allDone entry lists
      rcases (finished_append events _ job).mp allDone with old | now
      · exact (complete.done job old entry lists).mono jobsKept turn.seen_subset
      · have held := Phase.held?_of_finished now
        rcases complete.doing phase standing job held entry lists with ahead | handled
        · exact absurd now ahead.event?
        · exact handled.mono jobsKept turn.seen_subset
    · intro other present job held entry lists
      rw [turn.workers] at present
      rcases List.mem_or_eq_of_mem_set present with old | rfl
      · rcases complete.doing other old job held entry lists with ahead | handled
        · left
          exact ahead
        · right
          exact handled.mono jobsKept turn.seen_subset
      · rcases turn.held?_before held with before | rfl
        · exact (own job before entry lists).imp_left And.right
        · left
          trivial

theorem complete_start {workers capacity : Nat} (fresh : Fresh workers capacity roots start) :
    Complete scene start [] start where
  done job allDone := by simp [finished] at allDone
  doing phase stands job held := by
    rw [fresh.crew] at stands
    rw [List.eq_of_mem_replicate stands] at held
    cases held

theorem Run.complete {workers capacity : Nat} (fits : Fits workers capacity)
    (fresh : Fresh workers capacity roots start) (run : Run scene start events state)
    (up : Standing state) (unrefused : ∀ job, Event.refused job ∉ events)
    (onlyIdle : ∀ reason, state.watch.reason? = some reason → reason = .idle) :
    Complete scene start events state := by
  induction run with
  | start => exact complete_start fresh
  | @step events state next action before executed ih =>
    have books := before.balanced fresh
    have step := execute_step executed
    have soFar (reason : StopReason) (decided : state.watch.reason? = some reason) :
        reason = .idle := onlyIdle reason (step.reason?_eq books decided)
    have unrefusedBefore : ∀ job, Event.refused job ∉ events := by
      intro job refused
      exact unrefused job (List.mem_append_left _ refused)
    have complete := ih (step.standing up) unrefusedBefore soFar
    cases closed : state.queue.closed with
    | false =>
      have unrefusedNow : ∀ job, state.event? action ≠ some (.refused job) := by
        intro job refused
        apply unrefused job
        exact List.mem_append_right _ (Option.mem_toList.mpr refused)
      exact step.complete up unrefusedNow books (before.sound fresh) closed complete
    | true =>
      -- The monitor closed the queue because it found nothing left to do, so nothing can happen to
      -- a job any more.
      obtain ⟨reason, decided⟩ := Option.ne_none_iff_exists'.mp (books.closing closed)
      have rest := before.idle_atRest fits fresh (soFar reason decided ▸ decided)
      obtain ⟨silent, rest⟩ := step.atRest rest
      rw [silent]
      constructor
      · intro job allDone entry lists
        rw [Option.toList_none, List.append_nil] at allDone ⊢
        exact (complete.done job allDone entry lists).mono (List.Subset.refl _) step.seen_subset
      · intro phase stands job held
        cases (rest.noneHeld phase stands).symm.trans held

theorem withinDepth_of_succ {depth limit : Nat} (within : withinDepth (depth + 1) limit = true) :
    withinDepth depth limit = true := by
  rw [withinDepth_iff] at within ⊢
  omega

-- Once everything accepted is finished, every directory that a root leads to within the limit of
-- depth was accepted. The induction goes down from the root: a directory that was accepted is
-- finished, so the push of the next one was made.
theorem Complete.accepted_of_below (complete : Complete scene start events state)
    (allDone : (finished events).Perm (accepted start events)) {root path : Path} {depth : Nat}
    (rootTaken : Job.ofRoot root ∈ accepted start events)
    (below : Below scene.files root depth path)
    (within : withinDepth depth scene.depthLimit = true) :
    (⟨path, depth⟩ : Job) ∈ accepted start events := by
  induction below with
  | root => exact rootTaken
  | @child depth path name _ lists descends ih =>
    have above := ih (withinDepth_of_succ within)
    exact (complete.done _ (allDone.mem_iff.mpr above) _ lists).pushed descends within

theorem Complete.found_of_target (complete : Complete scene start events state)
    (rest : state.AtRest) (kept : Kept state)
    (allDone : (finished events).Perm (accepted start events))
    (rootsTaken : ∀ root ∈ roots, Job.ofRoot root ∈ accepted start events) {path : Path}
    (target : Target scene roots path) :
    ∃ repository ∈ state.found, repository.path.key = path.key := by
  obtain ⟨root, listed, depth, within, below, marked⟩ := target
  have taken := complete.accepted_of_below allDone (rootsTaken root listed) below
    (withinDepth_iff.mpr within)
  have handled := complete.done _ (allDone.mem_iff.mpr taken) _ marked
  rcases kept _ (handled.claimed EntryClass.sentinel_meets) with found | ⟨phase, stands, claims⟩
  · exact found
  · have free := rest.noneHeld phase stands
    cases phase <;> simp [Phase.held?, Phase.Claims] at free claims

-- A scan that stops because nothing is left to do, with nobody taken down and no push refused,
-- reports exactly the directories that it is to find, each spelled as a root and the names of the
-- entries below it, with its own address and time of modification. This holds for every
-- interleaving of the workers, for every order in which directories list their entries, and
-- whatever takes the repositories meanwhile.
theorem scan_exact {roots : List Path} {workers capacity : Nat} (fits : Fits workers capacity)
    (run : Run scene (State.initial roots workers capacity) events state)
    (rootsTaken : (State.initial roots workers capacity).queue.jobs = roots.map Job.ofRoot)
    (unrefused : ∀ job, Event.refused job ∉ events) (idle : state.stopReason? = some .idle)
    (standing : state.hasFallen = false) :
    (∀ key, (∃ repository ∈ (state.outcome .idle).repositories, repository.path.key = key) ↔
      ∃ path, Target scene roots path ∧ path.key = key) ∧
    ∀ repository ∈ (state.outcome .idle).repositories,
      Target scene roots repository.path ∧ repository = repositoryAt scene repository.path := by
  have fresh := initial_fresh roots workers capacity
  have decided := State.reason?_of_stopReason? idle
  have reported (repository : Repository) :
      repository ∈ (state.outcome .idle).repositories ↔ repository ∈ state.found := by
    simp [State.outcome]
  have rest := run.idle_atRest fits fresh decided
  have books := run.balanced fresh
  have sound := run.sound fresh
  have onlyIdle : ∀ reason, state.watch.reason? = some reason → reason = .idle := by
    intro reason given
    exact Option.some.inj (given.symm.trans decided)
  have up := State.standing_of_stopped idle standing
  have complete := run.complete fits fresh up unrefused onlyIdle
  have allDone := books.finished_perm rest
  have taken (root : Path) (listed : root ∈ roots) :
      Job.ofRoot root ∈ accepted (State.initial roots workers capacity) events := by
    simp only [accepted, rootsTaken]
    exact List.mem_append_left _ (List.mem_map_of_mem listed)
  simp only [reported]
  refine ⟨?_, sound.found⟩
  intro key
  constructor
  · rintro ⟨repository, found, rfl⟩
    exact ⟨repository.path, (sound.found repository found).1, rfl⟩
  · rintro ⟨path, target, rfl⟩
    exact complete.found_of_target rest (run.kept fresh up) allDone taken target

theorem scan_exact_nested :
    (nestedCourse.runFor nestedScene .promptly 43).state.stopReason? = some .idle ∧
      ∃ path, Target nestedScene [Path.ofString "/w"] path ∧
        path.key = (Path.ofString "/w/p").key := by
  have idle : (nestedCourse.runFor nestedScene .promptly 43).state.stopReason? = some .idle := by
    rfl
  have unrefused (job : Job) :
      Event.refused job ∉ nestedCourse.eventsFor nestedScene .promptly 43 := by
    have events : nestedCourse.eventsFor nestedScene .promptly 43 =
      [.accepted ⟨Path.ofString "/w/p", 1⟩, .finished ⟨Path.ofString "/w", 0⟩,
        .finished ⟨Path.ofString "/w/p", 1⟩] := by rfl
    simp [events]
  have found := scan_exact (by decide) (nestedCourse.runFor_run .promptly 43) rfl unrefused idle
    (by rfl)
  have inner : ∃ repository ∈ (nestedCourse.runFor nestedScene .promptly 43).state.found,
      repository.path.key = (Path.ofString "/w/p").key := by
    decide +kernel
  refine ⟨idle, (found.1 _).mp ?_⟩
  simpa [State.outcome] using inner

end RepoFinder.Scan
