import Mathlib.Data.List.Perm.Subperm
import RepoFinder.Proofs.Scan.Schedules

namespace RepoFinder.Scan

open FileSystem

variable {scene : Scene} {roots : List Path} {workers capacity : Nat} {start state next : State}
  {opened : List Job} {events : List Event}

def Phase.opens? : Phase → Option Job
  | .opening job => some job
  | _ => none

def State.opens? (state : State) : Action → Option Job
  | .work worker _ => state.workers[worker]?.bind Phase.opens?
  | _ => none

-- A run of a scan, with the jobs whose directories were opened in it, the earliest first. Not each
-- of them could be read.
inductive Walked (scene : Scene) (start : State) : List Job → List Event → State → Prop where
  | start : Walked scene start [] [] start
  | step {opened : List Job} {events : List Event} {state next : State} (action : Action)
      (before : Walked scene start opened events state)
      (executed : execute scene state action = some next) :
      Walked scene start (opened ++ (state.opens? action).toList)
        (events ++ (state.event? action).toList) next

theorem Walked.run (walked : Walked scene start opened events state) :
    Run scene start events state := by
  induction walked with
  | start => exact .start
  | step action _ executed ih => exact ih.step action executed

theorem Run.walked (run : Run scene start events state) :
    ∃ opened, Walked scene start opened events state := by
  induction run with
  | start => exact ⟨[], .start⟩
  | step action _ executed ih =>
    obtain ⟨opened, walked⟩ := ih
    exact ⟨_, walked.step action executed⟩

def Scene.canRead (scene : Scene) (path : Path) : Bool := (scene.files.readDirectory path).isOk

def isSubdirectory (entry : Entry) : Bool :=
  entry.2 = .directory ∧ entry.1 ≠ EntryClass.sentinelBytes

def subdirectories (scene : Scene) (path : Path) : Nat :=
  match scene.files.readDirectory path with
  | .ok entries => entries.countP isSubdirectory
  | .error _ => 0

def State.spent (scene : Scene) (jobs : List Job) (state : State) : Nat :=
  state.scanned + state.skipped + jobs.countP fun job => !scene.canRead job.path

def given (scene : Scene) (roots : List Path) (opened : List Job) : Nat :=
  roots.length + (opened.map fun job => subdirectories scene job.path).sum

def Tally.each : Tally := ⟨0, 1, fun _ => 1⟩

namespace Tally

theorem each_jobs (jobs : List Job) : each.jobs jobs = jobs.length := by
  induction jobs with
  | nil => rfl
  | cons job rest ih =>
    rw [jobs_cons, ih, List.length_cons, Nat.add_comm]
    rfl

theorem each_entry (job : Job) (entry : Entry) :
    each.entry scene job entry = if isSubdirectory entry then 1 else 0 := by
  obtain ⟨name, kind⟩ := entry
  cases kind with
  | directory =>
    by_cases same : name = EntryClass.sentinelBytes
    · subst same
      simp [entry, EntryClass.sentinel_meets, isSubdirectory]
    · have shown : name.display ≠ EntryClass.sentinelName :=
        fun shown => same (EntryClass.eq_sentinelBytes shown)
      have counts : isSubdirectory (name, .directory) = true := by simp [isSubdirectory, same]
      rw [if_pos counts]
      simp only [entry, EntryClass.ofEntry, shown, if_false, each]
      by_cases noise : EntryClass.isNoise name.display = true
      · simp [noise, EntryClass.countsAsSkipped]
      by_cases hidden : name.display.toList.head? = some '.'
      · simp [noise, hidden, EntryClass.countsAsSkipped]
      · simp [noise, hidden]
  | link => simp [entry, EntryClass.ofEntry, EntryClass.countsAsSkipped, isSubdirectory]
  | other => simp [entry, EntryClass.ofEntry, EntryClass.countsAsSkipped, isSubdirectory]

theorem each_directory (job : Job) :
    each.directory scene job = subdirectories scene job.path := by
  have counted (entries : List Entry) :
      each.entries scene job entries = entries.countP isSubdirectory := by
    induction entries with
    | nil => rfl
    | cons entry rest ih =>
      rw [entries_cons, ih, each_entry, List.countP_cons, Nat.add_comm]
  unfold directory subdirectories
  cases scene.files.readDirectory job.path with
  | ok entries => exact (Nat.zero_add _).trans (counted entries)
  | error failure => rfl

end Tally

-- A turn pays for no more than it handles, even where it breaks off or is taken down.
theorem Turn.paid_le {tally : Tally} {phase after : Phase}
    (turn : Turn scene state phase next after)
    (within : ∀ job, phase.held? = some job → withinDepth job.depth scene.depthLimit = true)
    (generous : ∀ job, tally.skipped ≤ tally.accepted job) :
    tally.counters next + tally.jobs ((phase.event? state.queue).toList.filterMap Event.accepted?) +
        after.ahead tally scene ≤
      tally.counters state + phase.ahead tally scene +
        tally.directories scene phase.opens?.toList := by
  cases turn with
  | tooDeep beyond => cases (within _ rfl).symm.trans beyond
  | unreadable failed => simp [Phase.opens?, Phase.event?, Tally.directory, failed]
  | @read job actual entries _ listed listing =>
    have same := tally.entries_perm scene job (isListing_perm listing)
    simp [Phase.opens?, Phase.event?, Tally.directory, Tally.counters, listed, same, Nat.mul_add]
    omega
  | meetSentinel meets | meetBelow meets within =>
    simp_all [Phase.opens?, Phase.event?, Tally.entry]
  | meetTooDeep meets beyond =>
    simp_all [Phase.opens?, Phase.event?, Tally.entry, Tally.counters, State.skip, Nat.mul_add]
    omega
  | @passBy job entry rest noSentinel noDescent =>
    have worth := tally.entry_passedBy scene job noSentinel noDescent
    simp [Phase.opens?, Phase.event?, Tally.counters, worth, Nat.mul_add]
    omega
  | @refuseClosed job child rest closed =>
    have enough := generous child
    simp [Phase.opens?, Phase.event?, closed, Event.accepted?, List.filterMap_cons, Tally.counters,
      State.skip, Nat.mul_add]
    omega
  | offer free => simp [Phase.opens?, Phase.event?, free]
  | send room =>
    simp [Phase.opens?, Phase.event?, room, Event.accepted?, Tally.counters]
    omega
  | @refuseFull job child rest full =>
    have enough := generous child
    simp [Phase.opens?, Phase.event?, full, Event.accepted?, List.filterMap_cons]
    omega
  | retract =>
    simp [Phase.opens?, Phase.event?, Tally.counters, State.skip, Nat.mul_add]
    omega
  | _ => simp [Phase.opens?, Phase.event?, Tally.counters, Event.accepted?, List.filterMap_cons]

theorem Turn.scanned {phase after : Phase} (turn : Turn scene state phase next after)
    (within : ∀ job, phase.held? = some job → withinDepth job.depth scene.depthLimit = true) :
    next.scanned =
      state.scanned + phase.opens?.toList.countP fun job => scene.canRead job.path := by
  cases turn with
  | tooDeep beyond => cases (within _ rfl).symm.trans beyond
  | unreadable failed => simp [Phase.opens?, Scene.canRead, failed, Except.isOk, Except.toBool]
  | read _ listed => simp [Phase.opens?, Scene.canRead, listed, Except.isOk, Except.toBool]
  | _ => rfl

def Phase.hasOpened (job : Job) (phase : Phase) : Bool := phase.opened? = some job

theorem Phase.held?_of_opened {phase : Phase} {job : Job} (opened : phase.opened? = some job) :
    phase.held? = some job := by
  cases phase with
  | opening => cases opened
  | _ => exact opened

theorem Turn.hasOpened {worker : Nat} {phase after : Phase} (job : Job)
    (stands : state.workers[worker]? = some phase) (turn : Turn scene state phase next after) :
    phase.opens?.toList.count job + state.workers.countP (Phase.hasOpened job) =
      ((phase.event? state.queue).toList.filterMap Event.finished?).count job +
        (next.workers.set worker after).countP (Phase.hasOpened job) := by
  have held := countP_set_add stands after (Phase.hasOpened job)
  rw [turn.workers]
  cases turn <;>
    simp_all [Phase.hasOpened, Phase.held?, Phase.opens?, Phase.event?, Event.finished?,
      List.filterMap_cons, List.count_cons] <;> omega

-- What the opened directories, the counters and the jobs of a run have to do with each other. This
-- holds at every step, whatever interrupts the scan.
structure Accounts (scene : Scene) (start : State) (opened : List Job) (events : List Event)
    (state : State) : Prop where
  scanned : state.scanned = start.scanned + opened.countP fun job => scene.canRead job.path
  finished : ∀ job, opened.count job =
    (finished events).count job + state.workers.countP (Phase.hasOpened job)
  paid : Tally.each.counters state + Tally.each.jobs (accepted start events) +
      (state.workers.map (Phase.ahead .each scene)).sum ≤
    Tally.each.counters start + Tally.each.jobs start.queue.jobs +
      Tally.each.directories scene opened

theorem accounts_start (fresh : Fresh workers capacity roots start) :
    Accounts scene start [] [] start where
  scanned := rfl
  finished job := by
    simp [Scan.finished, fresh.crew, List.countP_replicate, Phase.hasOpened, Phase.held?]
  paid := by simp [accepted, fresh.crew]

theorem Turn.accounts {worker : Nat} {phase after : Phase}
    (accounts : Accounts scene start opened events state)
    (stands : state.workers[worker]? = some phase) (turn : Turn scene state phase next after)
    (within : ∀ job, phase.held? = some job → withinDepth job.depth scene.depthLimit = true) :
    Accounts scene start (opened ++ phase.opens?.toList)
      (events ++ (phase.event? state.queue).toList)
      { next with workers := next.workers.set worker after } where
  scanned := by
    rw [List.countP_append, ← Nat.add_assoc, ← accounts.scanned]
    exact turn.scanned within
  finished job := by
    have before := accounts.finished job
    have change := turn.hasOpened job stands
    simp only [Scan.finished, List.filterMap_append, List.count_append] at before ⊢
    omega
  paid := by
    have before := accounts.paid
    have generous (job : Job) : Tally.each.skipped ≤ Tally.each.accepted job := Nat.le_refl 1
    have change := turn.paid_le within generous
    have ahead := sum_map_set stands after (Phase.ahead .each scene)
    have same : Tally.each.counters { next with workers := next.workers.set worker after } =
      Tally.each.counters next := rfl
    simp only [accepted, List.filterMap_append, ← List.append_assoc, turn.workers,
      Tally.jobs_append, Tally.directories_append] at before ⊢
    rw [turn.workers] at same
    omega

theorem Walked.accounts (walked : Walked scene (State.initial roots workers capacity) opened events
    state) : Accounts scene (State.initial roots workers capacity) opened events state := by
  have fresh := initial_fresh roots workers capacity
  induction walked with
  | start => exact accounts_start fresh
  | @step opened events state next action before executed accounts =>
    cases action with
    | work worker move =>
      obtain ⟨phase, moved, after, stands, advanced, rfl⟩ := execute_work executed
      simp only [State.opens?, State.event?, stands, Option.bind_some]
      apply (advance_turn advanced).accounts accounts stands
      intro job held
      have taken := (before.run.balanced fresh).mem_accepted (List.mem_of_getElem? stands) held
      exact ((before.run.sound fresh).due job taken).1
    | watch =>
      simp only [State.opens?, State.event?, Option.toList_none, List.append_nil]
      cases watchStep_look executed <;> exact { accounts with }
    | cancel | expire | leave =>
      simp only [State.opens?, State.event?, Option.toList_none, List.append_nil]
      cases executed
      exact { accounts with }
    | ask =>
      simp only [State.opens?, State.event?, Option.toList_none, List.append_nil]
      obtain ⟨reader, _, rfl⟩ := Option.map_eq_some_iff.mp executed
      exact { accounts with }

theorem Walked.opened_subperm
    (walked : Walked scene (State.initial roots workers capacity) opened events state) :
    List.Subperm opened (accepted (State.initial roots workers capacity) events) := by
  apply List.subperm_iff_count.mpr
  intro job
  have ledger := (walked.run.balanced (initial_fresh roots workers capacity)).ledger job
  have held : state.workers.countP (Phase.hasOpened job) ≤ state.holdersOf job := by
    apply List.countP_mono_left
    intro phase _ opened
    exact decide_eq_true (Phase.held?_of_opened (of_decide_eq_true opened))
  rw [walked.accounts.finished job]
  omega

theorem Tally.each_directories (jobs : List Job) :
    each.directories scene jobs = (jobs.map fun job => subdirectories scene job.path).sum := by
  exact congrArg List.sum (List.map_congr_left fun job _ => each_directory job)

theorem Tally.each_counters (state : State) : each.counters state = state.skipped := by
  simp [counters, each]

theorem canRead_add (scene : Scene) (jobs : List Job) :
    jobs.countP (fun job => scene.canRead job.path) +
      jobs.countP (fun job => !scene.canRead job.path) = jobs.length := by
  rw [List.length_eq_countP_add_countP fun job : Job => scene.canRead job.path]
  simp

-- However far a scan has come, it has spent no more than it was given.
theorem Walked.spent_le
    (walked : Walked scene (State.initial roots workers capacity) opened events state) :
    state.spent scene (accepted (State.initial roots workers capacity) events) ≤
      given scene roots opened := by
  obtain ⟨unscanned, atStart⟩ := initial_counters roots workers capacity
  have accounts := walked.accounts
  have paid := accounts.paid
  have scanned := accounts.scanned
  have fewer := walked.opened_subperm.countP_le fun job : Job => scene.canRead job.path
  have both := canRead_add scene (accepted (State.initial roots workers capacity) events)
  rw [Tally.each_counters, Tally.each_counters, Tally.each_jobs, Tally.each_jobs,
    Tally.each_directories] at paid
  unfold State.spent given
  omega

section Idle

variable (fits : Fits workers capacity)
  (walked : Walked scene (State.initial roots workers capacity) opened events state)
  (idle : state.stopReason? = some .idle)

include fits walked idle

theorem Walked.opened_perm :
    opened.Perm (accepted (State.initial roots workers capacity) events) := by
  have fresh := initial_fresh roots workers capacity
  have rest := walked.run.idle_atRest fits fresh (State.reason?_of_stopReason? idle)
  refine .trans ?_ ((walked.run.balanced fresh).finished_perm rest)
  apply List.perm_iff_count.mpr
  intro job
  have none : state.workers.countP (Phase.hasOpened job) = 0 := by
    apply List.countP_eq_zero.mpr
    intro phase stands opened
    have held := Phase.held?_of_opened (of_decide_eq_true opened)
    cases (rest.noneHeld phase stands).symm.trans held
  rw [walked.accounts.finished job, none, Nat.add_zero]

theorem Walked.spent_eq (standing : state.hasFallen = false) :
    state.spent scene (accepted (State.initial roots workers capacity) events) =
      given scene roots opened := by
  obtain ⟨unscanned, atStart⟩ := initial_counters roots workers capacity
  have settled := walked.run.settled_idle .each fits idle standing fun _ _ => rfl
  have scanned := walked.accounts.scanned
  have perm := walked.opened_perm fits idle
  have both := canRead_add scene (accepted (State.initial roots workers capacity) events)
  rw [perm.countP_eq] at scanned
  rw [Tally.each_counters, Tally.each_counters, Tally.each_jobs, Tally.each_jobs,
    Tally.each_directories] at settled
  have same := (perm.map fun job => subdirectories scene job.path).sum_nat
  unfold State.spent given
  omega

end Idle

def Reachable (scene : Scene) (root path : Path) : Prop :=
  ∃ depth, (scene.depthLimit = 0 ∨ depth ≤ scene.depthLimit) ∧
    Below scene.files root depth path ∧ scene.canRead path = true

def places (scene : Scene) (roots : List Path) (deep : Nat) : List (Nat × Path) :=
  roots.zipIdx.flatMap fun place =>
    (((Job.ofRoot place.1).reach scene deep).filter fun job => scene.canRead job.path).map
      fun job => (place.2, job.path)

theorem places_nodup (tidy : scene.files.root.isTidy = true) (deep : Nat) :
    (places scene roots deep).Nodup := by
  refine List.nodup_flatMap.mpr ⟨?_, ?_⟩
  · rintro ⟨root, index⟩ _
    have kept : (((Job.ofRoot root).reach scene deep).filter fun job =>
        scene.canRead job.path).Sublist ((Job.ofRoot root).reach scene deep) := List.filter_sublist
    have apart := (Job.reach_nodup tidy root deep).sublist (kept.map Job.path)
    have numbered : Function.Injective (Prod.mk index : Path → Nat × Path) :=
      fun _ _ same => congrArg Prod.snd same
    have indexed := apart.map numbered
    rwa [List.map_map] at indexed
  · have positions : (roots.zipIdx.map Prod.snd).Nodup := by
      rw [List.zipIdx_map_snd]
      exact List.nodup_range'
    refine (List.pairwise_map.mp positions).imp ?_
    rintro ⟨root, index⟩ ⟨root', index'⟩ differ place early late
    obtain ⟨_, _, rfl⟩ := List.mem_map.mp early
    obtain ⟨_, _, same⟩ := List.mem_map.mp late
    exact differ (congrArg Prod.fst same).symm

theorem mem_places {deep index : Nat} {path : Path} :
    (index, path) ∈ places scene roots deep ↔ ∃ root, roots[index]? = some root ∧
      ∃ depth < deep, withinDepth depth scene.depthLimit = true ∧
        Below scene.files root depth path ∧ scene.canRead path = true := by
  unfold places
  constructor
  · intro present
    obtain ⟨⟨root, position⟩, listed, among⟩ := List.mem_flatMap.mp present
    obtain ⟨job, reached, same⟩ := List.mem_map.mp among
    obtain ⟨reached, readable⟩ := List.mem_filter.mp reached
    obtain ⟨less, within, below⟩ := Job.mem_reach.mp reached
    cases same
    exact ⟨root, List.mem_zipIdx_iff_getElem?.mp listed, job.depth, less, within, below, readable⟩
  · rintro ⟨root, listed, depth, less, within, below, readable⟩
    refine List.mem_flatMap.mpr ⟨(root, index), List.mem_zipIdx_iff_getElem?.mpr listed, ?_⟩
    refine List.mem_map.mpr ⟨⟨path, depth⟩, List.mem_filter.mpr ⟨?_, readable⟩, rfl⟩
    exact Job.mem_reach.mpr ⟨less, within, below⟩

theorem length_places (deep : Nat) :
    (places scene roots deep).length =
      ((roots.map Job.ofRoot).flatMap (Job.reach scene · deep)).countP
        fun job => scene.canRead job.path := by
  have unnumbered := congrArg (List.map fun root =>
    ((Job.ofRoot root).reach scene deep).countP fun job => scene.canRead job.path)
      (List.zipIdx_map_fst 0 roots)
  rw [List.map_map] at unnumbered
  rw [places, List.length_flatMap, List.countP_flatMap, List.map_map]
  simp only [List.length_map, ← List.countP_eq_length_filter]
  exact congrArg List.sum unnumbered

theorem Exhaustive.scanned_places (full : Exhaustive scene roots workers capacity events state)
    (tidy : scene.files.root.isTidy = true) :
    ∃ places : List (Nat × Path), places.Nodup ∧
      (∀ index path, (index, path) ∈ places ↔
        ∃ root, roots[index]? = some root ∧ Reachable scene root path) ∧
      state.scanned = places.length := by
  obtain ⟨deep, bound, reached⟩ := full.accepted_reach
  refine ⟨places scene roots deep, places_nodup tidy deep, ?_, ?_⟩
  · intro index path
    rw [mem_places]
    constructor
    · rintro ⟨root, listed, depth, _, within, below, readable⟩
      exact ⟨root, listed, depth, withinDepth_iff.mp within, below, readable⟩
    · rintro ⟨root, listed, depth, within, below, readable⟩
      have within := withinDepth_iff.mpr within
      have taken := full.complete.accepted_of_below full.finished_perm
        (full.root_accepted (List.mem_of_getElem? listed)) below within
      exact ⟨root, listed, depth, bound _ taken, within, below, readable⟩
  · obtain ⟨opened, walked⟩ := full.run.walked
    have scanned := walked.accounts.scanned
    rw [(initial_counters roots workers capacity).1, Nat.zero_add,
      (walked.opened_perm full.fits full.idle).countP_eq, reached.countP_eq] at scanned
    rw [scanned, length_places]

-- Whatever interrupts a scan and whatever pushes are refused in it, no directory that is accepted
-- lies beyond the limit of depth, and what is read, passed by or unreadable is no more than the
-- roots and the real directories, sentinels apart, in all that was read. A scan that ends because
-- nothing is left to do has accounted for each of these, once. And if it had room for all of them,
-- it has read each directory once for each root from which it was to come upon it.
theorem directories_accounted
    (walked : Walked scene (State.initial roots workers capacity) opened events state) :
    (∀ job ∈ accepted (State.initial roots workers capacity) events,
      withinDepth job.depth scene.depthLimit = true) ∧
    state.scanned = opened.countP (fun job => scene.canRead job.path) ∧
    state.spent scene (accepted (State.initial roots workers capacity) events) ≤
      given scene roots opened ∧
    (Fits workers capacity → state.stopReason? = some .idle → state.hasFallen = false →
      state.spent scene (accepted (State.initial roots workers capacity) events) =
        given scene roots opened ∧
      ((State.initial roots workers capacity).queue.jobs = roots.map Job.ofRoot →
        (∀ job, Event.refused job ∉ events) → scene.files.root.isTidy = true →
          ∃ places : List (Nat × Path), places.Nodup ∧
            (∀ index path, (index, path) ∈ places ↔
              ∃ root, roots[index]? = some root ∧ Reachable scene root path) ∧
            state.scanned = places.length)) := by
  have scanned := walked.accounts.scanned
  rw [(initial_counters roots workers capacity).1, Nat.zero_add] at scanned
  have sound := walked.run.sound (initial_fresh roots workers capacity)
  refine ⟨fun job taken => (sound.due job taken).1, scanned, walked.spent_le, ?_⟩
  intro fits idle standing
  refine ⟨walked.spent_eq fits idle standing, ?_⟩
  intro rootsTaken unrefused tidy
  have full : Exhaustive scene roots workers capacity events state :=
    ⟨fits, walked.run, rootsTaken, unrefused, idle, standing⟩
  exact full.scanned_places tidy

theorem crowdedScene_tidy : crowdedScene.files.root.isTidy = true := by decide +kernel

theorem narrowCourse_facts :
    ((crowdedCourse 1).runFor crowdedScene .promptly 130).state.stopReason? = some .idle ∧
      ((crowdedCourse 1).runFor crowdedScene .promptly 130).state.hasFallen = false ∧
      ((crowdedCourse 1).eventsFor crowdedScene .promptly 130).any Event.isRefused = true := by
  decide +kernel

theorem directories_accounted_crowded :
    (∃ places : List (Nat × Path), places.Nodup ∧
      (∀ index path, (index, path) ∈ places ↔ ∃ root,
        (["/w/p", "/w"].map Path.ofString)[index]? = some root ∧
          Reachable crowdedScene root path) ∧
      places.length = 4) ∧
    ((crowdedCourse 1).eventsFor crowdedScene .promptly 130).any Event.isRefused = true ∧
      ∃ opened,
        ((crowdedCourse 1).runFor crowdedScene .promptly 130).state.spent crowdedScene
            (accepted (State.initial [Path.ofString "/w"] 1 1)
              ((crowdedCourse 1).eventsFor crowdedScene .promptly 130)) =
          given crowdedScene [Path.ofString "/w"] opened := by
  obtain ⟨idle, standing, refused⟩ := narrowCourse_facts
  obtain ⟨opened, walked⟩ := overlappingCourse_crew.run.walked
  have narrow : Run crowdedScene (State.initial [Path.ofString "/w"] 1 1) _ _ :=
    (crowdedCourse 1).runFor_run .promptly 130
  obtain ⟨taken, narrowly⟩ := narrow.walked
  obtain ⟨_, _, _, whole⟩ := directories_accounted walked
  obtain ⟨_, _, _, accounted⟩ := directories_accounted narrowly
  obtain ⟨places, apart, among, scanned⟩ :=
    (whole overlappingCourse_crew.fits overlappingCourse_crew.idle
      overlappingCourse_crew.standing).2 overlappingCourse_crew.rootsTaken
        overlappingCourse_crew.unrefused crowdedScene_tidy
  have four : ((overlappingCourse ["/w/p", "/w"] 3).runFor crowdedScene .promptly
      130).state.scanned = 4 := by
    decide +kernel
  exact ⟨⟨places, apart, among, scanned.symm.trans four⟩, refused, taken,
    (accounted (by decide) idle standing).1⟩

end RepoFinder.Scan
