import Mathlib.Algebra.GroupWithZero.Nat
import RepoFinder.Proofs.Scan.Exhaustion

namespace RepoFinder.Scan

open FileSystem

variable {scene : Scene} {roots : List Path} {workers capacity : Nat} {start state next : State}
  {events : List Event}

-- What is counted for each directory that is read, for each that is passed by, and for each job
-- that is accepted.
structure Tally where
  read : Nat
  skipped : Nat
  accepted : Job → Nat

namespace Tally

def entry (tally : Tally) (scene : Scene) (job : Job) (entry : Entry) : Nat :=
  match EntryClass.ofEntry entry.1.display entry.2 with
  | .sentinel => 0
  | .descend =>
    if withinDepth (job.depth + 1) scene.depthLimit then
      tally.accepted (job.child (job.path.child entry.1))
    else tally.skipped
  | entryClass => tally.skipped * entryClass.countsAsSkipped.toNat

def entries (tally : Tally) (scene : Scene) (job : Job) (rest : List Entry) : Nat :=
  (rest.map (tally.entry scene job)).sum

def directory (tally : Tally) (scene : Scene) (job : Job) : Nat :=
  match scene.files.readDirectory job.path with
  | .ok actual => tally.read + tally.entries scene job actual
  | .error _ => 0

def counters (tally : Tally) (state : State) : Nat :=
  tally.read * state.scanned + tally.skipped * state.skipped

def jobs (tally : Tally) (jobs : List Job) : Nat := (jobs.map tally.accepted).sum

def directories (tally : Tally) (scene : Scene) (jobs : List Job) : Nat :=
  (jobs.map (tally.directory scene)).sum

@[simp]
theorem jobs_nil (tally : Tally) : tally.jobs [] = 0 := rfl

@[simp]
theorem jobs_cons (tally : Tally) (job : Job) (rest : List Job) :
    tally.jobs (job :: rest) = tally.accepted job + tally.jobs rest := by
  simp [jobs]

@[simp]
theorem directories_nil (tally : Tally) (scene : Scene) : tally.directories scene [] = 0 := rfl

@[simp]
theorem directories_cons (tally : Tally) (scene : Scene) (job : Job) (rest : List Job) :
    tally.directories scene (job :: rest) =
      tally.directory scene job + tally.directories scene rest := by
  simp [directories]

@[simp]
theorem entries_nil (tally : Tally) (scene : Scene) (job : Job) :
    tally.entries scene job [] = 0 := rfl

@[simp]
theorem entries_cons (tally : Tally) (scene : Scene) (job : Job) (entry : Entry)
    (rest : List Entry) :
    tally.entries scene job (entry :: rest) =
      tally.entry scene job entry + tally.entries scene job rest := by
  simp [entries]

theorem entry_passedBy (tally : Tally) (scene : Scene) (job : Job) {entry : Entry}
    (noSentinel : EntryClass.ofEntry entry.1.display entry.2 ≠ .sentinel)
    (noDescent : EntryClass.ofEntry entry.1.display entry.2 ≠ .descend) :
    tally.entry scene job entry =
      tally.skipped * (EntryClass.ofEntry entry.1.display entry.2).countsAsSkipped.toNat := by
  unfold Tally.entry
  split
  · rename_i meets
    exact absurd meets noSentinel
  · rename_i descends
    exact absurd descends noDescent
  · rfl

theorem entries_perm (tally : Tally) (scene : Scene) (job : Job) {entries actual : List Entry}
    (perm : entries.Perm actual) : tally.entries scene job entries = tally.entries scene job actual :=
  (perm.map _).sum_nat

end Tally

@[simp]
def Phase.ahead (tally : Tally) (scene : Scene) : Phase → Nat
  | .reading job rest => tally.entries scene job rest
  | .meeting job entry rest => tally.entries scene job (entry :: rest)
  | .offering job child rest => tally.accepted child + tally.entries scene job rest
  | .counting job child rest => tally.accepted child + tally.entries scene job rest
  | .sending job child rest => tally.accepted child + tally.entries scene job rest
  | .retracting job rest => tally.skipped + tally.entries scene job rest
  | .claiming job rest => tally.entries scene job rest
  | .asking job rest => tally.entries scene job rest
  | .stamping job _ rest => tally.entries scene job rest
  | .delivering job _ rest => tally.entries scene job rest
  | .storing job _ rest => tally.entries scene job rest
  | _ => 0

@[simp]
def Phase.opened? : Phase → Option Job
  | .opening _ => none
  | phase => phase.held?

@[simp]
def Phase.taken (tally : Tally) (scene : Scene) (phase : Phase) : Nat :=
  tally.directories scene phase.opened?.toList

-- The count so far, with what lies ahead of the workers, is what the start and the directories that
-- were opened come to.
def Settled (tally : Tally) (scene : Scene) (start : State) (events : List Event)
    (state : State) : Prop :=
  tally.counters state + tally.jobs (accepted start events) +
      (state.workers.map (Phase.ahead tally scene)).sum =
    tally.counters start + tally.jobs start.queue.jobs +
      tally.directories scene (finished events) +
        (state.workers.map (Phase.taken tally scene)).sum

theorem sum_map_set {α : Type} {items : List α} {index : Nat} {item : α}
    (stands : items[index]? = some item) (after : α) (f : α → Nat) :
    ((items.set index after).map f).sum + f item = (items.map f).sum + f after := by
  induction items generalizing index with
  | nil => simp at stands
  | cons first rest ih =>
    cases index with
    | zero =>
      obtain rfl : first = item := by simpa using stands
      simp only [List.set_cons_zero, List.map_cons, List.sum_cons]
      omega
    | succ index =>
      have rest := ih (by simpa using stands)
      simp only [List.set_cons_succ, List.map_cons, List.sum_cons]
      omega

theorem isListing_perm {entries actual : List Entry} (listing : isListing entries actual = true) :
    entries.Perm actual := by
  rcases Bool.or_eq_true_iff.mp listing with same | perm
  · rw [eq_of_beq same]
  · exact List.isPerm_iff.mp perm

-- A turn pays for what it handles. The exceptions are a worker that breaks off because the queue was
-- closed and one that is taken down, and a refused push where that counts for something else.
theorem Turn.settled {tally : Tally} {phase after : Phase}
    (turn : Turn scene state phase next after)
    (within : ∀ job, phase.held? = some job → withinDepth job.depth scene.depthLimit = true)
    (isOpen : phase.held?.isSome = true → state.queue.closed = false)
    (up : after.isDown = false)
    (refused : ∀ job, phase.event? state.queue = some (.refused job) →
      tally.accepted job = tally.skipped) :
    tally.counters next + tally.jobs ((phase.event? state.queue).toList.filterMap Event.accepted?) +
        after.ahead tally scene + phase.taken tally scene =
      tally.counters state + phase.ahead tally scene +
        tally.directories scene ((phase.event? state.queue).toList.filterMap Event.finished?) +
          after.taken tally scene := by
  cases turn with
  | tooDeep beyond => cases (within _ rfl).symm.trans beyond
  | breakOff closed => cases (isOpen rfl).symm.trans closed
  | crash | misdate => cases up
  | unreadable failed =>
    simp [Phase.event?, Phase.held?, Tally.directory,
      failed]
  | @read job actual entries _ listed listing =>
    have same := tally.entries_perm scene job (isListing_perm listing)
    simp [Phase.event?, Phase.held?, Tally.directory,
      Tally.counters, listed, same, Nat.mul_add]
    omega
  | meetSentinel meets | meetBelow meets within =>
    simp_all [Phase.event?, Phase.held?, Tally.entry]
  | meetTooDeep meets beyond =>
    simp_all [Phase.event?, Phase.held?, Tally.entry,
      Tally.counters, State.skip, Nat.mul_add]
    omega
  | @passBy job entry rest noSentinel noDescent =>
    have worth := tally.entry_passedBy scene job noSentinel noDescent
    simp [Phase.event?, Phase.held?, Tally.counters,
      worth, Nat.mul_add]
    omega
  | refuseClosed closed => cases (isOpen rfl).symm.trans closed
  | offer free => simp [Phase.event?, Phase.held?, free]
  | send room =>
    simp [Phase.event?, Phase.held?, Event.accepted?, Event.finished?,
      List.filterMap_cons, Tally.counters, room]
    omega
  | @refuseFull job child rest full =>
    have same := refused child (by simp [Phase.event?, full])
    simp [Phase.event?, Phase.held?, Event.accepted?, Event.finished?,
      List.filterMap_cons, full, same]
  | retract =>
    simp [Phase.event?, Phase.held?, Tally.counters,
      State.skip, Nat.mul_add]
    omega
  | _ =>
    simp [Phase.event?, Phase.held?, Tally.counters,
      Event.finished?, Event.accepted?, List.filterMap_cons]

theorem Tally.jobs_append (tally : Tally) (some more : List Job) :
    tally.jobs (some ++ more) = tally.jobs some + tally.jobs more := by
  simp [Tally.jobs]

theorem Tally.directories_append (tally : Tally) (some more : List Job) :
    tally.directories scene (some ++ more) =
      tally.directories scene some + tally.directories scene more := by
  simp [Tally.directories]

theorem Step.settled {tally : Tally} {event : Option Event}
    (books : Balanced start events state) (sound : Sound scene roots start events state)
    (isOpen : ∀ phase ∈ state.workers, phase.held?.isSome = true → state.queue.closed = false)
    (standing : Standing next)
    (refused : ∀ job, event = some (.refused job) → tally.accepted job = tally.skipped)
    (settled : Settled tally scene start events state) (step : Step scene state event next) :
    Settled tally scene start (events ++ event.toList) next := by
  cases step with
  | look look => cases look <;> simpa [Settled, Tally.counters] using settled
  | outside => simpa [Settled, Tally.counters] using settled
  | @work worker phase after next stands turn =>
    have present := List.mem_of_getElem? stands
    have here := stands
    rw [← turn.workers] at here
    have up := standing after (mem_set_self here after)
    have within (job : Job) (held : phase.held? = some job) :
        withinDepth job.depth scene.depthLimit = true :=
      (sound.due job (books.mem_accepted present held)).1
    have paid := turn.settled within (isOpen phase present) up refused
    have ahead := sum_map_set stands after (Phase.ahead tally scene)
    have taken := sum_map_set stands after (Phase.taken tally scene)
    unfold Settled at settled ⊢
    simp only [accepted, finished, List.filterMap_append, ← List.append_assoc, turn.workers,
      Tally.jobs_append, Tally.directories_append] at settled ⊢
    have same : tally.counters { next with workers := state.workers.set worker after } =
      tally.counters next := rfl
    omega

theorem settled_start {tally : Tally} (fresh : Fresh workers capacity roots start) :
    Settled tally scene start [] start := by
  simp [Settled, fresh.crew, accepted, finished, Phase.held?]

theorem Run.settled {tally : Tally} (fits : Fits workers capacity)
    (fresh : Fresh workers capacity roots start) (run : Run scene start events state)
    (standing : Standing state)
    (onlyIdle : ∀ reason, state.watch.reason? = some reason → reason = .idle)
    (refused : ∀ job, Event.refused job ∈ events → tally.accepted job = tally.skipped) :
    Settled tally scene start events state := by
  induction run with
  | start => exact settled_start fresh
  | @step events state next action before executed ih =>
    have books := before.balanced fresh
    have step := execute_step executed
    have soFar (reason : StopReason) (decided : state.watch.reason? = some reason) :
        reason = .idle := onlyIdle reason (step.reason?_eq books decided)
    have settled := ih (step.standing standing) soFar fun job among =>
      refused job (List.mem_append_left _ among)
    -- A queue that was closed was closed at rest, when no worker held a job any more.
    have isOpen (phase : Phase) (present : phase ∈ state.workers)
        (holds : phase.held?.isSome = true) : state.queue.closed = false := by
      by_contra closed
      obtain ⟨reason, decided⟩ :=
        Option.ne_none_iff_exists'.mp (books.closing (by simpa using closed))
      have rest := before.idle_atRest fits fresh (soFar reason decided ▸ decided)
      simp [rest.noneHeld phase present] at holds
    exact step.settled books (before.sound fresh) isOpen standing
      (fun job now => refused job (List.mem_append_right _ (Option.mem_toList.mpr now))) settled

theorem initial_counters (roots : List Path) (workers capacity : Nat) :
    (State.initial roots workers capacity).scanned = 0 ∧
      (State.initial roots workers capacity).skipped +
        (State.initial roots workers capacity).queue.jobs.length = roots.length := by
  have pushed (roots : List Path) (state : State) :
      (roots.foldl State.pushRoot state).scanned = state.scanned ∧
        (roots.foldl State.pushRoot state).skipped +
          (roots.foldl State.pushRoot state).queue.jobs.length =
            state.skipped + state.queue.jobs.length + roots.length := by
    induction roots generalizing state with
    | nil => exact ⟨rfl, rfl⟩
    | cons root rest ih =>
      have here : (state.pushRoot root).scanned = state.scanned ∧
          (state.pushRoot root).skipped + (state.pushRoot root).queue.jobs.length =
            state.skipped + state.queue.jobs.length + 1 := by
        unfold State.pushRoot
        cases closed : state.queue.closed with
        | true => simp [Queue.push_of_closed closed, State.skip]; omega
        | false =>
          cases room : state.queue.hasRoom with
          | true => simp [Queue.push_of_room closed room]; omega
          | false => simp [Queue.push_of_full room, State.skip]; omega
      obtain ⟨scanned, counted⟩ := ih (state.pushRoot root)
      simp only [List.foldl_cons, List.length_cons]
      exact ⟨scanned.trans here.1, by omega⟩
  refine ⟨(pushed roots _).1, (pushed roots _).2.trans ?_⟩
  simp [Queue.ofCapacity]

theorem Run.settled_idle (tally : Tally) (fits : Fits workers capacity)
    (run : Run scene (State.initial roots workers capacity) events state)
    (idle : state.stopReason? = some .idle) (standing : state.hasFallen = false)
    (refused : ∀ job, Event.refused job ∈ events → tally.accepted job = tally.skipped) :
    tally.counters state + tally.jobs (accepted (State.initial roots workers capacity) events) =
      tally.counters (State.initial roots workers capacity) +
        tally.jobs (State.initial roots workers capacity).queue.jobs +
          tally.directories scene (accepted (State.initial roots workers capacity) events) := by
  have fresh := initial_fresh roots workers capacity
  have decided := State.reason?_of_stopReason? idle
  have onlyIdle (reason : StopReason) (given : state.watch.reason? = some reason) :
      reason = .idle := Option.some.inj (given.symm.trans decided)
  have settled : Settled tally scene _ events state :=
    run.settled fits fresh (State.standing_of_stopped idle standing) onlyIdle refused
  have rest := run.idle_atRest fits fresh decided
  have none (f : Phase → Nat) (silent : ∀ phase, phase.held? = none → f phase = 0) :
      (state.workers.map f).sum = 0 := by
    rw [List.sum_eq_zero_iff_forall_eq_nat]
    intro count present
    obtain ⟨phase, stands, rfl⟩ := List.mem_map.mp present
    exact silent phase (rest.noneHeld phase stands)
  have ahead := none (Phase.ahead tally scene) fun phase free => by
    cases phase <;> simp [Phase.held?] at free ⊢
  have taken := none (Phase.taken tally scene) fun phase free => by
    cases phase <;> simp [Phase.held?] at free ⊢
  have same : tally.directories scene (finished events) =
      tally.directories scene (accepted (State.initial roots workers capacity) events) :=
    (((run.balanced fresh).finished_perm rest).map _).sum_nat
  rw [Settled, ahead, taken, same] at settled
  simpa using settled

theorem Exhaustive.settled (full : Exhaustive scene roots workers capacity events state)
    (tally : Tally) :
    tally.counters state + tally.jobs (accepted (State.initial roots workers capacity) events) =
      tally.jobs (roots.map Job.ofRoot) +
        tally.directories scene (accepted (State.initial roots workers capacity) events) := by
  have settled := full.run.settled_idle tally full.fits full.idle full.standing
    fun job among => absurd among (full.unrefused job)
  obtain ⟨scanned, skipped⟩ := initial_counters roots workers capacity
  have unskipped : (State.initial roots workers capacity).skipped = 0 := by
    rw [full.rootsTaken, List.length_map] at skipped
    omega
  have counters : tally.counters (State.initial roots workers capacity) = 0 := by
    simp [Tally.counters, scanned, unskipped]
  rw [counters, full.rootsTaken, Nat.zero_add] at settled
  exact settled

end RepoFinder.Scan
