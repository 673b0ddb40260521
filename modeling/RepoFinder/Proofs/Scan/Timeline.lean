import RepoFinder.Proofs.Scan.Course
import RepoFinder.Proofs.Scan.Shifting

namespace RepoFinder.Scan

variable {scene : Scene} {roots : List Path} {workers capacity : Nat} {state next : State}

structure Timeline (scene : Scene) (roots : List Path) (workers capacity : Nat) where
  state : Nat → State
  -- What is done next; nothing, if nobody moves.
  action : Nat → Option Action
  begins : state 0 = State.initial roots workers capacity
  goesOn : ∀ moment, match action moment with
    | none => state (moment + 1) = state moment
    | some action => execute scene (state moment) action = some (state (moment + 1))

theorem execute_frame {action : Action} (executed : execute scene state action = some next)
    (other : ∀ worker move, action ≠ .work worker move) :
    next.workers = state.workers ∧ next.queue.jobs = state.queue.jobs ∧
      (state.queue.closed = true → next.queue.closed = true) := by
  cases action with
  | work worker move => exact absurd rfl (other worker move)
  | watch =>
    cases watchStep_look executed with
    | close => exact ⟨rfl, rfl, fun _ => rfl⟩
    | _ => exact ⟨rfl, rfl, id⟩
  | cancel | expire | leave =>
    cases executed
    exact ⟨rfl, rfl, id⟩
  | ask =>
    obtain ⟨reader, _, rfl⟩ := Option.map_eq_some_iff.mp executed
    exact ⟨rfl, rfl, id⟩

theorem execute_elsewhere {worker : Nat} {action : Action}
    (executed : execute scene state action = some next)
    (elsewhere : ∀ move, action ≠ .work worker move) :
    next.workers[worker]? = state.workers[worker]? := by
  cases action with
  | work other move =>
    obtain ⟨phase, moved, after, _, advanced, rfl⟩ := execute_work executed
    have apart : other ≠ worker := by
      rintro rfl
      exact elsewhere move rfl
    rw [List.getElem?_set_ne apart, (advance_turn advanced).workers]
  | _ => rw [(execute_frame executed (by simp)).1]

theorem execute_hurried {action : Action} (executed : execute scene state action = some next)
    (hurried : state.cancelled = true ∨ state.late = true) :
    next.cancelled = true ∨ next.late = true := by
  cases action with
  | work worker move =>
    obtain ⟨phase, moved, after, _, advanced, rfl⟩ := execute_work executed
    cases advance_turn advanced <;> exact hurried
  | watch => cases watchStep_look executed <;> exact hurried
  | cancel =>
    cases executed
    exact .inl rfl
  | expire =>
    cases executed
    exact .inr rfl
  | leave =>
    cases executed
    exact hurried
  | ask =>
    obtain ⟨reader, _, rfl⟩ := Option.map_eq_some_iff.mp executed
    exact hurried

namespace Timeline

variable (timeline : Timeline scene roots workers capacity)

-- Each worker has its turn again and again, unless it is done. So nobody waits for an answer or for
-- the sink for ever.
def IsFair : Prop :=
  ∀ worker moment, ∃ later, moment ≤ later ∧
    ((∃ move, timeline.action later = some (.work worker move)) ∨
      (timeline.state later).workers[worker]?.all Phase.isDone = true)

def IsCalm : Prop :=
  ∀ moment, (timeline.state moment).cancelled = false ∧ (timeline.state moment).late = false

def StaysUp (worker : Nat) : Prop :=
  ∀ moment, ∃ phase, (timeline.state moment).workers[worker]? = some phase ∧ phase ≠ .fallen

variable {timeline} {moment : Nat}

theorem executed {action : Action} (done : timeline.action moment = some action) :
    execute scene (timeline.state moment) action = some (timeline.state (moment + 1)) := by
  have goesOn := timeline.goesOn moment
  rwa [done] at goesOn

theorem unmoved (done : timeline.action moment = none) :
    timeline.state (moment + 1) = timeline.state moment := by
  have goesOn := timeline.goesOn moment
  rwa [done] at goesOn

theorem along (timeline : Timeline scene roots workers capacity) (P : State → Prop) {later : Nat}
    (order : moment ≤ later) (first : P (timeline.state moment))
    (keeps : ∀ between action, moment ≤ between → timeline.action between = some action →
      execute scene (timeline.state between) action = some (timeline.state (between + 1)) →
        P (timeline.state between) → P (timeline.state (between + 1))) :
    P (timeline.state later) := by
  induction order with
  | refl => exact first
  | @step later between ih =>
    cases done : timeline.action later with
    | none =>
      rw [unmoved done]
      exact ih
    | some action => exact keeps later action between done (executed done) ih

def record {α : Type} (timeline : Timeline scene roots workers capacity)
    (note? : State → Action → Option α) (moments : Nat) : List α :=
  (List.range moments).filterMap fun moment =>
    (timeline.action moment).bind (note? (timeline.state moment))

theorem record_succ {α : Type} (timeline : Timeline scene roots workers capacity)
    (note? : State → Action → Option α) (moment : Nat) :
    timeline.record note? (moment + 1) = timeline.record note? moment ++
      ((timeline.action moment).bind (note? (timeline.state moment))).toList := by
  simp only [record, List.range_succ, List.filterMap_append]
  congr 1

def events (timeline : Timeline scene roots workers capacity) (moments : Nat) : List Event :=
  timeline.record State.event? moments

theorem run_events (timeline : Timeline scene roots workers capacity) (moment : Nat) :
    Run scene (State.initial roots workers capacity) (timeline.events moment)
      (timeline.state moment) := by
  unfold events
  induction moment with
  | zero =>
    rw [timeline.begins]
    exact .start
  | succ moment ih =>
    rw [record_succ]
    cases done : timeline.action moment with
    | none =>
      rw [unmoved done]
      simpa using ih
    | some action => exact ih.step action (executed done)

theorem run (timeline : Timeline scene roots workers capacity) (moment : Nat) : ∃ events,
    Run scene (State.initial roots workers capacity) events (timeline.state moment) :=
  ⟨_, timeline.run_events moment⟩

-- In a fair timeline a worker that is not done has its turn where it stands.
theorem IsFair.turn (fair : timeline.IsFair) {worker : Nat} {phase : Phase}
    (stands : (timeline.state moment).workers[worker]? = some phase)
    (undone : phase.isDone = false) :
    ∃ later move moved after, moment ≤ later ∧
      timeline.action later = some (.work worker move) ∧
      (timeline.state later).workers[worker]? = some phase ∧
      advance scene (timeline.state later) move phase = some (moved, after) ∧
      (timeline.state (later + 1)).workers[worker]? = some after := by
  have first : ∃ later move, moment ≤ later ∧
      timeline.action later = some (.work worker move) ∧
      (timeline.state later).workers[worker]? = some phase := by
    by_contra never
    -- Until it has a turn, it stays where it is; so it is never done either.
    have stays {later : Nat} (order : moment ≤ later) :
        (timeline.state later).workers[worker]? = some phase := by
      apply timeline.along (fun state => state.workers[worker]? = some phase) order stands
      intro between action order done executed still
      rw [execute_elsewhere executed, still]
      rintro move rfl
      exact never ⟨between, move, order, done, still⟩
    obtain ⟨later, order, ⟨move, done⟩ | allDone⟩ := fair worker moment
    · exact never ⟨later, move, order, done, stays order⟩
    · rw [stays order, Option.all_some, undone] at allDone
      cases allDone
  obtain ⟨later, move, order, done, still⟩ := first
  obtain ⟨phase', moved, after, stood, advanced, same⟩ := execute_work (executed done)
  obtain rfl := Option.some.inj (still.symm.trans stood)
  refine ⟨later, move, moved, after, order, done, still, advanced, ?_⟩
  rw [same, List.getElem?_set_self]
  simp only [(advance_turn advanced).workers]
  exact (List.getElem?_eq_some_iff.mp still).1

theorem advance_isSome_of_offer (state : State) {phase : Phase} (undone : phase.isDone = false)
    (offered : ∀ job found rest, phase = .delivering job found rest →
      (scene.sink.offer state.stopped state.reader state.kept.length).isSome = true) :
    (advance scene state (Course.moveOf scene phase) phase).isSome = true := by
  cases phase with
  | receiving =>
    simp only [advance, Course.moveOf]
    split <;> rfl
  | opening job =>
    simp only [advance, Course.moveOf, openDirectory]
    split
    · rfl
    · cases scene.files.readDirectory job.path with
      | error => rfl
      | ok actual => simp [isListing]
  | reading job rest => cases rest <;> rfl
  | offering | sending | claiming | asking | stamping =>
    simp only [advance]
    split <;> rfl
  | delivering job found rest =>
    have taken := offered job found rest rfl
    simp only [advance]
    cases answer : scene.sink.offer state.stopped state.reader state.kept.length with
    | none => simp [answer] at taken
    | some kept => cases kept <;> rfl
  | exited => cases undone
  | fallen => cases undone
  | _ => rfl

theorem advance_isSome (state : State) {phase : Phase} (undone : phase.isDone = false)
    (takes : ∀ stopped reader kept, (scene.sink.offer stopped reader kept).isSome = true) :
    (advance scene state (Course.moveOf scene phase) phase).isSome = true :=
  advance_isSome_of_offer state undone fun _ _ _ _ => takes ..

-- A timeline is fair in which whoever can move all the time moves in the end.
theorem isFair_of_weak
    (takes : ∀ stopped reader kept, (scene.sink.offer stopped reader kept).isSome = true)
    (weak : ∀ worker moment,
      (∀ later, moment ≤ later →
        ∃ move, (execute scene (timeline.state later) (.work worker move)).isSome = true) →
      ∃ later move, moment ≤ later ∧ timeline.action later = some (.work worker move)) :
    timeline.IsFair := by
  intro worker moment
  by_contra never
  have awake (later : Nat) (order : moment ≤ later) :
      ∃ move, (execute scene (timeline.state later) (.work worker move)).isSome = true := by
    cases stands : (timeline.state later).workers[worker]? with
    | none => exact absurd ⟨later, order, .inr (by rw [stands]; rfl)⟩ never
    | some phase =>
      have undone : phase.isDone = false := by
        rw [← Bool.not_eq_true]
        intro done
        exact never ⟨later, order, .inr (by rw [stands]; exact done)⟩
      have moves := advance_isSome (timeline.state later) undone takes
      obtain ⟨moved, advanced⟩ := Option.isSome_iff_exists.mp moves
      exact ⟨Course.moveOf scene phase, by simp [execute, stands, advanced]⟩
  obtain ⟨later, move, order, done⟩ := weak worker moment awake
  exact never ⟨later, order, .inl ⟨move, done⟩⟩

theorem done_stays {worker later : Nat} {phase : Phase} (order : moment ≤ later)
    (stands : (timeline.state moment).workers[worker]? = some phase)
    (done : phase.isDone = true) : (timeline.state later).workers[worker]? = some phase := by
  apply timeline.along (fun state => state.workers[worker]? = some phase) order stands
  intro between action _ _ executed still
  rw [execute_elsewhere executed, still]
  rintro move rfl
  obtain ⟨phase', moved, after, stood, advanced, _⟩ := execute_work executed
  obtain rfl := Option.some.inj (still.symm.trans stood)
  cases phase with
  | exited => cases advanced
  | fallen => cases advanced
  | _ => cases done

theorem crew (timeline : Timeline scene roots workers capacity) (moment : Nat) :
    (timeline.state moment).workers.length = max 1 workers := by
  obtain ⟨events, run⟩ := timeline.run moment
  have fresh := initial_fresh roots workers capacity
  rw [(run.balanced fresh).crew, fresh.crew, List.length_replicate]

theorem isFair_of_left (allLeft : ∀ phase ∈ (timeline.state moment).workers, phase = .exited) :
    timeline.IsFair := by
  intro worker first
  refine ⟨max first moment, Nat.le_max_left .., .inr ?_⟩
  cases stands : (timeline.state (max first moment)).workers[worker]? with
  | none => rfl
  | some phase =>
    have among := (List.getElem?_eq_some_iff.mp stands).1
    rw [timeline.crew, ← timeline.crew moment] at among
    have left : (timeline.state moment).workers[worker]? = some .exited := by
      rw [List.getElem?_eq_getElem among, allLeft _ (List.getElem_mem among)]
    have still := done_stays (Nat.le_max_right first moment) left rfl
    obtain rfl := Option.some.inj (stands.symm.trans still)
    rfl

theorem staysUp_of_left {worker : Nat}
    (left : (timeline.state moment).workers[worker]? = some .exited) : timeline.StaysUp worker := by
  intro other
  have among := (List.getElem?_eq_some_iff.mp left).1
  rw [timeline.crew, ← timeline.crew other] at among
  refine ⟨_, List.getElem?_eq_getElem among, ?_⟩
  intro fell
  have down : (timeline.state other).workers[worker]? = some .fallen := by
    rw [List.getElem?_eq_getElem among, fell]
  have stays := done_stays (Nat.le_max_left other moment) down rfl
  have gone := done_stays (Nat.le_max_right other moment) left rfl
  cases stays.symm.trans gone

theorem isCalm_of_still (still : ∀ later, moment ≤ later → timeline.action later = none)
    (calm : (timeline.state moment).cancelled = false ∧ (timeline.state moment).late = false) :
    timeline.IsCalm := by
  intro other
  have same : timeline.state (max other moment) = timeline.state moment := by
    apply timeline.along (· = timeline.state moment) (Nat.le_max_right other moment) rfl
    intro between action order done
    cases (still between order).symm.trans done
  by_contra hurried
  have hurries : (timeline.state (max other moment)).cancelled = true ∨
      (timeline.state (max other moment)).late = true := by
    apply timeline.along (fun state => state.cancelled = true ∨ state.late = true)
      (Nat.le_max_left other moment)
    · rwa [not_and_or, Bool.not_eq_false, Bool.not_eq_false] at hurried
    · intro between action _ _ executed
      exact execute_hurried executed
  simp [same, calm] at hurries

end Timeline

namespace Course

variable {answering : Answering}

theorem runFor_succ (steps : Nat) (course : Course) :
    course.runFor scene answering (steps + 1) =
      ((course.runFor scene answering steps).step? scene answering).getD
        (course.runFor scene answering steps) := by
  induction steps generalizing course with
  | zero =>
    simp only [runFor]
    cases course.step? scene answering <;> rfl
  | succ steps ih =>
    rw [runFor]
    conv_rhs => rw [runFor]
    cases moved : course.step? scene answering with
    | none => simp [moved]
    | some next => exact ih next

theorem runFor_still {course : Course} {steps : Nat}
    (still : (course.runFor scene answering steps).step? scene answering = none) {more : Nat}
    (order : steps ≤ more) :
    course.runFor scene answering more = course.runFor scene answering steps := by
  induction order with
  | refl => rfl
  | step _ ih => rw [runFor_succ, ih, still, Option.getD_none]

-- A course that is never broken off: when nothing more can be done in it, nothing happens.
def timeline (scene : Scene) (answering : Answering) (course : Course)
    (begins : course.state = State.initial roots workers capacity) :
    Timeline scene roots workers capacity where
  state moment := (course.runFor scene answering moment).state
  action moment :=
    let reached := course.runFor scene answering moment
    (reached.step? scene answering).bind fun _ => reached.next? scene answering
  begins := begins
  goesOn moment := by
    rw [runFor_succ]
    cases moved : (course.runFor scene answering moment).step? scene answering with
    | none => simp only [moved, Option.bind_none, Option.getD_none]
    | some next =>
      obtain ⟨action, chosen, executed⟩ := step?_next? moved
      simpa only [moved, Option.bind_some, chosen, Option.getD_some] using executed

theorem timeline_still {course : Course} {steps later : Nat}
    {begins : course.state = State.initial roots workers capacity}
    (still : (course.runFor scene answering steps).step? scene answering = none)
    (order : steps ≤ later) : (course.timeline scene answering begins).action later = none := by
  simp only [timeline, runFor_still still order, still, Option.bind_none]

end Course

end RepoFinder.Scan
