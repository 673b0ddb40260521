import Mathlib.Data.List.Nodup
import RepoFinder.Proofs.Path.Order
import RepoFinder.Proofs.Scan.Ending

namespace RepoFinder

-- A list of repositories as every answer has it: sorted, and no two of them for one key.
structure Orderly (repositories : List Repository) : Prop where
  ascending : repositories.Pairwise fun a b => a.path.le b.path = true ∧ b.path.le a.path = false
  distinct : repositories.Pairwise fun a b => a.path.key ≠ b.path.key

theorem Orderly.map {repositories : List Repository} (orderly : Orderly repositories)
    {f : Repository → Repository} (same : ∀ repository, (f repository).path = repository.path) :
    Orderly (repositories.map f) where
  ascending := by
    rw [List.pairwise_map]
    simpa only [same] using orderly.ascending
  distinct := by
    rw [List.pairwise_map]
    simpa only [same] using orderly.distinct

theorem Orderly.ofSort {repositories : List Repository}
    (distinct : repositories.Pairwise fun a b => a.path.key ≠ b.path.key) :
    Orderly (repositories.mergeSort fun a b => a.path.le b.path) := by
  have sorted : (repositories.mergeSort fun a b => a.path.le b.path).Pairwise
      fun a b => a.path.le b.path = true := by
    apply List.pairwise_mergeSort
    · intro a b c
      exact Path.le_trans
    · intro a b
      simpa using Path.le_total a.path b.path
  have perm := List.mergeSort_perm repositories fun a b : Repository => a.path.le b.path
  have distinct := (perm.pairwise_iff (fun differ => Ne.symm differ)).mpr distinct
  refine ⟨?_, distinct⟩
  refine List.Pairwise.imp ?_ (sorted.and distinct)
  intro a b ordered
  refine ⟨ordered.1, ?_⟩
  cases back : b.path.le a.path with
  | false => rfl
  | true => exact absurd (Path.key_of_le ordered.1 back) ordered.2

namespace Scan

variable {scene : Scene} {scenes : Scene → Prop} {roots : List Path} {options : Options}
  {state next : State} {outcome : Outcome} {cancelled : Bool}

-- The states of a scan while its scene changes: each step is made in one of the scenes.
inductive Going (scenes : Scene → Prop) (roots : List Path) (options : Options) : State → Prop where
  | start {cancelled late : Bool} : Going scenes roots options
      { State.initial roots options.workers options.capacity with cancelled, late }
  | step {scene : Scene} {state next : State} {action : Action}
      (before : Going scenes roots options state) (among : scenes scene)
      (executed : execute scene state action = some next) : Going scenes roots options next

def Came (scenes : Scene → Prop) (roots : List Path) (options : Options) (cancelled : Bool)
    (outcome : Outcome) : Prop :=
  ∃ state, Going scenes roots options state ∧ state.cancelled = cancelled ∧
    state.hasFallen = false ∧ state.stopReason? = some outcome.stop ∧
    outcome = state.outcome outcome.stop

theorem Going.initial :
    Going scenes roots options (State.initial roots options.workers options.capacity) :=
  let state := State.initial roots options.workers options.capacity
  show Going scenes roots options { state with cancelled := state.cancelled, late := state.late }
    from .start

theorem Going.mono {more : Scene → Prop} (within : ∀ scene, scenes scene → more scene)
    (going : Going scenes roots options state) : Going more roots options state := by
  induction going with
  | start => exact .start
  | step _ among executed ih => exact ih.step (within _ among) executed

theorem Came.mono {more : Scene → Prop} (within : ∀ scene, scenes scene → more scene)
    (came : Came scenes roots options cancelled outcome) :
    Came more roots options cancelled outcome := by
  obtain ⟨state, going, ended⟩ := came
  exact ⟨state, going.mono within, ended⟩

theorem Going.run {events : List Event} (going : Going scenes roots options state)
    (among : scenes scene) (run : Run scene state events next) :
    Going scenes roots options next := by
  induction run with
  | start => exact going
  | step action _ executed ih => exact ih.step among executed

theorem start_run (cancelled late : Bool) :
    Run scene (State.initial roots options.workers options.capacity) []
      { State.initial roots options.workers options.capacity with cancelled, late } := by
  obtain ⟨uncancelled, inTime⟩ := initial_uncancelled roots options.workers options.capacity
  generalize State.initial roots options.workers options.capacity = state at uncancelled inTime ⊢
  have first : Run scene state [] { state with cancelled } := by
    cases cancelled with
    | false =>
      rw [← uncancelled]
      exact .start
    | true => exact Run.start.step .cancel rfl
  cases late with
  | false =>
    rw [← inTime]
    exact first
  | true => exact first.step .expire rfl

theorem Ends.came (ends : Ends scene roots options cancelled outcome) :
    Came (· = scene) roots options cancelled outcome := by
  obtain ⟨events, state, run, ended⟩ := ends
  exact ⟨state, Going.initial.run rfl run, ended⟩

theorem Came.ends (came : Came (· = scene) roots options cancelled outcome) :
    Ends scene roots options cancelled outcome := by
  obtain ⟨state, going, ended⟩ := came
  suffices ran : ∃ events,
      Run scene (State.initial roots options.workers options.capacity) events state by
    obtain ⟨events, run⟩ := ran
    exact ⟨events, state, run, ended⟩
  clear ended
  induction going with
  | start => exact ⟨[], start_run _ _⟩
  | step _ among executed ih =>
    obtain ⟨events, run⟩ := ih
    exact ⟨_, run.step _ (among ▸ executed)⟩

def Phase.claimed? : Phase → Option Path.Key
  | .asking job _ => some job.path.key
  | .stamping job _ _ => some job.path.key
  | .delivering _ found _ => some found.path.key
  | .storing _ found _ => some found.path.key
  | _ => none

def Phase.hasClaimed (key : Path.Key) (phase : Phase) : Bool := phase.claimed? == some key

def reports (key : Path.Key) (repository : Repository) : Bool := repository.path.key == key

def State.claimsOn (state : State) (key : Path.Key) : Nat :=
  state.found.countP (reports key) + state.workers.countP (Phase.hasClaimed key)

def Phase.found? : Phase → Option Repository
  | .delivering _ found _ => some found
  | .storing _ found _ => some found
  | _ => none

def Saw (scenes : Scene → Prop) (repository : Repository) : Prop :=
  ∃ scene, scenes scene ∧ repository.modified = scene.files.modified repository.path

-- What is true of a scan whatever it meets. This is the invariant of the module.
structure Tidy (scenes : Scene → Prop) (state : State) : Prop where
  once : ∀ key, state.claimsOn key ≤ if key ∈ state.seen then 1 else 0
  found : ∀ repository ∈ state.found, Saw scenes repository
  held : ∀ phase ∈ state.workers, ∀ repository, phase.found? = some repository →
    Saw scenes repository

-- A worker takes a claim only on a key that nobody has seen, and holds it until it reports.
theorem Turn.claim_cases {phase after : Phase} (turn : Turn scene state phase next after)
    (key : Path.Key) :
    (next.seen = state.seen ∧
      next.found.countP (reports key) + (if after.hasClaimed key then 1 else 0) ≤
        state.found.countP (reports key) + (if phase.hasClaimed key then 1 else 0)) ∨
    (next.found = state.found ∧ phase.hasClaimed key = false ∧ ∃ new, new ∉ state.seen ∧
      next.seen = new :: state.seen ∧ after.hasClaimed key = (new == key)) := by
  cases turn with
  | claim unknown =>
    right
    exact ⟨rfl, rfl, _, unknown, rfl, by simp [Phase.hasClaimed, Phase.claimed?]⟩
  | store =>
    left
    refine ⟨rfl, ?_⟩
    simp [Phase.hasClaimed, Phase.claimed?, reports, List.countP_append, List.countP_cons]
  | stamp =>
    left
    refine ⟨rfl, ?_⟩
    simp [Phase.hasClaimed, Phase.claimed?, Repository.ofPath]
  | _ =>
    left
    refine ⟨rfl, ?_⟩
    simp [Phase.hasClaimed, Phase.claimed?, State.skip]

theorem Turn.once {worker : Nat} {phase after : Phase}
    (stands : state.workers[worker]? = some phase) (turn : Turn scene state phase next after)
    {key : Path.Key} (once : state.claimsOn key ≤ if key ∈ state.seen then 1 else 0) :
    State.claimsOn { next with workers := next.workers.set worker after } key ≤
      if key ∈ next.seen then 1 else 0 := by
  have moved := countP_set_add stands after (Phase.hasClaimed key)
  unfold State.claimsOn at once ⊢
  simp only [turn.workers]
  rcases turn.claim_cases key with ⟨seen, fewer⟩ | ⟨found, unclaimed, new, unseen, seen, claims⟩
  · rw [seen]
    omega
  · rw [found, seen]
    rw [unclaimed, claims] at moved
    by_cases same : new = key
    · subst same
      rw [if_neg unseen] at once
      simp only [beq_self_eq_true, if_true, Bool.false_eq_true, if_false] at moved
      rw [if_pos (List.mem_cons_self ..)]
      omega
    · have other : (new == key) = false := beq_false_of_ne same
      simp only [other, Bool.false_eq_true, if_false] at moved
      have still : (key ∈ new :: state.seen) = (key ∈ state.seen) := by
        simp [List.mem_cons, Ne.symm same]
      simp only [still]
      omega

theorem Turn.saw {phase after : Phase} (turn : Turn scene state phase next after)
    (among : scenes scene)
    (held : ∀ repository, phase.found? = some repository → Saw scenes repository) :
    (∀ repository ∈ next.found, repository ∈ state.found ∨ Saw scenes repository) ∧
      ∀ repository, after.found? = some repository → Saw scenes repository := by
  cases turn with
  | stamp =>
    refine ⟨fun repository present => .inl present, ?_⟩
    intro repository is
    obtain rfl := Option.some.inj is
    exact ⟨_, among, rfl⟩
  | keep | drop => exact ⟨fun repository present => .inl present, held⟩
  | store =>
    constructor
    · intro repository present
      rcases List.mem_append.mp present with old | new
      · exact .inl old
      · right
        rw [List.mem_singleton.mp new]
        exact held _ rfl
    · intro repository is
      cases is
  | _ =>
    refine ⟨fun repository present => .inl present, ?_⟩
    intro repository is
    cases is

theorem Step.tidy {event : Option Event} (among : scenes scene) (tidy : Tidy scenes state)
    (step : Step scene state event next) : Tidy scenes next := by
  cases step with
  | look look => cases look <;> exact { tidy with }
  | outside => exact { tidy with }
  | @work worker phase after next stands turn =>
    have saw := turn.saw among (tidy.held phase (List.mem_of_getElem? stands))
    refine ⟨?_, ?_, ?_⟩
    · intro key
      exact turn.once stands (tidy.once key)
    · intro repository present
      rcases saw.1 repository present with old | new
      · exact tidy.found repository old
      · exact new
    · intro other present repository holds
      rcases List.mem_or_eq_of_mem_set present with old | rfl
      · rw [turn.workers] at old
        exact tidy.held other old repository holds
      · exact saw.2 repository holds

theorem Going.tidy (going : Going scenes roots options state) : Tidy scenes state := by
  induction going with
  | start =>
    have fresh := initial_fresh roots options.workers options.capacity
    refine ⟨?_, ?_, ?_⟩
    · intro key
      simp [State.claimsOn, fresh.unfound, fresh.crew, Phase.hasClaimed, Phase.claimed?,
        List.countP_replicate]
    · intro repository present
      simp [fresh.unfound] at present
    · intro phase present repository holds
      simp only [fresh.crew] at present
      rw [List.eq_of_mem_replicate present] at holds
      cases holds
  | step _ among executed ih => exact (execute_step executed).tidy among ih

theorem Going.heeded (going : Going scenes roots options state) : Heeded state := by
  induction going with
  | start =>
    intro decided
    have fresh := initial_fresh roots options.workers options.capacity
    simp [fresh.watching, Watch.reason?] at decided
  | step _ _ executed ih => exact (execute_step executed).heeded ih

theorem Tidy.distinct (tidy : Tidy scenes state) :
    state.found.Pairwise fun a b => a.path.key ≠ b.path.key := by
  have once : (state.found.map fun repository => repository.path.key).Nodup := by
    apply List.nodup_iff_count_le_one.mpr
    intro key
    have bound := tidy.once key
    have counted : (state.found.map fun repository => repository.path.key).count key =
        state.found.countP (reports key) := by
      rw [List.count, List.countP_map]
      rfl
    unfold State.claimsOn at bound
    split at bound <;> omega
  exact List.pairwise_map.mp once

theorem Came.orderly (came : Came scenes roots options cancelled outcome) :
    Orderly outcome.repositories := by
  obtain ⟨state, going, _, _, _, same⟩ := came
  rw [same]
  exact .ofSort going.tidy.distinct

theorem Came.saw (came : Came scenes roots options cancelled outcome) :
    ∀ repository ∈ outcome.repositories, Saw scenes repository := by
  obtain ⟨state, going, _, _, _, same⟩ := came
  intro repository present
  rw [same] at present
  exact going.tidy.found repository (by simpa [State.outcome] using present)

theorem Came.stop_ne_cancelled (came : Came scenes roots options false outcome) :
    outcome.stop ≠ .cancelled := by
  obtain ⟨state, going, uncancelled, _, stopped, _⟩ := came
  intro stop
  rw [stop] at stopped
  cases uncancelled.symm.trans (going.heeded (State.reason?_of_stopReason? stopped))

end Scan

end RepoFinder
