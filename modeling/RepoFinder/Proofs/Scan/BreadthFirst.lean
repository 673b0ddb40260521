import RepoFinder.Proofs.Scan.Allowance

namespace RepoFinder.Scan

variable {scene : Scene} {roots : List Path} {workers capacity : Nat} {start state next : State}

-- A line of jobs, behind those that were served before it. The depths never fall from one job to
-- the next, and within the line they differ by one at most.
structure Levelled (served line : List Job) : Prop where
  ascending : (served ++ line).Pairwise fun job later => job.depth ≤ later.depth
  narrow : line.Pairwise fun job later => later.depth ≤ job.depth + 1

namespace Levelled

variable {served line first rest : List Job} {job child : Job}

theorem of_level {depth : Nat} (level : ∀ job ∈ line, job.depth = depth) : Levelled [] line where
  ascending := by
    refine List.pairwise_of_forall_mem_list ?_
    intro job present later among
    rw [level job present, level later among]
  narrow := by
    refine List.pairwise_of_forall_mem_list ?_
    intro job present later among
    rw [level job present, level later among]
    exact Nat.le_succ _

theorem join (levelled : Levelled served (job :: rest)) (below : child.depth = job.depth + 1) :
    Levelled served (job :: rest ++ [child]) := by
  obtain ⟨_, ascends, across⟩ := List.pairwise_append.mp levelled.ascending
  have lowest : ∀ other ∈ job :: rest, job.depth ≤ other.depth := by
    intro other present
    rcases List.mem_cons.mp present with rfl | behind
    · exact Nat.le_refl _
    · exact List.rel_of_pairwise_cons ascends behind
  have highest : ∀ other ∈ job :: rest, other.depth ≤ job.depth + 1 := by
    intro other present
    rcases List.mem_cons.mp present with rfl | behind
    · exact Nat.le_succ _
    · exact List.rel_of_pairwise_cons levelled.narrow behind
  constructor
  · rw [← List.append_assoc, List.pairwise_append]
    refine ⟨levelled.ascending, List.pairwise_singleton _ _, ?_⟩
    intro other present last isLast
    obtain rfl := List.mem_singleton.mp isLast
    rw [below]
    rcases List.mem_append.mp present with before | inLine
    · exact Nat.le_succ_of_le (across other before job (List.mem_cons_self ..))
    · exact highest other inLine
  · rw [List.pairwise_append]
    refine ⟨levelled.narrow, List.pairwise_singleton _ _, ?_⟩
    intro other present last isLast
    obtain rfl := List.mem_singleton.mp isLast
    rw [below]
    exact Nat.succ_le_succ (lowest other present)

theorem serve (levelled : Levelled served (first ++ rest)) : Levelled (served ++ first) rest where
  ascending := by
    rw [List.append_assoc]
    exact levelled.ascending
  narrow := (List.pairwise_append.mp levelled.narrow).2.1

theorem two_levels (levelled : Levelled served line) :
    ∃ depth, ∀ job ∈ line, job.depth = depth ∨ job.depth = depth + 1 := by
  cases line with
  | nil => exact ⟨0, by simp⟩
  | cons first rest =>
    refine ⟨first.depth, ?_⟩
    intro job present
    rcases List.mem_cons.mp present with rfl | behind
    · exact .inl rfl
    · have low := List.rel_of_pairwise_cons (List.pairwise_append.mp levelled.ascending).2.1 behind
      have high := List.rel_of_pairwise_cons levelled.narrow behind
      omega

end Levelled

def Phase.PushesBelow : Phase → Prop
  | .offering job child _ => child.depth = job.depth + 1
  | .counting job child _ => child.depth = job.depth + 1
  | .sending job child _ => child.depth = job.depth + 1
  | _ => True

theorem Turn.pushesBelow {phase after : Phase} (turn : Turn scene state phase next after)
    (pushes : phase.PushesBelow) : after.PushesBelow := by
  cases turn with
  | meetBelow => rfl
  | offer | count => exact pushes
  | _ => trivial

theorem Phase.PushesBelow.accepted {phase : Phase} {queue : Queue} {child : Job}
    (pushes : phase.PushesBelow) (event : phase.event? queue = some (.accepted child)) :
    ∃ job, phase.held? = some job ∧ child.depth = job.depth + 1 := by
  cases phase with
  | sending job other rest =>
    simp only [Phase.event?] at event
    split at event <;> cases event
    exact ⟨job, rfl, pushes⟩
  | offering job other rest =>
    simp only [Phase.event?] at event
    split at event <;> cases event
  | _ => cases event

-- What waits and what is accepted now is what is taken now and what waits then.
theorem Turn.queued {phase after : Phase} (turn : Turn scene state phase next after) :
    state.queue.jobs ++ (phase.event? state.queue).toList.filterMap Event.accepted? =
      after.opens?.toList ++ next.queue.jobs := by
  cases turn with
  | take waiting => simp [waiting, Phase.event?, Phase.opens?]
  | refuseClosed closed => simp [closed, Phase.event?, Phase.opens?, Event.accepted?, State.skip]
  | offer isOpen => simp [isOpen, Phase.event?, Phase.opens?]
  | send room => simp [room, Phase.event?, Phase.opens?, Event.accepted?]
  | refuseFull full => simp [full, Phase.event?, Phase.opens?, Event.accepted?]
  | _ => simp [Phase.event?, Phase.opens?, Event.accepted?, State.skip, Queue.count, Queue.finish]

-- What is in a worker's hands and what it takes now is what it finishes now and what is in its
-- hands then.
theorem Turn.handed {phase after : Phase} (turn : Turn scene state phase next after) :
    phase.held?.toList ++ after.opens?.toList =
      (phase.event? state.queue).toList.filterMap Event.finished? ++ after.held?.toList := by
  cases turn with
  | refuseClosed closed => simp [closed, Phase.event?, Phase.opens?, Phase.held?, Event.finished?]
  | offer isOpen => simp [isOpen, Phase.event?, Phase.opens?, Phase.held?]
  | send room => simp [room, Phase.event?, Phase.opens?, Phase.held?, Event.finished?]
  | refuseFull full => simp [full, Phase.event?, Phase.opens?, Phase.held?, Event.finished?]
  | _ => simp [Phase.event?, Phase.opens?, Phase.held?, Event.finished?]

-- The books of a scan with a single worker. The jobs that it accepted are those that were taken,
-- and behind them those that wait. Of those that were taken, all are finished but the one in the
-- worker's hands, and all were opened but the one that it is about to open.
structure InTurn (start : State) (taken opened : List Job) (events : List Event) (state : State) :
    Prop where
  queued : accepted start events = taken ++ state.queue.jobs
  served : taken = finished events ++ state.workers.filterMap Phase.held?
  begun : taken = opened ++ state.workers.filterMap Phase.opens?
  pushes : ∀ phase ∈ state.workers, phase.PushesBelow
  levelled : Levelled (finished events) (state.workers.filterMap Phase.held? ++ state.queue.jobs)

theorem inTurn_start (fresh : Fresh workers capacity roots start) :
    InTurn start [] [] [] start where
  queued := by simp [accepted]
  served := by simp [finished, fresh.crew, Phase.held?]
  begun := by simp [fresh.crew, Phase.opens?]
  pushes phase present := by
    rw [fresh.crew] at present
    rw [List.eq_of_mem_replicate present]
    trivial
  levelled := by
    have top : ∀ job ∈ start.queue.jobs, job.depth = 0 := by
      intro job present
      obtain ⟨root, _, rfl⟩ := fresh.ofRoots job present
      rfl
    have idle : start.workers.filterMap Phase.held? = [] := by simp [fresh.crew, Phase.held?]
    rw [idle]
    exact .of_level top

theorem Turn.inTurn {taken opened : List Job} {events : List Event} {phase after : Phase}
    (inTurn : InTurn start taken opened events state) (alone : state.workers = [phase])
    (turn : Turn scene state phase next after) :
    InTurn start (taken ++ after.opens?.toList) (opened ++ phase.opens?.toList)
      (events ++ (phase.event? state.queue).toList) { next with workers := [after] } := by
  obtain ⟨queued, served, begun, pushes, levelled⟩ := inTurn
  have held (phase : Phase) : [phase].filterMap Phase.held? = phase.held?.toList := rfl
  have opens (phase : Phase) : [phase].filterMap Phase.opens? = phase.opens?.toList := rfl
  have accepts (now : List Event) : accepted start (events ++ now) =
      accepted start events ++ now.filterMap Event.accepted? := by
    simp [accepted]
  have finishes (now : List Event) :
      finished (events ++ now) = finished events ++ now.filterMap Event.finished? :=
    List.filterMap_append ..
  rw [alone] at served begun pushes levelled
  rw [held] at served levelled
  rw [opens] at begun
  have pushesNow := pushes phase (List.mem_singleton_self phase)
  refine ⟨?_, ?_, ?_, ?_, ?_⟩
  · rw [accepts, queued, List.append_assoc, turn.queued, List.append_assoc]
  · rw [finishes, held, served, List.append_assoc, turn.handed, List.append_assoc]
  · rw [opens, ← begun]
  · intro other present
    obtain rfl := List.mem_singleton.mp present
    exact turn.pushesBelow pushesNow
  · rw [finishes, held]
    apply Levelled.serve
    -- The worker and the queue together only gain what is accepted now.
    rw [← List.append_assoc, ← turn.handed, List.append_assoc, ← turn.queued, ← List.append_assoc]
    cases happens : phase.event? state.queue with
    | none => simpa using levelled
    | some event =>
      cases event with
      | accepted child =>
        obtain ⟨job, has, below⟩ := pushesNow.accepted happens
        rw [has] at levelled ⊢
        exact levelled.join below
      | refused | finished => simpa [Event.accepted?, List.filterMap_cons] using levelled

theorem execute_inTurn {taken opened : List Job} {events : List Event} {action : Action}
    (alone : state.workers.length = 1) (inTurn : InTurn start taken opened events state)
    (executed : execute scene state action = some next) :
    InTurn start (taken ++ (state.takes? action).toList) (opened ++ (state.opens? action).toList)
      (events ++ (state.event? action).toList) next := by
  obtain ⟨only, crew⟩ := List.length_eq_one_iff.mp alone
  cases action with
  | work worker move =>
    obtain ⟨phase, moved, after, stands, advanced, rfl⟩ := execute_work executed
    have turn := advance_turn advanced
    obtain rfl : worker = 0 := by
      have among := (List.getElem?_eq_some_iff.mp stands).1
      omega
    obtain rfl : only = phase := by simpa [crew] using stands
    simp only [State.takes?, State.opens?, State.event?, stands, Option.bind_some,
      ← advance_takes advanced]
    simpa only [turn.workers, crew, List.set_cons_zero] using turn.inTurn inTurn crew
  | _ =>
    obtain ⟨workers, jobs, _⟩ := execute_frame executed (by simp)
    obtain ⟨queued, served, begun, pushes, levelled⟩ := inTurn
    simp only [State.takes?, State.opens?, State.event?, Option.toList_none, List.append_nil]
    constructor <;> simp only [workers, jobs] <;> assumption

namespace Timeline

variable (timeline : Timeline scene roots workers capacity)

def opened (moments : Nat) : List Job := timeline.record State.opens? moments

theorem inTurn (alone : workers ≤ 1) (moment : Nat) :
    InTurn (State.initial roots workers capacity) (timeline.taken moment) (timeline.opened moment)
      (timeline.events moment) (timeline.state moment) := by
  unfold opened events
  induction moment with
  | zero =>
    rw [timeline.begins]
    exact inTurn_start (initial_fresh roots workers capacity)
  | succ moment ih =>
    rw [taken_succ, record_succ, record_succ]
    cases done : timeline.action moment with
    | none =>
      rw [unmoved done]
      simpa using ih
    | some action =>
      refine execute_inTurn ?_ ih (executed done)
      rw [timeline.crew]
      omega

end Timeline

-- A scan with a single worker reads breadth first, in every interleaving with its monitor and
-- whatever its queue refuses. Jobs are taken, and directories opened, in the order in which the jobs
-- were accepted. Their depths never fall, and those that wait have two neighbouring ones at most. So
-- wherever a scan is stopped, it has opened nothing that lies deeper than what still waits.
theorem reads_breadth_first (timeline : Timeline scene roots workers capacity)
    (alone : workers ≤ 1) (moment : Nat) :
    let taken := timeline.taken moment
    let opened := timeline.opened moment
    let waiting := (timeline.state moment).queue.jobs
    accepted (State.initial roots workers capacity) (timeline.events moment) = taken ++ waiting ∧
    (∀ job ∈ taken ++ waiting, ∃ root ∈ roots, Below scene.files root job.depth job.path) ∧
    taken.Pairwise (fun job later => job.depth ≤ later.depth) ∧
    waiting.Pairwise (fun job later => job.depth ≤ later.depth) ∧
    (∃ depth, ∀ job ∈ waiting, job.depth = depth ∨ job.depth = depth + 1) ∧
    opened <+: taken ∧
    (∀ job ∈ opened, ∀ other ∈ waiting, job.depth ≤ other.depth) ∧
    ∀ reason, (timeline.state moment).stopReason? = some reason → opened = taken := by
  intro taken opened waiting
  obtain ⟨queued, served, begun, _, levelled⟩ := timeline.inTurn alone moment
  have inOrder := levelled.ascending
  rw [← List.append_assoc, ← served] at inOrder
  obtain ⟨rising, line, across⟩ := List.pairwise_append.mp inOrder
  have before : opened <+: taken := ⟨_, begun.symm⟩
  have sound := (timeline.run_events moment).sound (initial_fresh roots workers capacity)
  refine ⟨queued, ?_, rising, line, levelled.serve.two_levels, before, ?_, ?_⟩
  · intro job present
    rw [← queued] at present
    exact (sound.due job present).2
  · intro job present other waits
    exact across job (before.subset present) other waits
  · intro reason stopped
    have done : (timeline.state moment).workers.filterMap Phase.opens? = [] := by
      rw [List.filterMap_eq_nil_iff]
      intro phase present
      rcases State.stopped_phases stopped phase present with rfl | rfl <;> rfl
    rw [done, List.append_nil] at begun
    exact begun.symm

def narrowTimeline : Timeline crowdedScene (["/w", "/w/q"].map Path.ofString) 1 2 :=
  (⟨State.initial (["/w", "/w/q"].map Path.ofString) 1 2, none⟩ : Course).timeline crowdedScene
    .firstCancels rfl

theorem reads_breadth_first_cancelled :
    let waiting := (narrowTimeline.state 30).queue.jobs
    (narrowTimeline.state 30).stopReason? = some .cancelled ∧
      .refused ⟨Path.ofString "/w/q", 1⟩ ∈ narrowTimeline.events 30 ∧
      narrowTimeline.opened 30 = [⟨Path.ofString "/w", 0⟩] ∧
      waiting = [⟨Path.ofString "/w/q", 0⟩, ⟨Path.ofString "/w/p", 1⟩] ∧
      accepted (State.initial (["/w", "/w/q"].map Path.ofString) 1 2) (narrowTimeline.events 30) =
        narrowTimeline.opened 30 ++ waiting ∧
      ∀ job ∈ narrowTimeline.opened 30, ∀ other ∈ waiting, job.depth ≤ other.depth := by
  intro waiting
  have stopped : (narrowTimeline.state 30).stopReason? = some .cancelled := by decide +kernel
  obtain ⟨queued, _, _, _, _, _, before, ended⟩ :=
    reads_breadth_first narrowTimeline (by decide) 30
  rw [← ended .cancelled stopped] at queued
  exact ⟨stopped, by decide +kernel, by decide +kernel, by decide +kernel, queued, before⟩

end RepoFinder.Scan
