import Mathlib.Data.List.Perm.Basic
import RepoFinder.Scan.Queue

namespace RepoFinder.Scan

theorem Queue.pop_eq_none {q : Queue} : q.pop = none ↔ q.closed = true ∨ q.jobs = [] := by
  unfold pop take?
  cases q.closed <;> cases q.jobs <;> simp

theorem Queue.pop_eq_some {q rest : Queue} {job : Job} : q.pop = some (job, rest) ↔
    q.closed = false ∧ ∃ jobs, q.jobs = job :: jobs ∧ rest = { q with jobs } := by
  unfold pop take?
  cases q.jobs <;> cases q.closed <;> simp [eq_comm]

-- A queue with the jobs that it has accepted and those that were popped, in the order in which that
-- happened. Those that were popped are bare, guarded or finished.
structure Custody where
  queue : Queue
  accepted : List Job
  popped : List Job
  bare : List Job
  guarded : List Job
  finished : List Job

namespace Custody

-- What can be done with a queue. A guard is made for a job that was popped and has none; any guard
-- may be dropped, and with it its job is finished.
inductive Move where
  | push (job : Job)
  | pop
  | guard (index : Nat)
  | drop (index : Nat)
  | close
deriving DecidableEq, Repr

variable {capacity : Nat} {custody next last : Custody} {move : Move} {moves : List Move}

def start (capacity : Nat) : Custody := ⟨.ofCapacity capacity, [], [], [], [], []⟩

def make? (custody : Custody) : Move → Option Custody
  | .push job =>
    let (queue, taken) := custody.queue.push job
    some { custody with
      queue
      accepted := if taken then custody.accepted ++ [job] else custody.accepted }
  | .pop => match custody.queue.pop with
    | none => some custody
    | some (job, queue) =>
      some { custody with
        queue
        popped := custody.popped ++ [job]
        bare := custody.bare ++ [job] }
  | .guard index => custody.bare[index]?.map fun job =>
    { custody with bare := custody.bare.eraseIdx index, guarded := custody.guarded ++ [job] }
  | .drop index => custody.guarded[index]?.map fun job =>
    { custody with
      queue := custody.queue.finish
      guarded := custody.guarded.eraseIdx index
      finished := custody.finished ++ [job] }
  | .close => some { custody with queue := custody.queue.close }

def makeAll? (custody : Custody) (moves : List Move) : Option Custody := moves.foldlM make? custody

def unfinished (custody : Custody) : Nat :=
  custody.queue.jobs.length + custody.bare.length + custody.guarded.length

inductive Moved (custody : Custody) : Move → Custody → Prop where
  | refuse {job : Job} (barred : custody.queue.closed = true ∨ custody.queue.hasRoom = false) :
      Moved custody (.push job) custody
  | accept {job : Job} (isOpen : custody.queue.closed = false)
      (room : custody.queue.hasRoom = true) :
      Moved custody (.push job)
        { custody with
          queue := { custody.queue.count with jobs := custody.queue.jobs ++ [job] }
          accepted := custody.accepted ++ [job] }
  | wait (none : custody.queue.closed = true ∨ custody.queue.jobs = []) : Moved custody .pop custody
  | take {job : Job} {rest : List Job} (isOpen : custody.queue.closed = false)
      (first : custody.queue.jobs = job :: rest) :
      Moved custody .pop
        { custody with
          queue := { custody.queue with jobs := rest }
          popped := custody.popped ++ [job]
          bare := custody.bare ++ [job] }
  | guard {index : Nat} {job : Job} (has : custody.bare[index]? = some job) :
      Moved custody (.guard index)
        { custody with bare := custody.bare.eraseIdx index, guarded := custody.guarded ++ [job] }
  | drop {index : Nat} {job : Job} (has : custody.guarded[index]? = some job) :
      Moved custody (.drop index)
        { custody with
          queue := custody.queue.finish
          guarded := custody.guarded.eraseIdx index
          finished := custody.finished ++ [job] }
  | close : Moved custody .close { custody with queue := custody.queue.close }

theorem make?_moved (made : custody.make? move = some next) : custody.Moved move next := by
  cases move with
  | push job =>
    simp only [make?] at made
    cases closed : custody.queue.closed with
    | true =>
      rw [Queue.push_of_closed closed] at made
      cases made
      exact .refuse (.inl closed)
    | false =>
      cases room : custody.queue.hasRoom with
      | true =>
        rw [Queue.push_of_room closed room] at made
        cases made
        exact .accept closed room
      | false =>
        rw [Queue.push_of_full room] at made
        cases made
        exact .refuse (.inr room)
  | pop =>
    simp only [make?] at made
    split at made
    · rename_i none
      cases made
      exact .wait (Queue.pop_eq_none.mp none)
    · rename_i job queue handed
      cases made
      obtain ⟨isOpen, rest, first, rfl⟩ := Queue.pop_eq_some.mp handed
      exact .take isOpen first
  | guard index =>
    obtain ⟨job, has, rfl⟩ := Option.map_eq_some_iff.mp made
    exact .guard has
  | drop index =>
    obtain ⟨job, has, rfl⟩ := Option.map_eq_some_iff.mp made
    exact .drop has
  | close =>
    cases made
    exact .close

structure Kept (capacity : Nat) (custody : Custody) : Prop where
  size : custody.queue.capacity = max 1 capacity
  bounded : custody.queue.jobs.length ≤ max 1 capacity
  inOrder : custody.accepted = custody.popped ++ custody.queue.jobs
  shared : (custody.finished ++ custody.guarded ++ custody.bare).Perm custody.popped
  counter : custody.queue.inFlight = UInt64.ofNat custody.unfinished

theorem kept_start (capacity : Nat) : (start capacity).Kept capacity where
  size := rfl
  bounded := Nat.zero_le _
  inOrder := rfl
  shared := .refl _
  counter := rfl

theorem cons_eraseIdx_perm {jobs : List Job} {index : Nat} {job : Job}
    (has : jobs[index]? = some job) : (job :: jobs.eraseIdx index).Perm jobs := by
  obtain ⟨within, rfl⟩ := List.getElem?_eq_some_iff.mp has
  exact List.getElem_cons_eraseIdx_perm within

theorem sub_one_of_eq {count : UInt64} {n : Nat} (counted : count = .ofNat (n + 1)) :
    count - 1 = .ofNat n := by
  rw [counted, UInt64.ofNat_add]
  simp

theorem Moved.kept (moved : custody.Moved move next) (kept : custody.Kept capacity) :
    next.Kept capacity := by
  obtain ⟨size, bounded, inOrder, shared, counter⟩ := kept
  cases moved with
  | refuse | wait => exact ⟨size, bounded, inOrder, shared, counter⟩
  | @accept job _ room =>
    have room : custody.queue.jobs.length < custody.queue.capacity := by
      simpa [Queue.hasRoom] using room
    refine ⟨size, ?_, ?_, shared, ?_⟩
    · simpa [size, Nat.succ_le_iff] using room
    · simp [inOrder]
    · have more : Custody.unfinished
          { custody with
            queue := { custody.queue.count with jobs := custody.queue.jobs ++ [job] }
            accepted := custody.accepted ++ [job] } = custody.unfinished + 1 := by
        simp only [unfinished, List.length_append, List.length_singleton]
        omega
      rw [more, UInt64.ofNat_add, ← counter]
      rfl
  | @take job rest _ first =>
    rw [first] at bounded inOrder
    refine ⟨size, Nat.le_of_succ_le bounded, by simp [inOrder], ?_, ?_⟩
    · simpa only [← List.append_assoc] using shared.append_right [job]
    · rw [counter]
      congr 1
      simp only [unfinished, first, List.length_append, List.length_cons, List.length_nil]
      omega
  | @guard index job has =>
    have bare := cons_eraseIdx_perm has
    refine ⟨size, bounded, inOrder, ?_, ?_⟩
    · refine List.Perm.trans ?_ shared
      simpa using (bare.append_left custody.guarded).append_left custody.finished
    · rw [counter]
      congr 1
      have fewer := bare.length_eq
      simp only [unfinished, List.length_append, List.length_cons, List.length_nil] at fewer ⊢
      omega
  | @drop index job has =>
    have guarded := cons_eraseIdx_perm has
    refine ⟨size, bounded, inOrder, ?_, ?_⟩
    · refine List.Perm.trans ?_ shared
      simpa using (guarded.append_right custody.bare).append_left custody.finished
    · have fewer := guarded.length_eq
      have one : custody.unfinished = Custody.unfinished
          { custody with
            queue := custody.queue.finish
            guarded := custody.guarded.eraseIdx index
            finished := custody.finished ++ [job] } + 1 := by
        simp only [unfinished, Queue.finish, List.length_cons] at fewer ⊢
        omega
      exact sub_one_of_eq (counter.trans (congrArg UInt64.ofNat one))
  | close => exact ⟨size, bounded, inOrder, shared, counter⟩

theorem keeps_of_makeAll? {good : Custody → Prop}
    (keeps : ∀ {custody next move}, Moved custody move next → good custody → good next)
    (fine : good custody) (made : custody.makeAll? moves = some last) : good last := by
  induction moves generalizing custody with
  | nil =>
    cases made
    exact fine
  | cons move rest ih =>
    obtain ⟨next, first, others⟩ := Option.bind_eq_some_iff.mp made
    exact ih (keeps (make?_moved first) fine) others

theorem closed_of_makeAll? (made : custody.makeAll? moves = some last) :
    last.queue.closed = true ↔ custody.queue.closed = true ∨ .close ∈ moves := by
  induction moves generalizing custody with
  | nil =>
    cases made
    simp
  | cons move rest ih =>
    obtain ⟨next, first, others⟩ := Option.bind_eq_some_iff.mp made
    have now : next.queue.closed = true ↔ custody.queue.closed = true ∨ move = .close := by
      cases make?_moved first <;> simp [Queue.count, Queue.finish, Queue.close]
    rw [ih others, now, List.mem_cons, or_assoc, @eq_comm _ move]

structure Frozen (custody last : Custody) : Prop where
  closed : last.queue.closed = true
  accepted : last.accepted = custody.accepted
  popped : last.popped = custody.popped
  waiting : last.queue.jobs = custody.queue.jobs

theorem Moved.frozen {first : Custody} (moved : custody.Moved move next)
    (frozen : first.Frozen custody) : first.Frozen next := by
  have closed := frozen.closed
  cases moved with
  | refuse | wait => exact frozen
  | accept isOpen | take isOpen => cases isOpen.symm.trans closed
  | guard | drop => exact { frozen with }
  | close => exact { frozen with closed := rfl }

theorem Kept.push_iff (kept : custody.Kept capacity) (job : Job) :
    ((custody.queue.push job).2 = true ↔
      custody.queue.closed = false ∧ custody.queue.length < max 1 capacity) ∧
    ((custody.queue.push job).2 = false → (custody.queue.push job).1 = custody.queue) := by
  have room : custody.queue.hasRoom = true ↔ custody.queue.length < max 1 capacity := by
    simp [Queue.hasRoom, Queue.length, kept.size]
  rw [← room]
  cases closed : custody.queue.closed with
  | true => simp [Queue.push_of_closed closed]
  | false =>
    cases roomy : custody.queue.hasRoom with
    | true => simp [Queue.push_of_room closed roomy]
    | false => simp [Queue.push_of_full roomy]

-- What is handed out next is the first of the accepted jobs that was not.
theorem Kept.pop_eq (kept : custody.Kept capacity) : custody.queue.pop.map Prod.fst =
    if custody.queue.closed then none else custody.accepted[custody.popped.length]? := by
  rw [kept.inOrder, List.getElem?_append_right (Nat.le_refl _), Nat.sub_self]
  unfold Queue.pop Queue.take?
  cases custody.queue.closed <;> cases custody.queue.jobs <;> rfl

theorem Kept.length_finished (kept : custody.Kept capacity) :
    custody.finished.length + custody.unfinished = custody.accepted.length := by
  have shared := kept.shared.length_eq
  rw [kept.inOrder]
  simp only [unfinished, List.length_append] at shared ⊢
  omega

theorem Kept.finished_perm_iff (kept : custody.Kept capacity) :
    custody.finished.Perm custody.accepted ↔ custody.unfinished = 0 := by
  have length := kept.length_finished
  constructor
  · intro all
    have same := all.length_eq
    omega
  · intro none
    unfold unfinished at none
    have waiting : custody.queue.jobs = [] := List.eq_nil_of_length_eq_zero (by omega)
    have bare : custody.bare = [] := List.eq_nil_of_length_eq_zero (by omega)
    have guarded : custody.guarded = [] := List.eq_nil_of_length_eq_zero (by omega)
    simpa [kept.inOrder, waiting, bare, guarded] using kept.shared

theorem Kept.isQuiescent_iff (kept : custody.Kept capacity)
    (fits : custody.unfinished < UInt64.size) :
    custody.queue.inFlight.toNat = custody.unfinished ∧
      (custody.queue.isQuiescent = true ↔ custody.unfinished = 0) := by
  have precise : custody.queue.inFlight.toNat = custody.unfinished := by
    rw [kept.counter, UInt64.toNat_ofNat', Nat.mod_eq_of_lt fits]
  refine ⟨precise, ?_⟩
  simp only [Queue.isQuiescent, Queue.isEmpty, Bool.and_eq_true, List.isEmpty_iff, beq_iff_eq,
    ← UInt64.toNat_inj, precise]
  constructor
  · exact And.right
  · intro none
    refine ⟨List.eq_nil_of_length_eq_zero ?_, none⟩
    unfold unfinished at none
    omega

-- A queue is a bounded queue that serves first who came first. Whatever is done with it, it hands
-- out what it accepted, in that order; it accepts a job exactly if it is open and has fewer than
-- its capacity, and a job that it refuses leaves it as it is. Every job that was handed out is bare,
-- guarded or finished, once; the counter is the number of those that were accepted and are not
-- finished, and is counted down for no others. Once the queue is closed nothing is accepted and
-- nothing handed out, and guards still count down.
theorem queue_serves_in_order (made : (start capacity).makeAll? moves = some custody) :
    custody.accepted = custody.popped ++ custody.queue.jobs ∧
    (∀ job, ((custody.queue.push job).2 = true ↔
        custody.queue.closed = false ∧ custody.queue.length < max 1 capacity) ∧
      ((custody.queue.push job).2 = false → (custody.queue.push job).1 = custody.queue)) ∧
    custody.queue.pop.map Prod.fst =
      (if custody.queue.closed then none else custody.accepted[custody.popped.length]?) ∧
    custody.queue.length = custody.accepted.length - custody.popped.length ∧
    custody.queue.length ≤ max 1 capacity ∧
    (custody.finished ++ custody.guarded ++ custody.bare).Perm custody.popped ∧
    custody.finished.length ≤ custody.accepted.length ∧
    custody.queue.inFlight =
      UInt64.ofNat (custody.accepted.length - custody.finished.length) ∧
    (custody.accepted.length - custody.finished.length < UInt64.size →
      custody.queue.inFlight.toNat = custody.accepted.length - custody.finished.length ∧
        (custody.queue.isQuiescent = true ↔ custody.finished.Perm custody.accepted)) ∧
    (custody.queue.closed = true ↔ .close ∈ moves) ∧
    (∀ index job, custody.guarded[index]? = some job →
      ∃ next, custody.make? (.drop index) = some next ∧
        next.finished = custody.finished ++ [job] ∧
          next.queue.inFlight = custody.queue.inFlight - 1) ∧
    (.close ∈ moves → ∀ more last, custody.makeAll? more = some last →
      custody.Frozen last ∧ last.queue.inFlight =
        UInt64.ofNat (custody.accepted.length - last.finished.length)) := by
  have kept : custody.Kept capacity := keeps_of_makeAll? Moved.kept (kept_start capacity) made
  have left {custody : Custody} (kept : custody.Kept capacity) :
      custody.accepted.length - custody.finished.length = custody.unfinished := by
    have length := kept.length_finished
    omega
  have closed : custody.queue.closed = true ↔ .close ∈ moves := by
    simpa [start, Queue.ofCapacity] using closed_of_makeAll? made
  refine ⟨kept.inOrder, kept.push_iff, kept.pop_eq, ?_, kept.bounded, kept.shared, ?_, ?_, ?_, closed,
    ?_, ?_⟩
  case refine_1 => simp [Queue.length, kept.inOrder]
  case refine_2 =>
    have length := kept.length_finished
    omega
  case refine_3 =>
    rw [left kept]
    exact kept.counter
  case refine_4 =>
    rw [left kept, kept.finished_perm_iff]
    exact kept.isQuiescent_iff
  case refine_5 =>
    intro index job has
    simp [make?, has, Queue.finish]
  case refine_6 =>
    intro closes more last after
    have frozen : custody.Frozen last :=
      keeps_of_makeAll? Moved.frozen ⟨closed.mpr closes, rfl, rfl, rfl⟩ after
    have still : last.Kept capacity := keeps_of_makeAll? Moved.kept kept after
    refine ⟨frozen, ?_⟩
    rw [← frozen.accepted, left still]
    exact still.counter

def jobAt (name : String) : Job := .ofRoot (Path.ofString name)

def narrowMoves : List Move :=
  [.push (jobAt "/a"), .push (jobAt "/b"), .pop, .guard 0, .push (jobAt "/b"), .drop 0, .close,
    .push (jobAt "/c"), .pop]

theorem queue_serves_in_order_narrow :
    ∃ custody, (start 0).makeAll? narrowMoves = some custody ∧
      custody.accepted = [jobAt "/a", jobAt "/b"] ∧
      custody.accepted = custody.popped ++ custody.queue.jobs ∧
      custody.queue.inFlight.toNat = 1 ∧ custody.queue.isQuiescent = false := by
  have facts : ((start 0).makeAll? narrowMoves).map (fun custody =>
      (custody.accepted, custody.finished)) =
        some ([jobAt "/a", jobAt "/b"], [jobAt "/a"]) := by decide
  obtain ⟨custody, made, lists⟩ := Option.map_eq_some_iff.mp facts
  obtain ⟨accepted, finished⟩ := Prod.mk.inj lists
  obtain ⟨inOrder, _, _, _, _, _, _, _, counts, _⟩ := queue_serves_in_order made
  obtain ⟨precise, quiescent⟩ := counts (by rw [accepted, finished]; decide)
  refine ⟨custody, made, accepted, inOrder, by rw [precise, accepted, finished]; rfl, ?_⟩
  rw [← Bool.not_eq_true, quiescent, accepted, finished]
  decide

end Custody

end RepoFinder.Scan
