import RepoFinder.Path.Basic

namespace RepoFinder.Scan

structure Job where
  path : Path
  depth : Nat
deriving DecidableEq, Repr

namespace Job

def ofRoot (path : Path) : Job := ⟨path, 0⟩

def child (job : Job) (path : Path) : Job := ⟨path, job.depth + 1⟩

end Job

structure Queue where
  capacity : Nat
  jobs : List Job
  -- Counts the jobs from just before they are sent until the worker that took them has finished.
  inFlight : UInt64
  closed : Bool

namespace Queue

def usualCapacity : Nat := 10000

def ofCapacity (capacity : Nat) : Queue := ⟨max 1 capacity, [], 0, false⟩

def length (q : Queue) : Nat := q.jobs.length

def isEmpty (q : Queue) : Bool := q.jobs.isEmpty

def hasRoom (q : Queue) : Bool := q.jobs.length < q.capacity

def count (q : Queue) : Queue := { q with inFlight := q.inFlight + 1 }

def finish (q : Queue) : Queue := { q with inFlight := q.inFlight - 1 }

def send? (q : Queue) (job : Job) : Option Queue :=
  if q.hasRoom then some { q with jobs := q.jobs ++ [job] } else none

def take? (q : Queue) : Option (Job × Queue) :=
  match q.jobs with
  | [] => none
  | job :: rest => some (job, { q with jobs := rest })

def push (q : Queue) (job : Job) : Queue × Bool :=
  if q.closed then (q, false)
  else match q.count.send? job with
    | some sent => (sent, true)
    | none => (q.count.finish, false)

theorem finish_count (q : Queue) : q.count.finish = q := by
  simp [count, finish]

theorem push_of_closed {q : Queue} (closed : q.closed = true) (job : Job) :
    q.push job = (q, false) := by
  simp [push, closed]

theorem push_of_full {q : Queue} (full : q.hasRoom = false) (job : Job) :
    q.push job = (q, false) := by
  have same : q.count.hasRoom = false := full
  simp [push, send?, same, finish_count]

theorem push_of_room {q : Queue} (isOpen : q.closed = false) (room : q.hasRoom = true) (job : Job) :
    q.push job = ({ q.count with jobs := q.jobs ++ [job] }, true) := by
  have same : q.count.hasRoom = true := room
  have sent : q.count.send? job = some { q.count with jobs := q.jobs ++ [job] } := by
    unfold send?
    rw [if_pos same]
    rfl
  simp [push, isOpen, sent]

def pop (q : Queue) : Option (Job × Queue) := if q.closed then none else q.take?

def close (q : Queue) : Queue := { q with closed := true }

def isQuiescent (q : Queue) : Bool := q.isEmpty && q.inFlight == 0

end Queue

end RepoFinder.Scan
