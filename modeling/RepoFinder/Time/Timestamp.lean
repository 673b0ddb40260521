import RepoFinder.Time.Calendar

namespace RepoFinder.Time

def nanosPerSecond : Nat := 1000000000

def secondsPerDay : Int := 86400

structure Duration where
  seconds : Nat
  nanos : Nat
deriving DecidableEq, Repr, Inhabited

namespace Duration

def ofSeconds (seconds : Nat) : Duration := ⟨seconds, 0⟩

def toNanos (d : Duration) : Nat := d.seconds * nanosPerSecond + d.nanos

def ofNanos (n : Nat) : Duration := ⟨n / nanosPerSecond, n % nanosPerSecond⟩

def isZero (d : Duration) : Bool := d.seconds == 0 && d.nanos == 0

def lt (a b : Duration) : Bool := a.toNanos < b.toNanos

def toMillis (d : Duration) : Nat := d.seconds * 1000 + d.nanos / 1000000

def roundToSeconds (d : Duration) : Nat :=
  if 500000000 ≤ d.nanos then d.seconds + 1 else d.seconds

end Duration

structure Timestamp where
  seconds : Int
  -- Runs on past one second while a leap second lasts.
  nanos : Nat
deriving DecidableEq, Repr, Inhabited

namespace Timestamp

def epoch : Timestamp := ⟨0, 0⟩

def dayNumber (t : Timestamp) : Int := t.seconds / secondsPerDay

def secondOfDay (t : Timestamp) : Int := t.seconds % secondsPerDay

def isLeapSecond (t : Timestamp) : Bool := nanosPerSecond ≤ t.nanos

def date (t : Timestamp) : Date := Date.ofDayNumber t.dayNumber

-- The seconds between two times of day, a leap second of the earlier one counted.
def secondsBetween (start stop : Timestamp) : Int :=
  let seconds := stop.secondOfDay - start.secondOfDay
  if start.secondOfDay < stop.secondOfDay && start.isLeapSecond then seconds + 1
  else if stop.secondOfDay < start.secondOfDay && stop.isLeapSecond then seconds - 1
  else seconds

def nanosBetween (start stop : Timestamp) : Int :=
  ((stop.dayNumber - start.dayNumber) * secondsPerDay + secondsBetween start stop)
      * (nanosPerSecond : Int)
    + ((stop.nanos : Int) - (start.nanos : Int))

def age (t now : Timestamp) : Duration := Duration.ofNanos (nanosBetween t now).toNat

def inRange (t : Timestamp) : Bool :=
  let first := Date.toDayNumber ⟨Date.firstYear, 1, 1⟩
  let last := Date.toDayNumber ⟨Date.lastYear, 12, 31⟩
  first ≤ t.dayNumber && t.dayNumber ≤ last

-- A moment that a clock can show: its year has a place in the calendar, and only the last second
-- of a minute runs on.
structure IsMoment (t : Timestamp) : Prop where
  inRange : t.inRange = true
  steady : t.nanos < nanosPerSecond ∨ t.nanos < 2 * nanosPerSecond ∧ t.seconds % 60 = 59

instance (t : Timestamp) : Decidable t.IsMoment :=
  decidable_of_iff
    (t.inRange = true ∧
      (t.nanos < nanosPerSecond ∨ t.nanos < 2 * nanosPerSecond ∧ t.seconds % 60 = 59))
    ⟨fun both => ⟨both.1, both.2⟩, fun moment => ⟨moment.inRange, moment.steady⟩⟩

end Timestamp

end RepoFinder.Time
