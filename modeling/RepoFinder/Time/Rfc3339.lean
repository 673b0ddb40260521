import RepoFinder.Text.Blank
import RepoFinder.Text.Decimal
import RepoFinder.Time.Timestamp

namespace RepoFinder.Time

open RepoFinder.Text

namespace Rfc3339

def renderYear (year : Int) : List Char :=
  match year with
  | .ofNat n => if n ≤ 9999 then padded 4 n else '+' :: padded 4 n
  | .negSucc n => '-' :: padded 4 (n + 1)

def renderFraction (nanos : Nat) : List Char :=
  if nanos = 0 then []
  else if nanos % 1000000 = 0 then '.' :: padded 3 (nanos / 1000000)
  else if nanos % 1000 = 0 then '.' :: padded 6 (nanos / 1000)
  else '.' :: padded 9 nanos

def render (t : Timestamp) : List Char :=
  let date := t.date
  let second := t.secondOfDay.toNat
  let leap := if t.isLeapSecond then 1 else 0
  renderYear date.year ++ '-' :: padded 2 date.month ++ '-' :: padded 2 date.day
    ++ 'T' :: padded 2 (second / 3600) ++ ':' :: padded 2 (second / 60 % 60)
    ++ ':' :: padded 2 (second % 60 + leap)
    ++ renderFraction (t.nanos - leap * nanosPerSecond) ++ ['Z']

abbrev Reader (α : Type) := List Char → Option (α × List Char)

def number (width : Nat) : Reader Nat := fun text =>
  match (text.take width).takeWhile isDigit with
  | [] => none
  | digits => some (ofDigits digits, text.drop digits.length)

def longNumber : Reader Nat := fun text => number text.length text

def blankNumber (width : Nat) : Reader Nat := fun text => number width (trimStart text)

-- A year after optional blanks: up to four digits, or a sign and any number of digits.
def year : Reader Int := fun text =>
  match trimStart text with
  | '-' :: rest => (longNumber rest).map fun (n, rest) => (-(n : Int), rest)
  | '+' :: rest => (longNumber rest).map fun (n, rest) => ((n : Int), rest)
  | text => (number 4 text).map fun (n, rest) => ((n : Int), rest)

def mark (c : Char) (text : List Char) : Option (List Char) :=
  match trimStart text with
  | first :: rest => if first = c then some rest else none
  | [] => none

def date : Reader Date := fun text => do
  let (year, text) ← year text
  let text ← mark '-' text
  let (month, text) ← blankNumber 2 text
  let text ← mark '-' text
  let (day, text) ← blankNumber 2 text
  return (⟨year, month, day⟩, text)

def nineDigits (digits : List Char) : List Char :=
  digits.take 9 ++ List.replicate (9 - digits.length) '0'

def fraction : Reader Nat := fun text =>
  match text with
  | '.' :: rest =>
    match rest.takeWhile isDigit with
    | [] => none
    | digits => some (ofDigits (nineDigits digits), rest.dropWhile isDigit)
  | text => some (0, text)

structure TimeOfDay where
  hour : Nat
  minute : Nat
  second : Nat
  nanos : Nat

def timeOfDay : Reader TimeOfDay := fun text => do
  let (hour, text) ← blankNumber 2 text
  let text ← mark ':' text
  let (minute, text) ← blankNumber 2 text
  let text ← mark ':' text
  let (second, text) ← blankNumber 2 text
  let (nanos, text) ← fraction text
  return (⟨hour, minute, second, nanos⟩, text)

def minusSign : Char := Char.ofNat 0x2212

def signedOffset (negative : Bool) : Reader Int := fun text => do
  match text with
  | h₁ :: h₂ :: rest =>
    match rest.dropWhile fun c => c == ':' || isBlank c with
    | m₁ :: m₂ :: rest =>
      if isDigit h₁ && isDigit h₂ && isDigit m₁ && isDigit m₂ && m₁ ≤ '5' then
        let seconds : Int := ofDigits [h₁, h₂] * 3600 + ofDigits [m₁, m₂] * 60
        some (if negative then -seconds else seconds, rest)
      else none
    | _ => none
  | _ => none

def offset : Reader Int := fun text =>
  match trimStart text with
  | 'Z' :: rest => some (0, rest)
  | 'z' :: rest => some (0, rest)
  | '+' :: rest => signedOffset false rest
  | '-' :: rest => signedOffset true rest
  | first :: second :: third :: rest =>
    if [first.toLower, second.toLower, third.toLower] = ['u', 't', 'c'] then some (0, rest)
    else if first = minusSign then signedOffset true (second :: third :: rest)
    else none
  | _ => none

def moment? (date : Date) (time : TimeOfDay) (offset : Int) : Option Timestamp :=
  if date.isValid && Date.firstYear ≤ date.year && date.year ≤ Date.lastYear
      && time.hour ≤ 23 && time.minute ≤ 59 && time.second ≤ 60
      && -secondsPerDay < offset && offset < secondsPerDay then
    let leap := time.second / 60
    let local_ : Int := time.hour * 3600 + time.minute * 60 + (time.second - leap : Nat)
    let moment : Timestamp :=
      ⟨date.toDayNumber * secondsPerDay + local_ - offset, time.nanos + leap * nanosPerSecond⟩
    if moment.inRange then some moment else none
  else none

def parse? (text : List Char) : Option Timestamp := do
  let (date, text) ← date text
  let text ← match text with
    | c :: rest => if c = 'T' || c = 't' || c = ' ' then some rest else none
    | [] => none
  let (time, text) ← timeOfDay text
  let (offset, text) ← offset text
  if (trimStart text).isEmpty then moment? date time offset else none

end Rfc3339

end RepoFinder.Time
