import RepoFinder.Git.Line

namespace RepoFinder.Git

def valueOfDigit (c : Char) : Nat :=
  if c.isDigit then c.toNat - 48
  else if c.isLower then c.toNat - 87
  else if c.isUpper then c.toNat - 55
  else 99

-- The digits of a number at the front of a text, in the base that it shows: `0x` for sixteen, `0`
-- for eight.
def naturalFront (text : Line) : Option (Nat × Line) :=
  let (base, text) := match text with
    | '0' :: x :: rest => if x = 'x' || x = 'X' then (16, rest) else (8, '0' :: x :: rest)
    | '0' :: rest => (8, '0' :: rest)
    | text => (10, text)
  let isDigit (c : Char) : Bool := valueOfDigit c < base
  match text.takeWhile isDigit with
  | [] => none
  | digits =>
    some (digits.foldl (fun n c => n * base + valueOfDigit c) 0, text.dropWhile isDigit)

def isWord (bits : Nat) (n : Int) : Bool :=
  let bound : Int := ((1 <<< (bits - 1) : Nat) : Int)
  0 ≤ n + bound && n < bound

-- An integer with an optional sign and an optional unit: `k`, `m` or `g`. The number before the
-- unit is a word of 64 bits; multiplied by the unit, without those above the 64th, it is one of
-- 32.
def integer? (text : Line) : Option Int := do
  let (sign, text) := match Line.skipSpace text with
    | '-' :: rest => ((-1 : Int), rest)
    | '+' :: rest => (1, rest)
    | text => (1, text)
  let (n, rest) ← naturalFront text
  let unit ← match rest.map Char.toLower with
    | [] => some 1
    | ['k'] => some 1024
    | ['m'] => some (1024 * 1024)
    | ['g'] => some (1024 * 1024 * 1024)
    | _ => none
  let value := Int.bmod (sign * n * unit) UInt64.size
  if isWord 64 (sign * n) && isWord 32 value then some value else none

def truth? : Option Line → Option Bool
  | none => some true
  | some text =>
    let word := text.map Char.toLower
    if ["true", "yes", "on"].map String.toList |>.contains word then some true
    else if ["false", "no", "off", ""].map String.toList |>.contains word then some false
    else (integer? text).map (· ≠ 0)

end RepoFinder.Git
