
namespace RepoFinder.Text

def digitChar (n : Nat) : Char := Char.ofNat (48 + n % 10)

def isDigit (c : Char) : Bool := '0' ≤ c && c ≤ '9'

def digitValue (c : Char) : Nat := c.toNat - 48

-- The decimal digits of a number, `fuel` of them at most, before the digits `tail`.
def digitsOnto (fuel n : Nat) (tail : List Char) : List Char :=
  match fuel with
  | 0 => tail
  | fuel + 1 =>
    if n < 10 then digitChar n :: tail else digitsOnto fuel (n / 10) (digitChar n :: tail)

def decimal (n : Nat) : List Char := digitsOnto (n + 1) n []

def padded (width n : Nat) : List Char :=
  let digits := decimal n
  List.replicate (width - digits.length) '0' ++ digits

def ofDigits (digits : List Char) : Nat :=
  digits.foldl (fun n c => n * 10 + digitValue c) 0

end RepoFinder.Text
