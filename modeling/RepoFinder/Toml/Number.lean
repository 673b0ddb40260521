import RepoFinder.Time.Calendar
import RepoFinder.Toml.Text
import RepoFinder.Toml.Value

namespace RepoFinder.Toml

def digits (isDigit : Char → Bool) : (more : Bool) → Reader (List Char)
  | _, [] => none
  | true, '_' :: rest => digits isDigit false rest
  | _, c :: rest =>
    if isDigit c then
      match rest with
      | next :: _ =>
        if isDigit next || next = '_' then
          (digits isDigit true rest).map fun (read, rest) => (c :: read, rest)
        else some ([c], rest)
      | [] => some ([c], [])
    else none

def isHexDigit (c : Char) : Bool := (Text.hexValue? c).isSome

def valueIn (base : Nat) (digits : List Char) : Nat :=
  digits.foldl (fun n c => n * base + (Text.hexValue? c).getD 0) 0

def sign : List Char → Bool × List Char
  | '-' :: rest => (true, rest)
  | '+' :: rest => (false, rest)
  | text => (false, text)

def decimalDigits : Reader (List Char)
  | '0' :: rest => some (['0'], rest)
  | text => digits Text.isDigit false text

def decimalInteger : Reader Int := fun text =>
  let (negative, rest) := sign text
  (decimalDigits rest).map fun (digits, rest) =>
    let n : Int := Text.ofDigits digits
    (if negative then -n else n, rest)

def integer : Reader Value := fun text => do
  let (n, rest) ← match text with
    | '0' :: 'x' :: rest =>
      (digits isHexDigit false rest).map fun (d, rest) => ((valueIn 16 d : Int), rest)
    | '0' :: 'o' :: rest =>
      (digits (fun c => '0' ≤ c && c ≤ '7') false rest).map fun (d, rest) =>
        ((valueIn 8 d : Int), rest)
    | '0' :: 'b' :: rest =>
      (digits (fun c => c = '0' || c = '1') false rest).map fun (d, rest) =>
        ((valueIn 2 d : Int), rest)
    | text => decimalInteger text
  if Value.least ≤ n && n ≤ Value.greatest then some (.integer n, rest) else none

def exponent? : Reader Int
  | c :: rest =>
    if c = 'e' || c = 'E' then
      let (negative, rest) := sign rest
      (digits Text.isDigit false rest).map fun (digits, rest) =>
        let n : Int := Text.ofDigits digits
        (if negative then -n else n, rest)
    else none
  | [] => none

-- Whether a decimal number is too great for a binary number of double precision: whether it lies
-- at or above the middle between the greatest one and the next power of two.
def exceedsDouble (digits : List Char) (exponent : Int) : Bool :=
  let n := Text.ofDigits digits
  if n = 0 then false
  else
    let length : Int := (Text.decimal n).length
    if 320 < length + exponent then true
    else if length + exponent < 300 then false
    else
      let limit := (1 <<< 1024) - (1 <<< 970)
      match exponent with
      | .ofNat e => limit ≤ n * Nat.pow 10 e
      | .negSucc e => limit * Nat.pow 10 (e + 1) ≤ n

def word? (word : List Char) (text : List Char) : Option (List Char) :=
  if word.isPrefixOf text then some (text.drop word.length) else none

-- A floating-point number: decimal with a fraction, an exponent or both, or a word for infinity
-- or for no number. A positive number that is too great is none.
def float : Reader Value := fun text =>
  let (negative, unsigned) := sign text
  match word? ['i', 'n', 'f'] unsigned, word? ['n', 'a', 'n'] unsigned with
  | some rest, _ => some (.float, rest)
  | none, some rest => some (.float, rest)
  | none, none => do
    let (whole, rest) ← decimalDigits unsigned
    let (fraction, rest, hasFraction) ← match rest with
      | '.' :: rest => (digits Text.isDigit false rest).map fun (d, rest) => (d, rest, true)
      | rest => some ([], rest, false)
    let (exponent, rest) ← match exponent? rest with
      | some read => some read
      | none => match rest with
        | 'e' :: _ => none
        | 'E' :: _ => none
        | rest => if hasFraction then some (0, rest) else none
    if !negative && exceedsDouble (whole ++ fraction) (exponent - fraction.length) then none
    else some (.float, rest)

def fixed (width least greatest : Nat) : Reader Nat := fun text =>
  let digits := (text.take width).takeWhile Text.isDigit
  if digits.length = width then
    let n := Text.ofDigits digits
    if least ≤ n && n ≤ greatest then some (n, text.drop width) else none
  else none

def char? (c : Char) : List Char → Option (List Char)
  | first :: rest => if first = c then some rest else none
  | [] => none

def skipDate? (text : List Char) : Option (List Char) := do
  let (year, text) ← fixed 4 0 9999 text
  let text ← char? '-' text
  let (month, text) ← fixed 2 1 12 text
  let text ← char? '-' text
  let (_, text) ← fixed 2 1 (Time.Date.daysInMonth year month) text
  return text

def skipTime? (text : List Char) : Option (List Char) := do
  let (_, text) ← fixed 2 0 23 text
  let text ← char? ':' text
  let (_, text) ← fixed 2 0 59 text
  let text ← char? ':' text
  let (_, text) ← fixed 2 0 60 text
  match text with
  | '.' :: rest => match rest.takeWhile Text.isDigit with
    | [] => some text
    | _ => some (rest.dropWhile Text.isDigit)
  | text => some text

def skipOffset? (text : List Char) : Option (List Char) :=
  match text with
  | 'Z' :: rest => some rest
  | 'z' :: rest => some rest
  | c :: rest =>
    if c = '+' || c = '-' then do
      let (_, text) ← fixed 2 0 23 rest
      let text ← char? ':' text
      let (_, text) ← fixed 2 0 59 text
      return text
    else none
  | [] => none

def date : Reader Value := fun text =>
  match skipDate? text with
  | some rest =>
    let timed := match rest with
      | c :: rest => if c = 'T' || c = 't' || c = ' ' then skipTime? rest else none
      | [] => none
    match timed with
    | none => some (.date, rest)
    | some rest => some (.date, (skipOffset? rest).getD rest)
  | none => (skipTime? text).map fun rest => (.date, rest)

def number : Reader Value := fun text => (date text).or ((float text).or (integer text))

end RepoFinder.Toml
