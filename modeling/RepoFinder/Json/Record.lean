import RepoFinder.Json.Basic
import RepoFinder.Text.Decimal

namespace RepoFinder.Json

def valuesOf (fields : List (Option (List Char) × Json)) (key : List Char) : List Json :=
  (fields.filter fun field => field.1 = some key).map (·.2)

def fieldOf (fields : List (Option (List Char) × Json)) (key : List Char) :
    Option (Option Json) :=
  match valuesOf fields key with
  | [] => some none
  | [value] => some (some value)
  | _ => none

def record? (keys : List (List Char)) : Json → Option (List (Option Json))
  | object fields =>
    if fields.all (·.1.isSome) then keys.mapM (fieldOf fields) else none
  | array items =>
    if items.length ≤ keys.length then
      some (items.map some ++ List.replicate (keys.length - items.length) none)
    else none
  | _ => none

def text? : Json → Option (List Char)
  | string text => text
  | _ => none

def bool? : Json → Option Bool
  | bool value => some value
  | _ => none

def items? : Json → Option (List Json)
  | array items => some items
  | _ => none

def natural? (bound : Nat) : Json → Option Nat
  | number literal =>
    if literal.all Text.isDigit then
      let n := Text.ofDigits literal
      if n < bound then some n else none
    else none
  | _ => none

def ofNat (n : Nat) : Json := number (Text.decimal n)

end RepoFinder.Json
