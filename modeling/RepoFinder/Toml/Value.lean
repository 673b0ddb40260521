
namespace RepoFinder.Toml

abbrev Key := List Char

inductive Value where
  | string (text : List Char)
  | integer (value : Int)
  | float
  | boolean (value : Bool)
  | date
  | array (items : List Value)
  | table (entries : List (Key × Value))
deriving Inhabited

namespace Value

def greatest : Int := 0x7FFFFFFFFFFFFFFF

def least : Int := -0x8000000000000000

def text? : Value → Option (List Char)
  | string text => some text
  | _ => none

def natural? (bound : Nat) : Value → Option Nat
  | integer (.ofNat n) => if n < bound then some n else none
  | _ => none

def items? : Value → Option (List Value)
  | array items => some items
  | _ => none

def entry? (entries : List (Key × Value)) (key : Key) : Option Value :=
  (entries.find? fun entry => entry.1 = key).map (·.2)

end Value

end RepoFinder.Toml
