
namespace RepoFinder.Text.Utf8

-- Where the automaton stands: between scalar values, or inside a sequence that still needs
-- `missing + 1` bytes, of which the next must lie between `low` and `high`.
inductive State where
  | between
  | inside (missing : Nat) (low high : UInt8) (value : Nat)
deriving DecidableEq, Repr

abbrev Piece := Option Char

def start (b : UInt8) : List Piece × State :=
  if b < 0x80 then ([some (Char.ofNat b.toNat)], .between)
  else if b < 0xC2 then ([none], .between)
  else if b < 0xE0 then ([], .inside 0 0x80 0xBF (b.toNat - 0xC0))
  else if b = 0xE0 then ([], .inside 1 0xA0 0xBF 0)
  else if b = 0xED then ([], .inside 1 0x80 0x9F 0xD)
  else if b < 0xF0 then ([], .inside 1 0x80 0xBF (b.toNat - 0xE0))
  else if b = 0xF0 then ([], .inside 2 0x90 0xBF 0)
  else if b < 0xF4 then ([], .inside 2 0x80 0xBF (b.toNat - 0xF0))
  else if b = 0xF4 then ([], .inside 2 0x80 0x8F 4)
  else ([none], .between)

-- One byte. A byte that cannot continue the open sequence ends it as ill-formed and is then read
-- afresh.
def step (state : State) (b : UInt8) : List Piece × State :=
  match state with
  | .between => start b
  | .inside missing low high value =>
    if low ≤ b && b ≤ high then
      let value := value * 64 + (b.toNat - 0x80)
      match missing with
      | 0 => ([some (Char.ofNat value)], .between)
      | more + 1 => ([], .inside more 0x80 0xBF value)
    else
      let (pieces, next) := start b
      (none :: pieces, next)

def piecesFrom (state : State) : List UInt8 → List Piece
  | [] => match state with
    | .between => []
    | .inside .. => [none]
  | b :: rest =>
    let (pieces, next) := step state b
    pieces ++ piecesFrom next rest

def pieces (bytes : List UInt8) : List Piece := piecesFrom .between bytes

def decode? (bytes : List UInt8) : Option (List Char) := (pieces bytes).mapM id

def replacement : Char := Char.ofNat 0xFFFD

def decodeLossy (bytes : List UInt8) : List Char := (pieces bytes).map (·.getD replacement)

def encode (text : List Char) : List UInt8 := text.flatMap String.utf8EncodeChar

def ofString (s : String) : List UInt8 := encode s.toList

def decodeString? (bytes : List UInt8) : Option String := (decode? bytes).map String.ofList

def decodeStringLossy (bytes : List UInt8) : String := String.ofList (decodeLossy bytes)

end RepoFinder.Text.Utf8
