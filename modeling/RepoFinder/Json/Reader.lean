import RepoFinder.Json.Basic
import RepoFinder.Text.Hexadecimal

namespace RepoFinder.Json

def isSpace (c : Char) : Bool := c = ' ' || c = '\n' || c = '\t' || c = '\r'

inductive Frame where
  | items (read : List Json)
  | fields (read : List (Option (List Char) × Json))
  | field (read : List (Option (List Char) × Json)) (key : Option (List Char))

inductive NumberPart where
  | minus
  | zero
  | integer
  | point
  | fraction
  | mark
  | markSign
  | exponent
deriving DecidableEq

def NumberPart.isComplete : NumberPart → Bool
  | zero => true
  | integer => true
  | fraction => true
  | exponent => true
  | _ => false

def NumberPart.extend (part : NumberPart) (c : Char) : Option NumberPart :=
  let digit := Text.isDigit c
  let isMark := c = 'e' || c = 'E'
  match part with
  | minus => if c = '0' then some zero else if digit then some integer else none
  | zero => if c = '.' then some point else if isMark then some mark else none
  | integer =>
    if digit then some integer else if c = '.' then some point
    else if isMark then some mark else none
  | point => if digit then some fraction else none
  | fraction => if digit then some fraction else if isMark then some mark else none
  | mark => if digit then some exponent else if c = '+' || c = '-' then some markSign else none
  | markSign => if digit then some exponent else none
  | exponent => if digit then some exponent else none

inductive StringPart where
  | plain
  | escaped
  -- Inside a `\u` escape that still needs `missing + 1` digits.
  | hex (missing : Nat) (value : Nat)
deriving DecidableEq

inductive Mode where
  | value
  | valueOrClose
  | comma
  | key
  | keyOrClose
  | colon
  | string (isKey : Bool) (part : StringPart) (units : List Nat)
  | number (part : NumberPart) (spelled : List Char)
  | word (rest : List Char) (value : Json)
  | done (value : Json)

structure State where
  frames : List Frame
  mode : Mode

namespace State

def start : State := ⟨[], .value⟩

def complete (frames : List Frame) (value : Json) : State :=
  match frames with
  | [] => ⟨[], .done value⟩
  | .items read :: rest => ⟨.items (value :: read) :: rest, .comma⟩
  | .field read key :: rest => ⟨.fields ((key, value) :: read) :: rest, .comma⟩
  | .fields read :: rest => ⟨.fields read :: rest, .comma⟩

def close (frames : List Frame) (c : Char) : Option State :=
  match frames, c with
  | .items read :: rest, ']' => some (complete rest (.array read.reverse))
  | .fields read :: rest, '}' => some (complete rest (.object read.reverse))
  | _, _ => none

def beginValue (frames : List Frame) (c : Char) : Option State :=
  match c with
  | '"' => some ⟨frames, .string false .plain []⟩
  | '[' => some ⟨.items [] :: frames, .valueOrClose⟩
  | '{' => some ⟨.fields [] :: frames, .keyOrClose⟩
  | 't' => some ⟨frames, .word ['r', 'u', 'e'] (.bool true)⟩
  | 'f' => some ⟨frames, .word ['a', 'l', 's', 'e'] (.bool false)⟩
  | 'n' => some ⟨frames, .word ['u', 'l', 'l'] .null⟩
  | '-' => some ⟨frames, .number .minus ['-']⟩
  | '0' => some ⟨frames, .number .zero ['0']⟩
  | c => if Text.isDigit c then some ⟨frames, .number .integer [c]⟩ else none

end State

def isHighSurrogate (unit : Nat) : Bool := 0xD800 ≤ unit && unit ≤ 0xDBFF

def isLowSurrogate (unit : Nat) : Bool := 0xDC00 ≤ unit && unit ≤ 0xDFFF

def joinUnits : List Nat → Option (List Char)
  | [] => some []
  | unit :: rest =>
    if isHighSurrogate unit then
      match rest with
      | low :: rest =>
        if isLowSurrogate low then
          (joinUnits rest).map
            (Char.ofNat (0x10000 + (unit - 0xD800) * 0x400 + (low - 0xDC00)) :: ·)
        else none
      | [] => none
    else if isLowSurrogate unit then none
    else (joinUnits rest).map (Char.ofNat unit :: ·)

def escapeUnit? (c : Char) : Option Nat :=
  match c with
  | '"' => some 0x22
  | '\\' => some 0x5C
  | '/' => some 0x2F
  | 'b' => some 8
  | 'f' => some 12
  | 'n' => some 10
  | 'r' => some 13
  | 't' => some 9
  | _ => none

namespace State

def endString (frames : List Frame) (isKey : Bool) (text : Option (List Char)) : Option State :=
  if isKey then
    match frames with
    | .fields read :: rest => some ⟨.field read text :: rest, .colon⟩
    | _ => none
  else some (complete frames (.string text))

def stepString (frames : List Frame) (isKey : Bool) (part : StringPart) (units : List Nat)
    (c : Char) : Option State :=
  match part with
  | .plain =>
    if c = '"' then endString frames isKey (joinUnits units.reverse)
    else if c = '\\' then some ⟨frames, .string isKey .escaped units⟩
    else if c.toNat < 0x20 then none
    else some ⟨frames, .string isKey .plain (c.toNat :: units)⟩
  | .escaped =>
    if c = 'u' then some ⟨frames, .string isKey (.hex 3 0) units⟩
    else (escapeUnit? c).map fun unit => ⟨frames, .string isKey .plain (unit :: units)⟩
  | .hex missing value =>
    (Text.hexValue? c).map fun digit =>
      let value := value * 16 + digit
      match missing with
      | 0 => ⟨frames, .string isKey .plain (value :: units)⟩
      | more + 1 => ⟨frames, .string isKey (.hex more value) units⟩

def stepBetween (state : State) (c : Char) : Option State :=
  if isSpace c then some state
  else match state.mode with
    | .value => beginValue state.frames c
    | .valueOrClose => if c = ']' then close state.frames c else beginValue state.frames c
    | .comma =>
      if c = ',' then
        match state.frames with
        | .items _ :: _ => some ⟨state.frames, .value⟩
        | .fields _ :: _ => some ⟨state.frames, .key⟩
        | _ => none
      else close state.frames c
    | .key => if c = '"' then some ⟨state.frames, .string true .plain []⟩ else none
    | .keyOrClose =>
      if c = '"' then some ⟨state.frames, .string true .plain []⟩ else close state.frames c
    | .colon => if c = ':' then some ⟨state.frames, .value⟩ else none
    | _ => none

-- One character. A number ends before a character that does not continue it.
def step (state : State) (c : Char) : Option State :=
  match state.mode with
  | .string isKey part units => stepString state.frames isKey part units c
  | .number part spelled =>
    match part.extend c with
    | some part => some ⟨state.frames, .number part (c :: spelled)⟩
    | none =>
      if part.isComplete then
        stepBetween (complete state.frames (.number spelled.reverse)) c
      else none
  | .word rest value =>
    match rest with
    | [] => none
    | [last] => if c = last then some (complete state.frames value) else none
    | next :: rest => if c = next then some ⟨state.frames, .word rest value⟩ else none
  | _ => stepBetween state c

def run (state : State) : List Char → Option State
  | [] => some state
  | c :: rest => match state.step c with
    | none => none
    | some next => run next rest

def value? (state : State) : Option Json :=
  match state.mode with
  | .done value => some value
  | .number part spelled =>
    if part.isComplete && state.frames.isEmpty then some (.number spelled.reverse) else none
  | _ => none

end State

def parse? (text : List Char) : Option Json := (State.start.run text).bind State.value?

end RepoFinder.Json
