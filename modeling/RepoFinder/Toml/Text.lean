import RepoFinder.Text.Hexadecimal

namespace RepoFinder.Toml

abbrev Reader (α : Type) := List Char → Option (α × List Char)

def isBlank (c : Char) : Bool := c = ' ' || c = '\t'

def skipBlanks (text : List Char) : List Char := text.dropWhile isBlank

def isPlain (c : Char) : Bool := c = '\t' || (0x20 ≤ c.toNat && c.toNat ≠ 0x7F)

def lineEnd? : List Char → Option (List Char)
  | '\n' :: rest => some rest
  | '\r' :: '\n' :: rest => some rest
  | _ => none

def skipComment : List Char → List Char
  | '#' :: rest => rest.dropWhile isPlain
  | text => text

def lineRest? (text : List Char) : Option (List Char) :=
  match skipComment (skipBlanks text) with
  | [] => some []
  | text => lineEnd? text

def charOfCode? (code : Nat) : Option Char :=
  if code < 0xD800 || (0xDFFF < code && code < 0x110000) then some (Char.ofNat code) else none

def escapeOf? (c : Char) : Option Char :=
  match c with
  | 'b' => some (Char.ofNat 8)
  | 't' => some '\t'
  | 'n' => some '\n'
  | 'f' => some (Char.ofNat 12)
  | 'r' => some '\r'
  | '"' => some '"'
  | '\\' => some '\\'
  | _ => none

inductive QuotePart where
  | plain
  | escaped
  | code (missing : Nat) (value : Nat)
  | carriage
  | quotes (count : Nat)
  -- Behind a backslash and blanks, before the line end that they are to hide.
  | hiding
  -- Behind a hidden line end; more blanks and line ends are hidden with it.
  | hidden
  | hiddenCarriage

def stepEscape (manyLines : Bool) (read : List Char) (c : Char) : Option (QuotePart × List Char) :=
  if c = 'u' then some (.code 3 0, read)
  else if c = 'U' then some (.code 7 0, read)
  else match escapeOf? c with
    | some escaped => some (.plain, escaped :: read)
    | none =>
      if manyLines then
        if isBlank c then some (.hiding, read)
        else if c = '\n' then some (.hidden, read)
        else if c = '\r' then some (.hiddenCarriage, read)
        else none
      else none

def stepCode (missing value : Nat) (read : List Char) (c : Char) :
    Option (QuotePart × List Char) := do
  let value := value * 16 + (← Text.hexValue? c)
  match missing with
  | 0 => return (.plain, (← charOfCode? value) :: read)
  | more + 1 => return (.code more value, read)

def shortRest (quote : Char) (part : QuotePart) (read : List Char) : Reader (List Char)
  | [] => none
  | c :: rest =>
    match part with
    | .escaped => match stepEscape false read c with
      | none => none
      | some (part, read) => shortRest quote part read rest
    | .code missing value => match stepCode missing value read c with
      | none => none
      | some (part, read) => shortRest quote part read rest
    | _ =>
      if c = quote then some (read.reverse, rest)
      else if c = '\\' && quote = '"' then shortRest quote .escaped read rest
      else if isPlain c then shortRest quote .plain (c :: read) rest
      else none

def stepPlain (quote : Char) (read : List Char) (c : Char) : Option (QuotePart × List Char) :=
  if c = quote then some (.quotes 1, read)
  else if c = '\\' && quote = '"' then some (.escaped, read)
  else if c = '\n' then some (.plain, '\n' :: read)
  else if c = '\r' then some (.carriage, read)
  else if isPlain c then some (.plain, c :: read)
  else none

def stepLong (quote : Char) (part : QuotePart) (read : List Char) (c : Char) :
    Option (QuotePart × List Char) :=
  match part with
  | .plain => stepPlain quote read c
  | .quotes _ => stepPlain quote read c
  | .escaped => stepEscape true read c
  | .code missing value => stepCode missing value read c
  | .carriage => if c = '\n' then some (.plain, '\n' :: read) else none
  | .hiding =>
    if isBlank c then some (.hiding, read)
    else if c = '\n' then some (.hidden, read)
    else if c = '\r' then some (.hiddenCarriage, read)
    else none
  | .hidden =>
    if isBlank c || c = '\n' then some (.hidden, read)
    else if c = '\r' then some (.hiddenCarriage, read)
    else stepPlain quote read c
  | .hiddenCarriage => if c = '\n' then some (.hidden, read) else none

-- The rest of a text on many lines. Three quotes end it; up to two more belong to it.
def longRest (quote : Char) (part : QuotePart) (read : List Char) : Reader (List Char)
  | [] => match part with
    | .quotes count =>
      if 3 ≤ count then some ((List.replicate (count - 3) quote ++ read).reverse, []) else none
    | _ => none
  | c :: rest =>
    match part with
    | .quotes count =>
      if c = quote && count < 5 then longRest quote (.quotes (count + 1)) read rest
      else if 3 ≤ count then
        some ((List.replicate (count - 3) quote ++ read).reverse, c :: rest)
      else match stepPlain quote (List.replicate count quote ++ read) c with
        | none => none
        | some (part, read) => longRest quote part read rest
    | part => match stepLong quote part read c with
      | none => none
      | some (part, read) => longRest quote part read rest

def longText (quote : Char) (text : List Char) : Option (List Char × List Char) :=
  longRest quote .plain [] ((lineEnd? text).getD text)

def quotedText : Reader (List Char)
  | '"' :: '"' :: '"' :: rest => longText '"' rest
  | '\'' :: '\'' :: '\'' :: rest => longText '\'' rest
  | '"' :: rest => shortRest '"' .plain [] rest
  | '\'' :: rest => shortRest '\'' .plain [] rest
  | _ => none

def isKeyChar (c : Char) : Bool := c.isAlphanum || c = '_' || c = '-'

def keyPart : Reader (List Char)
  | '"' :: rest => shortRest '"' .plain [] rest
  | '\'' :: rest => shortRest '\'' .plain [] rest
  | text => match text.takeWhile isKeyChar with
    | [] => none
    | key => some (key, text.dropWhile isKeyChar)

def keyParts : (most : Nat) → Reader (List (List Char))
  | 0, _ => none
  | most + 1, text =>
    match keyPart (skipBlanks text) with
    | none => none
    | some (key, rest) => match skipBlanks rest with
      | '.' :: rest => (keyParts most rest).map fun (keys, rest) => (key :: keys, rest)
      | rest => some ([key], rest)

def mostNested : Nat := 79

def key : Reader (List (List Char)) := keyParts mostNested

end RepoFinder.Toml
