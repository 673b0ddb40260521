import RepoFinder.Toml.Document
import RepoFinder.Toml.Number

namespace RepoFinder.Toml

def skipLines : (lines : Nat) → List Char → Option (List Char)
  | 0, text => some (skipBlanks text)
  | lines + 1, text =>
    match skipBlanks text with
    | '#' :: rest => (lineEnd? (rest.dropWhile isPlain)).bind (skipLines lines)
    | '\n' :: rest => skipLines lines rest
    | '\r' :: rest => (lineEnd? ('\r' :: rest)).bind (skipLines lines)
    | text => some text

def skipAll (text : List Char) : Option (List Char) := skipLines text.length text

def arrayRest (value : Reader Value) : (most : Nat) → Reader (List Value)
  | 0, _ => none
  | most + 1, text =>
    match skipAll text with
    | none => none
    | some (']' :: rest) => some ([], rest)
    | some text => match value text with
      | none => none
      | some (first, rest) => match skipAll rest with
        | some (',' :: rest) =>
          (arrayRest value most rest).map fun (items, rest) => (first :: items, rest)
        | some (']' :: rest) => some ([first], rest)
        | _ => none

def entry (value : Reader Value) : Reader (List Key × Value) := fun text =>
  match key text with
  | none => none
  | some (keys, rest) => match rest with
    | '=' :: rest => (value (skipBlanks rest)).map fun (value, rest) => ((keys, value), rest)
    | _ => none

def putAt (keys : List Key) (value : Value) (entries : Items) : Option Items :=
  match keys.getLast? with
  | none => none
  | some last => entries.put keys.dropLast last value

def inlineRest (value : Reader Value) : (most : Nat) → Items → Reader Items
  | 0, _, _ => none
  | most + 1, entries, text =>
    match entry value text with
    | none => none
    | some ((keys, first), rest) => match putAt keys first entries, skipBlanks rest with
      | some entries, ',' :: rest => inlineRest value most entries rest
      | some entries, '}' :: rest => some (entries, rest)
      | _, _ => none

def inlineTable (value : Reader Value) : Reader Value := fun text =>
  match skipBlanks text with
  | '}' :: rest => some (.table [], rest)
  | _ => (inlineRest value (text.length + 1) [] text).map fun (entries, rest) =>
      (.table (Items.toValues entries), rest)

def value : (depth : Nat) → Reader Value
  | depth, text =>
    match text with
    | '[' :: rest => match depth with
      | 0 => none
      | depth + 1 => (arrayRest (value depth) (rest.length + 1) rest).map fun (items, rest) =>
          (.array items, rest)
    | '{' :: rest => match depth with
      | 0 => none
      | depth + 1 => inlineTable (value depth) rest
    | 't' :: _ => (word? ['t', 'r', 'u', 'e'] text).map fun rest => (.boolean true, rest)
    | 'f' :: _ => (word? ['f', 'a', 'l', 's', 'e'] text).map fun rest => (.boolean false, rest)
    | '"' :: _ => (quotedText text).map fun (text, rest) => (.string text, rest)
    | '\'' :: _ => (quotedText text).map fun (text, rest) => (.string text, rest)
    | text => number text

structure Draft where
  entries : Items
  current : List Key

namespace Draft

def start : Draft := ⟨[], []⟩

def putEntry (draft : Draft) (keys : List Key) (value : Value) : Option Draft :=
  (Items.alterAt false (fun _ entries => putAt keys value entries) draft.current false
    draft.entries).map fun entries => { draft with entries }

def enter (draft : Draft) (keys : List Key) (f : Key → Items → Option Items) : Option Draft :=
  match keys.getLast? with
  | none => none
  | some last =>
    (Items.alterAt false (fun _ entries => f last entries) keys.dropLast false
      draft.entries).map fun entries => ⟨entries, keys⟩

def line (draft : Draft) (text : List Char) : Option (Draft × List Char) :=
  match text with
  | '#' :: _ => (lineRest? text).map fun rest => (draft, rest)
  | '\n' :: rest => some (draft, rest)
  | '\r' :: '\n' :: rest => some (draft, rest)
  | '[' :: '[' :: rest => do
    let (keys, rest) ← key rest
    let rest ← word? [']', ']'] rest
    return (← draft.enter keys Items.addTable, ← lineRest? rest)
  | '[' :: rest => do
    let (keys, rest) ← key rest
    let rest ← char? ']' rest
    return (← draft.enter keys Items.openTable, ← lineRest? rest)
  | text => do
    let ((keys, value), rest) ← entry (value mostNested) text
    let rest ← lineRest? rest
    return (← draft.putEntry keys value, rest)

def read : (lines : Nat) → Draft → List Char → Option Draft
  | 0, draft, text => if text.isEmpty then some draft else none
  | lines + 1, draft, text =>
    match skipBlanks text with
    | [] => some draft
    | text => match draft.line text with
      | none => none
      | some (draft, rest) => read lines draft rest

end Draft

def byteOrderMark : Char := Char.ofNat 0xFEFF

def skipMark : List Char → List Char
  | [] => []
  | c :: rest => if c = byteOrderMark then rest else c :: rest

def parse? (text : List Char) : Option (List (Key × Value)) :=
  let text := skipMark text
  (Draft.start.read (text.length + 1) text).map fun draft => Items.toValues draft.entries

end RepoFinder.Toml
