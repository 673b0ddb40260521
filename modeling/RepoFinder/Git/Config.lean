import RepoFinder.Git.Line

namespace RepoFinder.Git

-- An entry of a configuration. Its key holds the section, the subsection and the name, with
-- points between them; an entry without an equals sign has no value.
structure Entry where
  key : Line
  value : Option Line
deriving DecidableEq, Repr

abbrev Config := List Entry

namespace Config

open Line (isSpace skipSpace trimEnd beforeZero zero)

def isKeyChar (c : Char) : Bool := c.isAlphanum || c = '-'

def subsection : Line → Option (Line × Line)
  | [] => none
  | '"' :: rest => some ([], rest)
  | '\\' :: c :: rest =>
    if c = zero then none else (subsection rest).map fun (name, rest) => (c :: name, rest)
  | c :: rest =>
    if c = zero then none else (subsection rest).map fun (name, rest) => (c :: name, rest)

def section? (line : Line) : Option (Line × Line) :=
  let isNameChar (c : Char) : Bool := isKeyChar c || c = '.'
  let name := (line.takeWhile isNameChar).map Char.toLower
  match line.dropWhile isNameChar with
  | ']' :: rest => if name.isEmpty then none else some (name, rest)
  | c :: rest =>
    if isSpace c then
      match skipSpace rest with
      | '"' :: rest => match subsection rest with
        | some (sub, ']' :: rest) => some (name ++ '.' :: sub, rest)
        | _ => none
      | _ => none
    else none
  | [] => none

def headers : (most : Nat) → Option Line → Line → Option (Option Line × Line)
  | 0, current, line => some (current, skipSpace line)
  | most + 1, current, line =>
    match skipSpace line with
    | '[' :: rest => match section? rest with
      | none => none
      | some (name, rest) => headers most (some name) rest
    | rest => some (current, rest)

-- A line without its comment and the blanks at its end, and the number of quotes in it, those
-- before it included. A quote counts unless it stands behind a backslash; a comment starts
-- outside quotes and not behind an odd number of backslashes.
def stripComment (quotes : Nat) (line : Line) : Line × Nat :=
  let rec go (before : Option Char) (backslashes quotes : Nat) : Line → Line × Nat
    | [] => ([], quotes)
    | c :: rest =>
      let quotes := if c = '"' && before ≠ some '\\' then quotes + 1 else quotes
      if (c = ';' || c = '#') && quotes % 2 = 0 && backslashes % 2 = 0 then ([], quotes)
      else
        let (kept, total) := go (some c) (if c = '\\' then backslashes + 1 else 0) quotes rest
        (c :: kept, total)
  let (kept, total) := go none 0 quotes line
  (trimEnd kept, total)

-- A piece of a value without its quotes and with its escapes resolved, and whether it ends in a
-- backslash and so goes on in the next line.
def unescape : Line → Option (Line × Bool)
  | [] => some ([], false)
  | '"' :: rest => unescape rest
  | ['\\'] => some ([], true)
  | '\\' :: c :: rest =>
    let escaped := match c with
      | 'n' => some '\n'
      | 't' => some '\t'
      | 'b' => some (Char.ofNat 8)
      | '"' => some '"'
      | '\\' => some '\\'
      | _ => none
    match escaped with
    | none => none
    | some escaped => (unescape rest).map fun (value, more) => (escaped :: value, more)
  | c :: rest => (unescape rest).map fun (value, more) => (c :: value, more)

-- The rest of a value that goes on in the next lines, and the lines behind it. Lines without
-- content are passed over; a line that starts with a zero byte ends the value.
def continued (quotes : Nat) : List Line → Option (Line × List Line)
  | [] => some ([], [])
  | line :: rest =>
    let (kept, quotes) := stripComment quotes (beforeZero line)
    if line.head? = some zero then some ([], rest)
    else if kept.isEmpty then continued quotes rest
    else match unescape kept with
      | none => none
      | some (piece, true) =>
        (continued quotes rest).map fun (value, rest) => (piece ++ value, rest)
      | some (piece, false) => some (piece, rest)

def entry? (current : Option Line) (line : Line) (rest : List Line) :
    Option (Entry × List Line) :=
  let (kept, quotes) := stripComment 0 (beforeZero line)
  let name := (kept.takeWhile isKeyChar).map Char.toLower
  let key := match current with
    | none => name
    | some current => current ++ '.' :: name
  if name.isEmpty then none
  else match skipSpace (kept.dropWhile isKeyChar) with
    | [] => some (⟨key, none⟩, rest)
    | '=' :: value => match unescape (skipSpace value) with
      | none => none
      | some (piece, true) => (continued (quotes % 2) rest).map fun (more, rest) =>
          (⟨key, some (piece ++ more)⟩, rest)
      | some (piece, false) => some (⟨key, some piece⟩, rest)
    | _ => none

-- Whether a line holds nothing but blanks; one that starts with a vertical tab or a form feed is
-- not taken for such a line.
def isBlankLine (line : Line) : Bool :=
  line.all isSpace && (match line with
    | c :: _ => c.toNat ≠ 11 && c.toNat ≠ 12
    | [] => true)

def entriesOf : (most : Nat) → Option Line → List Line → Option Config
  | 0, _, _ => some []
  | _, _, [] => some []
  | most + 1, current, line :: rest =>
    if isBlankLine line then entriesOf most current rest
    else match headers line.length current line with
      | none => none
      | some (current, remaining) => match remaining with
        | [] =>
          if (skipSpace line).isEmpty then none else entriesOf most current rest
        | ';' :: _ => entriesOf most current rest
        | '#' :: _ => entriesOf most current rest
        | remaining => match entry? current remaining rest with
          | none => none
          | some (entry, rest) => (entriesOf most current rest).map (entry :: ·)

def byteOrderMark : Line := [0xEF, 0xBB, 0xBF].map Char.ofNat

-- The entries that a file spells, or none where it is malformed. A file that starts with a zero
-- byte has no entries.
def parse? (content : List UInt8) : Option Config :=
  let text := Line.ofBytes content
  let text := if byteOrderMark.isPrefixOf text then text.drop byteOrderMark.length else text
  let lines := Line.linesOf text
  if content.head? = some 0 then some [] else entriesOf (lines.length + 1) none lines

def valuesOf (config : Config) (key : Line) : List (Option Line) :=
  (config.filter fun entry => entry.key = key).map (·.value)

-- The value that counts for a key, the last one; `some none` is an entry without a value.
def find? (config : Config) (key : Line) : Option (Option Line) := (config.valuesOf key).getLast?

end Config

end RepoFinder.Git
