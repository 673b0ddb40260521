import RepoFinder.Text.Hexadecimal
import RepoFinder.Toml.Value

namespace RepoFinder.Toml

structure Traits where
  hasControl : Bool
  hasBackslash : Bool
  hasLineFeed : Bool
  doubleQuotes : Nat
  singleQuotes : Nat

def isControl (c : Char) : Bool := c ≠ '\t' && c ≠ '\n' && (c.toNat < 0x20 || c.toNat = 0x7F)

def longestRun (c : Char) (run : Nat) : List Char → Nat
  | [] => run
  | d :: rest =>
    if d = c then longestRun c (run + 1) rest else max run (longestRun c 0 rest)

def traitsOf (text : List Char) : Traits :=
  ⟨text.any isControl, text.contains '\\', text.contains '\n', longestRun '"' 0 text,
    longestRun '\'' 0 text⟩

inductive Form where
  | basic
  | literal
  | longBasic
  | longLiteral
deriving DecidableEq, Repr

def formFor (traits : Traits) : Form :=
  if !traits.hasControl && !traits.hasBackslash && traits.doubleQuotes = 0 && !traits.hasLineFeed
  then .basic
  else if !traits.hasControl && traits.singleQuotes = 0 && !traits.hasLineFeed then .literal
  else if !traits.hasControl && !traits.hasBackslash && traits.doubleQuotes ≤ 2 then .longBasic
  else if !traits.hasControl && traits.singleQuotes ≤ 2 then .longLiteral
  else if traits.hasLineFeed then .longBasic
  else .basic

def escapeOf (isLong : Bool) (c : Char) : Option (List Char) :=
  let n := c.toNat
  if n = 8 then some ['\\', 'b']
  else if c = '\t' then some ['\\', 't']
  else if c = '\n' then (if isLong then none else some ['\\', 'n'])
  else if n = 12 then some ['\\', 'f']
  else if c = '\r' then some ['\\', 'r']
  else if c = '\\' then some ['\\', '\\']
  else if n < 0x20 || n = 0x7F then
    some ['\\', 'u', '0', '0', Text.capitalHexDigit (n / 16), Text.capitalHexDigit (n % 16)]
  else none

-- A text with escapes, behind a run of so many quotes: on one line every quote is escaped, on
-- many lines every third one of a run.
def escaped (isLong : Bool) (run : Nat) : List Char → List Char
  | [] => []
  | c :: rest =>
    if c = '"' then
      if run < (if isLong then 2 else 0) then c :: escaped isLong (run + 1) rest
      else '\\' :: c :: escaped isLong 0 rest
    else match escapeOf isLong c with
      | some escape => escape ++ escaped isLong 0 rest
      | none => c :: escaped isLong 0 rest

def opening (traits : Traits) : List Char := if traits.hasLineFeed then ['\n'] else []

def renderText (text : List Char) : List Char :=
  let traits := traitsOf text
  match formFor traits with
  | .basic => '"' :: escaped false 0 text ++ ['"']
  | .literal => '\'' :: text ++ ['\'']
  | .longBasic =>
    ['"', '"', '"'] ++ opening traits ++ escaped true 0 text ++ ['"', '"', '"']
  | .longLiteral => ['\'', '\'', '\''] ++ opening traits ++ text ++ ['\'', '\'', '\'']

def renderTexts : List (List Char) → List Char
  | [] => ['[', ']']
  | [text] => '[' :: renderText text ++ [']']
  | texts =>
    '[' :: '\n' :: texts.flatMap (fun text => "    ".toList ++ renderText text ++ [',', '\n'])
      ++ [']']

inductive Content where
  | integer (n : Nat)
  | text (content : List Char)
  | texts (contents : List (List Char))

def Content.render : Content → List Char
  | .integer n => Text.decimal n
  | .text content => renderText content
  | .texts contents => renderTexts contents

def renderEntry (key : Key) (content : Content) : List Char :=
  key ++ [' ', '=', ' '] ++ content.render ++ ['\n']

def renderHeader (key : Key) : List Char := '[' :: key ++ [']', '\n']

end RepoFinder.Toml
