import RepoFinder.Json.Basic
import RepoFinder.Text.Hexadecimal

namespace RepoFinder.Json

def escapeChar (c : Char) : List Char :=
  if c = '"' then ['\\', '"']
  else if c = '\\' then ['\\', '\\']
  else if c = '\n' then ['\\', 'n']
  else if c = '\r' then ['\\', 'r']
  else if c = '\t' then ['\\', 't']
  else if c.toNat = 8 then ['\\', 'b']
  else if c.toNat = 12 then ['\\', 'f']
  else if c.toNat < 0x20 then
    ['\\', 'u', '0', '0', Text.smallHexDigit (c.toNat / 16), Text.smallHexDigit (c.toNat % 16)]
  else [c]

-- A text in quotes; for a text with an unpaired surrogate, one such surrogate.
def quoted : Option (List Char) → List Char
  | some text => '"' :: text.flatMap escapeChar ++ ['"']
  | none => ['"', '\\', 'u', 'd', '8', '0', '0', '"']

def trueWord : List Char := ['t', 'r', 'u', 'e']
def falseWord : List Char := ['f', 'a', 'l', 's', 'e']
def nullWord : List Char := ['n', 'u', 'l', 'l']

mutual

def compact : Json → List Char
  | null => nullWord
  | bool true => trueWord
  | bool false => falseWord
  | number literal => literal
  | string text => quoted text
  | array [] => ['[', ']']
  | array (item :: rest) => '[' :: compact item ++ compactItems rest ++ [']']
  | object [] => ['{', '}']
  | object ((key, value) :: rest) =>
    '{' :: quoted key ++ ':' :: compact value ++ compactFields rest ++ ['}']

def compactItems : List Json → List Char
  | [] => []
  | item :: rest => ',' :: compact item ++ compactItems rest

def compactFields : List (Option (List Char) × Json) → List Char
  | [] => []
  | (key, value) :: rest => ',' :: quoted key ++ ':' :: compact value ++ compactFields rest

end

def newLine (level : Nat) : List Char := '\n' :: List.replicate (2 * level) ' '

mutual

def spread (level : Nat) : Json → List Char
  | null => nullWord
  | bool true => trueWord
  | bool false => falseWord
  | number literal => literal
  | string text => quoted text
  | array [] => ['[', ']']
  | array (item :: rest) =>
    '[' :: newLine (level + 1) ++ spread (level + 1) item ++ spreadItems (level + 1) rest
      ++ newLine level ++ [']']
  | object [] => ['{', '}']
  | object ((key, value) :: rest) =>
    '{' :: newLine (level + 1) ++ quoted key ++ ':' :: ' ' :: spread (level + 1) value
      ++ spreadFields (level + 1) rest ++ newLine level ++ ['}']

def spreadItems (level : Nat) : List Json → List Char
  | [] => []
  | item :: rest => ',' :: newLine level ++ spread level item ++ spreadItems level rest

def spreadFields (level : Nat) : List (Option (List Char) × Json) → List Char
  | [] => []
  | (key, value) :: rest =>
    ',' :: newLine level ++ quoted key ++ ':' :: ' ' :: spread level value
      ++ spreadFields level rest

end

def pretty (value : Json) : List Char := spread 0 value

end RepoFinder.Json
