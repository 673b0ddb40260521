import RepoFinder.Git.Line
import RepoFinder.Text.Hexadecimal

namespace RepoFinder.Git

def commitDigits : Nat := 40

def behindCommit? (line : Line) : Option Line :=
  let name := line.take commitDigits
  if name.length = commitDigits && name.all fun c => (Text.hexValue? c).isSome then
    some (line.drop commitDigits)
  else none

def areParents : (most : Nat) → Line → Bool
  | _, [] => true
  | most + 1, ' ' :: rest => match behindCommit? rest with
    | none => false
    | some rest => areParents most rest
  | _, _ => false

def isGraft (line : Line) : Bool :=
  match behindCommit? line with
  | none => false
  | some parents => areParents parents.length parents

def areGrafts (content : List UInt8) : Bool :=
  match (Line.linesOf (Line.ofBytes content)).reverse with
  | [] => true
  | last :: lines => (last.isEmpty || isGraft last) && lines.all isGraft

end RepoFinder.Git
