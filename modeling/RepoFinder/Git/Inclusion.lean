import RepoFinder.FileSystem.Walk
import RepoFinder.Git.Config
import RepoFinder.Git.Glob

namespace RepoFinder.Git

structure Surroundings where
  home : Option Path
  own : Path
  branch : Option Line

namespace Surroundings

def branchMark : Line := "ref: refs/heads/".toList

def ofFolder (fs : FileSystem) (home : Option Path) (own : Path) : Surroundings where
  home
  own
  branch := match fs.contentOf (own.join (Path.ofString "HEAD")) with
    | .error _ => none
    | .ok content => branchMark.isPrefixOf? (Line.ofFile content)

def belowHome (s : Surroundings) (path : Line) : Line :=
  Line.below ((s.home.map Line.ofPath).getD []) path

def openEnd (condition pattern : Line) : Line :=
  if condition.getLast? = some '/' then pattern ++ "**".toList else pattern

-- The pattern that a condition on the directory stands for in a file: it may start at the folder
-- of the file, at the home directory, at the root, or anywhere.
def folderPattern (s : Surroundings) (file condition : Line) : Line :=
  openEnd condition (match condition with
    | '.' :: '/' :: rest => Line.below (Line.folderOf file) rest
    | '~' :: '/' :: rest => s.belowHome ('/' :: rest)
    | '/' :: _ => condition
    | _ => Line.below "**".toList condition)

def meets (s : Surroundings) (file condition : Line) : Bool :=
  let behind? (mark : String) : Option Line := mark.toList.isPrefixOf? condition
  match behind? "gitdir:", behind? "gitdir/i:", behind? "onbranch:" with
  | some folder, _, _ => Glob.covers false (s.folderPattern file folder) (Line.ofPath s.own)
  | _, some folder, _ => Glob.covers true (s.folderPattern file folder) (Line.ofPath s.own)
  | _, _, some branch => s.branch.any (Glob.covers false (openEnd branch branch))
  | none, none, none => false

end Surroundings

namespace Config

def includeKey : Line := "include.path".toList

def conditionMark : Line := "includeif.".toList

def conditionEnding : Line := ".path".toList

def isInclusion (s : Surroundings) (file : Line) (entry : Entry) : Bool :=
  entry.key = includeKey
    || ((conditionMark.isPrefixOf? entry.key).bind conditionEnding.isSuffixOf?).any (s.meets file)

def included? (s : Surroundings) (file : Path) (entry : Entry) : Option Path :=
  match entry.value with
  | none => none
  | some value =>
    if isInclusion s (Line.ofPath file) entry then
      some (Line.toPath (match value with
        | '~' :: '/' :: rest => s.belowHome ('/' :: rest)
        | '/' :: _ => value
        | _ => Line.below (Line.folderOf (Line.ofPath file)) value))
    else none

def isMissing : FileSystem.Failure → Bool
  | .notFound => true
  | .notDirectory => true
  | .isDirectory => true
  | _ => false

-- The entries of a file and of the files that it includes, `depth` files at most in a row. A
-- missing file has no entries; a malformed one, and one too many in a row, spoils all.
def read (fs : FileSystem) (s : Surroundings) : (depth : Nat) → Path → Option Config
  | depth, file =>
    match fs.contentOf file with
    | .error failure => if isMissing failure then some [] else none
    | .ok content => match depth with
      | 0 => none
      | depth + 1 => match parse? content with
        | none => none
        | some entries => (entries.mapM fun entry =>
            match included? s file entry with
            | none => some [entry]
            | some other => (read fs s depth other).map (entry :: ·)).map List.flatten

def mostInRow : Nat := 10

end Config

end RepoFinder.Git
