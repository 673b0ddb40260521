import RepoFinder.Git.Line

namespace RepoFinder.Git

def isRefChar (c : Char) : Bool :=
  0x20 < c.toNat && c ∉ ['~', '^', ':', '\\', '?', '[']

def refParts : Line → List Line
  | [] => [[]]
  | c :: rest => match refParts rest with
    | [] => [[c]]
    | part :: more => if c = '/' then [] :: part :: more else (c :: part) :: more

def hasPair (a b : Char) : Line → Bool
  | c :: d :: rest => (c = a && d = b) || hasPair a b (d :: rest)
  | _ => false

def lockEnding : Line := ".lock".toList

def isRefPart (part : Line) : Bool :=
  !part.isEmpty && part.head? ≠ some '.' && part.all isRefChar && !hasPair '.' '.' part
    && !hasPair '@' '{' part && !lockEnding.isSuffixOf part

def isShouted (part : Line) : Bool :=
  part.all (fun c => c.isUpper || c = '_') && part.head? ≠ some '_' && part.getLast? ≠ some '_'

def isRefName (isPattern : Bool) (name : Line) : Bool :=
  let parts := refParts name
  parts.all isRefPart && name.getLast? ≠ some '.'
    && name.count '*' ≤ (if isPattern then 1 else 0)
    && (match parts with
      | first :: _ :: _ => !isShouted first
      | _ => true)

def splitLastColon (text : Line) : Line × Option Line :=
  match text.reverse.dropWhile (· ≠ ':') with
  | [] => (text, none)
  | _ :: before => (before.reverse, some (text.reverse.takeWhile (· ≠ ':')).reverse)

def isRefspec (isFetch : Bool) (text : Line) : Bool :=
  let body := match text with
    | '+' :: rest => rest
    | text => text
  if !isFetch && body = [':'] then true
  else
    let (source, target) := splitLastColon body
    let sourceGlob := source.contains '*'
    let targetGlob := (target.getD []).contains '*'
    let agrees := match target with
      | none => !sourceGlob || !isFetch
      | some _ => sourceGlob == targetGlob
    if !agrees then false
    else if isFetch then
      (source.isEmpty || isRefName sourceGlob source)
        && (match target with
          | none => true
          | some target => target.isEmpty || isRefName targetGlob target)
    else
      (source.isEmpty || !sourceGlob || isRefName true source)
        && (match target with
          | none => isRefName sourceGlob source
          | some target => !target.isEmpty && isRefName targetGlob target)

-- Whether a remote may have a name: whether a fetch into its references can be written.
def isRemoteName (name : Line) : Bool :=
  !name.isEmpty
    && isRefspec true ("refs/heads/test:refs/remotes/".toList ++ name ++ "/test".toList)

end RepoFinder.Git
