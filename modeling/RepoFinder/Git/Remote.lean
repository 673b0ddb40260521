import RepoFinder.Git.Checkout
import RepoFinder.Git.Refspec

namespace RepoFinder.Git

inductive Problem where
  | notOpened (folder : Path)
  | notRead (remote : String)
  -- The remote has no address; asking for it takes the asker down.
  | noAddress
deriving DecidableEq, Repr

def Problem.message : Problem → String
  | notOpened folder => "Failed to open git repository at " ++ folder.display
  | notRead remote => "Failed to read remote " ++ remote
  | noAddress => "called `Option::unwrap()` on a `None` value"

def remoteKey (name : Line) (field : String) : Line :=
  "remote.".toList ++ name ++ '.' :: field.toList

def urlMark : Line := "url.".toList

def insteadEnding : Line := ".insteadof".toList

def isReplacement (key : Line) : Bool :=
  ((Line.behind? urlMark key).bind (Line.behind? insteadEnding)).isSome

-- The part of an address that an entry replaces, and what it puts there: its key without as many
-- characters at the front and at the end as the marks have.
def replacement? (url : Line) (entry : Entry) : Option (Line × Line) :=
  match entry.value with
  | none => none
  | some start =>
    if isReplacement entry.key && !start.isEmpty && start.isPrefixOf url then
      let length := entry.key.length - urlMark.length - insteadEnding.length
      some (start, (entry.key.drop urlMark.length).take length)
    else none

def longest (best : Line × Line) : List (Line × Line) → Line × Line
  | [] => best
  | next :: rest => longest (if best.1.length < next.1.length then next else best) rest

def redirect (config : Config) (url : Line) : Line :=
  let (start, put) := longest ([], []) (config.filterMap (replacement? url))
  put ++ url.drop start.length

-- The address of a remote: no such remote (or a broken one), one without an address, or the
-- address.
def remote? (config : Config) (name : Line) : Option (Option Line) :=
  let url := config.find? (remoteKey name "url")
  let pushUrl := config.find? (remoteKey name "pushurl")
  let areRefspecs (isFetch : Bool) (field : String) : Bool :=
    (config.valuesOf (remoteKey name field)).all fun value => match value with
      | none => false
      | some text => isRefspec isFetch text
  let prune := (config.find? (remoteKey name "prune")).or (config.find? "fetch.prune".toList)
  let pruneReads := match prune with
    | none => true
    | some value => (truth? value).isSome
  if isRemoteName name && (url.isSome || pushUrl.isSome) && areRefspecs true "fetch"
      && areRefspecs false "push" && pruneReads then
    match url with
    | some (some (c :: rest)) => some (some (redirect config (c :: rest)))
    | _ => some none
  else none

def remoteMark : Line := "remote.".toList

def nameOf? (entry : Entry) : Option Line :=
  let within (ending : Line) : Option Line :=
    if remoteMark.isPrefixOf entry.key && ending.isSuffixOf entry.key
        && remoteMark.length + ending.length ≤ entry.key.length then
      some ((entry.key.drop remoteMark.length).take
        (entry.key.length - remoteMark.length - ending.length))
    else none
  (within ".url".toList).or (within ".pushurl".toList)

def lineLe (a b : Line) : Bool := Path.nameLe (Line.toBytes a) (Line.toBytes b)

def firstRemote? (config : Config) : Option (Line × String) :=
  ((config.filterMap nameOf?).mergeSort lineLe).findSome? fun name =>
    (Text.Utf8.decodeString? (Line.toBytes name)).map fun text => (name, text)

def addressText : Option Line → Except Problem String
  | none => .error .noAddress
  | some url => .ok ((Text.Utf8.decodeString? (Line.toBytes url)).getD "")

def remoteUrl (fs : FileSystem) (home : Option Path) (folder : Path) : Except Problem String :=
  match open? fs home folder with
  | none => .error (.notOpened folder)
  | some config => match remote? config "origin".toList with
    | some url => addressText url
    | none => match firstRemote? config with
      | none => .ok ""
      | some (name, text) => match remote? config name with
        | none => .error (.notRead text)
        | some url => addressText url

end RepoFinder.Git
