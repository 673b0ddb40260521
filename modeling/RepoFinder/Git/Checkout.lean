import RepoFinder.Git.Graft
import RepoFinder.Git.Inclusion
import RepoFinder.Git.Link
import RepoFinder.Git.Value

namespace RepoFinder.Git

open FileSystem

def gitFileName : Path := Path.ofString ".git"

structure Folders where
  own : Path
  common : Path
  link : Option Path

-- What a look at a place brings: nothing there, a repository, or damage that ends the search.
inductive Look where
  | nothing
  | found (folders : Folders)
  | damaged

def lookInside (fs : FileSystem) (folder : Path) : Look :=
  match commonFolder? fs folder with
  | none => .damaged
  | some common =>
    if isFile fs (entryOf folder "HEAD") && fs.isDirectory (entryOf common "objects")
        && fs.isDirectory (entryOf common "refs") then
      .found ⟨folder, common, wayBack? fs folder⟩
    else .nothing

def lookAt (fs : FileSystem) (place : Path) : Look :=
  match fs.status place with
  | .ok (.directory ..) => lookInside fs place
  | .ok (.file ..) =>
    if place.fileName? = some gitFileName.bytes then
      match pointed? fs place with
      | none => .damaged
      | some folder => match lookInside fs folder with
        | .found folders => .found { folders with link := some place }
        | _ => .damaged
    else .nothing
  | _ => .nothing

def folders? (fs : FileSystem) (folder : Path) : Option Folders :=
  match fs.canonical folder with
  | .error _ => none
  | .ok real => match lookAt fs (real.join gitFileName) with
    | .damaged => none
    | .found folders => some folders
    | .nothing => match lookAt fs real with
      | .found folders => some folders
      | _ => none

def worktreeKey : Line := "extensions.worktreeconfig".toList

-- The configuration of a repository. Where it says so, this checkout has one of its own, which
-- comes last and so counts.
def configOf? (fs : FileSystem) (home : Option Path) (folders : Folders) : Option Config := do
  let surroundings := Surroundings.ofFolder fs home folders.own
  let read (file : Path) : Option Config := Config.read fs surroundings Config.mostInRow file
  let shared ← read (entryOf folders.common "config")
  let hasOwn ← match shared.find? worktreeKey with
    | none => some false
    | some value => truth? value
  if hasOwn then return shared ++ (← read (entryOf folders.own "config.worktree"))
  else return shared

def isGraftFile (fs : FileSystem) (file : Path) : Bool :=
  match fs.contentOf file with
  | .error failure => Config.isMissing failure
  | .ok content => areGrafts content

def graftsKnown (fs : FileSystem) (folders : Folders) : Bool :=
  isGraftFile fs (entryOf folders.common "info/grafts")
    && isGraftFile fs (entryOf folders.own "shallow")

def newestFormat : Int := 1

def formatVersion? (config : Config) : Option Int :=
  match config.find? "core.repositoryformatversion".toList with
  | none => some 0
  | some none => none
  | some (some text) => match integer? text with
    | none => none
    | some version => if version ≤ newestFormat then some version else none

def extensionMark : Line := "extensions.".toList

def knownExtensions : List Line :=
  ["noop", "objectformat", "worktreeconfig"].map fun name => extensionMark ++ name.toList

def extensionsKnown (config : Config) : Bool :=
  (config.all fun entry =>
      !extensionMark.isPrefixOf entry.key || knownExtensions.contains entry.key)
    && (match config.find? "extensions.objectformat".toList with
      | none => true
      | some value => value = some "sha1".toList)

def isFurther (fs : FileSystem) (folders : Folders) : Bool :=
  folders.own ≠ folders.common && fs.isPresent (wayBackFile folders.own)

def slashed (p : Path) : Path := p.join ⟨[]⟩

-- Whether the folder with the files of a checkout can be told, and nothing but its absence
-- hinders a look at it.
def worktreeKnown (fs : FileSystem) (folders : Folders) (config : Config) : Bool :=
  if isFurther fs folders then match wayBack? fs folders.own with
    | none => false
    | some file => isUnharmed fs (slashed (Line.folderOf (Line.ofPath file)).toPath)
  else match config.find? "core.worktree".toList with
    | some (some target) => !target.isEmpty
      && (match fs.canonical (folders.own.join target.toPath) with
        | .error _ => false
        | .ok folder => isUnharmed fs (slashed folder))
    | _ => true

-- Whether a repository has no checkout, unless its configuration does not tell; a further
-- checkout of another repository is one.
def isBare? (fs : FileSystem) (folders : Folders) (config : Config) : Option Bool :=
  match config.find? "core.bare".toList with
  | none => some false
  | some value => (truth? value).map fun bare => bare && !isFurther fs folders

def isUsable (fs : FileSystem) (folders : Folders) (config : Config) : Bool :=
  match formatVersion? config, isBare? fs folders config with
  | some version, some bare =>
    (version < 1 || extensionsKnown config) && (bare || worktreeKnown fs folders config)
      && graftsKnown fs folders && folders.link.all (isUnharmed fs)
  | _, _ => false

def open? (fs : FileSystem) (home : Option Path) (folder : Path) : Option Config := do
  let folders ← folders? fs folder
  let config ← configOf? fs home folders
  if isUsable fs folders config then some config else none

end RepoFinder.Git
