import RepoFinder.FileSystem.Edit
import RepoFinder.Settings.Format

namespace RepoFinder.Settings

open FileSystem

inductive Problem where
  | noHome
  | folderNotMade
  | unreadable (file : Path)
  | malformed (file : Path)
  | unprintable
  | unwritable (file : Path)
deriving DecidableEq, Repr

def Problem.message : Problem → String
  | noHome => "Failed to determine project directories"
  | folderNotMade => "Failed to create config directory"
  | unreadable file => "Failed to read config file: " ++ file.display
  | malformed file => "Failed to parse config file: " ++ file.display
  | unprintable => "Failed to serialize config to TOML"
  | unwritable file => "Failed to write config file: " ++ file.display

def save (fs : FileSystem) (file : Path) (settings : Settings) :
    FileSystem × Except Problem Unit :=
  match settings.render? with
  | none => (fs, .error .unprintable)
  | some text => match fs.writeFile file (Text.Utf8.encode text) with
    | .error _ => (fs, .error (.unwritable file))
    | .ok written => (written, .ok ())

def folderPermissions : Nat := 0o755

def makeFolder (fs : FileSystem) (file : Path) : FileSystem × Except Problem Unit :=
  match file.parent? with
  | none => (fs, .ok ())
  | some folder => match fs.makeDirectories folderPermissions folder with
    | (made, .error _) => (made, .error .folderNotMade)
    | (made, .ok ()) => (made, .ok ())

def create (fs : FileSystem) (file : Path) : FileSystem × Except Problem Settings :=
  match makeFolder fs file with
  | (made, .error problem) => (made, .error problem)
  | (made, .ok ()) => match save made file usual with
    | (saved, .error problem) => (saved, .error problem)
    | (saved, .ok ()) => (saved, .ok usual)

def read (fs : FileSystem) (file : Path) : Except Problem Settings :=
  match fs.contentOf file with
  | .error _ => .error (.unreadable file)
  | .ok content => match Text.Utf8.decode? content with
    | none => .error (.unreadable file)
    | some text => match parse? text with
      | none => .error (.malformed file)
      | some settings => .ok settings

def load (fs : FileSystem) (env : Environment) (file : Option Path) :
    FileSystem × Except Problem Settings :=
  match file.or env.settingsPath? with
  | none => (fs, .error .noHome)
  | some file => if fs.isPresent file then (fs, read fs file) else create fs file

end RepoFinder.Settings
