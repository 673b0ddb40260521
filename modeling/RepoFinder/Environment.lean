import RepoFinder.Path.Basic

namespace RepoFinder

structure Environment where
  home : Option Path
  -- The folder for settings, if one is named; it counts only where it is absolute.
  settingsHome : Option Path
  cacheHome : Option Path
  processors : Nat
  -- Seconds that the machine's clock has counted; a time on it is at most `lastTick`.
  uptime : Nat

namespace Environment

def applicationFolder : Path := Path.ofString "repodisco"

def settingsFileName : Path := Path.ofString "repodisco.toml"

def snapshotFileName : Path := Path.ofString "discovery-cache.json"

def folder (home named : Option Path) (inHome : String) : Option Path :=
  match home, named with
  | none, _ => none
  | some home, some named =>
    if named.isAbsolute then some named else some (home.join (Path.ofString inHome))
  | some home, none => some (home.join (Path.ofString inHome))

def settingsPath? (env : Environment) : Option Path :=
  (folder env.home env.settingsHome ".config").map fun base =>
    (base.join applicationFolder).join settingsFileName

def snapshotPath (env : Environment) : Path :=
  let base := (folder env.home env.cacheHome ".cache").getD (Path.ofString "/tmp")
  (base.join applicationFolder).join snapshotFileName

end Environment

end RepoFinder
