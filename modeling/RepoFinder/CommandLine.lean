import RepoFinder.Path.Basic
import RepoFinder.Text.Decimal

namespace RepoFinder.CommandLine

structure Arguments where
  paths : List Path
  fresh : Bool
  stream : Bool
  invalidate : Bool
  json : Bool
  depthLimit : Option Nat
  workers : Option Nat
  timeout : Option Nat
  snapshotLife : Option Nat
  snapshotFile : Option Path
  settingsFile : Option Path
deriving DecidableEq, Repr

def Arguments.none : Arguments :=
  ⟨[], false, false, false, false, .none, .none, .none, .none, .none, .none⟩

inductive Refusal where
  | unknownArgument
  | tooManyValues
  | invalidValue
  | valueValidation
  | invalidText
  -- Something stands twice, or beside what it excludes.
  | conflict
  | help
deriving DecidableEq, Repr

inductive Switch where
  | fresh
  | stream
  | invalidate
  | json
  | help
deriving DecidableEq, Repr

inductive Setting where
  | depthLimit
  | workers
  | timeout
  | snapshotLife
  | snapshotFile
  | settingsFile
deriving DecidableEq, Repr

inductive Long where
  | switch (switch : Switch)
  | setting (setting : Setting)

namespace Switch

def all : List Switch := [fresh, stream, invalidate, json, help]

def name : Switch → String
  | fresh => "fresh"
  | stream => "stream"
  | invalidate => "invalidate"
  | json => "json"
  | help => "help"

def about : Switch → String
  | fresh => "Ignore the cache and rescan now"
  | stream => "Print repositories as they are found"
  | invalidate => "Delete the discovery cache and exit"
  | json => "Print the result as JSON"
  | help => "Print help"

end Switch

namespace Setting

def all : List Setting := [depthLimit, workers, timeout, snapshotLife, snapshotFile, settingsFile]

def name : Setting → String
  | depthLimit => "max-depth"
  | workers => "workers"
  | timeout => "timeout"
  | snapshotLife => "ttl"
  | snapshotFile => "cache-file"
  | settingsFile => "config"

def valueName : Setting → String
  | depthLimit => "MAX_DEPTH"
  | workers => "WORKERS"
  | timeout => "TIMEOUT"
  | snapshotLife => "TTL"
  | snapshotFile => "CACHE_FILE"
  | settingsFile => "CONFIG"

def about : Setting → String
  | depthLimit => "Maximum directory depth below each search path (0 = unlimited)"
  | workers => "Number of scanner threads (default: logical CPUs)"
  | timeout => "Scan timeout in seconds"
  | snapshotLife => "Cache time-to-live in seconds"
  | snapshotFile => "Path to the discovery cache file"
  | settingsFile => "Path to configuration file"

end Setting

def padTo (width : Nat) (s : String) : String :=
  s ++ String.ofList (List.replicate (width - s.length) ' ')

def helpLine (short long about : String) : String := short ++ padTo 27 long ++ about ++ "\n"

def helpText : String :=
  "Discover Git repositories under your project folders\n\n"
    ++ "Usage: repodisco [OPTIONS] [PATHS]...\n\n"
    ++ "Arguments:\n"
    ++ "  [PATHS]...  Directories to scan (defaults to common project folders under $HOME)\n\n"
    ++ "Options:\n"
    ++ String.join ((Switch.all.filter (· ≠ .help)).map fun switch =>
      helpLine "      " ("--" ++ switch.name) switch.about)
    ++ String.join (Setting.all.map fun setting =>
      helpLine "      " ("--" ++ setting.name ++ " <" ++ setting.valueName ++ ">") setting.about)
    ++ helpLine "  -h, " ("--" ++ Switch.help.name) Switch.help.about

def findLong? (name : List UInt8) : Option Long :=
  match Switch.all.find? fun switch => Text.Utf8.ofString switch.name = name with
  | some switch => some (.switch switch)
  | none => (Setting.all.find? fun setting => Text.Utf8.ofString setting.name = name).map .setting

inductive Pending where
  | setting (setting : Setting) (value : Option (List UInt8))
  -- A stretch of folders, the newest first.
  | paths (paths : List (List UInt8))

structure Progress where
  given : Arguments
  pending : Option Pending
  trailing : Bool

def wordBound : Nat := UInt64.size

def number (value : List UInt8) : Except Refusal Nat :=
  match Text.Utf8.decode? value with
  | none => .error .invalidText
  | some text =>
    let digits := match text with
      | '+' :: rest => rest
      | text => text
    if digits.isEmpty || !digits.all Text.isDigit then .error .valueValidation
    else
      let n := Text.ofDigits digits
      if n < wordBound then .ok n else .error .valueValidation

def folder (value : List UInt8) : Except Refusal Path :=
  if value.isEmpty then .error .invalidValue else .ok ⟨value⟩

def once (field : Option α) (value : Except Refusal α) : Except Refusal (Option α) :=
  match field with
  | some _ => .error .conflict
  | none => value.map some

def takeSetting (given : Arguments) (setting : Setting) (value : List UInt8) :
    Except Refusal Arguments :=
  match setting with
  | .depthLimit =>
    (once given.depthLimit (number value)).map fun depthLimit => { given with depthLimit }
  | .workers => (once given.workers (number value)).map fun workers => { given with workers }
  | .timeout => (once given.timeout (number value)).map fun timeout => { given with timeout }
  | .snapshotLife =>
    (once given.snapshotLife (number value)).map fun snapshotLife => { given with snapshotLife }
  | .snapshotFile =>
    (once given.snapshotFile (folder value)).map fun snapshotFile => { given with snapshotFile }
  | .settingsFile =>
    (once given.settingsFile (folder value)).map fun settingsFile => { given with settingsFile }

def settle (progress : Progress) : Except Refusal Progress :=
  match progress.pending with
  | none => .ok progress
  | some (.setting _ none) => .error .invalidValue
  | some (.setting setting (some value)) =>
    (takeSetting progress.given setting value).map fun given =>
      { progress with given, pending := none }
  | some (.paths paths) => do
    let paths ← paths.reverse.mapM folder
    return { progress with
      given := { progress.given with paths := progress.given.paths ++ paths }, pending := none }

def setOnce (isSet : Bool) (given : Arguments) : Except Refusal Arguments :=
  if isSet then .error .conflict else .ok given

def takeSwitch (progress : Progress) (switch : Switch) : Except Refusal Progress := do
  let progress ← settle progress
  let given := progress.given
  let given ← match switch with
    | .fresh => setOnce given.fresh { given with fresh := true }
    | .stream => setOnce given.stream { given with stream := true }
    | .invalidate => setOnce given.invalidate { given with invalidate := true }
    | .json => setOnce given.json { given with json := true }
    | .help => .error .help
  return { progress with given }

def dash : UInt8 := 0x2D

def equalsSign : UInt8 := 0x3D

def takeLong (progress : Progress) (body : List UInt8) : Except Refusal Progress :=
  let name := body.takeWhile (· ≠ equalsSign)
  let value := match body.dropWhile (· ≠ equalsSign) with
    | [] => none
    | _ :: value => some value
  match findLong? name, value with
  | none, _ => .error .unknownArgument
  | some (.switch _), some _ => .error .tooManyValues
  | some (.switch switch), none => takeSwitch progress switch
  | some (.setting setting), none => do
    let progress ← settle progress
    return { progress with pending := some (.setting setting none) }
  | some (.setting setting), some value => do
    let progress ← settle progress
    return { progress with given := ← takeSetting progress.given setting value }

def takeShort (progress : Progress) (body : List UInt8) : Except Refusal Progress :=
  if body.head? = some 0x68 then takeSwitch progress .help else .error .unknownArgument

def takeValue (progress : Progress) (value : List UInt8) : Except Refusal Progress :=
  match progress.pending, progress.trailing with
  | some (.setting setting none), false =>
    .ok { progress with pending := some (.setting setting (some value)) }
  | some (.paths paths), _ => .ok { progress with pending := some (.paths (value :: paths)) }
  | _, _ => (settle progress).map fun progress =>
    { progress with pending := some (.paths [value]) }

def step (progress : Progress) (argument : List UInt8) : Except Refusal Progress :=
  if progress.trailing then takeValue progress argument
  else match argument with
    | [first, second] =>
      if first = dash && second = dash then .ok { progress with trailing := true }
      else if first = dash then takeShort progress [second]
      else takeValue progress argument
    | first :: second :: rest =>
      if first = dash && second = dash then takeLong progress rest
      else if first = dash then takeShort progress (second :: rest)
      else takeValue progress argument
    | _ => takeValue progress argument

def steps (progress : Progress) : List (List UInt8) → Except Refusal Progress
  | [] => .ok progress
  | argument :: rest => match step progress argument with
    | .error refusal => .error refusal
    | .ok progress => steps progress rest

def excludes (given : Arguments) : Bool :=
  (given.fresh && given.stream) || (given.invalidate && (given.fresh || given.stream))

def parse (arguments : List (List UInt8)) : Except Refusal Arguments := do
  let progress ← settle (← steps ⟨.none, none, false⟩ arguments)
  if excludes progress.given then .error .conflict else .ok progress.given

end RepoFinder.CommandLine
