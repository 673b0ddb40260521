import RepoFinder.Discovery.Engine
import RepoFinder.Git.Answer
import RepoFinder.Report
import RepoFinder.Settings.Override

namespace RepoFinder.Program

open Time

structure Output where
  text : String
  status : Nat
deriving DecidableEq, Repr

namespace Output

def done (text : String) : Output := ⟨text, 0⟩

def failed (text : String) : Output := ⟨text, 1⟩

def misused : Output := ⟨"", 2⟩

def broken (text : String) : Output := ⟨text, 101⟩

end Output

def streamLines (asJson : Bool) : List Repository → String × Bool
  | [] => ("", true)
  | repository :: rest =>
    let line := if asJson then Report.jsonLine? repository
      else some (Report.repositoryLine repository)
    match line with
    | none => ("", false)
    | some line =>
      let (lines, complete) := streamLines asJson rest
      (line ++ lines, complete)

def printStream (asJson : Bool) (reply : Discovery.Reply) : Output :=
  match reply with
  | .streamed delivered _ =>
    let (text, complete) := streamLines asJson delivered
    if complete then .done text else .failed text
  | .cancelled delivered => .failed (streamLines asJson delivered).1
  | .fell delivered _ => .failed (streamLines asJson delivered).1
  | .found _ => .failed ""

def mostSeconds : Nat := UInt64.size - 1

def canWait (env : Environment) (timeout : Duration) : Bool :=
  let limit : Duration := ⟨timeout.seconds + 1, timeout.nanos⟩
  limit.seconds ≤ mostSeconds && Scan.clockReaches env.uptime limit

def printAnswer (env : Environment) (host : Discovery.Host) (asJson : Bool)
    (state : Discovery.State) (answer : Discovery.Answer) : Discovery.State × Output :=
  match if asJson then Report.json? answer else some (Report.text answer) with
  | none => (state, .failed "")
  | some text =>
    if !answer.refreshing then (state, .done text)
    else
      let settled := state.settle host
      if canWait env host.settings.timeout then (settled, .done text) else (settled, .broken text)

def search (env : Environment) (state : Discovery.State) (settings : Settings)
    (arguments : CommandLine.Arguments) : Discovery.State × Output :=
  let host := Discovery.Host.ofSettings env (settings.search.normalized env) (Git.answer env.home)
    .promptly .promptly false
  let state := state.configure (Discovery.Marks.ofList (settings.workspaces.map fun p => (p, true)))
  if arguments.invalidate then
    match state.invalidate host with
    | (state, .ok ()) => (state, .done "")
    | (state, .error _) => (state, .failed "")
  else if arguments.stream then
    let (state, reply) :=
      Discovery.answer host state (.streaming (.channel none)) arguments.paths
    (state, printStream arguments.json reply)
  else
    let demand := if arguments.fresh then Discovery.Demand.fresh else .cached
    match Discovery.answer host state demand arguments.paths with
    | (state, .found answer) => printAnswer env host arguments.json state answer
    | (state, .fell ..) => (state, .broken "")
    | (state, _) => (state, .failed "")

def run (env : Environment) (now : Timestamp) (files : FileSystem)
    (arguments : List (List UInt8)) : FileSystem × Output :=
  match CommandLine.parse arguments with
  | .error .help => (files, .done CommandLine.helpText)
  | .error _ => (files, .misused)
  | .ok arguments => match Settings.forRun files env arguments with
    | (files, .error _) => (files, .failed "")
    | (files, .ok settings) =>
      let (state, output) := search env (.start files now) settings arguments
      (state.files, output)

end RepoFinder.Program
