import RepoFinder.Discovery.Answer
import RepoFinder.Json.Printer

namespace RepoFinder.Report

def nameWidth : Nat := 32

def padded (name : String) : String :=
  name ++ String.ofList (List.replicate (nameWidth - name.length) ' ')

def repositoryLine (repository : Repository) : String :=
  let mark := if repository.isConfigured then "*" else " "
  let url := if repository.remoteUrl.isEmpty then "" else "  [" ++ repository.remoteUrl ++ "]"
  mark ++ " " ++ padded repository.name ++ " " ++ repository.path.display ++ url ++ "\n"

def source (answer : Discovery.Answer) : String :=
  match answer.cached, answer.ageMillis with
  | true, some age => "cache, " ++ toString (age / 1000) ++ "s old"
  | _, _ =>
    "scan, " ++ toString answer.stats.scannedDirs ++ " dirs read, "
      ++ toString answer.stats.skippedDirs ++ " skipped"

def summary (answer : Discovery.Answer) : String :=
  "\n" ++ toString answer.count ++ " repositories (" ++ source answer ++ ") in "
    ++ toString answer.elapsedMillis ++ " ms\n"
    ++ (if answer.stats.timedOut then "Scan timed out; results may be incomplete\n" else "")
    ++ (if answer.refreshing then "Refreshing in background\n" else "")

def text (answer : Discovery.Answer) : String :=
  String.join (answer.repositories.map repositoryLine) ++ summary answer

def json? (answer : Discovery.Answer) : Option String :=
  answer.toJson?.map fun json => String.ofList json.pretty ++ "\n"

def jsonLine? (repository : Repository) : Option String :=
  repository.toJson?.map fun json => String.ofList json.compact ++ "\n"

end RepoFinder.Report
