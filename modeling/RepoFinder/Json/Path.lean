import RepoFinder.Json.Record
import RepoFinder.Path.Basic

namespace RepoFinder.Path

def toJson? (p : Path) : Option Json := p.text?.map Json.ofText

def ofJson? (json : Json) : Option Path := json.text?.map ofText

end RepoFinder.Path
