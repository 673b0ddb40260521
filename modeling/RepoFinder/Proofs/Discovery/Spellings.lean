import RepoFinder.Proofs.Discovery.Calls
import RepoFinder.Proofs.Path.Key
import RepoFinder.Proofs.SearchRoots

namespace RepoFinder.Discovery

open FileSystem SearchRoots

variable {fs : FileSystem} {home : Option Path} {asked extra a b : List Path} {p : Path}

theorem resolve_holds_below
    (asks : p ∈ (candidates home asked extra).map (absolute fs.current.toPath))
    (directory : fs.isDirectory p = true) :
    ∃ root ∈ resolve fs home asked extra,
      ∀ names, (p.along names).key = (root.along names).key := by
  obtain ⟨_, _, _, kept, _⟩ := resolve_keeps_leaders fs home asked extra
  obtain ⟨root, searched, same⟩ := List.mem_map.mp (kept p asks directory)
  exact ⟨root, searched, fun names => Path.key_along same.symm names⟩

theorem sameKeys_join (same : Path.sameKeys a b = true) (rest : Path) :
    Path.sameKeys (a.map (·.join rest)) (b.map (·.join rest)) = true := by
  have half {a b : List Path} (same : Path.sameKeys a b = true) (key : Path.Key)
      (here : ∃ path ∈ a.map (·.join rest), path.key = key) :
      ∃ path ∈ b.map (·.join rest), path.key = key := by
    obtain ⟨_, present, rfl⟩ := here
    obtain ⟨path, among, rfl⟩ := List.mem_map.mp present
    obtain ⟨other, also, equal⟩ := (Path.sameKeys_iff.mp same path.key).mp ⟨path, among, rfl⟩
    exact ⟨other.join rest, List.mem_map_of_mem also, Path.key_join equal rest⟩
  have back : Path.sameKeys b a = true :=
    Path.sameKeys_iff.mpr fun key => (Path.sameKeys_iff.mp same key).symm
  exact Path.sameKeys_iff.mpr fun key => ⟨half same key, half back key⟩

-- The path that a key spells has that key, and paths with one key have one key wherever they are
-- followed to. So a folder that was asked for and the one that is searched in its place, the search
-- paths of a snapshot and those that it matches, and two spellings of a folder whose repositories
-- are marked, agree in the keys of all that lies below them.
theorem keys_hold_below :
    (∀ a : Path, (Path.ofText a.key).key = a.key) ∧
    (∀ a b : Path, a.key = b.key → ∀ rest : Path, (a.join rest).key = (b.join rest).key) ∧
    (∀ (fs : FileSystem) (home : Option Path) (asked extra : List Path),
      ∀ p ∈ (candidates home asked extra).map (absolute fs.current.toPath),
        fs.isDirectory p = true → ∃ root ∈ resolve fs home asked extra,
          ∀ names, (p.along names).key = (root.along names).key) ∧
    (∀ (snapshot : Snapshot) (roots : List Path), snapshot.isFor roots = true → ∀ rest : Path,
      Path.sameKeys (snapshot.searchPaths.map (·.join rest)) (roots.map (·.join rest)) = true) ∧
    ∀ (marks : List Path.Key) (a b : Path), a.key = b.key → ∀ (names : List Name)
      (repository other : Repository), repository.path = a.along names →
        other.path = b.along names →
          (repository.mark marks).isConfigured = (other.mark marks).isConfigured := by
  refine ⟨Path.key_ofText_key, fun _ _ same rest => Path.key_join same rest, ?_, ?_, ?_⟩
  case refine_1 =>
    intro fs home asked extra p asks directory
    exact resolve_holds_below asks directory
  case refine_2 =>
    intro snapshot roots isFor rest
    exact sameKeys_join isFor rest
  case refine_3 =>
    intro marks a b same names repository other here there
    have keys : repository.path.key = other.path.key := by rw [here, there, Path.key_along same]
    simp only [Repository.mark, keys]

def streetOne : Path := (Path.ofString "/W/ΟΔΟΣ").child [0xFF]

def streetTwo : Path := (Path.ofString "/w/x/../οδος/.").child [0xFE]

theorem keys_hold_below_street :
    streetOne.key = streetTwo.key ∧
    (streetOne.join (Path.ofString "../ΣΑΣ")).key = (streetTwo.join (Path.ofString "../ΣΑΣ")).key ∧
    (∃ root ∈ resolve variedFiles (some (Path.ofString "/w")) variedRequest [],
      ∀ names, ((Path.ofString "/W").along names).key = (root.along names).key) ∧
    Path.sameKeys ([streetOne].map (·.join (Path.ofString "a")))
      ([streetTwo].map (·.join (Path.ofString "a"))) = true ∧
    ∀ marks, ((Repository.ofPath (streetOne.along [Text.Utf8.ofString "A"]) "" .epoch).mark
      marks).isConfigured = ((Repository.ofPath (streetTwo.along [Text.Utf8.ofString "A"]) ""
        .epoch).mark marks).isConfigured := by
  have same : streetOne.key = streetTwo.key := by decide +kernel
  have asks : Path.ofString "/W" ∈ (candidates (some (Path.ofString "/w")) variedRequest []).map
      (absolute variedFiles.current.toPath) := by decide +kernel
  have directory : variedFiles.isDirectory (Path.ofString "/W") = true := by decide +kernel
  obtain ⟨_, joins, roots, snapshots, marks⟩ := keys_hold_below
  refine ⟨same, joins _ _ same _, roots _ _ _ _ _ asks directory, ?_, ?_⟩
  case refine_1 =>
    have isFor : (Snapshot.take .epoch [] [streetOne]).isFor [streetTwo] = true := by
      decide +kernel
    exact snapshots _ _ isFor _
  case refine_2 =>
    intro keys
    exact marks keys _ _ same _ _ _ rfl rfl

end RepoFinder.Discovery
