import RepoFinder.Proofs.Discovery.Calls
import RepoFinder.Proofs.Snapshot.Return

namespace RepoFinder.Discovery

variable {host : Host} {state : State} {paths : List Path}

theorem matches_saved {sink : Scan.Sink} {cancelled : Bool} {outcome : Scan.Outcome}
    {roots : List Path} (scanned : Scanned host state.files roots sink cancelled outcome)
    (clock : state.now.IsShown)
    (free : Snapshot.WayIsFree (Snapshot.withFolder state.files host.file) host.file)
    (saved : (Snapshot.save state.files host.file
      (Snapshot.take state.now outcome.repositories roots)).2 = .ok ()) :
    Matches host (state.countScan.persist host outcome.repositories roots).files roots
      (Snapshot.take state.now.settled outcome.repositories roots) := by
  have whole : Snapshot.save state.files host.file
      (Snapshot.take state.now outcome.repositories roots) =
        ((state.countScan.persist host outcome.repositories roots).files, .ok ()) :=
    Prod.ext rfl saved
  have shown := Snapshot.take_shown clock
    (fun repository present => (scanned.dated repository present).shown) roots
  have loaded := Snapshot.load?_settled free shown rfl whole
  rw [Snapshot.take_settled scanned.dated] at loaded
  exact ⟨loaded, rfl, fun _ => Iff.rfl⟩

theorem answer_matching {snapshot : Snapshot}
    (matching : Matches host state.files (rootsOf host state paths) snapshot) :
    let after := (answer host state .cached paths).1
    ∃ found, (answer host state .cached paths).2 = .found found ∧ found.cached = true ∧
      found.repositories = snapshot.repositories.map (Repository.mark state.configured) ∧
      after.files = state.files ∧ after.scans = state.scans ∧
      ((snapshot.age state.now).lt host.settings.snapshotLife = false → state.refreshing = false →
        after.refreshes = state.refreshes ++ [.started (rootsOf host state paths)]) := by
  cases young : (snapshot.age state.now).lt host.settings.snapshotLife with
  | true =>
    rw [answer_young matching young]
    refine ⟨_, rfl, rfl, rfl, rfl, rfl, ?_⟩
    intro old
    cases old
  | false =>
    -- The refresh is only recorded, so the call itself touches neither the files nor the count.
    rw [answer_old matching young]
    refine ⟨_, rfl, rfl, rfl, ?_, ?_, ?_⟩
    · split <;> rfl
    · split <;> rfl
    · intro _ free
      simp [free]

-- A search that is not cancelled, and whose scan takes nobody down, answers whatever the file of
-- the snapshot holds, at any time and on any tree. It answers from the file exactly when that
-- holds a snapshot of the current version for the same folders, with its repositories in their
-- order and with new marks; else it scans once and answers with what that scan found. Afterwards
-- the file holds a snapshot for the same folders, if it did before or if the save succeeded,
-- provided that the save did not replace a link that the way to the file leads through.
theorem discover_heals (host : Host) (state : State) (paths : List Path)
    (calm : Scans host state paths .cached → ∃ outcome,
      Scanned host state.files (rootsOf host state paths) .absent false outcome) :
    let roots := rootsOf host state paths
    let after := (answer host state .cached paths).1
    ∃ found, (answer host state .cached paths).2 = .found found ∧
      (found.cached = true ↔ ∃ snapshot, Matches host state.files roots snapshot) ∧
      (∀ snapshot, Matches host state.files roots snapshot →
        found.repositories = snapshot.repositories.map (Repository.mark state.configured) ∧
        after.files = state.files ∧ after.scans = state.scans ∧
        ((snapshot.age state.now).lt host.settings.snapshotLife = false →
          state.refreshing = false → after.refreshes = state.refreshes ++ [.started roots])) ∧
      (∀ outcome, Scans host state paths .cached →
        (scanFor host state .cached paths).outcome = .ok outcome →
          found.repositories = outcome.repositories.map (Repository.mark state.configured) ∧
          found.stats = outcome.stats ∧ found.searchPaths = roots ∧
          after.scans = state.scans + 1) ∧
      ((∃ snapshot, Matches host state.files roots snapshot) ∨
        (∃ outcome, (scanFor host state .cached paths).outcome = .ok outcome ∧
          Snapshot.WayIsFree (Snapshot.withFolder state.files host.file) host.file ∧
          (Snapshot.save state.files host.file
            (Snapshot.take state.now outcome.repositories roots)).2 = .ok () ∧
          state.now.IsShown) →
        ∃ snapshot, Matches host after.files roots snapshot) := by
  intro roots after
  -- Whether the file matches decides everything: a hit never scans, and a miss always does.
  by_cases hit : ∃ snapshot, Matches host state.files roots snapshot
  · obtain ⟨snapshot, matching⟩ := hit
    have same {other : Snapshot} (also : Matches host state.files roots other) :
        other = snapshot := Option.some.inj (also.loaded.symm.trans matching.loaded)
    obtain ⟨found, replied, cached, repositories, files, scans, refreshes⟩ :=
      answer_matching matching
    refine ⟨found, replied, ⟨fun _ => ⟨snapshot, matching⟩, fun _ => cached⟩, ?_, ?_, ?_⟩
    · intro other also
      rw [same also]
      exact ⟨repositories, files, scans, refreshes⟩
    · intro _ scans
      exact absurd ⟨snapshot, matching⟩ scans
    · intro _
      exact ⟨snapshot, ⟨files ▸ matching.loaded, matching.current, matching.keys⟩⟩
  · have scans : Scans host state paths .cached := hit
    obtain ⟨outcome, scanned⟩ := calm scans
    obtain ⟨_, ends⟩ := scanned.ends
    have answered := answer_scanned scans scanned.answered ends.stop_ne_cancelled
    have only {other : Scan.Outcome}
        (also : (scanFor host state .cached paths).outcome = .ok other) : other = outcome :=
      Except.ok.inj (also.symm.trans scanned.answered)
    simp only [after, answered]
    refine ⟨_, rfl, ?_, ?_, ?_, ?_⟩
    · constructor
      · intro cached
        cases cached
      · intro also
        exact absurd also hit
    · intro snapshot matching
      exact absurd ⟨snapshot, matching⟩ hit
    · intro other _ also
      rw [only also]
      exact ⟨rfl, rfl, rfl, rfl⟩
    · intro stands
      rcases stands with also | ⟨other, also, free, saved, clock⟩
      · exact absurd also hit
      · rw [only also] at saved
        exact ⟨_, matches_saved scanned clock free saved⟩

def sampleHost (file : String) : Host :=
  Host.ofSettings ⟨none, none, none, 1, 0⟩
    ⟨0, ⟨20, 0⟩, 1, ⟨60, 0⟩, some (Path.ofString file), []⟩ (fun _ _ => .failure) .promptly .promptly
    false

def sampleState : State :=
  let directory (entries : List (String × FileSystem.Node)) : FileSystem.Node :=
    .directory 0o755 .epoch (entries.map fun entry => (Text.Utf8.ofString entry.1, entry.2))
  let folder := directory [("e", directory []), ("x", .link (Path.ofString "e"))]
  let work := directory [("p", directory [(".git", directory [])])]
  .start ⟨directory [("d", folder), ("w", work)], []⟩ ⟨1700000000, 0⟩

def sampleRoots : List Path := [Path.ofString "/w"]

-- The name of the file plays no part in a scan, so one run stands for every host of the sample.
theorem sample_scanned (file : String) :
    ∃ outcome, Scanned (sampleHost file) sampleState.files sampleRoots .absent false outcome ∧
      outcome.repositories = [.ofPath (Path.ofString "/w/p") "" .epoch] := by
  have found : ((sampleHost "").scan sampleState.files sampleRoots .absent).outcome.toOption.map
      (·.repositories) = some [.ofPath (Path.ofString "/w/p") "" .epoch] := by
    decide +kernel
  cases answered : ((sampleHost file).scan sampleState.files sampleRoots .absent).outcome with
  | error fault =>
    have answered : ((sampleHost "").scan sampleState.files sampleRoots .absent).outcome = _ :=
      answered
    simp [answered, Except.toOption] at found
  | ok outcome =>
    obtain ⟨cancelled, scanned, calm⟩ := Host.ofSettings_scanned answered
    have answered : ((sampleHost "").scan sampleState.files sampleRoots .absent).outcome = _ :=
      answered
    obtain rfl := calm rfl (by decide)
    exact ⟨outcome, scanned, by simpa [answered, Except.toOption] using found⟩

theorem sample_saved (file : String)
    (fine : (Snapshot.save sampleState.files (sampleHost file).file (Snapshot.take sampleState.now
      [.ofPath (Path.ofString "/w/p") "" .epoch] sampleRoots)).2.isOk = true)
    {outcome : Scan.Outcome}
    (found : outcome.repositories = [.ofPath (Path.ofString "/w/p") "" .epoch]) :
    (Snapshot.save sampleState.files (sampleHost file).file
      (Snapshot.take sampleState.now outcome.repositories sampleRoots)).2 = .ok () := by
  rw [found]
  exact Snapshot.eq_ok_of_isOk fine

theorem sample_wayIsFree : Snapshot.WayIsFree
    (Snapshot.withFolder sampleState.files (sampleHost "/d/s").file) (sampleHost "/d/s").file := by
  have named : (Snapshot.withFolder sampleState.files (sampleHost "/d/s").file).slot
      (sampleHost "/d/s").file = .ok ⟨[[0x64]], [0x73], false⟩ := by rfl
  intro slot also
  obtain rfl := Except.ok.inj (named.symm.trans also)
  rfl

theorem discover_heals_sample :
    ∃ snapshot, Matches (sampleHost "/d/s")
      (answer (sampleHost "/d/s") sampleState .cached sampleRoots).1.files sampleRoots snapshot := by
  have roots : rootsOf (sampleHost "/d/s") sampleState sampleRoots = sampleRoots := by
    decide +kernel
  obtain ⟨outcome, scanned, repositories⟩ := sample_scanned "/d/s"
  have saved := sample_saved "/d/s" (by decide +kernel) repositories
  obtain ⟨found, _, _, _, _, healed⟩ := discover_heals (sampleHost "/d/s") sampleState sampleRoots
    (fun _ => ⟨outcome, roots.symm ▸ scanned⟩)
  rw [roots] at healed
  exact healed (.inr ⟨outcome, by rw [scanFor, roots]; exact scanned.answered,
    sample_wayIsFree, saved, by decide⟩)

-- Where the way to the file leads through a link that the save replaces, the save succeeds and
-- the file is lost all the same.
theorem unhealed_behind_own_link :
    sampleState.refreshing = false ∧ sampleState.refreshes = [] ∧
      (∃ outcome,
        (scanFor (sampleHost "/d/x/../x") sampleState .cached sampleRoots).outcome = .ok outcome ∧
        (Snapshot.save sampleState.files (sampleHost "/d/x/../x").file
          (Snapshot.take sampleState.now outcome.repositories sampleRoots)).2 = .ok ()) ∧
      (answer (sampleHost "/d/x/../x") sampleState .cached sampleRoots).1.refreshes.length = 0 ∧
      ¬∃ snapshot, Matches (sampleHost "/d/x/../x")
        (answer (sampleHost "/d/x/../x") sampleState .cached sampleRoots).1.files sampleRoots
        snapshot := by
  have roots : rootsOf (sampleHost "/d/x/../x") sampleState sampleRoots = sampleRoots := by
    decide +kernel
  obtain ⟨outcome, scanned, repositories⟩ := sample_scanned "/d/x/../x"
  have lost : Snapshot.load?
      (answer (sampleHost "/d/x/../x") sampleState .cached sampleRoots).1.files
      (sampleHost "/d/x/../x").file = none := by
    decide +kernel
  have saved := sample_saved "/d/x/../x" (by decide +kernel) repositories
  refine ⟨rfl, rfl, ⟨outcome, by rw [scanFor, roots]; exact scanned.answered, saved⟩, ?_, ?_⟩
  · decide +kernel
  · intro kept
    obtain ⟨snapshot, matching⟩ := kept
    cases lost.symm.trans matching.loaded

end RepoFinder.Discovery
