import RepoFinder.Proofs.Discovery.Healing

namespace RepoFinder.Discovery

variable {host : Host} {state later : State} {paths : List Path} {roots : List Path}
  {snapshot : Snapshot} {taken : Time.Timestamp}

def Alike (roots others : List Path) : Prop :=
  ∀ key, (∃ path ∈ roots, path.key = key) ↔ ∃ path ∈ others, path.key = key

structure Asks (host : Host) (roots : List Path) (taken : Time.Timestamp) (state : State)
    (paths : List Path) : Prop where
  alike : Alike roots (rootsOf host state paths)
  young : (taken.age state.now).lt host.settings.snapshotLife = true

-- What may happen after a scan was saved: searches that ask for the same in time, and anything
-- else that leaves the content of the file alone.
inductive Since (host : Host) (roots : List Path) (taken : Time.Timestamp) (start : State) :
    State → Prop where
  | start : Since host roots taken start start
  | changed {state next : State} (before : Since host roots taken start state)
      (kept : next.files.contentOf host.file = state.files.contentOf host.file) :
      Since host roots taken start next
  | asked {state : State} {paths : List Path} (before : Since host roots taken start state)
      (asks : Asks host roots taken state paths) :
      Since host roots taken start (answer host state .cached paths).1

theorem load?_congr {fs other : FileSystem} {file : Path}
    (same : other.contentOf file = fs.contentOf file) :
    Snapshot.load? other file = Snapshot.load? fs file := by
  simp only [Snapshot.load?, same]

theorem answer_alike (loaded : Snapshot.load? state.files host.file = some snapshot)
    (asks : Asks host snapshot.searchPaths snapshot.timestamp state paths) :
    ∃ found, answer host state .cached paths = (state, .found found) ∧ found.cached = true ∧
      found.repositories = snapshot.repositories.map (Repository.mark state.configured) := by
  have matching : Matches host state.files (rootsOf host state paths) snapshot :=
    ⟨loaded, Snapshot.version_of_load? loaded, asks.alike⟩
  rw [answer_young matching asks.young]
  exact ⟨_, rfl, rfl, rfl⟩

-- No search of the history writes the file, since each of them is answered from it. That is what
-- the induction carries: the content stays, so the next search finds what the last one found.
theorem Since.content {start : State}
    (loaded : Snapshot.load? start.files host.file = some snapshot)
    (since : Since host snapshot.searchPaths snapshot.timestamp start later) :
    later.files.contentOf host.file = start.files.contentOf host.file := by
  induction since with
  | start => rfl
  | changed _ kept ih => exact kept.trans ih
  | asked _ asks ih =>
    obtain ⟨found, answered, _⟩ := answer_alike ((load?_congr ih).trans loaded) asks
    rw [answered]
    exact ih

def Reply.isFine : Reply → Bool
  | .found _ => true
  | .streamed .. => true
  | _ => false

-- A scan warms the snapshot for every later search. Whatever call scanned, for itself, anew or
-- for a stream, once its snapshot is saved each further search for the same folders, in any
-- spelling and order, answers with exactly the repositories of that scan in their order, with the
-- marks of its own time. It starts no scan and changes nothing. Between such searches anything
-- may happen that leaves the file alone, for as long as the snapshot is young. As ever, the save
-- must not replace a link that the way to the file leads through.
theorem scan_warms {demand : Demand} {outcome : Scan.Outcome} {cancelled : Bool}
    (scans : Scans host state paths demand)
    (scanned : Scanned host state.files (rootsOf host state paths) (Call.sinkOf demand) cancelled
      outcome)
    (returned : (answer host state demand paths).2.isFine = true)
    (free : Snapshot.WayIsFree (Snapshot.withFolder state.files host.file) host.file)
    (saved : (Snapshot.save state.files host.file
      (Snapshot.take state.now outcome.repositories (rootsOf host state paths))).2 = .ok ())
    (clock : state.now.IsShown)
    (since : Since host (rootsOf host state paths) state.now.settled
      (answer host state demand paths).1 later)
    {again : List Path}
    (asks : Asks host (rootsOf host state paths) state.now.settled later again) :
    ∃ found, answer host later .cached again = (later, .found found) ∧ found.cached = true ∧
      found.repositories = outcome.repositories.map (Repository.mark later.configured) ∧
      later.files.contentOf host.file =
        (answer host state demand paths).1.files.contentOf host.file := by
  have uncancelled : outcome.stop ≠ .cancelled := by
    intro stop
    obtain ⟨delivered, replied⟩ := answer_cancelled scans scanned.answered stop
    rw [replied] at returned
    cases returned
  have warmed := answer_scanned scans scanned.answered uncancelled
  -- What was saved is read back as it was, so the search answers with the list of the scan itself.
  have matching := matches_saved scanned clock free saved
  have loaded : Snapshot.load? (answer host state demand paths).1.files host.file =
      some (Snapshot.take state.now.settled outcome.repositories (rootsOf host state paths)) := by
    rw [warmed]
    exact matching.loaded
  have content := Since.content loaded since
  obtain ⟨found, answered, cached, repositories⟩ :=
    answer_alike ((load?_congr content).trans loaded) asks
  refine ⟨found, answered, cached, ?_, content⟩
  rw [repositories, Snapshot.take, List.map_map]
  rfl

def State.atTime (state : State) (now : Time.Timestamp) : State := { state with now }

theorem alike_of_eq {roots others : List Path} (same : others = roots) : Alike roots others := by
  intro key
  rw [same]

theorem scan_warms_sample :
    ∃ found, answer (sampleHost "/d/s")
        ((answer (sampleHost "/d/s") sampleState .cached sampleRoots).1.atTime ⟨1700000030, 0⟩) .cached
        [Path.ofString "/d/../w/."] =
          ((answer (sampleHost "/d/s") sampleState .cached sampleRoots).1.atTime ⟨1700000030, 0⟩,
            .found found) ∧
      found.cached = true := by
  obtain ⟨outcome, scanned, repositories⟩ := sample_scanned "/d/s"
  have roots : rootsOf (sampleHost "/d/s") sampleState sampleRoots = sampleRoots := by
    decide +kernel
  have missing : Snapshot.load? sampleState.files (sampleHost "/d/s").file = none := by
    decide +kernel
  have scans : Scans (sampleHost "/d/s") sampleState sampleRoots .cached := by
    intro kept
    obtain ⟨snapshot, matching⟩ := kept
    cases missing.symm.trans matching.loaded
  have returned : (answer (sampleHost "/d/s") sampleState .cached sampleRoots).2.isFine = true := by
    decide +kernel
  have saved := sample_saved "/d/s" (by decide +kernel) repositories
  have respelled : rootsOf (sampleHost "/d/s")
      ((answer (sampleHost "/d/s") sampleState .cached sampleRoots).1.atTime ⟨1700000030, 0⟩)
      [Path.ofString "/d/../w/."] = sampleRoots := by
    decide +kernel
  have since : Since (sampleHost "/d/s") (rootsOf (sampleHost "/d/s") sampleState sampleRoots)
      sampleState.now.settled (answer (sampleHost "/d/s") sampleState .cached sampleRoots).1
      ((answer (sampleHost "/d/s") sampleState .cached sampleRoots).1.atTime ⟨1700000030, 0⟩) :=
    .changed .start rfl
  obtain ⟨found, answered, cached, _⟩ := scan_warms scans (roots.symm ▸ scanned) returned
    sample_wayIsFree (roots.symm ▸ saved) (by decide) since
    ⟨alike_of_eq (respelled.trans roots.symm), by decide⟩
  exact ⟨found, answered, cached⟩

-- Where the way to the file leads through a link that the save replaces, the save succeeds and
-- the next search scans again.
theorem unwarmed_behind_own_link :
    (∃ outcome,
      (scanFor (sampleHost "/d/x/../x") sampleState .cached sampleRoots).outcome = .ok outcome ∧
      (Snapshot.save sampleState.files (sampleHost "/d/x/../x").file
        (Snapshot.take sampleState.now outcome.repositories sampleRoots)).2 = .ok ()) ∧
    (answer (sampleHost "/d/x/../x") sampleState .cached sampleRoots).2.isFine = true ∧
    Asks (sampleHost "/d/x/../x") sampleRoots sampleState.now
      (answer (sampleHost "/d/x/../x") sampleState .cached sampleRoots).1 sampleRoots ∧
    (answer (sampleHost "/d/x/../x")
      (answer (sampleHost "/d/x/../x") sampleState .cached sampleRoots).1 .cached
      sampleRoots).1.scans =
        (answer (sampleHost "/d/x/../x") sampleState .cached sampleRoots).1.scans + 1 := by
  have roots : rootsOf (sampleHost "/d/x/../x") sampleState sampleRoots = sampleRoots := by
    decide +kernel
  have rootsAfter : rootsOf (sampleHost "/d/x/../x")
      (answer (sampleHost "/d/x/../x") sampleState .cached sampleRoots).1 sampleRoots =
        sampleRoots := by
    decide +kernel
  obtain ⟨outcome, scanned, repositories⟩ := sample_scanned "/d/x/../x"
  have saved := sample_saved "/d/x/../x" (by decide +kernel) repositories
  refine ⟨⟨outcome, by rw [scanFor, roots]; exact scanned.answered, saved⟩, ?_,
    ⟨alike_of_eq rootsAfter, ?_⟩, ?_⟩
  · decide +kernel
  · decide +kernel
  · decide +kernel

end RepoFinder.Discovery
