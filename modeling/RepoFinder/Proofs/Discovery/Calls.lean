import RepoFinder.Discovery.Engine
import RepoFinder.Proofs.Scan.Ending
import RepoFinder.Proofs.Snapshot.Saved

namespace RepoFinder

theorem Path.sameKeys_iff {a b : List Path} :
    sameKeys a b = true ↔
      ∀ key, (∃ path ∈ a, path.key = key) ↔ ∃ path ∈ b, path.key = key := by
  simp only [sameKeys, Bool.and_eq_true, List.all_eq_true, List.contains_iff_mem, List.mem_map]
  constructor
  · rintro ⟨forth, back⟩ key
    constructor
    · intro present
      exact forth key present
    · intro present
      exact back key present
  · intro same
    constructor
    · intro key present
      exact (same key).mp present
    · intro key present
      exact (same key).mpr present

namespace Discovery

variable {host : Host} {state : State} {paths : List Path} {snapshot : Snapshot}

def rootsOf (host : Host) (state : State) (paths : List Path) : List Path :=
  SearchRoots.resolve state.files host.home paths host.settings.extraPaths

structure Matches (host : Host) (files : FileSystem) (roots : List Path) (snapshot : Snapshot) :
    Prop where
  loaded : Snapshot.load? files host.file = some snapshot
  current : snapshot.version = Snapshot.currentVersion
  keys : ∀ key, (∃ path ∈ snapshot.searchPaths, path.key = key) ↔ ∃ path ∈ roots, path.key = key

theorem snapshotFor?_iff {roots : List Path} :
    state.snapshotFor? host roots = some snapshot ↔ Matches host state.files roots snapshot := by
  have keys (other : Snapshot) := Path.sameKeys_iff (a := other.searchPaths) (b := roots)
  unfold State.snapshotFor?
  constructor
  · intro found
    -- The version is never compared here: a file of another version does not load.
    split at found
    · rename_i other loaded
      split at found
      · rename_i isFor
        obtain rfl := Option.some.inj found
        exact ⟨loaded, Snapshot.version_of_load? loaded, (keys other).mp isFor⟩
      · cases found
    · cases found
  · intro matching
    have isFor : snapshot.isFor roots = true := (keys snapshot).mpr matching.keys
    simp [matching.loaded, isFor]

theorem snapshotFor?_eq_none {roots : List Path} :
    state.snapshotFor? host roots = none ↔
      ¬∃ snapshot, Matches host state.files roots snapshot := by
  rw [Option.eq_none_iff_forall_ne_some]
  simp only [ne_eq, snapshotFor?_iff, not_exists]

theorem Call.run_done (host : Host) (steps : Nat) (state : State) (reply : Reply) :
    (Call.done reply).run host steps state = (state, .done reply) := by
  induction steps with
  | zero => rfl
  | succ steps ih => exact ih

theorem run_begun (host : Host) (state : State) (paths : List Path) (steps : Nat) :
    (Call.begun .cached paths).run host (steps + 1) state =
      (Call.looking (rootsOf host state paths)).run host steps state := rfl

theorem answer_young (matching : Matches host state.files (rootsOf host state paths) snapshot)
    (young : (snapshot.age state.now).lt host.settings.snapshotLife = true) :
    answer host state .cached paths =
      (state, Call.serve state (rootsOf host state paths) snapshot (snapshot.age state.now)
        state.refreshing) := by
  have found := snapshotFor?_iff.mpr matching
  simp only [answer, Call.mostSteps, run_begun, Call.run, Call.step, found, young, if_true]

-- Old is served too. The refresh that replaces it is begun at most once, and only here.
theorem answer_old (matching : Matches host state.files (rootsOf host state paths) snapshot)
    (old : (snapshot.age state.now).lt host.settings.snapshotLife = false) :
    answer host state .cached paths =
      (if state.refreshing then state
        else { state with
          refreshing := true
          refreshes := state.refreshes ++ [.started (rootsOf host state paths)] },
        Call.serve state (rootsOf host state paths) snapshot (snapshot.age state.now) true) := by
  have found := snapshotFor?_iff.mpr matching
  cases refreshing : state.refreshing <;>
    simp [answer, Call.mostSteps, run_begun, Call.run, Call.step, found, old, refreshing, Call.serve,
      State.overlay]

def scanFor (host : Host) (state : State) (demand : Demand) (paths : List Path) : Scan.Result :=
  host.scan state.files (rootsOf host state paths) (Call.sinkOf demand)

def Scans (host : Host) (state : State) (paths : List Path) : Demand → Prop
  | .cached => ¬∃ snapshot, Matches host state.files (rootsOf host state paths) snapshot
  | _ => True

-- Two steps are left after any scan, which is what saving and answering take. The bound on the
-- steps of a call is never what ends it.
theorem run_scans {demand : Demand} (scans : Scans host state paths demand) :
    ∃ steps, (Call.begun demand paths).run host Call.mostSteps state =
      (Call.afterScan demand (rootsOf host state paths) state.configured
        (scanFor host state demand paths)).run host (steps + 2) state.countScan := by
  cases demand with
  | cached =>
    have missing := snapshotFor?_eq_none.mpr scans
    refine ⟨2, ?_⟩
    rw [Call.mostSteps, run_begun, Call.run]
    simp only [Call.step, missing]
    rfl
  | fresh => exact ⟨3, rfl⟩
  | streaming sink => exact ⟨3, rfl⟩

theorem answer_scanned {demand : Demand} {outcome : Scan.Outcome}
    (scans : Scans host state paths demand)
    (scanned : (scanFor host state demand paths).outcome = .ok outcome)
    (uncancelled : outcome.stop ≠ .cancelled) :
    answer host state demand paths =
      let delivered := (scanFor host state demand paths).kept.map
        fun kept => kept.1.mark state.configured
      let after := state.countScan.persist host outcome.repositories (rootsOf host state paths)
      (after, Call.conclude after demand (rootsOf host state paths) outcome delivered) := by
  obtain ⟨steps, run⟩ := run_scans scans
  have saves : Call.afterScan demand (rootsOf host state paths) state.configured
      (scanFor host state demand paths) =
        .saving demand (rootsOf host state paths) outcome
          ((scanFor host state demand paths).kept.map fun kept => kept.1.mark state.configured) := by
    simp only [Call.afterScan, scanned, uncancelled, if_false]
  simp only [answer, run, saves, Call.run, Call.step, Call.run_done]

theorem answer_cancelled {demand : Demand} {outcome : Scan.Outcome}
    (scans : Scans host state paths demand)
    (scanned : (scanFor host state demand paths).outcome = .ok outcome)
    (cancelled : outcome.stop = .cancelled) :
    ∃ delivered, (answer host state demand paths).2 = .cancelled delivered := by
  obtain ⟨steps, run⟩ := run_scans scans
  simp only [answer, run, Call.afterScan, scanned, cancelled, if_true, Call.run_done]
  exact ⟨_, rfl⟩

structure Scanned (host : Host) (files : FileSystem) (roots : List Path) (sink : Scan.Sink)
    (cancelled : Bool) (outcome : Scan.Outcome) : Prop where
  answered : (host.scan files roots sink).outcome = .ok outcome
  ends : ∃ remote, Scan.Ends ⟨files, remote, host.settings.depthLimit, sink⟩ roots
    host.settings.scanOptions cancelled outcome

theorem Host.ofSettings_scanned {env : Environment} {settings : SearchSettings}
    {remote : FileSystem → Path → Scan.Answer} {answering background : Scan.Answering}
    {requested : Bool} {files : FileSystem} {roots : List Path} {sink : Scan.Sink}
    {outcome : Scan.Outcome}
    (answered : ((Host.ofSettings env settings remote answering background requested).scan
      files roots sink).outcome = .ok outcome) :
    ∃ cancelled,
      Scanned (Host.ofSettings env settings remote answering background requested) files roots sink
        cancelled outcome ∧
      (requested = false → answering ≠ .firstCancels → cancelled = false) := by
  obtain ⟨cancelled, ends, calm⟩ := Scan.scan_ends answered
  exact ⟨cancelled, ⟨answered, remote files, ends⟩, calm⟩

theorem Scanned.dated {files : FileSystem} {roots : List Path} {sink : Scan.Sink}
    {cancelled : Bool} {outcome : Scan.Outcome}
    (scanned : Scanned host files roots sink cancelled outcome) :
    ∀ repository ∈ outcome.repositories, repository.modified.IsMoment := by
  obtain ⟨_, ends⟩ := scanned.ends
  exact ends.dated

end Discovery

end RepoFinder
