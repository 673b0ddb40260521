import RepoFinder.Program
import RepoFinder.Proofs.Discovery.Calls
import RepoFinder.Proofs.Scan.Budget
import RepoFinder.Proofs.Settings.Timed

namespace RepoFinder

open Time

namespace Discovery

variable {env : Environment} {settings : SearchSettings}
  {remote : FileSystem → Path → Scan.Answer} {answering background : Scan.Answering}
  {cancelled : Bool} {files : FileSystem} {roots : List Path} {state : State} {paths : List Path}

-- A scan from some roots gets over all that it is to find on a tree: every question that it asks is
-- answered, and every time of modification that it takes has a place in the calendar.
def AllRecordable (settings : SearchSettings) (remote : FileSystem → Path → Scan.Answer)
    (files : FileSystem) (roots : List Path) : Prop :=
  let scene : Scan.Scene := ⟨files, remote files, settings.depthLimit, .absent⟩
  ∀ path, Scan.Target scene roots path → scene.Recordable path

theorem Host.ofSettings_returns (tidy : files.root.isTidy = true)
    (recordable : AllRecordable settings remote files roots) (answers : answering ≠ .notNow)
    (reaches : Scan.clockReaches env.uptime settings.timeout = true) (sink : Scan.Sink) :
    ∃ outcome, ((Host.ofSettings env settings remote answering background cancelled).scan files
      roots sink).outcome = .ok outcome := by
  let scene : Scan.Scene := ⟨files, remote files, settings.depthLimit, sink⟩
  have recordable (path : Path) (target : Scan.Target scene roots path) : scene.Recordable path :=
    ⟨(recordable path target).answered, (recordable path target).dated⟩
  have reaches : Scan.clockReaches env.uptime settings.scanOptions.timeout = true := reaches
  exact Scan.scan_returns tidy recordable answers reaches cancelled

theorem Host.ofSettings_beyond (files : FileSystem) (roots : List Path)
    (beyond : Scan.clockReaches env.uptime settings.timeout = false) (sink : Scan.Sink) :
    (Host.ofSettings env settings remote answering background cancelled).scan files roots sink =
      ⟨.error .clockOverflow, []⟩ :=
  Scan.scan_beyond _ roots answering beyond cancelled

theorem answer_returns {demand : Demand} (tidy : state.files.root.isTidy = true)
    (recordable : AllRecordable settings remote state.files
      (rootsOf (Host.ofSettings env settings remote answering background cancelled) state paths))
    (answers : answering ≠ .notNow)
    (reaches : Scan.clockReaches env.uptime settings.timeout = true)
    (delivered : List Repository) (fault : Scan.Fault) :
    (answer (Host.ofSettings env settings remote answering background cancelled) state demand
      paths).2 ≠ .fell delivered fault := by
  let host := Host.ofSettings env settings remote answering background cancelled
  change (answer host state demand paths).2 ≠ _
  by_cases scans : Scans host state paths demand
  · obtain ⟨outcome, scanned⟩ : ∃ outcome,
        (scanFor host state demand paths).outcome = .ok outcome :=
      Host.ofSettings_returns tidy recordable answers reaches (Call.sinkOf demand)
    by_cases stopped : outcome.stop = .cancelled
    · obtain ⟨delivered, replied⟩ := answer_cancelled scans scanned stopped
      simp [replied]
    · rw [answer_scanned scans scanned stopped]
      cases demand <;> simp [Call.conclude]
  · cases demand with
    | cached =>
      obtain ⟨snapshot, matching⟩ := not_not.mp scans
      cases young : (snapshot.age state.now).lt host.settings.snapshotLife with
      | true => simp [answer_young matching young, Call.serve]
      | false => simp [answer_old matching young, Call.serve]
    | _ => exact absurd trivial scans

theorem answer_beyond {demand : Demand}
    (beyond : Scan.clockReaches env.uptime settings.timeout = false)
    (scans : Scans (Host.ofSettings env settings remote answering background cancelled) state paths
      demand) :
    (answer (Host.ofSettings env settings remote answering background cancelled) state demand
      paths).2 = .fell [] .clockOverflow := by
  obtain ⟨steps, went⟩ := run_scans scans
  have falls : scanFor (Host.ofSettings env settings remote answering background cancelled) state
      demand paths = ⟨.error .clockOverflow, []⟩ := Host.ofSettings_beyond _ _ beyond _
  simp [answer, went, Call.afterScan, falls, Call.run_done]

theorem settle_counted (host : Host) (alone : state.refreshes = [.started roots]) :
    state.settle host = State.settleFor host 5
      { state.countScan with refreshes := [.counted roots] } := by
  simp [State.settle, State.settleFor, State.stepRefresh, alone, Refresh.step, State.countScan]

theorem settle_started (tidy : state.files.root.isTidy = true)
    (recordable : AllRecordable settings remote state.files roots) (answers : background ≠ .notNow)
    (reaches : Scan.clockReaches env.uptime settings.timeout = true)
    (alone : state.refreshes = [.started roots]) :
    let host := Host.ofSettings env settings remote answering background cancelled
    ∃ outcome : Scan.Outcome, state.settle host =
      { state.countScan.persist host outcome.repositories roots with
        refreshing := false, refreshes := [] } := by
  intro host
  let scene : Scan.Scene := ⟨state.files, remote state.files, settings.depthLimit, .absent⟩
  let course := Scan.Course.start roots settings.scanOptions false
  obtain ⟨reason, stopped⟩ : ∃ reason,
      (course.run scene background roots.length).state.stopReason? = some reason :=
    Scan.Course.run_stops tidy answers roots settings.scanOptions false
  have up : (course.run scene background roots.length).state.hasFallen = false :=
    Scan.Course.run_stands recordable background settings.scanOptions false
  have launched : host.launch roots = .ok course := if_pos reaches
  have ended : (host.proceed state.files roots.length course).ending? =
      some (.ok ((course.run scene background roots.length).state.outcome reason)) := by
    change (course.run scene background roots.length).ending? = _
    simp [Scan.Course.ending?, stopped, up]
  refine ⟨(course.run scene background roots.length).state.outcome reason, ?_⟩
  rw [settle_counted host alone]
  simp [State.settleFor, State.stepRefresh, Refresh.step, launched, ended, State.countScan,
    State.persist]

theorem settle_beyond (beyond : Scan.clockReaches env.uptime settings.timeout = false)
    (alone : state.refreshes = [.started roots]) :
    state.settle (Host.ofSettings env settings remote answering background cancelled) =
      { state.countScan with refreshing := false, refreshes := [] } := by
  have refused : (Host.ofSettings env settings remote answering background cancelled).launch roots =
      .error .clockOverflow := by
    refine if_neg ?_
    rw [Bool.not_eq_true]
    exact beyond
  rw [settle_counted _ alone]
  simp [State.settleFor, State.stepRefresh, Refresh.step, refused]

-- On the tree of a state, a scan that gets over all that it is to find has an outcome, no call with
-- such a scan falls, and a refresh on its own ends with what it found saved.
structure Host.Returns (host : Host) (remote : FileSystem → Path → Scan.Answer) (state : State) :
    Prop where
  scans : ∀ roots, AllRecordable host.settings remote state.files roots → ∀ sink,
    ∃ outcome, (host.scan state.files roots sink).outcome = .ok outcome
  replies : ∀ paths, AllRecordable host.settings remote state.files (rootsOf host state paths) →
    ∀ demand delivered fault, (answer host state demand paths).2 ≠ .fell delivered fault
  settles : ∀ roots, AllRecordable host.settings remote state.files roots →
    state.refreshes = [.started roots] → ∃ outcome : Scan.Outcome, state.settle host =
      { state.countScan.persist host outcome.repositories roots with
        refreshing := false, refreshes := [] }

-- Every scan falls before it begins, and with it each call that scans; a refresh on its own ends with
-- nothing saved.
structure Host.Falls (host : Host) (state : State) : Prop where
  scans : ∀ roots sink, host.scan state.files roots sink = ⟨.error .clockOverflow, []⟩
  replies : ∀ demand paths, Scans host state paths demand →
    (answer host state demand paths).2 = .fell [] .clockOverflow
  settles : ∀ roots, state.refreshes = [.started roots] →
    state.settle host = { state.countScan with refreshing := false, refreshes := [] }

theorem Host.ofSettings_ends (tidy : state.files.root.isTidy = true) (answers : answering ≠ .notNow)
    (refreshes : background ≠ .notNow) :
    let host := Host.ofSettings env settings remote answering background cancelled
    (Scan.clockReaches env.uptime settings.timeout = true → host.Returns remote state) ∧
      (Scan.clockReaches env.uptime settings.timeout = false → host.Falls state) := by
  refine ⟨fun reaches => ?_, fun beyond => ?_⟩
  · exact {
      scans := fun roots recordable sink => Host.ofSettings_returns tidy recordable answers reaches sink
      replies := fun paths recordable demand => answer_returns tidy recordable answers reaches
      settles := fun roots recordable alone => settle_started tidy recordable refreshes reaches alone }
  · exact {
      scans := fun roots sink => Host.ofSettings_beyond _ _ beyond sink
      replies := fun demand paths scans => answer_beyond beyond scans
      settles := fun roots alone => settle_beyond beyond alone }

end Discovery

namespace Program

open Discovery

variable {env : Environment} {state : State} {settings : Settings}
  {arguments : CommandLine.Arguments}

theorem canWait_iff (timeout : Duration) :
    canWait env timeout = true ↔ env.uptime + timeout.seconds + 1 ≤ Scan.lastTick := by
  have last : Scan.lastTick ≤ mostSeconds := by decide
  unfold canWait Scan.clockReaches
  rw [Bool.and_eq_true, decide_eq_true_iff, decide_eq_true_iff]
  dsimp only
  omega

theorem printStream_unbroken (asJson : Bool) (reply : Reply) :
    (printStream asJson reply).status ≠ 101 := by
  unfold printStream
  split
  · dsimp only
    split <;> simp [Output.done, Output.failed]
  all_goals simp [Output.failed]

theorem printAnswer_unbroken {host : Host} (waits : canWait env host.settings.timeout = true)
    (asJson : Bool) (state : State) (answer : Answer) :
    (printAnswer env host asJson state answer).2.status ≠ 101 := by
  unfold printAnswer
  rw [waits]
  split
  · simp [Output.failed]
  · split <;> simp [Output.done]

theorem search_answers {host : Host} (same : host = Host.ofSettings env
      (settings.search.normalized env) (Git.answer env.home) .promptly .promptly false)
    {configured : State} (marked : configured =
      state.configure (Marks.ofList (settings.workspaces.map fun path => (path, true)))) :
    search env state settings arguments =
      if arguments.invalidate then
        match configured.invalidate host with
        | (after, .ok ()) => (after, .done "")
        | (after, .error _) => (after, .failed "")
      else if arguments.stream then
        let reply := answer host configured (.streaming (.channel none)) arguments.paths
        (reply.1, printStream arguments.json reply.2)
      else
        match answer host configured (if arguments.fresh then .fresh else .cached)
            arguments.paths with
        | (after, .found found) => printAnswer env host arguments.json after found
        | (after, .fell ..) => (after, .broken "")
        | (after, _) => (after, .failed "") := by
  subst same marked
  rfl

theorem search_unbroken (tidy : state.files.root.isTidy = true)
    (recordable : AllRecordable (settings.search.normalized env) (Git.answer env.home) state.files
      (SearchRoots.resolve state.files env.home arguments.paths
        (settings.search.normalized env).extraPaths))
    (inReach : env.uptime + (settings.search.normalized env).timeout.seconds + 1 ≤
      Scan.lastTick) : (search env state settings arguments).2.status ≠ 101 := by
  obtain ⟨host, same⟩ : ∃ host, host = Host.ofSettings env (settings.search.normalized env)
    (Git.answer env.home) .promptly .promptly false := ⟨_, rfl⟩
  obtain ⟨configured, marked⟩ : ∃ configured, configured =
    state.configure (Marks.ofList (settings.workspaces.map fun path => (path, true))) := ⟨_, rfl⟩
  have waits : canWait env host.settings.timeout = true := by
    rw [same]
    exact (canWait_iff _).mpr inReach
  have reaches : Scan.clockReaches env.uptime (settings.search.normalized env).timeout = true := by
    refine decide_eq_true ?_
    omega
  have stands (demand : Demand) {after : State} {delivered : List Repository} {fault : Scan.Fault}
      (replied : answer host configured demand arguments.paths = (after, .fell delivered fault)) :
      False := by
    have kept : configured.files = state.files := by
      rw [marked]
      rfl
    rw [same] at replied
    rw [← kept] at tidy recordable
    exact answer_returns tidy recordable (by decide) reaches delivered fault
      (Prod.ext_iff.mp replied).2
  rw [search_answers same marked]
  split
  · split <;> simp [Output.done, Output.failed]
  · split
    · exact printStream_unbroken _ _
    · split
      · exact printAnswer_unbroken waits _ _ _
      · rename_i replied
        exact (stands _ replied).elim
      · simp [Output.failed]

-- Whatever time a file or a command line gives, a search with it ends in an answer or an error that
-- is told, if the clock counts up to the end of the time and the scan gets over what it is to find;
-- the wait for a refresh takes one second more. With a longer time every scan falls.
theorem timeouts_within_clock {given : List (List UInt8)} {stored loaded : FileSystem}
    (parsed : CommandLine.parse given = .ok arguments)
    (read : Settings.forRun stored env arguments = (loaded, .ok settings)) :
    let chosen := settings.search.normalized env
    ∃ seconds < UInt64.size, chosen.timeout = .ofSeconds seconds ∧
      (∀ remote answering background cancelled (state : State), state.files.root.isTidy = true →
        answering ≠ .notNow → background ≠ .notNow →
          let host := Host.ofSettings env chosen remote answering background cancelled
          (env.uptime + seconds ≤ Scan.lastTick → host.Returns remote state) ∧
            (Scan.lastTick < env.uptime + seconds → host.Falls state)) ∧
      (canWait env chosen.timeout = true ↔ env.uptime + seconds + 1 ≤ Scan.lastTick) ∧
      (∀ state : State, state.files.root.isTidy = true →
        AllRecordable chosen (Git.answer env.home) state.files
          (SearchRoots.resolve state.files env.home arguments.paths chosen.extraPaths) →
        env.uptime + seconds + 1 ≤ Scan.lastTick →
          (search env state settings arguments).2.status ≠ 101) := by
  intro chosen
  have timed := Settings.forRun_timed (CommandLine.parse_timed parsed) read
  obtain ⟨seconds, within, same⟩ := timed.normalized env
  have length : chosen.timeout.seconds = seconds := congrArg Duration.seconds same
  refine ⟨seconds, within, same, ?_, ?_, ?_⟩
  · intro remote answering background cancelled state tidy answers refreshes
    let host := Host.ofSettings env chosen remote answering background cancelled
    obtain ⟨returns, falls⟩ :
        (Scan.clockReaches env.uptime chosen.timeout = true → host.Returns remote state) ∧
          (Scan.clockReaches env.uptime chosen.timeout = false → host.Falls state) :=
      Host.ofSettings_ends tidy answers refreshes
    refine ⟨fun inTime => returns (decide_eq_true ?_), fun late => falls (decide_eq_false ?_)⟩
    · rw [length]
      exact inTime
    · rw [length]
      exact not_le.mpr late
  · rw [canWait_iff, length]
  · intro state tidy recordable inReach
    rw [← length] at inReach
    exact search_unbroken tidy recordable inReach

def emptyFolder : FileSystem :=
  ⟨.directory 0o755 .epoch [([0x77], .directory 0o755 .epoch [])], []⟩

-- A folder that is a repository, with a time of modification that no calendar has.
def undatedFolder : FileSystem :=
  ⟨.directory 0o755 .epoch [([0x77], .directory 0o755 ⟨10000000000000, 0⟩
    [(EntryClass.sentinelBytes, .directory 0o755 .epoch [])])], []⟩

def timedRun (seconds : String) : List (List UInt8) :=
  ["--config", "/s", "--timeout", seconds, "/w"].map fun text => (Path.ofString text).bytes

def bareMachine : Environment := ⟨none, none, none, 1, 0⟩

def timedArguments (seconds : Nat) : CommandLine.Arguments :=
  { CommandLine.Arguments.none with
    paths := [Path.ofString "/w"], timeout := some seconds
    settingsFile := some (Path.ofString "/s") }

def timedSettings (seconds : Nat) : Settings := Settings.usual.override (timedArguments seconds)

def withSettings : FileSystem := (Settings.create emptyFolder (Path.ofString "/s")).1

theorem timedRun_parsed :
    CommandLine.parse (timedRun "20") = .ok (timedArguments 20) ∧
      CommandLine.parse (timedRun "18446744073709551615") =
        .ok (timedArguments 18446744073709551615) := by
  decide +kernel

theorem timedRun_read (seconds : Nat) : Settings.forRun emptyFolder bareMachine
    (timedArguments seconds) = (withSettings, .ok (timedSettings seconds)) := by
  rfl

theorem withSettings_tidy : withSettings.root.isTidy = true := by decide +kernel

theorem timeouts_within_clock_twenty :
    CommandLine.parse (timedRun "20") = .ok (timedArguments 20) ∧
      Settings.forRun emptyFolder bareMachine (timedArguments 20) =
        (withSettings, .ok (timedSettings 20)) ∧
      ((timedSettings 20).search.normalized bareMachine).timeout = .ofSeconds 20 ∧
      (Host.ofSettings bareMachine ((timedSettings 20).search.normalized bareMachine)
        (fun _ _ => .failure) .promptly .promptly false).Returns (fun _ _ => .failure)
          (.start withSettings .epoch) ∧
      canWait bareMachine ((timedSettings 20).search.normalized bareMachine).timeout = true := by
  obtain ⟨seconds, _, same, ends, waits, _⟩ :=
    timeouts_within_clock timedRun_parsed.1 (timedRun_read 20)
  obtain rfl : seconds = 20 := (congrArg Duration.seconds same).symm
  obtain ⟨returns, _⟩ := ends (fun _ _ => .failure) .promptly .promptly false
    (.start withSettings .epoch) withSettings_tidy (by decide) (by decide)
  exact ⟨timedRun_parsed.1, timedRun_read 20, same, returns (by decide), waits.mpr (by decide)⟩

-- The longest time that is accepted ends a run before its scan begins; twenty seconds are enough for
-- the same run, but for no run at all that finds a repository without a date.
theorem longest_timeout_breaks :
    CommandLine.parse (timedRun "18446744073709551615") =
        .ok (timedArguments 18446744073709551615) ∧
      Settings.forRun emptyFolder bareMachine (timedArguments 18446744073709551615) =
        (withSettings, .ok (timedSettings 18446744073709551615)) ∧
      (∀ roots sink, (Host.ofSettings bareMachine
        ((timedSettings 18446744073709551615).search.normalized bareMachine)
        (Git.answer bareMachine.home) .promptly .promptly false).scan withSettings roots sink =
          ⟨.error .clockOverflow, []⟩) ∧
      (run bareMachine .epoch emptyFolder (timedRun "18446744073709551615")).2.status = 101 ∧
      (run bareMachine .epoch emptyFolder (timedRun "20")).2.status = 0 ∧
      (run bareMachine .epoch undatedFolder (timedRun "20")).2.status = 101 := by
  refine ⟨timedRun_parsed.2, timedRun_read _, ?_, by decide +kernel, by decide +kernel,
    by decide +kernel⟩
  exact fun roots sink => Host.ofSettings_beyond withSettings roots (by decide) sink

end Program

end RepoFinder
