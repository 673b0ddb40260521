import RepoFinder.Proofs.Discovery.Sharing
import RepoFinder.Proofs.Scan.Delivery

namespace RepoFinder.Discovery

variable {engine : Engine} {host other : Host} {state : State} {paths roots : List Path}
  {files : FileSystem} {sink : Scan.Sink} {reason : Scan.StopReason}
  {events history : List Scan.Event} {ended first : Scan.State}

-- A scan of a host that came to an end in good order. It reports what its last state holds, and
-- hands over what the sink had kept by then.
structure Ran (engine : Engine) (host : Host) (files : FileSystem) (roots : List Path)
    (sink : Scan.Sink) (reason : Scan.StopReason) (events : List Scan.Event)
    (ended : Scan.State) : Prop where
  scanned : host.scan files roots sink = ⟨.ok (ended.outcome reason), ended.kept⟩
  run : Scan.Run (engine.scene sink files)
    (Scan.State.initial roots engine.options.workers engine.options.capacity) events ended
  stopped : ended.stopReason? = some reason
  standing : ended.hasFallen = false

structure RanWhole (engine : Engine) (host : Host) (files : FileSystem) (roots : List Path)
    (sink : Scan.Sink) (events : List Scan.Event) (ended : Scan.State) : Prop
    extends Ran engine host files roots sink .idle events ended where
  fits : Scan.Fits engine.options.workers engine.options.capacity
  rootsTaken : (Scan.State.initial roots engine.options.workers
    engine.options.capacity).queue.jobs = roots.map Scan.Job.ofRoot
  unrefused : ∀ job, Scan.Event.refused job ∉ events

theorem RanWhole.exhaustive (whole : RanWhole engine host files roots sink events ended) :
    Scan.Exhaustive (engine.scene sink files) roots engine.options.workers
      engine.options.capacity events ended :=
  ⟨whole.fits, whole.run, whole.rootsTaken, whole.unrefused, whole.stopped, whole.standing⟩

theorem Host.ofSettings_ran {env : Environment} {settings : SearchSettings}
    {remote : FileSystem → Path → Scan.Answer} {answering background : Scan.Answering}
    {requested : Bool} {outcome : Scan.Outcome}
    (answered : ((Host.ofSettings env settings remote answering background requested).scan
      files roots sink).outcome = .ok outcome) :
    ∃ events ended, Ran ⟨settings, env.home, settings.snapshotPath env, remote⟩
      (Host.ofSettings env settings remote answering background requested) files roots sink
      outcome.stop events ended := by
  obtain ⟨events, ended, run, stopped, standing, scanned⟩ := Scan.scan_ran answered
  exact ⟨events, ended, scanned, run, stopped, standing⟩

theorem Host.ofSettings_ranWhole {env : Environment} {settings : SearchSettings}
    {remote : FileSystem → Path → Scan.Answer} {answering background : Scan.Answering}
    (same : engine = ⟨settings, env.home, settings.snapshotPath env, remote⟩)
    (checked : engine.isWhole env.uptime answering files roots sink = true) :
    (∃ events, RanWhole engine (Host.ofSettings env settings remote answering background false)
      files roots sink events (engine.lastOf answering files roots sink)) ∧
      Scan.KeysApart (engine.scene sink files) roots := by
  subst same
  obtain ⟨inTime, ⟨events, full⟩, apart⟩ := Engine.isWhole_sound checked
  have scanned := Scan.scan_eq inTime full.idle full.standing
  exact ⟨⟨events, ⟨scanned, full.run, full.idle, full.standing⟩, full.fits, full.rootsTaken,
    full.unrefused⟩, apart⟩

theorem rootsOf_congr (serves : host.Serves engine) (also : other.Serves engine) (state : State)
    (paths : List Path) : rootsOf host state paths = rootsOf other state paths := by
  unfold rootsOf
  rw [serves.home, serves.settings, also.home, also.settings]

theorem persist_congr (serves : host.Serves engine) (also : other.Serves engine) (state : State)
    (repositories : List Repository) (roots : List Path) :
    state.persist host repositories roots = state.persist other repositories roots := by
  unfold State.persist
  rw [serves.file, also.file]

theorem deliveredOf_ran (ran : Ran engine host files roots sink reason events ended)
    (marks : List Path.Key) :
    deliveredOf marks (host.scan files roots sink) =
      (ended.kept.map Prod.fst).map (Repository.mark marks) := by
  rw [deliveredOf, ran.scanned, List.map_map]
  rfl

theorem Ran.answer {demand : Demand} (asks : demand ≠ .cached)
    (ran : Ran engine host state.files (rootsOf host state paths) (Call.sinkOf demand) reason events
      ended)
    (uncancelled : reason ≠ .cancelled) :
    let after := state.countScan.persist host (ended.outcome reason).repositories
      (rootsOf host state paths)
    answer host state demand paths =
      (after, Call.conclude after demand (rootsOf host state paths) (ended.outcome reason)
        (deliveredOf state.configured
          (host.scan state.files (rootsOf host state paths) (Call.sinkOf demand)))) := by
  have scans : Scans host state paths demand := by
    cases demand with
    | cached => exact absurd rfl asks
    | fresh | streaming => trivial
  have scanned : (scanFor host state demand paths).outcome = .ok (ended.outcome reason) := by
    rw [scanFor, ran.scanned]
  exact answer_scanned scans scanned uncancelled

-- Two whole scans from one state come to one outcome, so the calls that made them leave one state
-- behind and differ only in the form of their answers.
theorem RanWhole.answer_alike {demand : Demand} (serves : host.Serves engine)
    (also : other.Serves engine)
    (whole : RanWhole engine host state.files (rootsOf host state paths) sink events ended)
    (apart : Scan.KeysApart (engine.scene sink state.files) (rootsOf host state paths))
    (asks : demand ≠ .cached)
    (anew : RanWhole engine other state.files (rootsOf other state paths) (Call.sinkOf demand)
      history first) :
    let after := state.countScan.persist host (ended.outcome .idle).repositories
      (rootsOf host state paths)
    ∃ taken, answer other state demand paths =
      (after, Call.conclude after demand (rootsOf host state paths) (ended.outcome .idle) taken) := by
  have roots := rootsOf_congr also serves state paths
  have answered := anew.answer asks (by simp)
  rw [roots] at anew answered
  have same : ended.outcome .idle = first.outcome .idle :=
    whole.exhaustive.outcome_eq anew.exhaustive apart
  rw [← same, persist_congr also serves] at answered
  exact ⟨_, answered⟩

-- A search for a stream saves and counts what its scan has found, in whatever way the scan ended
-- and whatever became of the channel. What was delivered is a part of what is saved, each
-- repository at most once and with the marks of the beginning. Where the scan left nothing out and
-- no two repositories have one key, any fresh search from the same state leaves the same state
-- behind and answers with the same counts, and so does any other stream, read or not. And a channel
-- that was read until then has delivered just the list of the fresh answer.
theorem stream_agrees_with_fresh (serves : host.Serves engine)
    (ran : Ran engine host state.files (rootsOf host state paths) sink reason events ended)
    (uncancelled : reason ≠ .cancelled) :
    ∃ after delivered, answer host state (.streaming sink) paths =
        (after, .streamed delivered (ended.outcome reason).stats) ∧
      after = state.countScan.persist host (ended.outcome reason).repositories
        (rootsOf host state paths) ∧
      List.Subperm delivered
        ((ended.outcome reason).repositories.map (Repository.mark state.configured)) ∧
      (delivered.map fun repository => repository.path.key).Nodup ∧
      (RanWhole engine host state.files (rootsOf host state paths) sink events ended →
        Scan.KeysApart (engine.scene sink state.files) (rootsOf host state paths) →
        (∀ other history first, other.Serves engine →
          RanWhole engine other state.files (rootsOf other state paths) .absent history first →
            ∃ found, answer other state .fresh paths = (after, .found found) ∧
              found.stats = (ended.outcome reason).stats ∧
              ∀ room, sink = .channel room → ended.reader.gone = false →
                delivered.Perm found.repositories) ∧
        ∀ other channel history first, other.Serves engine →
          RanWhole engine other state.files (rootsOf other state paths) channel history first →
            ∃ taken, answer other state (.streaming channel) paths =
              (after, .streamed taken (ended.outcome reason).stats)) := by
  -- The part of the list that the channel has taken, in the order of the list.
  obtain ⟨part, taken, within⟩ := ran.run.kept_subperm ran.stopped
  have distinct : (part.map fun repository => repository.path.key).Nodup :=
    List.pairwise_map.mpr ((ran.run.orderly reason).distinct.sublist within)
  have delivered := deliveredOf_ran ran state.configured
  have asks (channel : Scan.Sink) : Demand.streaming channel ≠ .cached := by simp
  refine ⟨_, _, ran.answer (asks sink) uncancelled, rfl, ?_, ?_, ?_⟩
  · rw [Call.sinkOf, delivered]
    exact ⟨part.map _, taken.map _, within.map _⟩
  · rw [Call.sinkOf, delivered, List.map_map]
    exact ((taken.map fun repository => repository.path.key).nodup_iff).mp distinct
  · intro whole apart
    obtain rfl : reason = .idle := Option.some.inj (ran.stopped.symm.trans whole.stopped)
    constructor
    · intro other history first also anew
      have asks : Demand.fresh ≠ .cached := by simp
      obtain ⟨_, answered⟩ := whole.answer_alike serves also apart asks anew
      refine ⟨_, answered, rfl, ?_⟩
      intro room channel stays
      rw [Call.sinkOf, delivered]
      exact (whole.exhaustive.kept_perm channel stays).map _
    · intro other channel history first also anew
      exact whole.answer_alike serves also apart (asks channel) anew

theorem sampleHost_ranWhole
    (checked : sampleEngine.isWhole 0 .promptly files roots sink = true) :
    (∃ events, RanWhole sampleEngine (sampleHost "/d/s") files roots sink events
      (sampleEngine.lastOf .promptly files roots sink)) ∧
      Scan.KeysApart (sampleEngine.scene sink files) roots :=
  Host.ofSettings_ranWhole rfl checked

theorem sample_streams :
    rootsOf (sampleHost "/d/s") sampleState sampleRoots = sampleRoots ∧
      (∀ sink ∈ [.channel none, .absent, .severed],
        sampleEngine.isWhole 0 .promptly sampleState.files sampleRoots sink = true) ∧
      (sampleEngine.lastOf .promptly sampleState.files sampleRoots
        (.channel none)).reader.gone = false := by
  decide +kernel

theorem stream_agrees_with_fresh_sample :
    ∃ after delivered found taken stats,
      answer (sampleHost "/d/s") sampleState (.streaming (.channel none)) sampleRoots =
        (after, .streamed delivered stats) ∧
      answer (sampleHost "/d/s") sampleState .fresh sampleRoots = (after, .found found) ∧
      delivered.Perm found.repositories ∧ found.stats = stats ∧
      answer (sampleHost "/d/s") sampleState (.streaming .severed) sampleRoots =
        (after, .streamed taken stats) := by
  obtain ⟨roots, whole, stays⟩ := sample_streams
  obtain ⟨⟨events, streams⟩, apart⟩ := sampleHost_ranWhole (whole (.channel none) (by simp))
  obtain ⟨⟨history, anew⟩, _⟩ := sampleHost_ranWhole (whole .absent (by simp))
  obtain ⟨⟨others, severed⟩, _⟩ := sampleHost_ranWhole (whole .severed (by simp))
  rw [← roots] at streams apart anew severed
  obtain ⟨after, delivered, streamed, _, _, _, agrees⟩ :=
    stream_agrees_with_fresh sampleHost_serves streams.toRan (by simp)
  obtain ⟨fresh, other⟩ := agrees streams apart
  obtain ⟨found, answered, stats, all⟩ := fresh _ _ _ sampleHost_serves anew
  obtain ⟨taken, unread⟩ := other _ _ _ _ sampleHost_serves severed
  exact ⟨after, delivered, found, taken, _, streamed, answered, all none rfl (roots ▸ stays), stats,
    unread⟩

end RepoFinder.Discovery
