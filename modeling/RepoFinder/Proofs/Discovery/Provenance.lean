import RepoFinder.Proofs.Discovery.Revalidation

namespace RepoFinder.Discovery

variable {engine : Engine} {host : Host} {pool next : Pool} {passages : List Passage}
  {passage : Passage} {roots : List Path} {outcome : Scan.Outcome}

def Visited (passages : List Passage) (files : FileSystem) : Prop :=
  ∃ passage ∈ passages, passage.pool.state.files = files

def Resolved (passages : List Passage) (roots : List Path) : Prop :=
  ∃ passage ∈ passages, ∃ paths, roots = rootsOf passage.host passage.pool.state paths

def Logged (passages : List Passage) (roots : List Path) (outcome : Scan.Outcome) : Prop :=
  .ofCall (.scanned roots outcome) ∈ events passages ∨
    .ofRefresh (.scanned roots outcome) ∈ events passages

structure Completed (engine : Engine) (passages : List Passage) (roots : List Path)
    (outcome : Scan.Outcome) : Prop where
  logged : Logged passages roots outcome
  resolved : Resolved passages roots
  uncancelled : outcome.stop ≠ .cancelled
  came : ∃ sink cancelled, Scan.Came (engine.scenes sink (Visited passages)) roots engine.options
    cancelled outcome

theorem Visited.append {files : FileSystem} (visited : Visited passages files)
    (more : List Passage) : Visited (passages ++ more) files := by
  obtain ⟨passage, present, same⟩ := visited
  exact ⟨passage, List.mem_append_left _ present, same⟩

theorem Resolved.append (resolved : Resolved passages roots) (more : List Passage) :
    Resolved (passages ++ more) roots := by
  obtain ⟨passage, present, asked⟩ := resolved
  exact ⟨passage, List.mem_append_left _ present, asked⟩

theorem Logged.append (logged : Logged passages roots outcome) (more : List Passage) :
    Logged (passages ++ more) roots outcome := by
  unfold Logged events at logged ⊢
  rw [List.filterMap_append, List.mem_append, List.mem_append]
  exact logged.imp .inl .inl

theorem Completed.append (completed : Completed engine passages roots outcome)
    (more : List Passage) : Completed engine (passages ++ more) roots outcome := by
  obtain ⟨sink, cancelled, came⟩ := completed.came
  refine ⟨completed.logged.append more, completed.resolved.append more, completed.uncancelled,
    sink, cancelled, came.mono ?_⟩
  apply Engine.scenes_mono
  intro files visited
  exact visited.append more

theorem Completed.orderly (completed : Completed engine passages roots outcome) :
    Orderly outcome.repositories := by
  obtain ⟨sink, cancelled, came⟩ := completed.came
  exact came.orderly

theorem Completed.moments (completed : Completed engine passages roots outcome)
    (timely : ∀ passage ∈ passages, passage.IsTimely) :
    ∀ repository ∈ outcome.repositories, repository.modified.IsMoment := by
  obtain ⟨sink, cancelled, came⟩ := completed.came
  apply moments_of_came came
  rintro files ⟨passage, present, rfl⟩
  exact (timely passage present).tree

theorem logged_now {event : Event} (happened : passage.event? = some event) :
    event ∈ events (passages ++ [passage]) := by
  unfold events
  rw [List.filterMap_append, List.mem_append]
  right
  simp [happened]

-- Whatever can be read at the file is the snapshot of a completed scan, taken at a time of the run.
def Sourced (engine : Engine) (passages : List Passage) (files : FileSystem) : Prop :=
  ∀ bytes, files.contentOf engine.file = .ok bytes → ∃ roots outcome,
    Completed engine passages roots outcome ∧ ∃ passage ∈ passages,
      (Snapshot.take passage.pool.state.now outcome.repositories roots).render? = some bytes

theorem Sourced.append {files : FileSystem} (sourced : Sourced engine passages files)
    (more : List Passage) : Sourced engine (passages ++ more) files := by
  intro bytes read
  obtain ⟨roots, outcome, completed, passage, present, rendered⟩ := sourced bytes read
  exact ⟨roots, outcome, completed.append more, passage, List.mem_append_left _ present, rendered⟩

structure Genuine (engine : Engine) (passages : List Passage) (snapshot : Snapshot) : Prop where
  taken : ∃ outcome, Completed engine passages snapshot.searchPaths outcome ∧
    snapshot.repositories = outcome.repositories.map Repository.unmark
  current : snapshot.version = Snapshot.currentVersion
  orderly : Orderly snapshot.repositories
  unmarked : ∀ repository ∈ snapshot.repositories, repository.isConfigured = false

theorem load?_of_rendered {files : FileSystem} {file : Path} {now : Time.Timestamp}
    {repositories : List Repository} {bytes : List UInt8} (clock : now.IsShown)
    (times : ∀ repository ∈ repositories, repository.modified.IsMoment)
    (rendered : (Snapshot.take now repositories roots).render? = some bytes)
    (read : files.contentOf file = .ok bytes) :
    Snapshot.load? files file = some (Snapshot.take now.settled repositories roots) := by
  have shown := Snapshot.take_shown clock
    (fun repository present => (times repository present).shown) roots
  have parsed := Snapshot.parse?_settled shown rfl rendered
  rw [Snapshot.take_settled times] at parsed
  simp [Snapshot.load?, read, parsed]

theorem Sourced.load? {files : FileSystem} (sourced : Sourced engine passages files)
    (timely : ∀ passage ∈ passages, passage.IsTimely) {bytes : List UInt8}
    (read : files.contentOf engine.file = .ok bytes) :
    ∃ snapshot, Snapshot.load? files engine.file = some snapshot ∧
      Genuine engine passages snapshot := by
  obtain ⟨roots, outcome, completed, passage, present, rendered⟩ := sourced bytes read
  refine ⟨_, load?_of_rendered (timely passage present).clock (completed.moments timely) rendered
    read, ⟨outcome, completed, rfl⟩, rfl, completed.orderly.map fun _ => rfl, ?_⟩
  intro repository among
  obtain ⟨_, _, rfl⟩ := List.mem_map.mp among
  rfl

theorem Sourced.genuine {files : FileSystem} (sourced : Sourced engine passages files)
    (timely : ∀ passage ∈ passages, passage.IsTimely) {snapshot : Snapshot}
    (loaded : Snapshot.load? files engine.file = some snapshot) :
    Genuine engine passages snapshot := by
  obtain ⟨bytes, read, _⟩ := Snapshot.load?_eq_some.mp loaded
  obtain ⟨other, also, genuine⟩ := sourced.load? timely read
  obtain rfl := Option.some.inj (loaded.symm.trans also)
  exact genuine

def KeepsHidden (engine : Engine) (files : FileSystem) (snapshot : Snapshot) : Prop :=
  (Snapshot.save files engine.file snapshot).2.isOk = false →
    ∀ bytes, (Snapshot.withFolder files engine.file).contentOf engine.file = .ok bytes →
      files.contentOf engine.file = .ok bytes

theorem contentOf_persist {state : State} {repositories : List Repository} {bytes : List UInt8}
    (file : host.file = engine.file)
    (hidden : KeepsHidden engine state.files (Snapshot.take state.now repositories roots))
    (read : (state.persist host repositories roots).files.contentOf engine.file = .ok bytes) :
    (Snapshot.take state.now repositories roots).render? = some bytes ∨
      state.files.contentOf engine.file = .ok bytes := by
  unfold State.persist at read
  rw [file] at read
  rcases saved : Snapshot.save state.files engine.file
    (Snapshot.take state.now repositories roots) with ⟨after, result⟩
  simp only [saved] at read
  cases result with
  | ok _ =>
    left
    exact Snapshot.render?_of_contentOf saved read
  | error problem =>
    right
    rw [Snapshot.save_failed saved] at read
    apply hidden _ bytes read
    rw [saved]
    rfl

theorem Sourced.persist {state : State} (sourced : Sourced engine passages state.files)
    (file : host.file = engine.file) (completed : Completed engine passages roots outcome)
    (now : ∃ passage ∈ passages, passage.pool.state.now = state.now)
    (hidden : KeepsHidden engine state.files
      (Snapshot.take state.now outcome.repositories roots)) :
    Sourced engine passages (state.persist host outcome.repositories roots).files := by
  intro bytes read
  rcases contentOf_persist file hidden read with rendered | before
  · obtain ⟨passage, present, same⟩ := now
    exact ⟨roots, outcome, completed, passage, present, same ▸ rendered⟩
  · exact sourced bytes before

def Call.Fair (engine : Engine) (passages : List Passage) : Call → Prop
  | begun .. => True
  | looking roots => Resolved passages roots
  | dating roots snapshot => Resolved passages roots ∧ Orderly snapshot.repositories
  | claiming roots snapshot _ => Resolved passages roots ∧ Orderly snapshot.repositories
  | spawning roots snapshot _ => Resolved passages roots ∧ Orderly snapshot.repositories
  | counting _ roots _ => Resolved passages roots
  | scanning _ roots _ => Resolved passages roots
  | saving _ roots outcome _ => Completed engine passages roots outcome
  | concluding _ roots outcome _ => Completed engine passages roots outcome
  | done reply => ∀ answer, reply = .found answer →
    Orderly answer.repositories ∧ answer.count = answer.repositories.length

def Refresh.Asked (passages : List Passage) : Refresh → Prop
  | started roots => Resolved passages roots
  | counted roots => Resolved passages roots
  | scanning roots _ => Resolved passages roots
  | scanned roots outcome => Resolved passages roots ∧ Logged passages roots outcome
  | ending => True

theorem Call.Fair.append {call : Call} (fair : call.Fair engine passages) (more : List Passage) :
    call.Fair engine (passages ++ more) := by
  cases call with
  | begun => trivial
  | looking | counting | scanning => exact Resolved.append fair more
  | dating | claiming | spawning => exact ⟨fair.1.append more, fair.2⟩
  | saving | concluding => exact Completed.append fair more
  | done => exact fair

theorem Refresh.Asked.append {refresh : Refresh} (asked : refresh.Asked passages)
    (more : List Passage) : refresh.Asked (passages ++ more) := by
  cases refresh with
  | started | counted | scanning => exact Resolved.append asked more
  | scanned => exact ⟨asked.1.append more, asked.2.append more⟩
  | ending => trivial

theorem completed_of_refresh (asked : Refresh.Asked passages (.scanned roots outcome))
    (fair : Refresh.Fair engine (Seen passages) (.scanned roots outcome)) :
    Completed engine passages roots outcome := by
  have came : Scan.Came (engine.scenes .absent (Seen passages)) roots engine.options false
    outcome := fair
  refine ⟨asked.2, asked.1, came.stop_ne_cancelled, .absent, false, came.mono ?_⟩
  apply Engine.scenes_mono
  rintro files ⟨passage, present, _, same⟩
  exact ⟨passage, present, same⟩

theorem serve_orderly {state : State} {snapshot : Snapshot} {age : Time.Duration}
    {refreshing : Bool} (orderly : Orderly snapshot.repositories) :
    Call.Fair engine passages (.done (Call.serve state roots snapshot age refreshing)) := by
  rintro answer is
  obtain rfl := Reply.found.inj is
  exact ⟨orderly.map fun _ => rfl, rfl⟩

theorem conclude_orderly {state : State} {demand : Demand} {delivered : List Repository}
    (orderly : Orderly outcome.repositories) :
    Call.Fair engine passages (.done (Call.conclude state demand roots outcome delivered)) := by
  rintro answer is
  cases demand with
  | streaming sink => cases is
  | cached | fresh =>
    obtain rfl := Reply.found.inj is
    exact ⟨orderly.map fun _ => rfl, rfl⟩

theorem Call.Turn.fair {call after : Call} {event : Option Event} {state : State}
    (serves : passage.host.Serves engine) (happened : passage.event? = event)
    (sourced : Sourced engine passages passage.pool.state.files)
    (timely : ∀ passage ∈ passages, passage.IsTimely) (fair : call.Fair engine passages)
    (turn : Call.Turn passage.host passage.pool.state call event state after) :
    after.Fair engine (passages ++ [passage]) := by
  have here : passage ∈ passages ++ [passage] := by simp
  cases turn with
  | ask | demand => exact ⟨passage, here, _, rfl⟩
  | miss => exact Resolved.append fair _
  | hit matching =>
    have loaded := matching.loaded
    rw [serves.file] at loaded
    exact ⟨Resolved.append fair _, (sourced.genuine timely loaded).orderly⟩
  | serveYoung | serveBusy | spawn => exact serve_orderly fair.2
  | findOld | claim => exact ⟨fair.1.append _, fair.2⟩
  | count => exact Resolved.append fair _
  | fall | cancel =>
    rintro answer is
    cases is
  | scan scanned uncancelled =>
    obtain ⟨cancelled, came⟩ := serves.scans scanned
    have seen (files : FileSystem) (same : files = passage.pool.state.files) :
        Visited (passages ++ [passage]) files := ⟨passage, here, same.symm⟩
    exact ⟨.inl (logged_now happened), Resolved.append fair _, uncancelled, _, cancelled,
      came.mono (Engine.scenes_mono seen)⟩
  | save => exact Completed.append fair _
  | conclude => exact conclude_orderly (Completed.orderly fair)
  | rest => exact fair

theorem Refresh.Turn.asked {refresh after : Refresh} {event : Option Event} {state : State}
    (happened : passage.event? = event) (asked : refresh.Asked passages)
    (turn : Refresh.Turn passage.host passage.pool.state refresh event state after) :
    after.Asked (passages ++ [passage]) := by
  cases turn with
  | count | launch | goOn => exact Resolved.append asked _
  | finish => exact ⟨Resolved.append asked _, .inr (logged_now happened)⟩
  | _ => trivial

-- This is the invariant of the module.
structure Sound (engine : Engine) (passages : List Passage) (pool : Pool) : Prop where
  file : Sourced engine passages pool.state.files
  calls : ∀ call ∈ pool.calls, call.Fair engine passages
  refreshes : ∀ refresh ∈ pool.state.refreshes, refresh.Asked passages

-- Nobody else writes the file of the engine: another tree has at most what could be read before.
-- And a save that fails brings nothing to light.
structure Passage.Undisturbed (engine : Engine) (passage : Passage) : Prop where
  others : ∀ files, passage.action = .setFiles files → ∀ bytes,
    files.contentOf engine.file = .ok bytes →
      passage.pool.state.files.contentOf engine.file = .ok bytes
  saves : ∀ roots outcome, (passage.event? = some (.ofCall (.saved roots outcome)) ∨
    passage.event? = some (.ofRefresh (.saved roots outcome))) →
      KeepsHidden engine passage.pool.state.files
        (Snapshot.take passage.pool.state.now outcome.repositories roots)

theorem Call.Turn.sourced {call after : Call} {event : Option Event} {state : State}
    (serves : passage.host.Serves engine) (happened : passage.event? = event)
    (undisturbed : passage.Undisturbed engine)
    (sourced : Sourced engine passages passage.pool.state.files)
    (fair : call.Fair engine passages)
    (turn : Call.Turn passage.host passage.pool.state call event state after) :
    Sourced engine (passages ++ [passage]) state.files := by
  cases turn with
  | save =>
    exact (sourced.append _).persist serves.file (Completed.append fair _)
      ⟨passage, by simp, rfl⟩ (undisturbed.saves _ _ (.inl happened))
  | _ => exact sourced.append _

theorem Refresh.Turn.sourced {refresh after : Refresh} {event : Option Event} {state : State}
    (serves : passage.host.Serves engine) (happened : passage.event? = event)
    (undisturbed : passage.Undisturbed engine)
    (sourced : Sourced engine passages passage.pool.state.files)
    (asked : refresh.Asked passages) (fair : refresh.Fair engine (Seen passages))
    (turn : Refresh.Turn passage.host passage.pool.state refresh event state after) :
    Sourced engine (passages ++ [passage]) state.files := by
  cases turn with
  | save =>
    exact (sourced.append _).persist serves.file ((completed_of_refresh asked fair).append _)
      ⟨passage, by simp, rfl⟩ (undisturbed.saves _ _ (.inr happened))
  | _ => exact sourced.append _

theorem Step.sound {action : Action} {event : Option Event}
    (serves : host.Serves engine)
    (happened : (⟨host, pool, action⟩ : Passage).event? = event)
    (undisturbed : (⟨host, pool, action⟩ : Passage).Undisturbed engine)
    (timely : ∀ passage ∈ passages, passage.IsTimely)
    (fair : ∀ refresh ∈ pool.state.refreshes, refresh.Fair engine (Seen passages))
    (sound : Sound engine passages pool) (step : Step host pool action event next) :
    Sound engine (passages ++ [⟨host, pool, action⟩]) next := by
  have file := sound.file.append [⟨host, pool, action⟩]
  have calls (call : Call) (present : call ∈ pool.calls) :=
    (sound.calls call present).append [⟨host, pool, action⟩]
  have refreshes (refresh : Refresh) (present : refresh ∈ pool.state.refreshes) :=
    (sound.refreshes refresh present).append [⟨host, pool, action⟩]
  cases step with
  | opened =>
    refine ⟨file, ?_, refreshes⟩
    intro call present
    rcases List.mem_append.mp present with old | new
    · exact calls call old
    · rw [List.mem_singleton.mp new]
      trivial
  | @call index call after event state stands turn =>
    have held := sound.calls call (List.mem_of_getElem? stands)
    refine ⟨turn.sourced serves happened undisturbed sound.file held, ?_, ?_⟩
    · intro other present
      rcases List.mem_or_eq_of_mem_set present with old | rfl
      · exact calls other old
      · exact turn.fair serves happened sound.file timely held
    · cases turn with
      | spawn =>
        intro refresh present
        rcases List.mem_append.mp present with old | new
        · exact refreshes refresh old
        · rw [List.mem_singleton.mp new]
          exact Resolved.append held.1 _
      | _ => exact refreshes
  | @refresh index refresh after event state stands turn =>
    have among := List.mem_of_getElem? stands
    have asked := sound.refreshes refresh among
    have written : Sourced engine (passages ++ [⟨host, pool, .refresh index⟩]) state.files :=
      turn.sourced serves happened undisturbed sound.file asked (fair refresh among)
    refine ⟨written, calls, ?_⟩
    intro other present
    rcases List.mem_or_eq_of_mem_set present with old | rfl
    · rw [turn.frame.2.1] at old
      exact refreshes other old
    · exact turn.asked happened asked
  | clear =>
    refine ⟨file, calls, ?_⟩
    intro refresh present
    exact refreshes refresh (List.mem_of_mem_eraseIdx present)
  | invalidated =>
    refine ⟨?_, calls, refreshes⟩
    intro bytes read
    unfold State.invalidate at read
    rw [serves.file] at read
    exact file bytes (Snapshot.contentOf_of_discard read)
  | tree =>
    refine ⟨?_, calls, refreshes⟩
    intro bytes read
    exact file bytes (undisturbed.others _ rfl bytes read)
  | configured | clock => exact ⟨file, calls, refreshes⟩

theorem Run.sound {files : FileSystem} {now : Time.Timestamp}
    (absent : ∀ bytes, files.contentOf engine.file ≠ .ok bytes)
    (run : Run (·.Serves engine) (.start files now) passages pool)
    (timely : ∀ passage ∈ passages, passage.IsTimely)
    (undisturbed : ∀ passage ∈ passages, passage.Undisturbed engine) :
    Sound engine passages pool := by
  induction run with
  | start =>
    refine ⟨?_, ?_, ?_⟩
    · intro bytes read
      exact absurd read (absent bytes)
    · intro call present
      cases present
    · intro refresh present
      cases present
  | @step passages pool next host action before serves executed ih =>
    have earlier (passage : Passage) (present : passage ∈ passages) :
        passage ∈ passages ++ [⟨host, pool, action⟩] := List.mem_append_left _ present
    have timely (passage : Passage) (present : passage ∈ passages) :=
      timely passage (earlier passage present)
    have last := undisturbed ⟨host, pool, action⟩ (by simp)
    have undisturbed (passage : Passage) (present : passage ∈ passages) :=
      undisturbed passage (earlier passage present)
    have begun : ∀ refresh ∈ (Pool.start files now).state.refreshes,
        refresh.Fair engine fun _ => False := by
      intro refresh present
      cases present
    exact (execute_step executed).sound serves rfl last timely (before.fair begun)
      (ih timely undisturbed)

-- The file of an engine holds nothing or the snapshot of one completed scan, at every point of a
-- run that starts without a file and in which nobody else writes it: sorted, without a second
-- repository for any key, without marks, and for the folders that were scanned. Every list that
-- is answered is sorted in the same way and has its length as its count. The proviso is that a
-- save that fails brings no file to light with the folders that it made.
theorem file_holds_completed_scan {files : FileSystem} {now : Time.Timestamp}
    (absent : ∀ bytes, files.contentOf engine.file ≠ .ok bytes)
    (run : Run (·.Serves engine) (.start files now) passages pool)
    (timely : ∀ passage ∈ passages, passage.IsTimely)
    (undisturbed : ∀ passage ∈ passages, passage.Undisturbed engine) :
    (∀ bytes, pool.state.files.contentOf engine.file = .ok bytes →
      ∃ snapshot, Snapshot.load? pool.state.files engine.file = some snapshot ∧
        Genuine engine passages snapshot) ∧
    ∀ call ∈ pool.calls, ∀ answer, call = .done (.found answer) →
      Orderly answer.repositories ∧ answer.count = answer.repositories.length := by
  have sound := run.sound absent timely undisturbed
  constructor
  · intro bytes read
    exact sound.file.load? timely read
  · rintro call present answer rfl
    exact sound.calls _ present answer rfl

def Action.setsFiles : Action → Bool
  | .setFiles _ => true
  | _ => false

def Passage.isQuiet (engine : Engine) (passage : Passage) : Bool :=
  !passage.action.setsFiles &&
    decide (((Snapshot.withFolder passage.pool.state.files engine.file).contentOf
      engine.file).toOption = (passage.pool.state.files.contentOf engine.file).toOption)

theorem Passage.isQuiet_sound {passage : Passage} (quiet : passage.isQuiet engine = true) :
    passage.Undisturbed engine := by
  simp only [isQuiet, Bool.and_eq_true, Bool.not_eq_true', decide_eq_true_eq] at quiet
  obtain ⟨own, hidden⟩ := quiet
  constructor
  · intro files sets
    rw [sets] at own
    cases own
  · intro roots outcome _ _ bytes read
    exact Snapshot.ok_of_toOption hidden read

@[irreducible]
def firstSearch : List Passage × Pool :=
  follow (sampleHost "/d/s") (.open .cached sampleRoots :: List.replicate 6 (.call 0))
    (.start sampleState.files sampleState.now)

theorem firstSearch_run : Run (·.Serves sampleEngine) (.start sampleState.files sampleState.now)
    firstSearch.1 firstSearch.2 := by
  unfold firstSearch
  exact follow_run sampleHost_serves _ _

def Call.repositories? : Call → Option (List Repository)
  | done reply => reply.repositories?
  | _ => none

theorem Reply.found_of_repositories? {reply : Reply} {repositories : List Repository}
    (found : reply.repositories? = some repositories) :
    ∃ answer, reply = .found answer ∧ answer.repositories = repositories := by
  cases reply with
  | found answer => exact ⟨answer, rfl, Option.some.inj found⟩
  | _ => cases found

theorem Call.found_of_repositories? {call : Call} {repositories : List Repository}
    (told : call.repositories? = some repositories) :
    ∃ answer, call = .done (.found answer) ∧ answer.repositories = repositories := by
  cases call with
  | done reply =>
    obtain ⟨answer, rfl, same⟩ := Reply.found_of_repositories? told
    exact ⟨answer, rfl, same⟩
  | _ => cases told

theorem firstSearch_facts :
    (sampleState.files.contentOf sampleEngine.file).isOk = false ∧
      firstSearch.1.all Passage.isTimely = true ∧
      firstSearch.1.all (Passage.isQuiet sampleEngine) = true ∧
      (firstSearch.2.state.files.contentOf sampleEngine.file).isOk = true ∧
      firstSearch.2.calls.map Call.repositories? =
        [some [.ofPath (Path.ofString "/w/p") "" .epoch]] := by
  decide +kernel

theorem file_holds_completed_scan_sample :
    (∃ snapshot, Snapshot.load? firstSearch.2.state.files sampleEngine.file = some snapshot ∧
      Genuine sampleEngine firstSearch.1 snapshot) ∧
    ∃ answer, .done (.found answer) ∈ firstSearch.2.calls ∧
      answer.repositories = [.ofPath (Path.ofString "/w/p") "" .epoch] ∧
      Orderly answer.repositories ∧ answer.count = 1 := by
  obtain ⟨none, times, quiet, some, replies⟩ := firstSearch_facts
  have timely (passage : Passage) (present : passage ∈ firstSearch.1) : passage.IsTimely :=
    Passage.isTimely_sound (List.all_eq_true.mp times passage present)
  have undisturbed (passage : Passage) (present : passage ∈ firstSearch.1) :
      passage.Undisturbed sampleEngine :=
    Passage.isQuiet_sound (List.all_eq_true.mp quiet passage present)
  obtain ⟨held, answers⟩ :=
    file_holds_completed_scan (Snapshot.ne_ok_of_isOk none) firstSearch_run timely undisturbed
  constructor
  · obtain ⟨bytes, read⟩ := Snapshot.exists_ok_of_isOk some
    exact held bytes read
  · have among : Option.some [.ofPath (Path.ofString "/w/p") "" .epoch] ∈
        firstSearch.2.calls.map Call.repositories? := by
      rw [replies]
      exact List.mem_singleton_self _
    obtain ⟨call, present, listed⟩ := List.mem_map.mp among
    obtain ⟨answer, rfl, same⟩ := Call.found_of_repositories? listed
    obtain ⟨orderly, count⟩ := answers _ present answer rfl
    refine ⟨answer, present, same, orderly, ?_⟩
    rw [count, same]
    rfl

def strayFiles : FileSystem :=
  let folder (entries : List (List UInt8 × FileSystem.Node)) := .directory 0o755 .epoch entries
  let stray := .file (Text.Utf8.ofString "junk") 0o644
  ⟨folder [([0x73], stray), ([0x77], folder [([0xff], folder [(Text.Utf8.ofString ".git",
    folder [])])])], []⟩

def strayEngine : Engine :=
  { sampleEngine with
    settings := (sampleHost "/a/../s").settings
    file := (sampleHost "/a/../s").file }

theorem strayHost_serves : (sampleHost "/a/../s").Serves strayEngine :=
  Host.ofSettings_serves (by decide)

@[irreducible]
def straySearch : List Passage × Pool :=
  follow (sampleHost "/a/../s") (.open .cached sampleRoots :: List.replicate 6 (.call 0))
    (.start strayFiles sampleState.now)

theorem straySearch_run : Run (·.Serves strayEngine) (.start strayFiles sampleState.now)
    straySearch.1 straySearch.2 := by
  unfold straySearch
  exact follow_run strayHost_serves _ _

theorem straySearch_facts :
    (strayFiles.contentOf strayEngine.file).isOk = false ∧
      straySearch.1.all Passage.isTimely = true ∧
      straySearch.1.all (fun passage => !passage.action.setsFiles) = true ∧
      (straySearch.2.state.files.contentOf strayEngine.file).isOk = true ∧
      Snapshot.load? straySearch.2.state.files strayEngine.file = none := by
  decide +kernel

-- A save that fails leaves the folder behind that it made, and the way to the file leads through
-- that to what somebody else has written: the file is there, and it is no snapshot.
theorem brought_to_light :
    (∀ bytes, strayFiles.contentOf strayEngine.file ≠ .ok bytes) ∧
      Run (·.Serves strayEngine) (.start strayFiles sampleState.now) straySearch.1 straySearch.2 ∧
      (∀ passage ∈ straySearch.1, passage.IsTimely ∧ passage.action.setsFiles = false) ∧
      (∃ bytes, straySearch.2.state.files.contentOf strayEngine.file = .ok bytes) ∧
      Snapshot.load? straySearch.2.state.files strayEngine.file = none := by
  obtain ⟨none, times, own, some, lost⟩ := straySearch_facts
  refine ⟨Snapshot.ne_ok_of_isOk none, straySearch_run, ?_, Snapshot.exists_ok_of_isOk some, lost⟩
  intro passage present
  have own := List.all_eq_true.mp own passage present
  exact ⟨Passage.isTimely_sound (List.all_eq_true.mp times passage present), by simpa using own⟩

end RepoFinder.Discovery
