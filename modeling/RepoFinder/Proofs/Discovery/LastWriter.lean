import RepoFinder.Proofs.Discovery.Provenance
import RepoFinder.Proofs.Discovery.Trail

namespace RepoFinder.Discovery

variable {engine : Engine} {host : Host} {pool next settled : Pool}
  {passages earlier later : List Passage} {passage : Passage} {roots : List Path}
  {outcome : Scan.Outcome} {event : Option Event}

def Timed (outcome : Scan.Outcome) : Prop :=
  ∀ repository ∈ outcome.repositories, repository.modified.IsMoment

def Call.Dated : Call → Prop
  | saving _ _ outcome _ => Timed outcome
  | _ => True

theorem Step.dated {action : Action} (serves : host.Serves engine)
    (timely : (⟨host, pool, action⟩ : Passage).IsTimely) (dated : ∀ call ∈ pool.calls, call.Dated)
    (step : Step host pool action event next) : ∀ call ∈ next.calls, call.Dated := by
  cases step with
  | opened =>
    intro call present
    rcases List.mem_append.mp present with old | new
    · exact dated call old
    · rw [List.mem_singleton.mp new]
      trivial
  | @call index call after event state stands turn =>
    intro other present
    rcases List.mem_or_eq_of_mem_set present with old | rfl
    · exact dated other old
    · cases turn with
      | scan scanned uncancelled =>
        obtain ⟨_, came⟩ := serves.scans scanned
        apply moments_of_came came
        rintro files rfl
        exact timely.tree
      | rest => exact dated _ (List.mem_of_getElem? stands)
      | _ => trivial
  | _ => exact dated

theorem Run.dated {files : FileSystem} {now : Time.Timestamp}
    (run : Run (·.Serves engine) (.start files now) passages pool)
    (timely : ∀ passage ∈ passages, passage.IsTimely) : ∀ call ∈ pool.calls, call.Dated := by
  induction run with
  | start =>
    intro call present
    cases present
  | step host action before serves executed ih =>
    have before := ih fun passage present => timely passage (List.mem_append_left _ present)
    exact (execute_step executed).dated serves (timely _ (by simp)) before

theorem Run.dated_of_save {files : FileSystem} {now : Time.Timestamp} {action : Action}
    (run : Run (·.Serves engine) (.start files now) passages pool)
    (timely : ∀ passage ∈ passages, passage.IsTimely) (step : Step host pool action event next)
    (saves : event = some (.ofCall (.saved roots outcome)) ∨
      event = some (.ofRefresh (.saved roots outcome))) : Timed outcome := by
  rcases saves with rfl | rfl
  · obtain ⟨index, demand, delivered, rfl, stands, _⟩ := step.saving
    exact run.dated timely _ (List.mem_of_getElem? stands)
  · obtain ⟨index, rfl, stands, _⟩ := step.saved
    have begun : ∀ refresh ∈ (Pool.start files now).state.refreshes,
        refresh.Fair engine fun _ => False := by
      intro refresh present
      cases present
    apply moments_of_came (run.fair begun _ (List.mem_of_getElem? stands))
    rintro other ⟨seen, present, _, rfl⟩
    exact (timely seen present).tree

def Filed (engine : Engine) (among : List Path → Scan.Outcome → Prop) (files : FileSystem) : Prop :=
  ∀ bytes, files.contentOf engine.file = .ok bytes → ∃ roots outcome now, among roots outcome ∧
    Timed outcome ∧ now.IsShown ∧
      (Snapshot.take now outcome.repositories roots).render? = some bytes

def Call.Quotes (among : List Path → Scan.Outcome → Prop) : Call → Prop
  | dating _ snapshot => Quoted snapshot
  | claiming _ snapshot _ => Quoted snapshot
  | spawning _ snapshot _ => Quoted snapshot
  | done reply => ∀ answer, reply = .found answer → answer.cached = true →
    ∃ roots outcome marks, among roots outcome ∧
      answer.repositories = outcome.repositories.map (Repository.mark marks)
  | _ => True
where
  Quoted (snapshot : Snapshot) : Prop := ∃ outcome, among snapshot.searchPaths outcome ∧
    snapshot.repositories = outcome.repositories.map Repository.unmark

structure Quoting (engine : Engine) (among : List Path → Scan.Outcome → Prop) (count : Nat)
    (pool : Pool) : Prop where
  file : Filed engine among pool.state.files
  calls : ∀ index call, count ≤ index → pool.calls[index]? = some call → call.Quotes among

variable {among more : List Path → Scan.Outcome → Prop}

theorem Filed.mono {files : FileSystem} (filed : Filed engine among files)
    (within : ∀ roots outcome, among roots outcome → more roots outcome) :
    Filed engine more files := by
  intro bytes read
  obtain ⟨roots, outcome, now, listed, rest⟩ := filed bytes read
  exact ⟨roots, outcome, now, within roots outcome listed, rest⟩

theorem Filed.quoted {files : FileSystem} {snapshot : Snapshot} (filed : Filed engine among files)
    (loaded : Snapshot.load? files engine.file = some snapshot) :
    Call.Quotes.Quoted among snapshot := by
  obtain ⟨content, read, _⟩ := Snapshot.load?_eq_some.mp loaded
  obtain ⟨roots, outcome, now, listed, dated, shown, rendered⟩ := filed content read
  have held := load?_of_rendered shown dated rendered read
  obtain rfl := Option.some.inj (loaded.symm.trans held)
  exact ⟨outcome, listed, rfl⟩

theorem Filed.persist {state : State} (filed : Filed engine among state.files)
    (file : host.file = engine.file) (listed : among roots outcome)
    (dated : Timed outcome) (shown : state.now.IsShown)
    (hidden : KeepsHidden engine state.files
      (Snapshot.take state.now outcome.repositories roots)) :
    Filed engine among (state.persist host outcome.repositories roots).files := by
  intro bytes read
  rcases contentOf_persist file hidden read with rendered | before
  · exact ⟨roots, outcome, state.now, listed, dated, shown, rendered⟩
  · exact filed bytes before

theorem Call.Quotes.mono {call : Call} (quotes : call.Quotes among)
    (within : ∀ roots outcome, among roots outcome → more roots outcome) :
    call.Quotes more := by
  cases call with
  | dating | claiming | spawning =>
    obtain ⟨outcome, listed, same⟩ := quotes
    exact ⟨outcome, within _ _ listed, same⟩
  | done reply =>
    intro answer is cached
    obtain ⟨roots, outcome, marks, listed, same⟩ := quotes answer is cached
    exact ⟨roots, outcome, marks, within _ _ listed, same⟩
  | _ => trivial

theorem Call.Quotes.serve {state : State} {snapshot : Snapshot} {age : Time.Duration}
    {refreshing : Bool} (quoted : Call.Quotes.Quoted among snapshot) :
    Call.Quotes among (.done (Call.serve state roots snapshot age refreshing)) := by
  rintro answer is _
  obtain rfl := Reply.found.inj is
  obtain ⟨outcome, listed, same⟩ := quoted
  refine ⟨_, outcome, state.configured, listed, ?_⟩
  simp only [Answer.ofSnapshot, State.overlay, same, List.map_map]
  rfl

theorem Call.Turn.quotes {state after : State} {call later : Call} (serves : host.Serves engine)
    (filed : Filed engine among state.files) (quotes : call.Quotes among)
    (turn : Call.Turn host state call event after later) : later.Quotes among := by
  cases turn with
  | hit matching =>
    have loaded := matching.loaded
    rw [serves.file] at loaded
    exact filed.quoted loaded
  | serveYoung | serveBusy | spawn => exact .serve quotes
  | findOld | claim | rest => exact quotes
  | conclude =>
    rename_i demand roots outcome delivered
    rintro answer is cached
    cases demand <;> cases is <;> cases cached
  | fall | cancel =>
    rintro answer is
    cases is
  | _ => trivial

theorem Step.quoting {action : Action} {count : Nat} (serves : host.Serves engine)
    (happened : (⟨host, pool, action⟩ : Passage).event? = event)
    (undisturbed : (⟨host, pool, action⟩ : Passage).Undisturbed engine)
    (shown : pool.state.now.IsShown)
    (within : ∀ roots outcome, among roots outcome → more roots outcome)
    (saves : ∀ roots outcome, event = some (.ofCall (.saved roots outcome)) ∨
      event = some (.ofRefresh (.saved roots outcome)) →
        more roots outcome ∧ Timed outcome)
    (quoting : Quoting engine among count pool) (step : Step host pool action event next) :
    Quoting engine more count next := by
  have file := quoting.file.mono within
  have calls (index : Nat) (call : Call) (late : count ≤ index)
      (stands : pool.calls[index]? = some call) := (quoting.calls index call late stands).mono within
  cases step with
  | opened =>
    refine ⟨file, ?_⟩
    intro index call late stands
    rw [List.getElem?_append] at stands
    split at stands
    · exact calls index call late stands
    · rw [List.getElem?_singleton] at stands
      split at stands <;> cases stands
      trivial
  | @call moved call after event state stands turn =>
    constructor
    · cases turn with
      | save =>
        obtain ⟨listed, dated⟩ := saves _ _ (.inl rfl)
        exact file.persist serves.file listed dated shown (undisturbed.saves _ _ (.inl happened))
      | _ => exact file
    · intro index other late there
      by_cases same : moved = index
      · subst same
        obtain ⟨within', _⟩ := List.getElem?_eq_some_iff.mp stands
        obtain rfl := Option.some.inj ((List.getElem?_set_self within').symm.trans there)
        exact (turn.quotes serves quoting.file (quoting.calls moved call late stands)).mono within
      · rw [List.getElem?_set_ne same] at there
        exact calls index other late there
  | @refresh index refresh after event state stands turn =>
    refine ⟨?_, calls⟩
    cases turn with
    | save =>
      obtain ⟨listed, dated⟩ := saves _ _ (.inr rfl)
      exact file.persist serves.file listed dated shown (undisturbed.saves _ _ (.inr happened))
    | _ => exact file
  | invalidated =>
    refine ⟨?_, calls⟩
    intro bytes read
    unfold State.invalidate at read
    rw [serves.file] at read
    exact file bytes (Snapshot.contentOf_of_discard read)
  | tree =>
    refine ⟨?_, calls⟩
    intro bytes read
    exact file bytes (undisturbed.others _ rfl bytes read)
  | clear | configured | clock => exact ⟨file, calls⟩

-- A step after which nothing is left to read of what the file held before: a call has saved what
-- it had found, or the file was discarded, and neither failed.
def Passage.Settles (engine : Engine) (passage : Passage) : Prop :=
  (∃ roots outcome, passage.event? = some (.ofCall (.saved roots outcome)) ∧
    (Snapshot.save passage.pool.state.files engine.file
      (Snapshot.take passage.pool.state.now outcome.repositories roots)).2 = .ok ()) ∨
  (passage.action = .invalidate ∧ (passage.pool.state.invalidate passage.host).2 = .ok ())

def Latest (passage : Passage) (settled : Pool) (later : List Passage) (roots : List Path)
    (outcome : Scan.Outcome) : Prop :=
  passage.event? = some (.ofCall (.saved roots outcome)) ∨ SavedSince settled later roots outcome

theorem Passage.Settles.filed (settles : passage.Settles engine)
    (serves : passage.host.Serves engine) (shown : passage.pool.state.now.IsShown)
    (dated : ∀ roots outcome, passage.event? = some (.ofCall (.saved roots outcome)) →
      Timed outcome)
    (executed : execute passage.host passage.pool passage.action = some settled) :
    Filed engine (Latest passage settled []) settled.state.files := by
  intro bytes read
  rcases settles with ⟨roots, outcome, saves, saved⟩ | ⟨action, discarded⟩
  · have step := execute_step executed
    rw [show passage.pool.event? passage.host passage.action = _ from saves] at step
    obtain ⟨index, demand, delivered, _, _, left⟩ := step.saving
    have whole : Snapshot.save passage.pool.state.files engine.file
        (Snapshot.take passage.pool.state.now outcome.repositories roots) =
          (settled.state.files, .ok ()) := by
      rw [left]
      unfold State.persist
      rw [serves.file]
      exact Prod.ext rfl saved
    exact ⟨roots, outcome, _, .inl saves, dated roots outcome saves, shown,
      Snapshot.render?_of_contentOf whole read⟩
  · rw [action] at executed
    cases executed
    have gone : Snapshot.discard passage.pool.state.files engine.file =
        ((passage.pool.state.invalidate passage.host).1.files, .ok ()) := by
      rw [← serves.file]
      exact Prod.ext rfl discarded
    exact absurd read (Snapshot.unreadable_of_discard gone)

-- The invariant after a step that settled: nothing but what was saved in it or since.
theorem Run.quoting {files : FileSystem} {now : Time.Timestamp}
    (before : Run (·.Serves engine) (.start files now) earlier passage.pool)
    (serves : passage.host.Serves engine)
    (executed : execute passage.host passage.pool passage.action = some settled)
    (settles : passage.Settles engine) (after : Run (·.Serves engine) settled later pool)
    (timely : ∀ other ∈ earlier ++ passage :: later, other.IsTimely)
    (undisturbed : ∀ other ∈ later, other.Undisturbed engine) :
    Quoting engine (Latest passage settled later) settled.calls.length pool := by
  have whole : Run (·.Serves engine) (.start files now) (earlier ++ [passage]) settled :=
    before.step passage.host passage.action serves executed
  obtain ⟨_, _, _, _, aloft⟩ := whole.aloft (start_aloft files now)
  induction after with
  | start =>
    refine ⟨settles.filed serves (timely passage (by simp)).clock ?_ executed, ?_⟩
    · intro roots outcome saves
      have earlier (other : Passage) (present : other ∈ earlier) : other.IsTimely :=
        timely other (by simp [present])
      exact before.dated_of_save earlier (execute_step executed) (.inl saves)
    · intro index call late stands
      obtain ⟨within, _⟩ := List.getElem?_eq_some_iff.mp stands
      omega
  | @step later pool next host action run serves executed ih =>
    have soFar (other : Passage) (present : other ∈ earlier ++ passage :: later) : other.IsTimely :=
      timely other (by grind)
    have quoting := ih soFar fun other present => undisturbed other (by simp [present])
    have step := execute_step executed
    refine step.quoting serves rfl (undisturbed _ (by simp))
      (timely ⟨host, pool, action⟩ (by simp)).clock ?_ ?_ quoting
    · rintro roots outcome (own | since)
      · exact .inl own
      · exact .inr (since.append _)
    · intro roots outcome saves
      refine ⟨.inr (.of_step aloft run rfl step saves), ?_⟩
      exact (whole.append run).dated_of_save (by simpa using soFar) step saves

-- Once a call has saved its result, or the file was discarded, a search that is begun later answers
-- from its snapshot with nothing but the list of that call, or of a save that was made since: of a
-- scan that was begun since as well, or of one that was under way at the time. So where nobody was
-- scanning then, no search is answered with the list of a scan that is older. Nobody else writes
-- the file meanwhile, and a save that fails brings no file to light.
theorem answers_from_latest {files : FileSystem} {now : Time.Timestamp}
    (before : Run (·.Serves engine) (.start files now) earlier passage.pool)
    (serves : passage.host.Serves engine)
    (executed : execute passage.host passage.pool passage.action = some settled)
    (settles : passage.Settles engine) (after : Run (·.Serves engine) settled later pool)
    (timely : ∀ other ∈ earlier ++ passage :: later, other.IsTimely)
    (undisturbed : ∀ other ∈ later, other.Undisturbed engine) {index : Nat} {answer : Answer}
    (opened : settled.calls.length ≤ index)
    (stands : pool.calls[index]? = some (.done (.found answer))) (cached : answer.cached = true) :
    ∃ roots outcome marks,
      answer.repositories = outcome.repositories.map (Repository.mark marks) ∧
      (passage.event? = some (.ofCall (.saved roots outcome)) ∨
        SavedSince settled later roots outcome) := by
  have quoting := before.quoting serves executed settles after timely undisturbed
  obtain ⟨roots, outcome, marks, latest, same⟩ :=
    quoting.calls index _ opened stands answer rfl cached
  exact ⟨roots, outcome, marks, same, latest⟩

def Stage.list? : Stage → Option (List Repository)
  | scanned _ outcome => some outcome.repositories
  | saved _ outcome => some outcome.repositories
  | _ => none

def Call.listed? : Call → Option (Bool × List Repository)
  | done (.found answer) => some (answer.cached, answer.repositories)
  | _ => none

def Pool.listed? (pool : Pool) (index : Nat) : Option (Bool × List Repository) :=
  pool.calls[index]?.bind Call.listed?

theorem Pool.answer_of_listed? {index : Nat} {repositories : List Repository}
    (listed : pool.listed? index = some (true, repositories)) :
    ∃ answer, pool.calls[index]? = some (.done (.found answer)) ∧ answer.cached = true ∧
      answer.repositories = repositories := by
  obtain ⟨call, stands, answered⟩ := Option.bind_eq_some_iff.mp listed
  cases call with
  | done reply =>
    cases reply with
    | found answer =>
      obtain ⟨cached, same⟩ := Prod.mk.inj (Option.some.inj answered)
      exact ⟨answer, stands, cached, same⟩
    | _ => cases answered
  | _ => cases answered

def sampleFound : List Repository := [.ofPath (Path.ofString "/w/p") "" .epoch]

@[irreducible]
def flight : List Passage × Pool :=
  follow (sampleHost "/d/s")
    (.open .cached sampleRoots :: List.replicate 5 (.call 0) ++ List.replicate 3 (.refresh 0)) oldPool

@[irreducible]
def renewal : List Passage × Pool :=
  follow (sampleHost "/d/s")
    ([.setFiles ((oldFiles.removeTree (Path.ofString "/w/p/.git")).toOption.getD oldFiles),
      .open .fresh sampleRoots] ++ List.replicate 3 (.call 1)) flight.2

def renewing : Passage := ⟨sampleHost "/d/s", renewal.2, .call 1⟩

@[irreducible]
def renewedPool : Pool := (execute renewing.host renewing.pool renewing.action).getD renewal.2

@[irreducible]
def overwriting : List Passage × Pool :=
  follow (sampleHost "/d/s")
    ([.call 1, .refresh 0, .refresh 0, .open .cached sampleRoots] ++ List.replicate 3 (.call 2))
    renewedPool

theorem renewing_run :
    Run (·.Serves sampleEngine) oldPool (flight.1 ++ renewal.1) renewing.pool := by
  have first : Run (·.Serves sampleEngine) oldPool flight.1 flight.2 := by
    unfold flight
    exact follow_run sampleHost_serves _ _
  have second : Run (·.Serves sampleEngine) flight.2 renewal.1 renewal.2 := by
    unfold renewal
    exact follow_run sampleHost_serves _ _
  exact first.append second

theorem overwriting_run :
    Run (·.Serves sampleEngine) renewedPool overwriting.1 overwriting.2 := by
  unfold overwriting
  exact follow_run sampleHost_serves _ _

def Call.holding? : Call → Option (List Path × List Repository)
  | saving _ roots outcome _ => some (roots, outcome.repositories)
  | _ => none

theorem flight_facts :
    (refreshStages flight.1).countP Stage.isCounted = 1 ∧
      (refreshStages flight.1).filterMap Stage.list? = [sampleFound] ∧
      flight.2.calls.length = 1 := by
  decide +kernel

theorem renewing_facts :
    (execute renewing.host renewing.pool renewing.action).isSome = true ∧
      renewing.pool.calls[1]?.bind Call.holding? = some (sampleRoots, []) ∧
      (Snapshot.save renewing.pool.state.files sampleEngine.file
        (Snapshot.take renewing.pool.state.now [] sampleRoots)).2.isOk = true ∧
      renewedPool.calls.length = 2 := by
  decide +kernel

theorem overwriting_facts :
    (flight.1 ++ renewal.1 ++ renewing :: overwriting.1).all Passage.isTimely = true ∧
      overwriting.1.all (Passage.isQuiet sampleEngine) = true ∧
      overwriting.2.listed? 2 = some (true, sampleFound) := by
  decide +kernel

theorem renewing_executed :
    execute renewing.host renewing.pool renewing.action = some renewedPool := by
  unfold renewedPool
  obtain ⟨pool, executed⟩ := Option.isSome_iff_exists.mp renewing_facts.1
  rw [executed]
  rfl

theorem renewing_saves :
    ∃ outcome, renewing.event? = some (.ofCall (.saved sampleRoots outcome)) ∧
      outcome.repositories = [] := by
  obtain ⟨_, held, _⟩ := renewing_facts
  obtain ⟨call, stands, holds⟩ := Option.bind_eq_some_iff.mp held
  cases call with
  | saving demand roots outcome delivered =>
    obtain ⟨rfl, none⟩ := Prod.mk.inj (Option.some.inj holds)
    refine ⟨outcome, ?_, none⟩
    have happened : renewing.event? =
        renewing.pool.calls[1]?.bind (Call.event? renewing.host renewing.pool.state) := rfl
    rw [happened, stands]
    rfl
  | _ => cases holds

theorem renewing_settles : renewing.Settles sampleEngine := by
  obtain ⟨outcome, saves, none⟩ := renewing_saves
  left
  refine ⟨sampleRoots, outcome, saves, ?_⟩
  rw [none]
  exact Snapshot.eq_ok_of_isOk renewing_facts.2.2.1

theorem overwriting_undisturbed :
    ∀ passage ∈ overwriting.1, passage.Undisturbed sampleEngine := by
  intro passage present
  exact Passage.isQuiet_sound (List.all_eq_true.mp overwriting_facts.2.1 passage present)

-- The sample: the list that is answered is not that of the search anew, which had found nothing; it
-- was saved since.
theorem answers_from_latest_overwritten :
    ∃ roots outcome marks, sampleFound = outcome.repositories.map (Repository.mark marks) ∧
      SavedSince renewedPool overwriting.1 roots outcome := by
  obtain ⟨times, _, listed⟩ := overwriting_facts
  have timely : ∀ passage ∈ flight.1 ++ renewal.1 ++ renewing :: overwriting.1,
      passage.IsTimely := by
    intro passage present
    exact Passage.isTimely_sound (List.all_eq_true.mp times passage present)
  obtain ⟨answer, stands, cached, same⟩ := Pool.answer_of_listed? listed
  obtain ⟨roots, outcome, marks, list, own | since⟩ :=
    answers_from_latest renewing_run sampleHost_serves renewing_executed renewing_settles
      overwriting_run timely overwriting_undisturbed
      (Nat.le_of_eq renewing_facts.2.2.2) stands cached
  · obtain ⟨found, saves, none⟩ := renewing_saves
    obtain ⟨_, rfl⟩ := Stage.saved.inj (Event.ofCall.inj (Option.some.inj (own.symm.trans saves)))
    rw [none, same] at list
    cases list
  · exact ⟨roots, outcome, marks, same ▸ list, since⟩

def openFiles : FileSystem :=
  let folder (entries : List (List UInt8 × FileSystem.Node)) := .directory 0o755 .epoch entries
  ⟨folder [([0x61], folder []), ([0x77], folder [([0x70], folder [(Text.Utf8.ofString ".git",
    folder [])])])], []⟩

@[irreducible]
def openSearch : List Passage × Pool :=
  follow (sampleHost "/a/../s") (.open .cached sampleRoots :: List.replicate 6 (.call 0))
    (.start openFiles sampleState.now)

def closedFiles (files : FileSystem) : FileSystem :=
  let mark := FileSystem.Node.directory 0o755 .epoch [(Text.Utf8.ofString ".git",
    .directory 0o755 .epoch [])]
  ((files.removeTree (Path.ofString "/a")).toOption.getD files)
    |>.alter [[0x77]] fun _ => [([0xff], mark)]

@[irreducible]
def closing : List Passage × Pool :=
  follow (sampleHost "/a/../s") [.setFiles (closedFiles openSearch.2.state.files)] openSearch.2

def discarding : Passage := ⟨sampleHost "/a/../s", closing.2, .invalidate⟩

@[irreducible]
def discardedPool : Pool :=
  (execute discarding.host discarding.pool discarding.action).getD closing.2

@[irreducible]
def uncovering : List Passage × Pool :=
  follow (sampleHost "/a/../s")
    (.open .cached sampleRoots :: List.replicate 6 (.call 1) ++
      .open .cached sampleRoots :: List.replicate 3 (.call 2)) discardedPool

theorem discarding_run : Run (·.Serves strayEngine) (.start openFiles sampleState.now)
    (openSearch.1 ++ closing.1) discarding.pool := by
  have first : Run (·.Serves strayEngine) (.start openFiles sampleState.now) openSearch.1
      openSearch.2 := by
    unfold openSearch
    exact follow_run strayHost_serves _ _
  have second : Run (·.Serves strayEngine) openSearch.2 closing.1 closing.2 := by
    unfold closing
    exact follow_run strayHost_serves _ _
  exact first.append second

theorem uncovering_run : Run (·.Serves strayEngine) discardedPool uncovering.1 uncovering.2 := by
  unfold uncovering
  exact follow_run strayHost_serves _ _

theorem discarding_facts :
    (execute discarding.host discarding.pool discarding.action).isSome = true ∧
      (discarding.pool.state.invalidate discarding.host).2.isOk = true ∧
      openSearch.2.listed? 0 = some (false, sampleFound) ∧ discardedPool.calls.length = 1 := by
  decide +kernel

theorem uncovering_facts :
    uncovering.1.all (fun passage => !passage.action.setsFiles) = true ∧
      (uncovering.2.listed? 1).map (·.2.map Repository.path) = some [⟨[0x2f, 0x77, 0x2f, 0xff]⟩] ∧
      uncovering.2.listed? 2 = some (true, sampleFound) := by
  decide +kernel

theorem discarding_executed :
    execute discarding.host discarding.pool discarding.action = some discardedPool := by
  unfold discardedPool
  obtain ⟨pool, executed⟩ := Option.isSome_iff_exists.mp discarding_facts.1
  rw [executed]
  rfl

-- What was found before a call may be answered after it all the same. A refresh that had scanned
-- before a search anew was begun saves after it, and its list takes the place of the empty one that
-- is newer. And what was saved before the file was discarded comes to light again where its folder
-- was away meanwhile, and a save that fails makes it anew.
theorem overwritten_or_uncovered :
    ((Run (·.Serves sampleEngine) oldPool (flight.1 ++ renewal.1) renewing.pool ∧
        execute renewing.host renewing.pool renewing.action = some renewedPool ∧
        Run (·.Serves sampleEngine) renewedPool overwriting.1 overwriting.2) ∧
      ((refreshStages flight.1).countP Stage.isCounted = 1 ∧
        (refreshStages flight.1).filterMap Stage.list? = [sampleFound] ∧
        flight.2.calls.length = 1) ∧
      renewing.Settles sampleEngine ∧
      (∃ outcome, renewing.event? = some (.ofCall (.saved sampleRoots outcome)) ∧
        outcome.repositories = []) ∧
      (∀ passage ∈ overwriting.1, passage.Undisturbed sampleEngine) ∧
      renewedPool.calls.length = 2 ∧ overwriting.2.listed? 2 = some (true, sampleFound)) ∧
    (Run (·.Serves strayEngine) (.start openFiles sampleState.now) (openSearch.1 ++ closing.1)
        discarding.pool ∧
      execute discarding.host discarding.pool discarding.action = some discardedPool ∧
      Run (·.Serves strayEngine) discardedPool uncovering.1 uncovering.2) ∧
    openSearch.2.listed? 0 = some (false, sampleFound) ∧ discarding.Settles strayEngine ∧
    (∀ passage ∈ uncovering.1, passage.action.setsFiles = false) ∧
    discardedPool.calls.length = 1 ∧
    (uncovering.2.listed? 1).map (·.2.map Repository.path) = some [⟨[0x2f, 0x77, 0x2f, 0xff]⟩] ∧
    uncovering.2.listed? 2 = some (true, sampleFound) := by
  obtain ⟨_, discarded, first, opened⟩ := discarding_facts
  obtain ⟨own, scanned, found⟩ := uncovering_facts
  refine ⟨⟨⟨renewing_run, renewing_executed, overwriting_run⟩, flight_facts, renewing_settles,
      renewing_saves, overwriting_undisturbed, renewing_facts.2.2.2, overwriting_facts.2.2⟩,
    ⟨discarding_run, discarding_executed, uncovering_run⟩, first, ?_, ?_, opened, scanned, found⟩
  · exact .inr ⟨rfl, Snapshot.eq_ok_of_isOk discarded⟩
  · intro passage present
    simpa using List.all_eq_true.mp own passage present

end RepoFinder.Discovery
