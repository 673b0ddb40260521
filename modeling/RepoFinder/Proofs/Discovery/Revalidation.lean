import RepoFinder.Proofs.Discovery.Service
import RepoFinder.Proofs.Discovery.SingleFlight
import RepoFinder.Proofs.Discovery.Warmth
import RepoFinder.Proofs.Snapshot.Aftermath

namespace RepoFinder.Discovery

variable {engine : Engine} {host : Host} {pool next : Pool} {roots : List Path}
  {old snapshot : Snapshot}

def Recalls (engine : Engine) (state : State) (roots : List Path) (snapshot : Snapshot)
    (refreshing : Bool) : Prop :=
  ∀ host paths, host.Serves engine → Alike roots (rootsOf host state paths) → ∃ found,
    answer host state .cached paths = (state, .found found) ∧ found.cached = true ∧
      found.refreshing = refreshing ∧
      found.repositories = snapshot.repositories.map (Repository.mark state.configured)

theorem Matches.alike {files : FileSystem} {others : List Path}
    (matching : Matches host files roots snapshot) (alike : Alike roots others)
    {other : Host} (file : other.file = host.file) : Matches other files others snapshot where
  loaded := by
    rw [file]
    exact matching.loaded
  current := matching.current
  keys key := (matching.keys key).trans (alike key)

theorem Matches.readable {files : FileSystem} (matching : Matches host files roots snapshot) :
    ∃ bytes, files.contentOf host.file = .ok bytes := by
  obtain ⟨content, read, _⟩ := Snapshot.load?_eq_some.mp matching.loaded
  exact ⟨content, read⟩

-- While a refresh is under way it does not matter how old a snapshot is.
theorem recalls_of_busy {state : State} (served : host.Serves engine)
    (matching : Matches host state.files roots snapshot) (busy : state.refreshing = true) :
    Recalls engine state roots snapshot true := by
  intro other paths serves alike
  have matching := matching.alike alike (serves.file.trans served.file.symm)
  cases young : (snapshot.age state.now).lt other.settings.snapshotLife with
  | true =>
    rw [answer_young matching young, busy]
    exact ⟨_, rfl, rfl, rfl, rfl⟩
  | false =>
    rw [answer_old matching young, if_pos busy]
    exact ⟨_, rfl, rfl, rfl, rfl⟩

def Call.Serving (snapshot : Snapshot) : Call → Prop
  | dating _ held => held = snapshot
  | claiming _ held _ => held = snapshot
  | spawning _ held _ => held = snapshot
  | done reply => ∃ found, reply = .found found ∧ found.cached = true ∧ ∃ marks,
      found.repositories = snapshot.repositories.map (Repository.mark marks)
  | _ => False

-- A call that has a snapshot never scans: it can only answer from it.
theorem Call.Turn.serving {state next : State} {call after : Call} {event : Option Event}
    (serving : call.Serving snapshot) (turn : Call.Turn host state call event next after) :
    after.Serving snapshot := by
  cases turn with
  | serveYoung | serveBusy | spawn =>
    obtain rfl := serving
    exact ⟨_, rfl, rfl, _, rfl⟩
  | findOld | claim => exact serving
  | rest => exact serving
  | _ => exact serving.elim

theorem Step.serving {action : Action} {event : Option Event} {index : Nat} {call : Call}
    (stands : pool.calls[index]? = some call) (serving : call.Serving snapshot)
    (step : Step host pool action event next) :
    ∃ after, next.calls[index]? = some after ∧ after.Serving snapshot := by
  cases step with
  | opened =>
    obtain ⟨within, _⟩ := List.getElem?_eq_some_iff.mp stands
    exact ⟨call, by rw [List.getElem?_append_left within, stands], serving⟩
  | @call moved _ after _ _ there turn =>
    by_cases same : index = moved
    · subst same
      obtain rfl := Option.some.inj (stands.symm.trans there)
      obtain ⟨within, _⟩ := List.getElem?_eq_some_iff.mp stands
      exact ⟨after, List.getElem?_set_self within, turn.serving serving⟩
    · refine ⟨call, ?_, serving⟩
      rw [List.getElem?_set_ne (Ne.symm same), stands]
  | _ => exact ⟨call, stands, serving⟩

theorem Run.serving {hosts : Host → Prop} {start : Pool} {passages : List Passage} {index : Nat}
    {call : Call} (stands : start.calls[index]? = some call) (serving : call.Serving snapshot)
    (run : Run hosts start passages pool) :
    ∃ after, pool.calls[index]? = some after ∧ after.Serving snapshot := by
  induction run with
  | start => exact ⟨call, stands, serving⟩
  | step host action _ _ executed ih =>
    obtain ⟨after, stands, serving⟩ := ih
    exact (execute_step executed).serving stands serving

theorem Flown.cleared {flight : List Stage} (flown : Flown flight) : .cleared ∈ flight := by
  cases flown <;> simp

theorem Run.uncleared {hosts : Host → Prop} {start : Pool} {passages : List Passage}
    (before : Aloft start [.claimed, .started roots]) (run : Run hosts start passages pool)
    (uncleared : .cleared ∉ refreshStages passages) :
    Aloft pool ([.claimed, .started roots] ++ refreshStages passages) := by
  obtain ⟨flights, stages, same, whole, aloft⟩ := run.aloft before
  cases flights with
  | nil =>
    rw [same]
    exact aloft
  | cons flight rest =>
    have present : .cleared ∈ [.claimed, .started roots] ++ refreshStages passages := by
      rw [same, List.flatten_cons, List.append_assoc]
      exact List.mem_append_left _ (whole flight (List.mem_cons_self ..)).cleared
    simp [uncleared] at present

theorem Step.saved {action : Action} {searched : List Path} {outcome : Scan.Outcome}
    (step : Step host pool action (some (.ofRefresh (.saved searched outcome))) next) :
    ∃ index, action = .refresh index ∧
      pool.state.refreshes[index]? = some (.scanned searched outcome) ∧
      next.state.files = (pool.state.persist host outcome.repositories searched).files := by
  generalize happened : some (Event.ofRefresh (.saved searched outcome)) = event at step
  cases step with
  | @call index call after event state stands turn => cases turn <;> cases happened
  | @refresh index refresh after event state stands turn =>
    cases turn <;> cases happened
    exact ⟨index, rfl, stands, rfl⟩
  | _ => cases happened

theorem Run.about_to_save {start : Pool} {passages : List Passage} {index : Nat}
    {searched : List Path} {outcome : Scan.Outcome}
    (before : Aloft start [.claimed, .started roots])
    (only : start.state.refreshes = [.started roots])
    (run : Run (·.Serves engine) start passages pool)
    (uncleared : .cleared ∉ refreshStages passages)
    (stands : pool.state.refreshes[index]? = some (.scanned searched outcome)) :
    searched = roots ∧
      Scan.Came (engine.scenes .absent (Seen passages)) roots engine.options false outcome := by
  obtain ⟨_, _, _, _, passed⟩ := (run.uncleared before uncleared).of_refresh stands
  have same : searched = roots := by
    generalize stages : [Stage.claimed, .started roots] ++ refreshStages passages = whole at passed
    cases passed
    simp only [List.cons_append, List.cons.injEq, Stage.started.injEq] at stages
    exact stages.2.1.symm
  have begun : ∀ refresh ∈ start.state.refreshes, refresh.Fair engine fun _ => False := by
    intro refresh present
    rw [only] at present
    rw [List.mem_singleton.mp present]
    trivial
  have fair := run.fair begun _ (List.mem_of_getElem? stands)
  exact ⟨same, same ▸ fair⟩

theorem moments_of_came {trees : FileSystem → Prop} {sink : Scan.Sink} {cancelled : Bool}
    {outcome : Scan.Outcome}
    (came : Scan.Came (engine.scenes sink trees) roots engine.options cancelled outcome)
    (times : ∀ files, trees files → ∀ path, (files.modified path).IsMoment) :
    ∀ repository ∈ outcome.repositories, repository.modified.IsMoment := by
  intro repository among
  obtain ⟨_, ⟨files, seen, rfl⟩, same⟩ := came.saw repository among
  have same : repository.modified = files.modified repository.path := same
  rw [same]
  exact times files seen _

-- While the refresh is under way: whole searches answer from a snapshot for their folders that the
-- file holds, and change nothing; and a search that reads one now answers from it in the end,
-- whatever the refresh and the other calls do in the meantime.
structure Bridged (engine : Engine) (pool : Pool) : Prop where
  busy : pool.state.refreshing = true
  recalls : ∀ host roots snapshot, host.Serves engine →
    Matches host pool.state.files roots snapshot → Recalls engine pool.state roots snapshot true
  reads : ∀ host index roots snapshot, host.Serves engine →
    Matches host pool.state.files roots snapshot →
      pool.calls[index]? = some (.looking roots) →
        ∃ next, execute host pool (.call index) = some next ∧ next.state = pool.state ∧
          ∀ passages later, Run (·.Serves engine) next passages later →
            ∃ call, later.calls[index]? = some call ∧ call.Serving snapshot

structure Renewed (engine : Engine) (roots : List Path) (old : FileSystem)
    (earlier : List Passage) (passage : Passage) (searched : List Path) (outcome : Scan.Outcome) :
    Prop where
  -- The result of a scan that nobody cancelled, on the trees that the refresh has seen. Where that
  -- was one tree, it is the result of a scan of it.
  searched : searched = roots
  scanned : Scan.Came (engine.scenes .absent (Seen earlier)) roots engine.options false outcome
  uncancelled : outcome.stop ≠ .cancelled
  ends : ∀ files, (∀ other, Seen earlier other → other = files) →
    Scan.Ends (engine.scene .absent files) roots engine.options false outcome
  -- Where nobody has written the file before this save, and nobody does afterwards, it holds the
  -- new snapshot, which searches answer from as long as it is young. Its time is that of the save,
  -- as it is read back.
  held : (Snapshot.save passage.pool.state.files engine.file
      (Snapshot.take passage.pool.state.now outcome.repositories roots)).2 = .ok () →
    passage.pool.state.files.contentOf engine.file = old.contentOf engine.file →
      ∀ next, execute passage.host passage.pool passage.action = some next →
        ∀ later : State, later.files.contentOf engine.file = next.state.files.contentOf engine.file →
          Snapshot.load? later.files engine.file =
              some (Snapshot.take passage.pool.state.now.settled outcome.repositories roots) ∧
            ∀ host again, host.Serves engine →
              Asks host roots passage.pool.state.now.settled later again → ∃ found,
                answer host later .cached again = (later, .found found) ∧ found.cached = true ∧
                  found.repositories = outcome.repositories.map (Repository.mark later.configured)

theorem bridged {passages : List Passage} {start : Pool}
    (before : Aloft start [.claimed, .started roots])
    (run : Run (·.Serves engine) start passages pool)
    (uncleared : .cleared ∉ refreshStages passages) : Bridged engine pool := by
  have busy : pool.state.refreshing = true := by
    apply (run.uncleared before uncleared).refreshing_iff.mpr
    simp
  refine ⟨busy, fun _ _ _ serves matching => recalls_of_busy serves matching busy, ?_⟩
  intro host index searched snapshot _ matching stands
  have executed : execute host pool (.call index) =
      some ⟨pool.state, pool.calls.set index (.dating searched snapshot)⟩ := by
    simp [execute, stands, Call.step, snapshotFor?_iff.mpr matching]
  obtain ⟨within, _⟩ := List.getElem?_eq_some_iff.mp stands
  refine ⟨_, executed, rfl, ?_⟩
  intro passages later run
  have holds : Call.Serving snapshot (.dating searched snapshot) := rfl
  exact run.serving (List.getElem?_set_self within) holds

theorem renewed {passages earlier rest : List Passage} {passage : Passage} {start last : Pool}
    {files : FileSystem} {searched : List Path} {outcome : Scan.Outcome} {bytes : List UInt8}
    (before : Aloft start [.claimed, .started roots])
    (only : start.state.refreshes = [.started roots])
    (run : Run (·.Serves engine) start passages last)
    (timely : ∀ passage ∈ passages, passage.IsTimely)
    (readable : files.contentOf engine.file = .ok bytes)
    (cut : passages = earlier ++ passage :: rest) (uncleared : .cleared ∉ refreshStages earlier)
    (saves : passage.event? = some (.ofRefresh (.saved searched outcome))) :
    Renewed engine roots files earlier passage searched outcome := by
  obtain ⟨first, serves, next, executed, _⟩ := run.split cut
  have step := execute_step executed
  rw [show passage.pool.event? passage.host passage.action = _ from saves] at step
  obtain ⟨index, _, stands, left⟩ := step.saved
  obtain ⟨rfl, came⟩ := first.about_to_save before only uncleared stands
  have among : passage ∈ passages := by simp [cut]
  refine ⟨rfl, came, came.stop_ne_cancelled, fun files same => ends_of_came same came, ?_⟩
  intro saved kept after also later same
  obtain rfl := Option.some.inj (executed.symm.trans also)
  have whole : Snapshot.save passage.pool.state.files engine.file
      (Snapshot.take passage.pool.state.now outcome.repositories searched) =
        (next.state.files, .ok ()) := by
    rw [left]
    unfold State.persist
    rw [serves.file]
    exact Prod.ext rfl saved
  have times : ∀ repository ∈ outcome.repositories, repository.modified.IsMoment := by
    apply moments_of_came came
    rintro files ⟨seen, present, _, rfl⟩ path
    exact (timely seen (by simp [cut, present])).tree path
  have shown := Snapshot.take_shown (timely passage among).clock
    (fun repository present => (times repository present).shown) searched
  have free := Snapshot.wayIsFree_of_contentOf (kept.trans readable) whole
  have loaded := (load?_congr same).trans (Snapshot.load?_settled free shown rfl whole)
  rw [Snapshot.take_settled times] at loaded
  refine ⟨loaded, ?_⟩
  intro other again otherServes asks
  rw [← otherServes.file] at loaded
  obtain ⟨found, answered, cached, repositories⟩ := answer_alike loaded asks
  refine ⟨found, answered, cached, ?_⟩
  rw [repositories, Snapshot.take, List.map_map]
  rfl

-- A search that finds an old snapshot answers from it at once, whatever the tree looks like, and
-- starts one refresh. Until that is over, whoever finds a snapshot answers from it without a scan;
-- it is the old one as long as nobody writes the file. What the refresh saves was found on the
-- trees that it saw, for the folders of the search, whether or not the caller of that has
-- cancelled; and it is what searches answer from afterwards.
theorem stale_until_renewed {paths : List Path} (served : host.Serves engine)
    (idle : Aloft pool [])
    (matching : Matches host pool.state.files (rootsOf host pool.state paths) old)
    (stale : (old.age pool.state.now).lt host.settings.snapshotLife = false) :
    let roots := rootsOf host pool.state paths
    let called : Pool := ⟨(answer host pool.state .cached paths).1, pool.calls⟩
    (∃ found, answer host pool.state .cached paths =
        ({ pool.state with refreshing := true, refreshes := [.started roots] }, .found found) ∧
      found.cached = true ∧ found.refreshing = true ∧
      found.repositories = old.repositories.map (Repository.mark pool.state.configured)) ∧
    Aloft called [.claimed, .started roots] ∧
    ∀ passages later, Run (·.Serves engine) called passages later →
      (.cleared ∉ refreshStages passages → Bridged engine later ∧
        (later.state.files.contentOf engine.file = pool.state.files.contentOf engine.file →
          ∀ other others, other.Serves engine → Alike roots others →
            Matches other later.state.files others old)) ∧
      ((∀ passage ∈ passages, passage.IsTimely) →
        ∀ earlier passage rest searched outcome, passages = earlier ++ passage :: rest →
          .cleared ∉ refreshStages earlier →
            passage.event? = some (.ofRefresh (.saved searched outcome)) →
              Renewed engine roots pool.state.files earlier passage searched outcome) := by
  intro roots called
  obtain ⟨free, unclaimed, unstarted⟩ := idle.idle
  have answered : answer host pool.state .cached paths =
      ({ pool.state with refreshing := true, refreshes := [.started roots] },
        Call.serve pool.state roots old (old.age pool.state.now) true) := by
    rw [answer_old matching stale]
    simp [free, unstarted, roots]
  have state : called.state =
      { pool.state with refreshing := true, refreshes := [.started roots] } := by
    simp only [called, answered]
  have aloft : Aloft called [.claimed, .started roots] := by
    refine .started ?_ unclaimed ?_ .started
    · rw [state]
    · rw [state]
  obtain ⟨bytes, readable⟩ := matching.readable
  rw [served.file] at readable
  refine ⟨⟨_, answered, rfl, rfl, rfl⟩, aloft, ?_⟩
  intro passages later run
  constructor
  · intro uncleared
    refine ⟨bridged aloft run uncleared, ?_⟩
    intro kept other others serves alike
    rw [← served.file] at kept
    have still : Matches host later.state.files roots old :=
      ⟨(load?_congr kept).trans matching.loaded, matching.current, matching.keys⟩
    exact still.alike alike (serves.file.trans served.file.symm)
  · intro timely earlier passage rest searched outcome cut uncleared saves
    exact renewed aloft (by rw [state]) run timely readable cut uncleared saves

def sampleEngine : Engine :=
  ⟨(sampleHost "/d/s").settings, (sampleHost "/d/s").home, (sampleHost "/d/s").file,
    fun _ _ => .failure⟩

theorem sampleHost_serves : (sampleHost "/d/s").Serves sampleEngine :=
  Host.ofSettings_serves (by decide)

theorem oldPool_roots_loaded_old :
    rootsOf (sampleHost "/d/s") oldPool.state sampleRoots = sampleRoots ∧
      Snapshot.load? oldPool.state.files (sampleHost "/d/s").file = some oldSnapshot ∧
      (oldSnapshot.age oldPool.state.now).lt (sampleHost "/d/s").settings.snapshotLife = false := by
  decide +kernel

theorem oldPool_matches : Matches (sampleHost "/d/s") oldPool.state.files
    (rootsOf (sampleHost "/d/s") oldPool.state sampleRoots) oldSnapshot := by
  obtain ⟨roots, loaded, _⟩ := oldPool_roots_loaded_old
  rw [roots]
  exact ⟨loaded, rfl, fun key => Iff.rfl⟩

def calledPool : Pool :=
  ⟨(answer (sampleHost "/d/s") oldPool.state .cached sampleRoots).1, oldPool.calls⟩

@[irreducible]
def aboutToSave : List Passage × Pool :=
  follow (sampleHost "/d/s") (List.replicate 3 (.refresh 0)) calledPool

theorem aboutToSave_run :
    Run (·.Serves sampleEngine) calledPool aboutToSave.1 aboutToSave.2 := by
  unfold aboutToSave
  exact follow_run sampleHost_serves _ _

def savingPassage : Passage := ⟨sampleHost "/d/s", aboutToSave.2, .refresh 0⟩

def Refresh.holding? : Refresh → Option (List Path × Scan.Outcome)
  | scanned roots outcome => some (roots, outcome)
  | _ => none

def Stage.isCleared : Stage → Bool
  | .cleared => true
  | _ => false

theorem not_cleared {stages : List Stage} (none : stages.any Stage.isCleared = false) :
    .cleared ∉ stages := by
  intro present
  have some : stages.any Stage.isCleared = true := List.any_eq_true.mpr ⟨_, present, rfl⟩
  rw [none] at some
  cases some

theorem savingPassage_facts :
    (savingPassage.pool.state.refreshes[0]?.bind Refresh.holding?).map
        (fun held => held.2.repositories) = some [.ofPath (Path.ofString "/w/p") "" .epoch] ∧
      (aboutToSave.1 ++ [savingPassage]).all Passage.isTimely = true ∧
      (refreshStages aboutToSave.1).any Stage.isCleared = false ∧
      (Snapshot.save savingPassage.pool.state.files sampleEngine.file
        (Snapshot.take savingPassage.pool.state.now [.ofPath (Path.ofString "/w/p") "" .epoch]
          sampleRoots)).2.isOk = true ∧
      (savingPassage.pool.state.files.contentOf sampleEngine.file).toOption =
        (oldPool.state.files.contentOf sampleEngine.file).toOption := by
  decide +kernel

theorem savingPassage_saves :
    ∃ (searched : List Path) (outcome : Scan.Outcome) (next : Pool),
      savingPassage.event? = some (.ofRefresh (.saved searched outcome)) ∧
        execute savingPassage.host savingPassage.pool savingPassage.action = some next ∧
        outcome.repositories = [.ofPath (Path.ofString "/w/p") "" .epoch] := by
  obtain ⟨⟨searched, outcome⟩, held, repositories⟩ :=
    Option.map_eq_some_iff.mp savingPassage_facts.1
  obtain ⟨refresh, stands, is⟩ := Option.bind_eq_some_iff.mp held
  cases refresh <;> cases is
  have executed : execute savingPassage.host savingPassage.pool savingPassage.action =
      (savingPassage.pool.state.stepRefresh savingPassage.host 0).map fun state =>
        { savingPassage.pool with state } := rfl
  simp only [State.stepRefresh, stands, Refresh.step, Option.map_some] at executed
  refine ⟨searched, outcome, _, ?_, executed, repositories⟩
  have happened : savingPassage.event? =
      savingPassage.pool.state.refreshes[0]?.bind
        (Refresh.event? savingPassage.host savingPassage.pool.state) := rfl
  rw [happened, stands]
  rfl

theorem savingPassage_kept : savingPassage.pool.state.files.contentOf sampleEngine.file =
    oldPool.state.files.contentOf sampleEngine.file := by
  obtain ⟨_, _, _, _, same⟩ := savingPassage_facts
  obtain ⟨bytes, readable⟩ := oldPool_matches.readable
  change oldPool.state.files.contentOf sampleEngine.file = .ok bytes at readable
  exact (Snapshot.ok_of_toOption same.symm readable).trans readable.symm

theorem stale_until_renewed_sample :
    ∃ (found : Answer) (outcome : Scan.Outcome) (next : Pool),
      (answer (sampleHost "/d/s") oldPool.state .cached sampleRoots).2 = .found found ∧
      found.cached = true ∧ found.refreshing = true ∧
      execute savingPassage.host savingPassage.pool savingPassage.action = some next ∧
      Snapshot.load? next.state.files sampleEngine.file =
        some (Snapshot.take savingPassage.pool.state.now.settled outcome.repositories
          sampleRoots) := by
  obtain ⟨roots, _, stale⟩ := oldPool_roots_loaded_old
  obtain ⟨_, times, uncleared, fine, _⟩ := savingPassage_facts
  have idle : Aloft oldPool [] := start_aloft _ _
  obtain ⟨⟨found, answered, cached, refreshing, _⟩, _, after⟩ :=
    stale_until_renewed sampleHost_serves idle oldPool_matches stale
  obtain ⟨searched, outcome, next, saves, executed, repositories⟩ := savingPassage_saves
  have run : Run (·.Serves sampleEngine) calledPool (aboutToSave.1 ++ [savingPassage]) next :=
    aboutToSave_run.step (sampleHost "/d/s") (.refresh 0) sampleHost_serves executed
  have timely (passage : Passage) (present : passage ∈ aboutToSave.1 ++ [savingPassage]) :
      passage.IsTimely := Passage.isTimely_sound (List.all_eq_true.mp times passage present)
  have renewed := (after _ _ run).2 timely aboutToSave.1 savingPassage [] searched outcome rfl
    (not_cleared uncleared) saves
  rw [roots] at renewed
  have saved : (Snapshot.save savingPassage.pool.state.files sampleEngine.file
      (Snapshot.take savingPassage.pool.state.now outcome.repositories sampleRoots)).2 =
        .ok () := by
    rw [repositories]
    exact Snapshot.eq_ok_of_isOk fine
  obtain ⟨loaded, _⟩ := renewed.held saved savingPassage_kept next executed next.state rfl
  exact ⟨found, outcome, next, congrArg Prod.snd answered, cached, refreshing, executed, loaded⟩

@[irreducible]
def overtaken : List Passage × Pool :=
  follow (sampleHost "/d/s")
    ([.refresh 0,
      .setFiles ((oldFiles.removeTree (Path.ofString "/w/p/.git")).toOption.getD oldFiles),
      .open .fresh sampleRoots] ++ List.replicate 5 (.call 0) ++ [.setClock ⟨1700000200, 0⟩])
    calledPool

theorem overtaken_run : Run (·.Serves sampleEngine) calledPool overtaken.1 overtaken.2 := by
  unfold overtaken
  exact follow_run sampleHost_serves _ _

def Reply.repositories? : Reply → Option (List Repository)
  | .found reply => some reply.repositories
  | _ => none

def emptySnapshot : Snapshot := .take ⟨1700000100, 0⟩ [] sampleRoots

theorem overtaken_facts :
    Snapshot.load? overtaken.2.state.files (sampleHost "/d/s").file = some emptySnapshot ∧
      (refreshStages overtaken.1).any Stage.isCleared = false ∧
      overtaken.2.state.refreshing = true ∧
      (emptySnapshot.age overtaken.2.state.now).lt (sampleHost "/d/s").settings.snapshotLife =
        false ∧
      (answer (sampleHost "/d/s") overtaken.2.state .cached sampleRoots).2.repositories? =
        some [] := by
  decide +kernel

@[irreducible]
def restamped : List Passage × Pool :=
  follow (sampleHost "/d/s") [.setClock ⟨1700000200, 1500000000⟩, .refresh 0] aboutToSave.2

theorem restamped_run : Run (·.Serves sampleEngine) aboutToSave.2 restamped.1 restamped.2 := by
  unfold restamped
  exact follow_run sampleHost_serves _ _

theorem restamped_facts :
    restamped.2.state.now = ⟨1700000200, 1500000000⟩ ∧ restamped.2.state.now.IsShown ∧
      (refreshStages restamped.1).length = 1 ∧
      (Snapshot.load? restamped.2.state.files (sampleHost "/d/s").file).map Snapshot.timestamp =
        some ⟨1700000201, 500000000⟩ := by
  decide +kernel

-- What is answered while the refresh is under way is not always the snapshot that it was started
-- for: another search may have saved a newer one, and that may have become old as well. And what
-- the refresh saves is not always stamped with the time that the clock shows, where a second runs
-- on within its minute.
theorem overtaken_or_restamped :
    ((Aloft oldPool [] ∧
      Matches (sampleHost "/d/s") oldPool.state.files
        (rootsOf (sampleHost "/d/s") oldPool.state sampleRoots) oldSnapshot ∧
      (oldSnapshot.age oldPool.state.now).lt (sampleHost "/d/s").settings.snapshotLife = false) ∧
      Run (·.Serves sampleEngine) calledPool overtaken.1 overtaken.2 ∧
      .cleared ∉ refreshStages overtaken.1 ∧ overtaken.2.state.refreshing = true ∧
      (∃ snapshot, Matches (sampleHost "/d/s") overtaken.2.state.files sampleRoots snapshot ∧
        (snapshot.age overtaken.2.state.now).lt (sampleHost "/d/s").settings.snapshotLife =
          false) ∧
      (answer (sampleHost "/d/s") overtaken.2.state .cached sampleRoots).2.repositories? =
        some [] ∧
      oldSnapshot.repositories ≠ []) ∧
    Run (·.Serves sampleEngine) aboutToSave.2 restamped.1 restamped.2 ∧
      restamped.2.state.now = ⟨1700000200, 1500000000⟩ ∧ restamped.2.state.now.IsShown ∧
      (refreshStages restamped.1).length = 1 ∧
      (Snapshot.load? restamped.2.state.files (sampleHost "/d/s").file).map Snapshot.timestamp =
        some ⟨1700000201, 500000000⟩ := by
  obtain ⟨loaded, uncleared, busy, stale, answered⟩ := overtaken_facts
  have matching : Matches (sampleHost "/d/s") overtaken.2.state.files sampleRoots emptySnapshot :=
    ⟨loaded, rfl, fun key => Iff.rfl⟩
  obtain ⟨_, _, old⟩ := oldPool_roots_loaded_old
  refine ⟨⟨⟨start_aloft _ _, oldPool_matches, old⟩, overtaken_run, not_cleared uncleared, busy,
    ⟨_, matching, stale⟩, answered, ?_⟩, restamped_run, restamped_facts⟩
  decide

end RepoFinder.Discovery
