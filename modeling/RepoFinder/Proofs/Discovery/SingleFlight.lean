import RepoFinder.Proofs.Discovery.Healing
import RepoFinder.Proofs.Discovery.History

namespace RepoFinder.Discovery

variable {host : Host} {pool next : Pool}

def Call.isSpawning : Call → Bool
  | spawning .. => true
  | _ => false

namespace Pool

def claims (pool : Pool) : Nat := pool.calls.countP Call.isSpawning

def underway (pool : Pool) : Nat := pool.claims + pool.state.refreshes.length

end Pool

inductive Flown : List Stage → Prop where
  | saved {roots : List Path} {outcome : Scan.Outcome} :
      Flown [.claimed, .started roots, .counted, .scanned roots outcome, .saved roots outcome,
        .cleared]
  | fell {roots : List Path} : Flown [.claimed, .started roots, .counted, .fell, .cleared]

inductive Refresh.Passed : Refresh → List Stage → Prop where
  | started {roots : List Path} : Passed (.started roots) [.claimed, .started roots]
  | counted {roots : List Path} : Passed (.counted roots) [.claimed, .started roots, .counted]
  | scanning {roots : List Path} {course : Scan.Course} :
      Passed (.scanning roots course) [.claimed, .started roots, .counted]
  | scanned {roots : List Path} {outcome : Scan.Outcome} :
      Passed (.scanned roots outcome)
        [.claimed, .started roots, .counted, .scanned roots outcome]
  | saved {roots : List Path} {outcome : Scan.Outcome} :
      Passed .ending
        [.claimed, .started roots, .counted, .scanned roots outcome, .saved roots outcome]
  | fell {roots : List Path} : Passed .ending [.claimed, .started roots, .counted, .fell]

-- How far the refresh of a pool has come, if there is one. This is the invariant of the module:
-- flag, claims and refreshes go together at every step.
inductive Aloft (pool : Pool) : List Stage → Prop where
  | none (free : pool.state.refreshing = false) (unclaimed : pool.claims = 0)
      (unstarted : pool.state.refreshes = []) : Aloft pool []
  | claimed (busy : pool.state.refreshing = true) (claimed : pool.claims = 1)
      (unstarted : pool.state.refreshes = []) : Aloft pool [.claimed]
  | started {refresh : Refresh} {stages : List Stage} (busy : pool.state.refreshing = true)
      (unclaimed : pool.claims = 0) (only : pool.state.refreshes = [refresh])
      (passed : refresh.Passed stages) : Aloft pool stages

theorem Aloft.refreshing_iff {stages : List Stage} (aloft : Aloft pool stages) :
    pool.state.refreshing = true ↔ stages ≠ [] := by
  cases aloft with
  | none free => simp [free]
  | claimed busy => simp [busy]
  | started busy _ _ passed => cases passed <;> simp [busy]

theorem Aloft.underway_eq {stages : List Stage} (aloft : Aloft pool stages) :
    pool.underway = if pool.state.refreshing then 1 else 0 := by
  cases aloft with
  | none free unclaimed unstarted => simp [Pool.underway, free, unclaimed, unstarted]
  | claimed busy claimed unstarted => simp [Pool.underway, busy, claimed, unstarted]
  | started busy unclaimed only => simp [Pool.underway, busy, unclaimed, only]

theorem Aloft.idle (aloft : Aloft pool []) : pool.state.refreshing = false ∧ pool.claims = 0 ∧
    pool.state.refreshes = [] := by
  cases aloft with
  | none free unclaimed unstarted => exact ⟨free, unclaimed, unstarted⟩
  | started _ _ _ passed => cases passed

theorem Aloft.congr {stages : List Stage} (aloft : Aloft pool stages)
    (refreshing : next.state.refreshing = pool.state.refreshing)
    (claims : next.claims = pool.claims)
    (refreshes : next.state.refreshes = pool.state.refreshes) : Aloft next stages := by
  cases aloft with
  | none free unclaimed unstarted =>
    exact .none (refreshing.trans free) (claims.trans unclaimed) (refreshes.trans unstarted)
  | claimed busy claimed unstarted =>
    exact .claimed (refreshing.trans busy) (claims.trans claimed) (refreshes.trans unstarted)
  | started busy unclaimed only passed =>
    exact .started (refreshing.trans busy) (claims.trans unclaimed) (refreshes.trans only) passed

theorem Call.Turn.aloft {index : Nat} {call after : Call} {event : Option Event} {state : State}
    {stages : List Stage} (aloft : Aloft pool stages) (stands : pool.calls[index]? = some call)
    (turn : Call.Turn host pool.state call event state after) :
    Aloft ⟨state, pool.calls.set index after⟩ (stages ++ stagesOf event) := by
  have claims := Scan.countP_set_add stands after Call.isSpawning
  change Pool.claims ⟨state, pool.calls.set index after⟩ + _ = pool.claims + _ at claims
  cases turn with
  | claim free =>
    -- The flag was free, so nobody else has a claim or a refresh.
    simp only [Call.isSpawning, Bool.false_eq_true, if_false, if_true, Nat.add_zero] at claims
    cases aloft with
    | none _ unclaimed unstarted => exact .claimed rfl (by omega) unstarted
    | claimed busy => cases free.symm.trans busy
    | started busy => cases free.symm.trans busy
  | @spawn roots snapshot age =>
    simp only [Call.isSpawning, Bool.false_eq_true, if_false, if_true, Nat.add_zero] at claims
    have claimed : 0 < pool.claims := by omega
    cases aloft with
    | none _ unclaimed => omega
    | started _ unclaimed => omega
    | claimed busy one unstarted =>
      have only : pool.state.refreshes ++ [.started roots] = [.started roots] := by
        rw [unstarted, List.nil_append]
      exact .started busy (by omega) only .started
  | _ =>
    simp only [Call.isSpawning, Bool.false_eq_true, if_false, Nat.add_zero] at claims
    simp only [stagesOf, Event.refresh?, Option.bind_none, Option.bind_some, Option.toList_none,
      List.append_nil]
    exact aloft.congr rfl claims rfl

theorem Refresh.Turn.passed {refresh after : Refresh} {event : Option Event} {state next : State}
    {stages : List Stage} (passed : refresh.Passed stages)
    (turn : Refresh.Turn host state refresh event next after) :
    after.Passed (stages ++ stagesOf event) := by
  cases turn with
  | count =>
    cases passed
    exact .counted
  | refuse =>
    cases passed
    exact .fell
  | launch =>
    cases passed
    exact .scanning
  | goOn =>
    cases passed
    exact .scanning
  | fall =>
    cases passed
    exact .fell
  | finish =>
    cases passed
    exact .scanned
  | save =>
    cases passed
    exact .saved

theorem Aloft.of_refresh {stages : List Stage} (aloft : Aloft pool stages) {index : Nat}
    {refresh : Refresh} (stands : pool.state.refreshes[index]? = some refresh) :
    index = 0 ∧ pool.state.refreshing = true ∧ pool.claims = 0 ∧
      pool.state.refreshes = [refresh] ∧ refresh.Passed stages := by
  cases aloft with
  | none _ _ unstarted => simp [unstarted] at stands
  | claimed _ _ unstarted => simp [unstarted] at stands
  | started busy unclaimed only passed =>
    rw [only, List.getElem?_singleton] at stands
    split at stands
    · rename_i first
      obtain rfl := Option.some.inj stands
      exact ⟨first, busy, unclaimed, only, passed⟩
    · cases stands

theorem Step.aloft {action : Action} {event : Option Event} {stages : List Stage}
    (aloft : Aloft pool stages) (step : Step host pool action event next) :
    Aloft next (stages ++ stagesOf event) ∨
      Flown (stages ++ stagesOf event) ∧ event = some (.ofRefresh .cleared) ∧ Aloft next [] := by
  cases step with
  | opened =>
    left
    rw [stagesOf, Option.bind_none, Option.toList_none, List.append_nil]
    exact aloft.congr rfl (by simp [Pool.claims, Call.isSpawning]) rfl
  | call stands turn => exact .inl (turn.aloft aloft stands)
  | refresh stands turn =>
    left
    obtain ⟨rfl, busy, unclaimed, only, passed⟩ := aloft.of_refresh stands
    obtain ⟨refreshing, refreshes, _⟩ := turn.frame
    refine .started (refreshing.trans busy) unclaimed ?_ (turn.passed passed)
    simp [refreshes, only]
  | clear stands =>
    right
    obtain ⟨rfl, _, unclaimed, only, passed⟩ := aloft.of_refresh stands
    refine ⟨?_, rfl, .none rfl unclaimed (by simp [only])⟩
    cases passed with
    | saved => exact .saved
    | fell => exact .fell
  | configured | invalidated | clock | tree =>
    left
    rw [stagesOf, Option.bind_none, Option.toList_none, List.append_nil]
    exact aloft.congr rfl rfl rfl

-- What the refreshes of a run have done is a number of whole refreshes and the stages of the one
-- that is under way, if there is one.
theorem Run.aloft {hosts : Host → Prop} {start : Pool} {passages : List Passage}
    {first : List Stage} (before : Aloft start first) (run : Run hosts start passages pool) :
    ∃ (flights : List (List Stage)) (stages : List Stage),
      first ++ refreshStages passages = flights.flatten ++ stages ∧
        (∀ flight ∈ flights, Flown flight) ∧ Aloft pool stages := by
  induction run with
  | start => exact ⟨[], first, by simp [refreshStages, events], by simp, before⟩
  | @step passages pool next host action _ _ executed ih =>
    obtain ⟨flights, stages, same, whole, aloft⟩ := ih
    have more := refreshStages_snoc passages ⟨host, pool, action⟩
    rcases (execute_step executed).aloft aloft with on | ⟨flown, _, landed⟩
    · refine ⟨flights, _, ?_, whole, on⟩
      rw [more, ← List.append_assoc, same, List.append_assoc]
      rfl
    · refine ⟨flights ++ [stages ++ stagesOf (pool.event? host action)], [], ?_, ?_, landed⟩
      · simp only [more, ← List.append_assoc, same, List.flatten_append, List.flatten_singleton,
          List.append_nil]
        rfl
      · intro flight among
        rcases List.mem_append.mp among with old | new
        · exact whole flight old
        · rw [List.mem_singleton.mp new]
          exact flown

theorem start_aloft (files : FileSystem) (now : Time.Timestamp) : Aloft (.start files now) [] :=
  .none rfl rfl rfl

def countedIn (event : Option Event) : Nat :=
  match event with
  | some (.ofCall .counted) => 1
  | some (.ofRefresh .counted) => 1
  | _ => 0

theorem Step.scans {action : Action} {event : Option Event}
    (step : Step host pool action event next) :
    next.state.scans = pool.state.scans + countedIn event := by
  cases step with
  | call stands turn => cases turn <;> rfl
  | refresh stands turn => cases turn <;> rfl
  | _ => rfl

theorem Run.scans {hosts : Host → Prop} {start : Pool} {passages : List Passage}
    (run : Run hosts start passages pool) :
    pool.state.scans = start.state.scans + (callStages passages).countP Stage.isCounted +
      (refreshStages passages).countP Stage.isCounted := by
  induction run with
  | start => rfl
  | @step passages pool next host action _ _ executed ih =>
    rw [(execute_step executed).scans, ih, callStages_append, refreshStages_append,
      List.countP_append, List.countP_append]
    have one : countedIn (pool.event? host action) =
        (callStages [⟨host, pool, action⟩]).countP Stage.isCounted +
          (refreshStages [⟨host, pool, action⟩]).countP Stage.isCounted := by
      simp only [callStages, refreshStages, events, List.filterMap_cons, List.filterMap_nil,
        Passage.event?]
      cases pool.event? host action with
      | none => rfl
      | some event => rcases event with stage | stage <;> cases stage <;> rfl
    omega

theorem Step.files_eq {action : Action} {event : Option Event}
    (step : Step host pool action event next)
    (refreshes : (∃ index, action = .refresh index) ∨ ∃ stage, event = some (.ofRefresh stage))
    (unsaved : ∀ roots outcome, event ≠ some (.ofRefresh (.saved roots outcome))) :
    next.state.files = pool.state.files := by
  cases step with
  | call stands turn =>
    cases turn with
    | save => simp at refreshes
    | _ => rfl
  | refresh stands turn =>
    cases turn with
    | @save roots outcome => exact absurd rfl (unsaved roots outcome)
    | _ => rfl
  | invalidated | tree => simp at refreshes
  | _ => rfl

theorem Flown.countP_flatten {flights : List (List Stage)}
    (whole : ∀ flight ∈ flights, Flown flight) :
    flights.flatten.countP Stage.isCounted = flights.length := by
  induction flights with
  | nil => rfl
  | cons flight rest ih =>
    have one : flight.countP Stage.isCounted = 1 := by
      cases whole flight (List.mem_cons_self ..) <;> rfl
    have others := ih fun other among => whole other (List.mem_cons_of_mem _ among)
    rw [List.flatten_cons, List.countP_append, one, others, List.length_cons, Nat.add_comm]

theorem Aloft.clear {roots : List Path}
    (aloft : Aloft pool [.claimed, .started roots, .counted, .fell]) (host : Host) :
    ∃ next, execute host pool (.refresh 0) = some next ∧ Aloft next [] ∧
      next.state.files = pool.state.files ∧ next.calls = pool.calls := by
  cases aloft with
  | started busy unclaimed only passed =>
    cases passed
    have executed : execute host pool (.refresh 0) =
        some { pool with state := { pool.state with refreshing := false, refreshes := [] } } := by
      simp [execute, State.stepRefresh, only, Refresh.step]
    exact ⟨_, executed, .none rfl unclaimed rfl, rfl, rfl⟩

theorem Aloft.claim (aloft : Aloft pool []) (host : Host) {index : Nat} {roots : List Path}
    {snapshot : Snapshot} {age : Time.Duration}
    (stands : pool.calls[index]? = some (.claiming roots snapshot age)) :
    ∃ claimed started, execute host pool (.call index) = some claimed ∧ Aloft claimed [.claimed] ∧
      execute host claimed (.call index) = some started ∧
      Aloft started [.claimed, .started roots] := by
  obtain ⟨free, _⟩ := aloft.idle
  obtain ⟨within, _⟩ := List.getElem?_eq_some_iff.mp stands
  have claimed : execute host pool (.call index) =
      some ⟨{ pool.state with refreshing := true },
        pool.calls.set index (.spawning roots snapshot age)⟩ := by
    simp [execute, stands, Call.step, free]
  have stays : (pool.calls.set index (.spawning roots snapshot age))[index]? =
      some (.spawning roots snapshot age) := by
    simp [within]
  have claims : Call.Turn host pool.state (.claiming roots snapshot age) _ _ _ := .claim free
  have first := claims.aloft aloft stands
  have spawns : Call.Turn host { pool.state with refreshing := true }
      (.spawning roots snapshot age) _ _ _ := .spawn
  refine ⟨_, _, claimed, first, ?_, spawns.aloft first stays⟩
  simp [execute, stays, Call.step]

def Passage.IsRefresh (passage : Passage) : Prop :=
  (∃ index, passage.action = .refresh index) ∨ ∃ stage, passage.event? = some (.ofRefresh stage)

structure FliesAlone (passages : List Passage) (pool : Pool) : Prop where
  single : pool.underway ≤ 1
  flag : pool.state.refreshing = true ↔ pool.underway = 1
  -- One whole refresh after another, then the one under way. Each counts one scan.
  flights : ∃ (flights : List (List Stage)) (stages : List Stage),
    refreshStages passages = flights.flatten ++ stages ∧ (∀ flight ∈ flights, Flown flight) ∧
      Aloft pool stages ∧
      pool.state.scans = (callStages passages).countP Stage.isCounted + flights.length +
        stages.countP Stage.isCounted ∧
      ∀ roots, stages = [.claimed, .started roots, .counted, .fell] → ∀ host,
        ∃ cleared, execute host pool (.refresh 0) = some cleared ∧ Aloft cleared [] ∧
          cleared.state.files = pool.state.files ∧ cleared.calls = pool.calls
  -- A whole refresh that fell has no save among its stages, so it has left the tree as it was.
  files : ∀ passage ∈ passages, passage.IsRefresh →
    (∀ roots outcome, passage.event? ≠ some (.ofRefresh (.saved roots outcome))) →
      ∀ next, execute passage.host passage.pool passage.action = some next →
        next.state.files = passage.pool.state.files
  -- Whoever finds an old snapshot next starts the next refresh, whatever became of the last one.
  next : pool.underway = 0 → ∀ host,
    (∀ paths snapshot, Matches host pool.state.files (rootsOf host pool.state paths) snapshot →
      (snapshot.age pool.state.now).lt host.settings.snapshotLife = false →
        (answer host pool.state .cached paths).1 = { pool.state with
          refreshing := true, refreshes := [.started (rootsOf host pool.state paths)] }) ∧
    ∀ index roots snapshot age, pool.calls[index]? = some (.claiming roots snapshot age) →
      ∃ claimed started, execute host pool (.call index) = some claimed ∧
        Aloft claimed [.claimed] ∧ execute host claimed (.call index) = some started ∧
        Aloft started [.claimed, .started roots]

theorem Aloft.eq_nil {stages : List Stage} (aloft : Aloft pool stages)
    (grounded : pool.underway = 0) : stages = [] := by
  have counted := aloft.underway_eq
  cases aloft with
  | none => rfl
  | claimed busy => simp [grounded, busy] at counted
  | started busy => simp [grounded, busy] at counted

-- Refreshes are single-flight, for any calls on an engine, any interleaving of their steps with
-- those of the refresh, and any scans, those that fall included.
theorem refreshes_fly_alone {hosts : Host → Prop} {files : FileSystem} {now : Time.Timestamp}
    {passages : List Passage} (run : Run hosts (.start files now) passages pool) :
    FliesAlone passages pool := by
  obtain ⟨flights, stages, same, whole, aloft⟩ := run.aloft (start_aloft files now)
  rw [List.nil_append] at same
  have underway := aloft.underway_eq
  refine { single := ?_, flag := ?_, flights := ?_, files := ?_, next := ?_ }
  · rw [underway]
    split <;> omega
  · rw [underway]
    split <;> simp_all
  · refine ⟨flights, stages, same, whole, aloft, ?_, ?_⟩
    · rw [run.scans, same, List.countP_append, Flown.countP_flatten whole]
      change 0 + _ + _ = _
      omega
    · intro roots fell host
      exact (fell ▸ aloft).clear host
  · intro passage _ refreshes unsaved next executed
    exact (execute_step executed).files_eq refreshes unsaved
  · intro grounded host
    obtain rfl := aloft.eq_nil grounded
    obtain ⟨free, _, unstarted⟩ := aloft.idle
    refine ⟨?_, fun _ _ _ _ stands => aloft.claim host stands⟩
    intro paths snapshot matching old
    simp [answer_old matching old, free, unstarted]

-- A snapshot that has become old, on a machine whose clock cannot count to the deadline of a scan:
-- there every refresh falls.
def fallingHost : Host :=
  Host.ofSettings ⟨none, none, none, 1, 0⟩
    ⟨0, ⟨Scan.lastTick + 1, 0⟩, 1, ⟨60, 0⟩, some (Path.ofString "/d/s"), []⟩ (fun _ _ => .failure)
    .promptly .promptly false

def oldSnapshot : Snapshot :=
  .take ⟨1700000000, 0⟩ [.ofPath (Path.ofString "/w/p") "" .epoch] sampleRoots

def oldFiles : FileSystem :=
  (Snapshot.save sampleState.files (Path.ofString "/d/s") oldSnapshot).1

def oldPool : Pool := .start oldFiles ⟨1700000100, 0⟩

def fallingActions : List Action :=
  .open .cached sampleRoots :: List.replicate 5 (.call 0) ++ List.replicate 2 (.refresh 0)

theorem refreshes_fly_alone_falling :
    ∃ passages pool, Run (· = fallingHost) oldPool passages pool ∧
      (refreshStages passages).length = 4 ∧ pool.underway = 1 ∧ FliesAlone passages pool := by
  have run : Run (· = fallingHost) oldPool (follow fallingHost fallingActions oldPool).1
      (follow fallingHost fallingActions oldPool).2 := by
    apply follow_run
    rfl
  have alone := refreshes_fly_alone run
  refine ⟨_, _, run, by decide +kernel, alone.flag.mp (by decide +kernel), alone⟩

end RepoFinder.Discovery
