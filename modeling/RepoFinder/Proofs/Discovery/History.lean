import RepoFinder.Discovery.Machine
import RepoFinder.Proofs.Discovery.Calls

namespace RepoFinder.Discovery

inductive Stage where
  | claimed
  | started (roots : List Path)
  | counted
  | scanned (roots : List Path) (outcome : Scan.Outcome)
  | fell
  | saved (roots : List Path) (outcome : Scan.Outcome)
  | cleared

inductive Event where
  | ofCall (stage : Stage)
  | ofRefresh (stage : Stage)

namespace Event

def call? : Event → Option Stage
  | ofCall stage => some stage
  | ofRefresh _ => none

def refresh? : Event → Option Stage
  | ofCall _ => none
  | ofRefresh stage => some stage

end Event

def Stage.isCounted : Stage → Bool
  | .counted => true
  | _ => false

def deliveredOf (marks : List Path.Key) (result : Scan.Result) : List Repository :=
  result.kept.map fun kept => kept.1.mark marks

namespace Call

def event? (host : Host) (state : State) : Call → Option Event
  | claiming .. => if state.refreshing then none else some (.ofRefresh .claimed)
  | spawning roots .. => some (.ofRefresh (.started roots))
  | counting .. => some (.ofCall .counted)
  | scanning demand roots _ =>
    match (host.scan state.files roots (sinkOf demand)).outcome with
    | .error _ => some (.ofCall .fell)
    | .ok outcome =>
      if outcome.stop = .cancelled then none else some (.ofCall (.scanned roots outcome))
  | saving _ roots outcome _ => some (.ofCall (.saved roots outcome))
  | _ => none

-- What a call can do with its turn: the event, the state and the call that follow.
inductive Turn (host : Host) (state : State) : Call → Option Event → State → Call → Prop where
  | ask {paths : List Path} :
      Turn host state (.begun .cached paths) none state (.looking (rootsOf host state paths))
  | demand {demand : Demand} {paths : List Path} (scans : demand ≠ .cached) :
      Turn host state (.begun demand paths) none state
        (.counting demand (rootsOf host state paths) state.configured)
  | miss {roots : List Path} (missing : ¬∃ snapshot, Matches host state.files roots snapshot) :
      Turn host state (.looking roots) none state (.counting .cached roots state.configured)
  | hit {roots : List Path} {snapshot : Snapshot}
      (matching : Matches host state.files roots snapshot) :
      Turn host state (.looking roots) none state (.dating roots snapshot)
  | serveYoung {roots : List Path} {snapshot : Snapshot}
      (young : (snapshot.age state.now).lt host.settings.snapshotLife = true) :
      Turn host state (.dating roots snapshot) none state
        (.done (serve state roots snapshot (snapshot.age state.now) state.refreshing))
  | findOld {roots : List Path} {snapshot : Snapshot}
      (old : (snapshot.age state.now).lt host.settings.snapshotLife = false) :
      Turn host state (.dating roots snapshot) none state
        (.claiming roots snapshot (snapshot.age state.now))
  | serveBusy {roots : List Path} {snapshot : Snapshot} {age : Time.Duration}
      (busy : state.refreshing = true) :
      Turn host state (.claiming roots snapshot age) none state
        (.done (serve state roots snapshot age true))
  | claim {roots : List Path} {snapshot : Snapshot} {age : Time.Duration}
      (free : state.refreshing = false) :
      Turn host state (.claiming roots snapshot age) (some (.ofRefresh .claimed))
        { state with refreshing := true } (.spawning roots snapshot age)
  | spawn {roots : List Path} {snapshot : Snapshot} {age : Time.Duration} :
      Turn host state (.spawning roots snapshot age) (some (.ofRefresh (.started roots)))
        { state with refreshes := state.refreshes ++ [.started roots] }
        (.done (serve state roots snapshot age true))
  | count {demand : Demand} {roots : List Path} {marks : List Path.Key} :
      Turn host state (.counting demand roots marks) (some (.ofCall .counted)) state.countScan
        (.scanning demand roots marks)
  | fall {demand : Demand} {roots : List Path} {marks : List Path.Key} {fault : Scan.Fault}
      (fell : (host.scan state.files roots (sinkOf demand)).outcome = .error fault) :
      Turn host state (.scanning demand roots marks) (some (.ofCall .fell)) state
        (.done (.fell (deliveredOf marks (host.scan state.files roots (sinkOf demand))) fault))
  | cancel {demand : Demand} {roots : List Path} {marks : List Path.Key} {outcome : Scan.Outcome}
      (scanned : (host.scan state.files roots (sinkOf demand)).outcome = .ok outcome)
      (cancelled : outcome.stop = .cancelled) :
      Turn host state (.scanning demand roots marks) none state
        (.done (.cancelled (deliveredOf marks (host.scan state.files roots (sinkOf demand)))))
  | scan {demand : Demand} {roots : List Path} {marks : List Path.Key} {outcome : Scan.Outcome}
      (scanned : (host.scan state.files roots (sinkOf demand)).outcome = .ok outcome)
      (uncancelled : outcome.stop ≠ .cancelled) :
      Turn host state (.scanning demand roots marks) (some (.ofCall (.scanned roots outcome))) state
        (.saving demand roots outcome
          (deliveredOf marks (host.scan state.files roots (sinkOf demand))))
  | save {demand : Demand} {roots : List Path} {outcome : Scan.Outcome}
      {delivered : List Repository} :
      Turn host state (.saving demand roots outcome delivered)
        (some (.ofCall (.saved roots outcome)))
        (state.persist host outcome.repositories roots)
        (.concluding demand roots outcome delivered)
  | conclude {demand : Demand} {roots : List Path} {outcome : Scan.Outcome}
      {delivered : List Repository} :
      Turn host state (.concluding demand roots outcome delivered) none state
        (.done (conclude state demand roots outcome delivered))
  | rest {reply : Reply} : Turn host state (.done reply) none state (.done reply)

-- The only place where the step of a call is opened. What later proofs know of it is a Turn.
theorem step_turn {host : Host} {state next : State} {call after : Call}
    (stepped : call.step host state = (next, after)) :
    Turn host state call (call.event? host state) next after := by
  cases call with
  | begun demand paths =>
    cases demand with
    | cached =>
      cases stepped
      exact .ask
    | fresh | streaming =>
      cases stepped
      exact .demand (by simp)
  | looking roots =>
    simp only [step] at stepped
    cases found : state.snapshotFor? host roots with
    | none =>
      rw [found] at stepped
      cases stepped
      exact .miss (snapshotFor?_eq_none.mp found)
    | some snapshot =>
      rw [found] at stepped
      cases stepped
      exact .hit (snapshotFor?_iff.mp found)
  | dating roots snapshot =>
    simp only [step] at stepped
    split at stepped
    · rename_i young
      cases stepped
      exact .serveYoung young
    · rename_i old
      cases stepped
      exact .findOld (by simpa using old)
  | claiming roots snapshot age =>
    cases busy : state.refreshing with
    | true =>
      simp only [step, busy, if_true] at stepped
      cases stepped
      simpa only [event?, busy, if_true] using Turn.serveBusy busy
    | false =>
      simp only [step, busy, Bool.false_eq_true, if_false] at stepped
      cases stepped
      simpa only [event?, busy, Bool.false_eq_true, if_false] using Turn.claim busy
  | spawning roots snapshot age =>
    cases stepped
    exact .spawn
  | counting demand roots marks =>
    cases stepped
    exact .count
  | scanning demand roots marks =>
    simp only [step, afterScan] at stepped
    cases scanned : (host.scan state.files roots (sinkOf demand)).outcome with
    | error fault =>
      simp only [scanned] at stepped
      cases stepped
      simpa only [event?, scanned, deliveredOf] using Turn.fall scanned
    | ok outcome =>
      by_cases cancelled : outcome.stop = .cancelled
      · simp only [scanned, cancelled, if_true] at stepped
        cases stepped
        simpa only [event?, scanned, cancelled, if_true, deliveredOf]
          using Turn.cancel scanned cancelled
      · simp only [scanned, cancelled, if_false] at stepped
        cases stepped
        simpa only [event?, scanned, cancelled, if_false, deliveredOf]
          using Turn.scan scanned cancelled
  | saving demand roots outcome delivered =>
    cases stepped
    exact .save
  | concluding demand roots outcome delivered =>
    cases stepped
    exact .conclude
  | done reply =>
    cases stepped
    exact .rest

end Call

namespace Refresh

def event? (host : Host) (state : State) : Refresh → Option Event
  | started _ => some (.ofRefresh .counted)
  | counted roots =>
    match host.launch roots with
    | .error _ => some (.ofRefresh .fell)
    | .ok _ => none
  | scanning roots course =>
    match (host.proceed state.files roots.length course).ending? with
    | none => none
    | some (.error _) => some (.ofRefresh .fell)
    | some (.ok outcome) => some (.ofRefresh (.scanned roots outcome))
  | scanned roots outcome => some (.ofRefresh (.saved roots outcome))
  | ending => some (.ofRefresh .cleared)

inductive Turn (host : Host) (state : State) : Refresh → Option Event → State → Refresh → Prop where
  | count {roots : List Path} :
      Turn host state (.started roots) (some (.ofRefresh .counted)) state.countScan (.counted roots)
  | refuse {roots : List Path} {fault : Scan.Fault} (refused : host.launch roots = .error fault) :
      Turn host state (.counted roots) (some (.ofRefresh .fell)) state .ending
  | launch {roots : List Path} {course : Scan.Course} (launched : host.launch roots = .ok course) :
      Turn host state (.counted roots) none state (.scanning roots course)
  | goOn {roots : List Path} {course : Scan.Course}
      (unended : (host.proceed state.files roots.length course).ending? = none) :
      Turn host state (.scanning roots course) none state
        (.scanning roots (host.proceed state.files roots.length course))
  | fall {roots : List Path} {course : Scan.Course} {fault : Scan.Fault}
      (ended : (host.proceed state.files roots.length course).ending? = some (.error fault)) :
      Turn host state (.scanning roots course) (some (.ofRefresh .fell)) state .ending
  | finish {roots : List Path} {course : Scan.Course} {outcome : Scan.Outcome}
      (ended : (host.proceed state.files roots.length course).ending? = some (.ok outcome)) :
      Turn host state (.scanning roots course) (some (.ofRefresh (.scanned roots outcome))) state
        (.scanned roots outcome)
  | save {roots : List Path} {outcome : Scan.Outcome} :
      Turn host state (.scanned roots outcome) (some (.ofRefresh (.saved roots outcome)))
        (state.persist host outcome.repositories roots) .ending

theorem step_turn {host : Host} {state next : State} {refresh after : Refresh}
    (stepped : refresh.step host state = (next, some after)) :
    Turn host state refresh (refresh.event? host state) next after := by
  cases refresh with
  | started roots =>
    cases stepped
    exact .count
  | counted roots =>
    cases launched : host.launch roots with
    | error fault =>
      simp only [step, launched] at stepped
      cases stepped
      simpa only [event?, launched] using Turn.refuse launched
    | ok course =>
      simp only [step, launched] at stepped
      cases stepped
      simpa only [event?, launched] using Turn.launch launched
  | scanning roots course =>
    simp only [step] at stepped
    split at stepped
    · rename_i unended
      cases stepped
      simpa only [event?, unended] using Turn.goOn unended
    · rename_i ended
      cases stepped
      simpa only [event?, ended] using Turn.fall ended
    · rename_i ended
      cases stepped
      simpa only [event?, ended] using Turn.finish ended
  | scanned roots outcome =>
    cases stepped
    exact .save
  | ending => cases stepped

theorem step_last {host : Host} {state next : State} {refresh : Refresh}
    (stepped : refresh.step host state = (next, none)) :
    refresh = .ending ∧ next = { state with refreshing := false } := by
  cases refresh with
  | ending =>
    cases stepped
    exact ⟨rfl, rfl⟩
  | counted roots =>
    simp only [step] at stepped
    split at stepped <;> cases stepped
  | scanning roots course =>
    simp only [step] at stepped
    split at stepped <;> cases stepped
  | started | scanned => cases stepped

end Refresh

theorem Refresh.Turn.frame {host : Host} {state next : State} {refresh after : Refresh}
    {event : Option Event} (turn : Refresh.Turn host state refresh event next after) :
    next.refreshing = state.refreshing ∧ next.refreshes = state.refreshes ∧
      next.now = state.now ∧ next.configured = state.configured := by
  cases turn <;> exact ⟨rfl, rfl, rfl, rfl⟩

namespace Pool

def event? (host : Host) (pool : Pool) : Action → Option Event
  | .call index => pool.calls[index]?.bind (Call.event? host pool.state)
  | .refresh index => pool.state.refreshes[index]?.bind (Refresh.event? host pool.state)
  | _ => none

def start (files : FileSystem) (now : Time.Timestamp) : Pool := ⟨.start files now, []⟩

end Pool

variable {host : Host} {pool next : Pool}

inductive Step (host : Host) (pool : Pool) : Action → Option Event → Pool → Prop where
  | opened {demand : Demand} {paths : List Path} :
      Step host pool (.open demand paths) none
        { pool with calls := pool.calls ++ [.begun demand paths] }
  | call {index : Nat} {call after : Call} {event : Option Event} {next : State}
      (stands : pool.calls[index]? = some call)
      (turn : Call.Turn host pool.state call event next after) :
      Step host pool (.call index) event ⟨next, pool.calls.set index after⟩
  | refresh {index : Nat} {refresh after : Refresh} {event : Option Event} {next : State}
      (stands : pool.state.refreshes[index]? = some refresh)
      (turn : Refresh.Turn host pool.state refresh event next after) :
      Step host pool (.refresh index) event
        { pool with state := { next with refreshes := next.refreshes.set index after } }
  | clear {index : Nat} (stands : pool.state.refreshes[index]? = some .ending) :
      Step host pool (.refresh index) (some (.ofRefresh .cleared))
        { pool with
          state := { pool.state with
            refreshing := false, refreshes := pool.state.refreshes.eraseIdx index } }
  | configured {choices : Marks.Choices} :
      Step host pool (.configure choices) none { pool with state := pool.state.configure choices }
  | invalidated :
      Step host pool .invalidate none { pool with state := (pool.state.invalidate host).1 }
  | clock {now : Time.Timestamp} :
      Step host pool (.setClock now) none { pool with state := { pool.state with now } }
  | tree {files : FileSystem} :
      Step host pool (.setFiles files) none { pool with state := { pool.state with files } }

theorem execute_step {action : Action} (executed : execute host pool action = some next) :
    Step host pool action (pool.event? host action) next := by
  cases action with
  | «open» demand paths =>
    cases executed
    exact .opened
  | call index =>
    simp only [execute] at executed
    split at executed
    · cases executed
    · rename_i call stands
      rcases stepped : call.step host pool.state with ⟨state, after⟩
      simp only [stepped, Option.some.injEq] at executed
      simp only [Pool.event?, stands, Option.bind_some]
      rw [← executed]
      exact .call stands (Call.step_turn stepped)
  | refresh index =>
    obtain ⟨state, stepped, rfl⟩ := Option.map_eq_some_iff.mp executed
    unfold State.stepRefresh at stepped
    split at stepped
    · cases stepped
    · rename_i refresh stands
      simp only [Pool.event?, stands, Option.bind_some]
      split at stepped
      · rename_i turned
        obtain rfl := Option.some.inj stepped
        exact .refresh stands (Refresh.step_turn turned)
      · rename_i turned
        obtain rfl := Option.some.inj stepped
        obtain ⟨rfl, rfl⟩ := Refresh.step_last turned
        exact .clear stands
  | configure choices =>
    cases executed
    exact .configured
  | invalidate =>
    cases executed
    exact .invalidated
  | setClock now =>
    cases executed
    exact .clock
  | setFiles files =>
    cases executed
    exact .tree

structure Passage where
  host : Host
  pool : Pool
  action : Action

def Passage.event? (passage : Passage) : Option Event :=
  passage.pool.event? passage.host passage.action

-- A run on an engine, the earliest passage first. Each step may have a host of its own, so that a
-- scan of one call may be cancelled, late or scheduled in another way than that of the next.
inductive Run (hosts : Host → Prop) (start : Pool) : List Passage → Pool → Prop where
  | start : Run hosts start [] start
  | step {passages : List Passage} {pool next : Pool} (host : Host) (action : Action)
      (before : Run hosts start passages pool) (allowed : hosts host)
      (executed : execute host pool action = some next) :
      Run hosts start (passages ++ [⟨host, pool, action⟩]) next

def events (passages : List Passage) : List Event := passages.filterMap Passage.event?

def refreshStages (passages : List Passage) : List Stage :=
  (events passages).filterMap Event.refresh?

def callStages (passages : List Passage) : List Stage :=
  (events passages).filterMap Event.call?

theorem refreshStages_append (earlier later : List Passage) :
    refreshStages (earlier ++ later) = refreshStages earlier ++ refreshStages later := by
  simp [refreshStages, events]

theorem callStages_append (earlier later : List Passage) :
    callStages (earlier ++ later) = callStages earlier ++ callStages later := by
  simp [callStages, events]

def stagesOf (event : Option Event) : List Stage := (event.bind Event.refresh?).toList

theorem refreshStages_snoc (passages : List Passage) (passage : Passage) :
    refreshStages (passages ++ [passage]) = refreshStages passages ++ stagesOf passage.event? := by
  rw [refreshStages_append]
  cases happened : passage.event? with
  | none => simp [refreshStages, events, happened, stagesOf]
  | some event => cases event <;> simp [refreshStages, events, happened, stagesOf, Event.refresh?]

theorem Run.append {hosts : Host → Prop} {start : Pool} {earlier later : List Passage}
    (before : Run hosts start earlier pool) (after : Run hosts pool later next) :
    Run hosts start (earlier ++ later) next := by
  induction after with
  | start => simpa using before
  | step host action _ allowed executed ih =>
    simpa only [List.append_assoc] using ih.step host action allowed executed

theorem Run.split {hosts : Host → Prop} {start : Pool} {passages earlier later : List Passage}
    {passage : Passage} (run : Run hosts start passages next)
    (cut : passages = earlier ++ passage :: later) :
    Run hosts start earlier passage.pool ∧ hosts passage.host ∧
      ∃ after, execute passage.host passage.pool passage.action = some after ∧
        Run hosts after later next := by
  induction run generalizing later with
  | start => simp at cut
  | @step passages pool next host action before allowed executed ih =>
    rcases List.eq_nil_or_concat later with rfl | ⟨more, last, rfl⟩
    · obtain ⟨rfl, same⟩ := List.append_inj' (cut : passages ++ [_] = earlier ++ [passage]) rfl
      obtain rfl := List.singleton_inj.mp same
      exact ⟨before, allowed, next, executed, .start⟩
    · have shape : passages ++ [⟨host, pool, action⟩] = (earlier ++ passage :: more) ++ [last] := by
        simpa using cut
      obtain ⟨within, same⟩ := List.append_inj' shape rfl
      obtain rfl := List.singleton_inj.mp same
      obtain ⟨run, allowedThere, after, first, rest⟩ := ih within
      exact ⟨run, allowedThere, after, first, by simpa using rest.step host action allowed executed⟩

def follow (host : Host) : List Action → Pool → List Passage × Pool
  | [], pool => ([], pool)
  | action :: rest, pool =>
    match execute host pool action with
    | none => ([], pool)
    | some next => (⟨host, pool, action⟩ :: (follow host rest next).1, (follow host rest next).2)

theorem follow_run {hosts : Host → Prop} (allowed : hosts host) (actions : List Action)
    (pool : Pool) : Run hosts pool (follow host actions pool).1 (follow host actions pool).2 := by
  induction actions generalizing pool with
  | nil => exact .start
  | cons action rest ih =>
    unfold follow
    split
    · exact .start
    · rename_i next executed
      exact (Run.start.step host action allowed executed).append (ih next)

end RepoFinder.Discovery
