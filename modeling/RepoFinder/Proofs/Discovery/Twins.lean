import RepoFinder.Proofs.Discovery.Marking
import RepoFinder.Proofs.Discovery.Streaming

namespace RepoFinder.Discovery

structure Abreast {α β : Type} (rel : Nat → α → β → Prop) (items : List α) (others : List β) :
    Prop where
  length : others.length = items.length
  each : ∀ {index : Nat} {item : α} {other : β}, items[index]? = some item →
    others[index]? = some other → rel index item other

namespace Abreast

variable {α β : Type} {rel : Nat → α → β → Prop} {items : List α} {others : List β} {index : Nat}
  {item : α} {other : β}

theorem refl {rel : Nat → α → α → Prop} (same : ∀ index item, rel index item item)
    (items : List α) : Abreast rel items items where
  length := rfl
  each stands also := by
    obtain rfl := Option.some.inj (stands.symm.trans also)
    exact same _ _

theorem append (abreast : Abreast rel items others) (last : rel items.length item other) :
    Abreast rel (items ++ [item]) (others ++ [other]) where
  length := by simp [abreast.length]
  each {index} _ _ stands also := by
    rw [List.getElem?_append] at stands also
    rw [abreast.length] at also
    by_cases within : index < items.length
    · rw [if_pos within] at stands also
      exact abreast.each stands also
    · rw [if_neg within, List.getElem?_singleton] at stands also
      split at stands
      · rename_i zero
        rw [if_pos zero] at also
        cases stands
        cases also
        have ending : index = items.length := by omega
        exact ending ▸ last
      · cases stands

theorem set (abreast : Abreast rel items others) (new : rel index item other) :
    Abreast rel (items.set index item) (others.set index other) where
  length := by simp [abreast.length]
  each {place} _ _ stands also := by
    rw [List.getElem?_set] at stands also
    rw [abreast.length] at also
    by_cases same : index = place
    · subst same
      rw [if_pos rfl] at stands also
      split at stands
      · rename_i within
        rw [if_pos within] at also
        cases stands
        cases also
        exact new
      · cases stands
    · rw [if_neg same] at stands also
      exact abreast.each stands also

theorem eraseIdx {rel : α → β → Prop} (abreast : Abreast (fun _ => rel) items others)
    (index : Nat) : Abreast (fun _ => rel) (items.eraseIdx index) (others.eraseIdx index) where
  length := by simp [List.length_eraseIdx, abreast.length]
  each stands also := by
    rw [List.getElem?_eraseIdx] at stands also
    split at stands
    · rename_i before
      rw [if_pos before] at also
      exact abreast.each stands also
    · rename_i behind
      rw [if_neg behind] at also
      exact abreast.each stands also

end Abreast

variable {engine : Engine} {host host' : Host} {state state' next next' : State}
  {pool pool' after after' : Pool} {received : Prop} {call call' later later' : Call}
  {refresh refresh' ahead ahead' : Refresh} {event event' : Option Event} {demand : Demand}
  {roots : List Path} {delivered taken : List Repository}

def Heard (received : Prop) (demand : Demand) (delivered taken : List Repository) : Prop :=
  received → ∀ sink, demand = .streaming sink →
    (delivered.map Repository.unmark).Perm (taken.map Repository.unmark)

theorem Heard.refl (received : Prop) (demand : Demand) (delivered : List Repository) :
    Heard received demand delivered delivered := fun _ _ _ => .refl _

def Answer.unmark (answer : Answer) : Answer :=
  { answer with repositories := answer.repositories.map Repository.unmark }

inductive Reply.Alike (received : Prop) : Reply → Reply → Prop where
  | found {answer other : Answer} (same : answer.unmark = other.unmark) :
      Alike received (.found answer) (.found other)
  | streamed {sink : Scan.Sink} {delivered taken : List Repository} {stats : Scan.Stats}
      (heard : Heard received (.streaming sink) delivered taken) :
      Alike received (.streamed delivered stats) (.streamed taken stats)
  | same {reply : Reply} : Alike received reply reply

inductive Call.Alike (received : Prop) : Call → Call → Prop where
  | begun {demand : Demand} {paths : List Path} :
      Alike received (.begun demand paths) (.begun demand paths)
  | looking {roots : List Path} : Alike received (.looking roots) (.looking roots)
  | dating {roots : List Path} {snapshot : Snapshot} :
      Alike received (.dating roots snapshot) (.dating roots snapshot)
  | claiming {roots : List Path} {snapshot : Snapshot} {age : Time.Duration} :
      Alike received (.claiming roots snapshot age) (.claiming roots snapshot age)
  | spawning {roots : List Path} {snapshot : Snapshot} {age : Time.Duration} :
      Alike received (.spawning roots snapshot age) (.spawning roots snapshot age)
  | counting {demand : Demand} {roots : List Path} {marks others : List Path.Key} :
      Alike received (.counting demand roots marks) (.counting demand roots others)
  | scanning {demand : Demand} {roots : List Path} {marks others : List Path.Key} :
      Alike received (.scanning demand roots marks) (.scanning demand roots others)
  | saving {demand : Demand} {roots : List Path} {outcome : Scan.Outcome}
      {delivered taken : List Repository} (heard : Heard received demand delivered taken) :
      Alike received (.saving demand roots outcome delivered) (.saving demand roots outcome taken)
  | concluding {demand : Demand} {roots : List Path} {outcome : Scan.Outcome}
      {delivered taken : List Repository} (heard : Heard received demand delivered taken) :
      Alike received (.concluding demand roots outcome delivered)
        (.concluding demand roots outcome taken)
  | done {reply other : Reply} (alike : Reply.Alike received reply other) :
      Alike received (.done reply) (.done other)

inductive Refresh.Alike : Refresh → Refresh → Prop where
  | started {roots : List Path} : Alike (.started roots) (.started roots)
  | counted {roots : List Path} : Alike (.counted roots) (.counted roots)
  | scanning {roots : List Path} {course other : Scan.Course} :
      Alike (.scanning roots course) (.scanning roots other)
  | scanned {roots : List Path} {outcome : Scan.Outcome} :
      Alike (.scanned roots outcome) (.scanned roots outcome)
  | ending : Alike .ending .ending

structure State.Alike (state other : State) : Prop where
  files : other.files = state.files
  now : other.now = state.now
  refreshing : other.refreshing = state.refreshing
  scans : other.scans = state.scans
  refreshes : Abreast (fun _ => Refresh.Alike) state.refreshes other.refreshes

structure Pool.Alike (received : Nat → Prop) (pool other : Pool) : Prop where
  state : pool.state.Alike other.state
  calls : Abreast (fun index => Call.Alike (received index)) pool.calls other.calls

theorem Call.Alike.refl (call : Call) : Call.Alike received call call := by
  cases call with
  | begun => exact .begun
  | looking => exact .looking
  | dating => exact .dating
  | claiming => exact .claiming
  | spawning => exact .spawning
  | counting => exact .counting
  | scanning => exact .scanning
  | saving => exact .saving (.refl _ _ _)
  | concluding => exact .concluding (.refl _ _ _)
  | done => exact .done .same

theorem Refresh.Alike.refl (refresh : Refresh) : refresh.Alike refresh := by
  cases refresh with
  | started => exact .started
  | counted => exact .counted
  | scanning => exact .scanning
  | scanned => exact .scanned
  | ending => exact .ending

theorem Pool.Alike.refl (received : Nat → Prop) (pool : Pool) : pool.Alike received pool where
  state := ⟨rfl, rfl, rfl, rfl, .refl (fun _ => .refl) _⟩
  calls := .refl (fun _ => .refl) _

theorem unmark_map (marks others : List Path.Key) (repositories : List Repository) :
    (repositories.map (Repository.mark marks)).map Repository.unmark =
      (repositories.map (Repository.mark others)).map Repository.unmark := by
  simp only [List.map_map]
  rfl

theorem serve_alike (state state' : State) (roots : List Path) (snapshot : Snapshot)
    (age : Time.Duration) (refreshing : Bool) :
    Reply.Alike received (Call.serve state roots snapshot age refreshing)
      (Call.serve state' roots snapshot age refreshing) := by
  apply Reply.Alike.found
  simp only [Answer.unmark, Answer.ofSnapshot, State.overlay, List.length_map]
  rw [unmark_map]

theorem conclude_alike (states : state.Alike state') {outcome : Scan.Outcome}
    (heard : Heard received demand delivered taken) :
    Reply.Alike received (Call.conclude state demand roots outcome delivered)
      (Call.conclude state' demand roots outcome taken) := by
  cases demand with
  | streaming => exact .streamed heard
  | cached | fresh =>
    apply Reply.Alike.found
    simp only [Answer.unmark, Answer.ofScan, State.overlay, List.length_map, states.refreshing]
    rw [unmark_map]

theorem State.Alike.persist (alike : state.Alike state') (serves : host.Serves engine)
    (also : host'.Serves engine) (repositories : List Repository) (roots : List Path) :
    (state.persist host repositories roots).Alike (state'.persist host' repositories roots) where
  files := by
    simp only [State.persist]
    rw [alike.files, alike.now, serves.file, also.file]
  now := alike.now
  refreshing := alike.refreshing
  scans := alike.scans
  refreshes := alike.refreshes

theorem Matches.congr {roots : List Path} {snapshot : Snapshot} (alike : state.Alike state')
    (serves : host.Serves engine) (also : host'.Serves engine) :
    Matches host' state'.files roots snapshot ↔ Matches host state.files roots snapshot := by
  rw [alike.files]
  constructor
  all_goals
    rintro ⟨loaded, current, keys⟩
    refine ⟨?_, current, keys⟩
  · rw [serves.file, ← also.file]
    exact loaded
  · rw [also.file, ← serves.file]
    exact loaded

-- A call's scan leaves nothing out. Where a stream counts as received, it goes through a channel
-- whose reader stays until the scan has ended.
def Call.RunsOut (engine : Engine) (received : Prop) (host : Host) (files : FileSystem) :
    Call → Prop
  | scanning demand roots _ => ∃ events ended,
      RanWhole engine host files roots (sinkOf demand) events ended ∧
      Scan.KeysApart (engine.scene (sinkOf demand) files) roots ∧
      (received → ∀ sink, demand = .streaming sink →
        (∃ room, sink = .channel room) ∧ ended.reader.gone = false)
  | _ => True

def Refresh.RunsOut (engine : Engine) (host : Host) (files : FileSystem) : Refresh → Prop
  | counted roots => ∃ course, host.launch roots = .ok course
  | scanning roots course => ∀ ending,
      (host.proceed files roots.length course).ending? = some ending →
        Scan.KeysApart (engine.scene .absent files) roots ∧
        ∃ workers capacity events ended, ending = .ok (ended.outcome .idle) ∧
          Scan.Exhaustive (engine.scene .absent files) roots workers capacity events ended
  | _ => True

theorem heard_of_runsOut {files files' : FileSystem} {marks others : List Path.Key}
    (tree : files' = files)
    (whole : (Call.scanning demand roots marks).RunsOut engine received host files)
    (whole' : (Call.scanning demand roots others).RunsOut engine received host' files') :
    ∃ outcome, (host.scan files roots (Call.sinkOf demand)).outcome = .ok outcome ∧
      (host'.scan files' roots (Call.sinkOf demand)).outcome = .ok outcome ∧
      outcome.stop ≠ .cancelled ∧
      Heard received demand (deliveredOf marks (host.scan files roots (Call.sinkOf demand)))
        (deliveredOf others (host'.scan files' roots (Call.sinkOf demand))) := by
  subst tree
  obtain ⟨_, ended, ran, apart, listens⟩ := whole
  obtain ⟨_, ended', ran', _, listens'⟩ := whole'
  have same : ended.outcome .idle = ended'.outcome .idle :=
    ran.exhaustive.outcome_eq ran'.exhaustive apart
  refine ⟨ended.outcome .idle, by rw [ran.scanned], by rw [ran'.scanned, same], ?_, ?_⟩
  · simp [Scan.State.outcome]
  intro both sink streams
  obtain ⟨⟨room, channel⟩, stays⟩ := listens both sink streams
  obtain ⟨_, stays'⟩ := listens' both sink streams
  subst streams channel
  have one := ran.exhaustive.kept_perm rfl stays
  have two := ran'.exhaustive.kept_perm rfl stays'
  rw [deliveredOf_ran ran.toRan, deliveredOf_ran ran'.toRan, unmark_map marks others]
  rw [← same] at two
  exact ((one.trans two.symm).map _).map _

theorem Call.Turn.alike (serves : host.Serves engine) (also : host'.Serves engine)
    (states : state.Alike state') (calls : call.Alike received call')
    (whole : call.RunsOut engine received host state.files)
    (whole' : call'.RunsOut engine received host' state'.files)
    (turn : Call.Turn host state call event next later)
    (turn' : Call.Turn host' state' call' event' next' later') :
    next.Alike next' ∧ Call.Alike received later later' := by
  have settings : host'.settings = host.settings := also.settings.trans serves.settings.symm
  have rooted (paths : List Path) : rootsOf host' state' paths = rootsOf host state paths := by
    unfold rootsOf
    rw [settings, states.files, serves.home, also.home]
  cases calls with
  | begun =>
    cases turn with
    | ask =>
      cases turn' with
      | ask =>
        rw [rooted]
        exact ⟨states, .looking⟩
      | demand scans => exact absurd rfl scans
    | demand scans =>
      cases turn' with
      | ask => exact absurd rfl scans
      | demand =>
        rw [rooted]
        exact ⟨states, .counting⟩
  | looking =>
    cases turn with
    | miss missing =>
      cases turn' with
      | miss => exact ⟨states, .counting⟩
      | hit matching => exact absurd ⟨_, (Matches.congr states serves also).mp matching⟩ missing
    | hit matching =>
      cases turn' with
      | miss missing =>
        exact absurd ⟨_, (Matches.congr states serves also).mpr matching⟩ missing
      | hit matching' =>
        have same := ((Matches.congr states serves also).mp matching').loaded
        obtain rfl := Option.some.inj (matching.loaded.symm.trans same)
        exact ⟨states, .dating⟩
  | dating =>
    cases turn with
    | serveYoung young =>
      cases turn' with
      | serveYoung =>
        rw [states.now, states.refreshing]
        exact ⟨states, .done (serve_alike ..)⟩
      | findOld old =>
        rw [states.now, settings, young] at old
        cases old
    | findOld old =>
      cases turn' with
      | serveYoung young =>
        rw [states.now, settings, old] at young
        cases young
      | findOld =>
        rw [states.now]
        exact ⟨states, .claiming⟩
  | claiming =>
    cases turn with
    | serveBusy busy =>
      cases turn' with
      | serveBusy => exact ⟨states, .done (serve_alike ..)⟩
      | claim free =>
        rw [states.refreshing, busy] at free
        cases free
    | claim free =>
      cases turn' with
      | serveBusy busy =>
        rw [states.refreshing, free] at busy
        cases busy
      | claim => exact ⟨{ states with refreshing := rfl }, .spawning⟩
  | spawning =>
    cases turn
    cases turn'
    exact ⟨{ states with refreshes := states.refreshes.append .started }, .done (serve_alike ..)⟩
  | counting =>
    cases turn
    cases turn'
    exact ⟨{ states with scans := congrArg (· + 1) states.scans }, .scanning⟩
  | scanning =>
    obtain ⟨outcome, found, found', uncancelled, heard⟩ :=
      heard_of_runsOut states.files whole whole'
    cases turn with
    | fall fell => cases fell.symm.trans found
    | cancel scanned cancelled =>
      obtain rfl := Except.ok.inj (scanned.symm.trans found)
      exact absurd cancelled uncancelled
    | scan scanned =>
      obtain rfl := Except.ok.inj (scanned.symm.trans found)
      cases turn' with
      | fall fell => cases fell.symm.trans found'
      | cancel scanned' cancelled =>
        obtain rfl := Except.ok.inj (scanned'.symm.trans found')
        exact absurd cancelled uncancelled
      | scan scanned' =>
        obtain rfl := Except.ok.inj (scanned'.symm.trans found')
        exact ⟨states, .saving heard⟩
  | saving heard =>
    cases turn
    cases turn'
    exact ⟨states.persist serves also _ _, .concluding heard⟩
  | concluding heard =>
    cases turn
    cases turn'
    exact ⟨states, .done (conclude_alike states heard)⟩
  | done alike =>
    cases turn
    cases turn'
    exact ⟨states, .done alike⟩

theorem Refresh.Turn.alike (serves : host.Serves engine) (also : host'.Serves engine)
    (states : state.Alike state') (refreshes : refresh.Alike refresh')
    (whole : refresh.RunsOut engine host state.files)
    (whole' : refresh'.RunsOut engine host' state'.files) (inStep : event.isSome = event'.isSome)
    (turn : Refresh.Turn host state refresh event next ahead)
    (turn' : Refresh.Turn host' state' refresh' event' next' ahead') :
    next.Alike next' ∧ ahead.Alike ahead' := by
  cases refreshes with
  | started =>
    cases turn
    cases turn'
    exact ⟨{ states with scans := congrArg (· + 1) states.scans }, .counted⟩
  | counted =>
    obtain ⟨course, launched⟩ := whole
    obtain ⟨course', launched'⟩ := whole'
    cases turn with
    | refuse refused => cases refused.symm.trans launched
    | launch =>
      cases turn' with
      | refuse refused => cases refused.symm.trans launched'
      | launch => exact ⟨states, .scanning⟩
  | scanning =>
    cases turn with
    | goOn =>
      cases turn' with
      | goOn => exact ⟨states, .scanning⟩
      | fall | finish => cases inStep
    | fall fell =>
      obtain ⟨_, _, _, _, _, ended, _⟩ := whole _ fell
      cases ended
    | finish ended =>
      cases turn' with
      | goOn => cases inStep
      | fall fell =>
        obtain ⟨_, _, _, _, _, ended, _⟩ := whole' _ fell
        cases ended
      | finish ended' =>
        -- Both have ended on one tree, so they have found the same.
        obtain ⟨apart, _, _, _, last, found, full⟩ := whole _ ended
        obtain ⟨_, _, _, _, last', found', full'⟩ := whole' _ ended'
        rw [states.files] at full'
        have same : last.outcome .idle = last'.outcome .idle := full.outcome_eq full' apart
        rw [Except.ok.inj found, Except.ok.inj found', same]
        exact ⟨states, .scanned⟩
  | scanned =>
    cases turn
    cases turn'
    exact ⟨states.persist serves also _ _, .ending⟩
  | ending => cases turn

inductive Action.Twin : Action → Action → Prop where
  | same {action : Action} : Twin action action
  | configure {choices others : Marks.Choices} : Twin (.configure choices) (.configure others)

def Passage.RunsOut (engine : Engine) (received : Nat → Prop) (passage : Passage) : Prop :=
  match passage.action with
  | .call index => ∀ call, passage.pool.calls[index]? = some call →
      call.RunsOut engine (received index) passage.host passage.pool.state.files
  | .refresh index => ∀ refresh, passage.pool.state.refreshes[index]? = some refresh →
      refresh.RunsOut engine passage.host passage.pool.state.files
  | _ => True

theorem Step.alike {received : Nat → Prop} {action action' : Action}
    (serves : host.Serves engine) (also : host'.Serves engine)
    (pools : pool.Alike received pool') (acts : action.Twin action')
    (whole : (⟨host, pool, action⟩ : Passage).RunsOut engine received)
    (whole' : (⟨host', pool', action'⟩ : Passage).RunsOut engine received)
    (inStep : event.isSome = event'.isSome) (step : Step host pool action event after)
    (step' : Step host' pool' action' event' after') : after.Alike received after' := by
  obtain ⟨states, calls⟩ := pools
  cases acts with
  | configure =>
    cases step
    cases step'
    exact ⟨{ states with }, calls⟩
  | same =>
    cases step with
    | opened =>
      cases step'
      exact ⟨states, calls.append .begun⟩
    | call stands turn =>
      cases step' with
      | call stands' turn' =>
        obtain ⟨left, alike⟩ := turn.alike serves also states (calls.each stands stands')
          (whole _ stands) (whole' _ stands') turn'
        exact ⟨left, calls.set alike⟩
    | refresh stands turn =>
      cases step' with
      | refresh stands' turn' =>
        obtain ⟨left, alike⟩ := turn.alike serves also states (states.refreshes.each stands stands')
          (whole _ stands) (whole' _ stands') inStep turn'
        exact ⟨{ left with refreshes := left.refreshes.set alike }, calls⟩
      | clear stands' =>
        cases states.refreshes.each stands stands'
        cases turn
    | clear stands =>
      cases step' with
      | refresh stands' turn' =>
        cases states.refreshes.each stands stands'
        cases turn'
      | clear =>
        exact ⟨{ states with refreshing := rfl, refreshes := states.refreshes.eraseIdx _ }, calls⟩
    | configured =>
      cases step'
      exact ⟨{ states with }, calls⟩
    | invalidated =>
      cases step'
      refine ⟨{ states with files := ?_ }, calls⟩
      simp only [State.invalidate]
      rw [states.files, serves.file, also.file]
    | clock =>
      cases step'
      exact ⟨{ states with now := rfl }, calls⟩
    | tree =>
      cases step'
      exact ⟨{ states with files := rfl }, calls⟩

-- Two runs from one pool, step beside step. Each scan is run to its end in both of them, and those
-- of the refreshes end in the same steps.
inductive Twins (engine : Engine) (received : Nat → Prop) (start : Pool) : Pool → Pool → Prop where
  | start : Twins engine received start start start
  | step {pool pool' after after' : Pool} {host host' : Host} {action action' : Action}
      (before : Twins engine received start pool pool') (serves : host.Serves engine)
      (also : host'.Serves engine) (acts : action.Twin action')
      (whole : (⟨host, pool, action⟩ : Passage).RunsOut engine received)
      (whole' : (⟨host', pool', action'⟩ : Passage).RunsOut engine received)
      (inStep : (pool.event? host action).isSome = (pool'.event? host' action').isSome)
      (executed : execute host pool action = some after)
      (executed' : execute host' pool' action' = some after') :
      Twins engine received start after after'

theorem Twins.alike {received : Nat → Prop} {start : Pool}
    (twins : Twins engine received start pool pool') : pool.Alike received pool' := by
  induction twins with
  | start => exact .refl received start
  | step _ serves also acts whole whole' inStep executed executed' ih =>
    exact (execute_step executed).alike serves also ih acts whole whole' inStep
      (execute_step executed')

-- What is configured is a view on an engine, and no more. Whatever run a call is part of, and
-- whatever marks its file holds, an answer marks just the repositories that are configured when it
-- is given, and a stream those that were when it began. And two runs that differ only in what they
-- configure agree in all else at every step: in the files, in the flag and the count of scans, and
-- in every answer apart from its marks.
theorem marks_are_a_view :
    (∀ (hosts : Host → Prop) (start pool : Pool) (passages : List Passage) (index : Nat)
      (reply : Reply), Run hosts start passages pool → start.calls.length ≤ index →
        pool.calls[index]? = some (.done reply) →
          (∀ answer, reply = .found answer → ∃ answering ∈ ownOf index passages,
            answering.Finishes index ∧
            Marked answering.pool.state.configured answer.repositories) ∧
          ∀ first ∈ ownOf index passages, ∀ sink paths,
            first.pool.calls[index]? = some (.begun (.streaming sink) paths) →
              Marked first.pool.state.configured reply.delivered) ∧
    ∀ (engine : Engine) (received : Nat → Prop) (start pool other : Pool),
      Twins engine received start pool other → pool.Alike received other := by
  constructor
  · intro hosts start pool passages index reply run unopened stands
    have lived := run.lived unopened stands
    refine ⟨?_, fun first present sink paths begins => lived.delivered_marked present begins⟩
    intro answer found
    exact lived.found_marked (congrArg Call.done found)
  · intro engine received start pool other twins
    exact twins.alike

def Passage.isRunOut (passage : Passage) : Bool :=
  match passage.action with
  | .call index => match passage.pool.calls[index]? with
    | some (.scanning demand roots _) =>
      sampleEngine.isWhole 0 .promptly passage.pool.state.files roots (Call.sinkOf demand)
    | _ => true
  | .refresh _ => false
  | _ => true

theorem Passage.isRunOut_sound {pool : Pool} {action : Action}
    (checked : (⟨sampleHost "/d/s", pool, action⟩ : Passage).isRunOut = true) :
    (⟨sampleHost "/d/s", pool, action⟩ : Passage).RunsOut sampleEngine fun _ => False := by
  unfold isRunOut at checked
  unfold RunsOut
  cases action with
  | call index =>
    intro call stands
    cases call with
    | scanning demand roots marks =>
      simp only [stands] at checked
      obtain ⟨⟨events, ran⟩, apart⟩ := sampleHost_ranWhole checked
      exact ⟨events, _, ran, apart, fun never => never.elim⟩
    | _ => trivial
  | refresh index => cases checked
  | _ => trivial

def sideBySide (one other : Marks.Choices) : List (Option Action) → Pool × Pool → Option (Pool × Pool)
  | [], pools => some pools
  | step :: rest, (pool, pool') =>
    let passage : Passage := ⟨sampleHost "/d/s", pool, step.getD (.configure one)⟩
    let passage' : Passage := ⟨sampleHost "/d/s", pool', step.getD (.configure other)⟩
    match execute passage.host pool passage.action, execute passage'.host pool' passage'.action with
    | some next, some next' =>
      if passage.isRunOut && passage'.isRunOut &&
          passage.event?.isSome == passage'.event?.isSome then
        sideBySide one other rest (next, next')
      else none
    | _, _ => none

theorem sideBySide_twins {one other : Marks.Choices} {start : Pool} (steps : List (Option Action))
    {pools last : Pool × Pool}
    (twins : Twins sampleEngine (fun _ => False) start pools.1 pools.2)
    (led : sideBySide one other steps pools = some last) :
    Twins sampleEngine (fun _ => False) start last.1 last.2 := by
  induction steps generalizing pools with
  | nil =>
    cases led
    exact twins
  | cons step rest ih =>
    obtain ⟨pool, pool'⟩ := pools
    simp only [sideBySide] at led
    split at led
    · rename_i next next' executed executed'
      split at led
      · rename_i checked
        simp only [Bool.and_eq_true, beq_iff_eq] at checked
        obtain ⟨⟨whole, whole'⟩, inStep⟩ := checked
        have acts : (step.getD (.configure one)).Twin (step.getD (.configure other)) := by
          cases step with
          | none => exact .configure
          | some action => exact .same
        exact ih (.step twins sampleHost_serves sampleHost_serves acts
          (Passage.isRunOut_sound whole) (Passage.isRunOut_sound whole') inStep executed executed') led
      · cases led
    · cases led

@[irreducible]
def twinPools : Option (Pool × Pool) :=
  sideBySide [(Path.ofString "/w/p", true)] []
    (none :: some (.open .fresh sampleRoots) :: List.replicate 5 (some (.call 0)))
    (⟨sampleState, []⟩, ⟨sampleState, []⟩)

def Pool.marksOf? (pool : Pool) (index : Nat) : Option (List Bool) :=
  match pool.calls[index]? with
  | some (.done (.found answer)) => some (answer.repositories.map Repository.isConfigured)
  | _ => none

theorem Pool.answer_of_marksOf? {pool : Pool} {index : Nat} {marks : List Bool}
    (marked : pool.marksOf? index = some marks) :
    ∃ answer, pool.calls[index]? = some (.done (.found answer)) ∧
      answer.repositories.map Repository.isConfigured = marks := by
  unfold marksOf? at marked
  split at marked
  · rename_i answer stands
    exact ⟨answer, stands, Option.some.inj marked⟩
  · cases marked

theorem twinPools_facts :
    twinPools.map (fun pools => (pools.1.marksOf? 0, pools.2.marksOf? 0)) =
      some (some [true], some [false]) := by
  decide +kernel

theorem marks_are_a_view_sample :
    ∃ pools answer other, twinPools = some pools ∧
      pools.1.calls[0]? = some (.done (.found answer)) ∧
      pools.2.calls[0]? = some (.done (.found other)) ∧
      answer.repositories.map Repository.isConfigured = [true] ∧
      other.repositories.map Repository.isConfigured = [false] ∧
      answer.unmark = other.unmark ∧ pools.2.state.files = pools.1.state.files := by
  obtain ⟨pools, led, marks⟩ := Option.map_eq_some_iff.mp twinPools_facts
  obtain ⟨one, other⟩ := Prod.mk.inj marks
  obtain ⟨answer, stands, marked⟩ := Pool.answer_of_marksOf? one
  obtain ⟨answer', stands', marked'⟩ := Pool.answer_of_marksOf? other
  have twins : Twins sampleEngine (fun _ => False) ⟨sampleState, []⟩ pools.1 pools.2 := by
    unfold twinPools at led
    exact sideBySide_twins _ .start led
  have alike := marks_are_a_view.2 _ _ _ _ _ twins
  refine ⟨pools, answer, answer', led, stands, stands', marked, marked', ?_, alike.state.files⟩
  cases alike.calls.each stands stands' with
  | done replies =>
    cases replies with
    | found same => exact same
    | same => rfl

end RepoFinder.Discovery
