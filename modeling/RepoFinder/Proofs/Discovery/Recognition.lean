import RepoFinder.Proofs.Discovery.Marking
import RepoFinder.Proofs.Discovery.Provenance
import RepoFinder.Proofs.FileSystem.Grounds

namespace RepoFinder

open FileSystem

theorem Path.key_clean (p : Path) : p.clean.key = p.key := by
  simp only [key, clean_clean]

-- The absolute paths of a place on which no link is met: the one that the system tells, and any
-- other one.
inductive FileSystem.IsOwnPath (files : FileSystem) (place : Location) : Path → Prop where
  | told : IsOwnPath files place place.toPath
  | plain {p : Path} (absolute : p.isAbsolute = true) (walked : files.plainly p = some place) :
      IsOwnPath files place p

theorem FileSystem.IsOwnPath.key_eq {files : FileSystem} {place : Location} {p : Path}
    (own : files.IsOwnPath place p) : p.key = place.toPath.key := by
  cases own with
  | told => rfl
  | plain absolute walked => rw [← p.key_clean, clean_of_plainly absolute walked]

namespace Discovery

variable {fs : FileSystem} {choices others : Marks.Choices} {path : Path} {key : Path.Key}

theorem Marks.mem_keysOf : key ∈ Marks.keysOf fs path ↔
    key = path.key ∨ ∃ place, fs.locate path = .ok place ∧ key = place.toPath.key := by
  unfold Marks.keysOf canonical
  cases fs.locate path with
  | error failure => simp [Except.map]
  | ok place => simp [Except.map]

theorem Marks.mem_keys : key ∈ Marks.keys fs choices ↔
    ∃ path, (path, true) ∈ choices ∧
      (key = path.key ∨ ∃ place, fs.locate path = .ok place ∧ key = place.toPath.key) := by
  simp only [Marks.keys, List.mem_flatMap, List.mem_filter, Marks.mem_keysOf, Prod.exists]
  constructor
  · rintro ⟨path, _, ⟨listed, rfl⟩, known⟩
    exact ⟨path, listed, known⟩
  · rintro ⟨path, listed, known⟩
    exact ⟨path, true, ⟨listed, rfl⟩, known⟩

theorem Marks.mem_keys_congr
    (same : ∀ path, (path, true) ∈ choices ↔ (path, true) ∈ others) (key : Path.Key) :
    key ∈ Marks.keys fs choices ↔ key ∈ Marks.keys fs others := by
  simp only [Marks.mem_keys, same]

variable {keys : List Path.Key} {hosts : Host → Prop} {host : Host} {state next : State}
  {start before pool after : Pool} {call turned : Call} {event : Option Event}
  {passages later : List Passage} {index : Nat}

def Action.configures : Action → Bool
  | .configure _ => true
  | _ => false

theorem Call.Turn.configured_eq (turn : Call.Turn host state call event next turned) :
    next.configured = state.configured := by
  cases turn <;> rfl

theorem Step.configured_eq {action : Action} (step : Step host pool action event after)
    (unset : action.configures = false) : after.state.configured = pool.state.configured := by
  cases step with
  | call _ turn => exact turn.configured_eq
  | refresh _ turn => exact turn.frame.2.2.2
  | configured => cases unset
  | _ => rfl

theorem Run.keeps {good : Call → Prop} (opened : ∀ demand paths, good (.begun demand paths))
    (turns : ∀ {host state call event next turned}, state.configured = keys →
      Call.Turn host state call event next turned → good call → good turned)
    (run : Run hosts start later pool) (set : start.state.configured = keys)
    (unset : ∀ passage ∈ later, passage.action.configures = false)
    (index : Nat) (fine : ∀ call, start.calls[index]? = some call → good call) :
    pool.state.configured = keys ∧ ∀ call, pool.calls[index]? = some call → good call := by
  induction run with
  | start => exact ⟨set, fine⟩
  | @step passages pool next host action _ _ executed ih =>
    obtain ⟨unsetBefore, unsetNow⟩ := List.forall_mem_append.mp unset
    obtain ⟨still, kept⟩ := ih unsetBefore
    have step := execute_step executed
    refine ⟨(step.configured_eq (unsetNow _ (List.mem_singleton_self _))).trans still, ?_⟩
    generalize pool.event? host action = event at step
    intro call stands
    cases step with
    | opened =>
      rw [List.getElem?_append] at stands
      split at stands
      · exact kept call stands
      · rw [List.getElem?_singleton] at stands
        split at stands
        · cases stands
          exact opened ..
        · cases stands
    | @call moved _ after _ _ standsBefore turn =>
      by_cases same : moved = index
      · subst same
        obtain ⟨within, _⟩ := List.getElem?_eq_some_iff.mp standsBefore
        rw [List.getElem?_set_self within] at stands
        cases stands
        exact turns still turn (kept _ standsBefore)
      · rw [List.getElem?_set_ne same] at stands
        exact kept call stands
    | _ => exact kept call stands

def Call.AnswersBy (keys : List Path.Key) (call : Call) : Prop :=
  ∀ answer, call = .done (.found answer) → Marked keys answer.repositories

theorem Call.AnswersBy.turn (set : state.configured = keys)
    (turn : Call.Turn host state call event next turned) (answers : call.AnswersBy keys) :
    turned.AnswersBy keys := by
  intro answer finished
  subst set
  cases turn with
  | serveYoung | serveBusy | spawn =>
    cases finished
    exact marked_map _ _
  | @conclude demand =>
    cases demand with
    | streaming => cases finished
    | cached | fresh =>
      cases finished
      exact marked_map _ _
  | rest => exact answers answer finished
  | _ => cases finished

def Call.delivered : Call → List Repository
  | saving _ _ _ delivered => delivered
  | concluding _ _ _ delivered => delivered
  | done reply => reply.delivered
  | _ => []

def Call.DeliversBy (keys : List Path.Key) (call : Call) : Prop :=
  Marked keys call.delivered ∧ match call with
    | counting _ _ marks => marks = keys
    | scanning _ _ marks => marks = keys
    | _ => True

theorem Call.DeliversBy.turn (set : state.configured = keys)
    (turn : Call.Turn host state call event next turned) (delivers : call.DeliversBy keys) :
    turned.DeliversBy keys := by
  have none : Marked keys [] := by simp [Marked]
  cases turn with
  | demand | miss => exact ⟨none, set⟩
  | count => exact ⟨none, delivers.2⟩
  | fall | cancel | scan =>
    obtain ⟨_, rfl⟩ := delivers
    exact ⟨marked_deliveredOf _ _, trivial⟩
  | save => exact ⟨delivers.1, trivial⟩
  | @conclude demand =>
    cases demand with
    | streaming => exact ⟨delivers.1, trivial⟩
    | cached | fresh => exact ⟨none, trivial⟩
  | rest => exact delivers
  | _ => exact ⟨none, trivial⟩

-- A path that the system can follow is configured by its own key and by that of the place where it
-- leads. So whatever is found there, under a path of the place itself, is marked as configured: in
-- every answer that is given from then on, and in every stream that begins from then on, until
-- other paths are configured. Neither the order of the paths nor any path that is not enabled has a
-- part in this.
theorem every_spelling_recognised :
    (∀ (fs : FileSystem) (choices others : Marks.Choices),
      (∀ path, (path, true) ∈ choices ↔ (path, true) ∈ others) →
        ∀ key, key ∈ Marks.keys fs choices ↔ key ∈ Marks.keys fs others) ∧
    ∀ (hosts : Host → Prop) (host : Host) (before after pool : Pool) (choices : Marks.Choices)
      (later : List Passage), execute host before (.configure choices) = some after →
        Run hosts after later pool → (∀ passage ∈ later, passage.action.configures = false) →
          ∀ (path : Path) (place : Location), (path, true) ∈ choices →
            before.state.files.locate path = .ok place →
              (∀ (index : Nat) (answer : Answer), pool.calls[index]? = some (.done (.found answer)) →
                (∀ reply, before.calls[index]? ≠ some (.done reply)) →
                  ∀ repository ∈ answer.repositories,
                    before.state.files.IsOwnPath place repository.path →
                      repository.isConfigured = true) ∧
              ∀ (index : Nat) (call : Call), pool.calls[index]? = some call →
                (∀ earlier, before.calls[index]? = some earlier →
                  ∃ demand paths, earlier = .begun demand paths) →
                  ∀ repository ∈ call.delivered,
                    before.state.files.IsOwnPath place repository.path →
                      repository.isConfigured = true := by
  refine ⟨fun _ _ _ same => Marks.mem_keys_congr same, ?_⟩
  intro hosts host before after pool choices later configured run unset path place listed located
  obtain rfl := Option.some.inj configured
  have known : place.toPath.key ∈ Marks.keys before.state.files choices :=
    Marks.mem_keys.mpr ⟨path, listed, .inr ⟨place, located, rfl⟩⟩
  have recognised {repositories : List Repository}
      (marked : Marked (Marks.keys before.state.files choices) repositories)
      {repository : Repository} (present : repository ∈ repositories)
      (own : before.state.files.IsOwnPath place repository.path) :
      repository.isConfigured = true :=
    (marked repository present).mpr (own.key_eq ▸ known)
  constructor
  · intro index answer stands undone repository present own
    have waits (call : Call) (standing : before.calls[index]? = some call) :
        call.AnswersBy (Marks.keys before.state.files choices) := by
      rintro answer rfl
      exact absurd standing (undone _)
    have answers :=
      (run.keeps (fun _ _ _ => nofun) Call.AnswersBy.turn rfl unset index waits).2 _ stands
    exact recognised (answers answer rfl) present own
  · intro index call stands unbegun repository present own
    have fresh (demand : Demand) (paths : List Path) :
        (Call.begun demand paths).DeliversBy (Marks.keys before.state.files choices) :=
      ⟨by simp [Marked, Call.delivered], trivial⟩
    have waits (call : Call) (standing : before.calls[index]? = some call) :
        call.DeliversBy (Marks.keys before.state.files choices) := by
      obtain ⟨demand, paths, rfl⟩ := unbegun call standing
      exact fresh demand paths
    have delivers := (run.keeps fresh Call.DeliversBy.turn rfl unset index waits).2 call stands
    exact recognised delivers.1 present own

def roundaboutChoices : Marks.Choices :=
  [(Path.ofString "/w/p", false), (Path.ofString "d/x/../../w/./p", true)]

@[irreducible]
def searchAndStream : List Passage × Pool :=
  follow (sampleHost "/d/s")
    (.open .fresh sampleRoots :: .open (.streaming (.channel none)) sampleRoots ::
      (List.replicate 5 (.call 0) ++ List.replicate 5 (.call 1)))
    ⟨sampleState.configure roundaboutChoices, []⟩

theorem searchAndStream_run : Run (fun _ => True) ⟨sampleState.configure roundaboutChoices, []⟩
    searchAndStream.1 searchAndStream.2 := by
  unfold searchAndStream
  exact follow_run trivial _ _

theorem searchAndStream_facts :
    (searchAndStream.1.all fun passage => !passage.action.configures) = true ∧
      (searchAndStream.2.calls[0]?.bind Call.repositories?).map (List.map Repository.path) =
        some [Path.ofString "/w/p"] ∧
      searchAndStream.2.calls[1]?.map (fun call => call.delivered.map Repository.path) =
        some [Path.ofString "/w/p"] := by
  decide +kernel

theorem every_spelling_recognised_roundabout :
    (∃ answer, searchAndStream.2.calls[0]? = some (.done (.found answer)) ∧
      ∃ repository ∈ answer.repositories,
        repository.path = Path.ofString "/w/p" ∧ repository.isConfigured = true) ∧
    ∃ call, searchAndStream.2.calls[1]? = some call ∧ ∃ repository ∈ call.delivered,
      repository.path = Path.ofString "/w/p" ∧ repository.isConfigured = true := by
  obtain ⟨unset, found, streamed⟩ := searchAndStream_facts
  have enabled : (Path.ofString "d/x/../../w/./p", true) ∈ roundaboutChoices := by decide
  have located : sampleState.files.locate (Path.ofString "d/x/../../w/./p") =
      .ok (["w", "p"].map Text.Utf8.ofString) := by decide +kernel
  have own : sampleState.files.IsOwnPath (["w", "p"].map Text.Utf8.ofString)
      (Path.ofString "/w/p") := .plain (by decide) (by decide +kernel)
  have configured : execute (sampleHost "/d/s") ⟨sampleState, []⟩ (.configure roundaboutChoices) =
      some ⟨sampleState.configure roundaboutChoices, []⟩ := rfl
  have unchanged (passage : Passage) (present : passage ∈ searchAndStream.1) :
      passage.action.configures = false := by
    simpa using List.all_eq_true.mp unset passage present
  obtain ⟨answered, delivered⟩ := every_spelling_recognised.2 _ _ _ _ _ _ _ configured
    searchAndStream_run unchanged _ _ enabled located
  constructor
  · obtain ⟨repositories, told, paths⟩ := Option.map_eq_some_iff.mp found
    obtain ⟨call, stands, told⟩ := Option.bind_eq_some_iff.mp told
    obtain ⟨answer, rfl, rfl⟩ := Call.found_of_repositories? told
    obtain ⟨repository, single, path⟩ := List.map_eq_singleton_iff.mp paths
    have present : repository ∈ answer.repositories := by simp [single]
    exact ⟨answer, stands, repository, present, path,
      answered 0 answer stands (by simp) repository present (path ▸ own)⟩
  · obtain ⟨call, stands, paths⟩ := Option.map_eq_some_iff.mp streamed
    obtain ⟨repository, single, path⟩ := List.map_eq_singleton_iff.mp paths
    have present : repository ∈ call.delivered := by simp [single]
    exact ⟨call, stands, repository, present, path,
      delivered 1 call stands (by simp) repository present (path ▸ own)⟩

end Discovery

end RepoFinder
