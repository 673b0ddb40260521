import RepoFinder.Proofs.Discovery.Lives

namespace RepoFinder.Discovery

variable {index : Nat} {own : List Passage} {call : Call} {marks : List Path.Key}
  {repositories : List Repository}

def Marked (configured : List Path.Key) (repositories : List Repository) : Prop :=
  ∀ repository ∈ repositories,
    repository.isConfigured = true ↔ repository.path.key ∈ configured

theorem marked_map (configured : List Path.Key) (repositories : List Repository) :
    Marked configured (repositories.map (Repository.mark configured)) := by
  intro repository present
  obtain ⟨found, _, rfl⟩ := List.mem_map.mp present
  exact List.contains_iff_mem

theorem marked_deliveredOf (marks : List Path.Key) (result : Scan.Result) :
    Marked marks (deliveredOf marks result) := by
  have same : deliveredOf marks result =
      (result.kept.map Prod.fst).map (Repository.mark marks) := by
    rw [deliveredOf, List.map_map]
    rfl
  rw [same]
  exact marked_map marks _

def Call.isDone : Call → Bool
  | done _ => true
  | _ => false

def Passage.Finishes (index : Nat) (passage : Passage) : Prop :=
  (∃ call, passage.pool.calls[index]? = some call ∧ call.isDone = false) ∧
    ∃ next reply, execute passage.host passage.pool passage.action = some next ∧
      next.calls[index]? = some (.done reply)

theorem Lived.found_marked {answer : Answer} (lived : Lived index own call)
    (finished : call = .done (.found answer)) :
    ∃ answering ∈ own, answering.Finishes index ∧
      Marked answering.pool.state.configured answer.repositories := by
  induction lived with
  | opened => cases finished
  | @turn own passage call _ _ _ _ stands turn _ executed ih =>
    have last : passage ∈ own ++ [passage] := List.mem_append_right _ (List.mem_singleton_self _)
    obtain ⟨within, _⟩ := List.getElem?_eq_some_iff.mp stands
    have finishes (undone : call.isDone = false) : passage.Finishes index :=
      ⟨⟨call, stands, undone⟩, _, .found answer, executed, by
        rw [finished, List.getElem?_set_self within]⟩
    cases turn with
    | serveYoung | serveBusy | spawn =>
      cases finished
      exact ⟨passage, last, finishes rfl, marked_map _ _⟩
    | @conclude demand =>
      cases demand with
      | streaming => cases finished
      | cached | fresh =>
        cases finished
        exact ⟨passage, last, finishes rfl, marked_map _ _⟩
    | rest =>
      obtain ⟨answering, present, marked⟩ := ih finished
      exact ⟨answering, List.mem_append_left _ present, marked⟩
    | _ => cases finished

def Reply.delivered : Reply → List Repository
  | .found _ => []
  | .streamed delivered _ => delivered
  | .cancelled delivered => delivered
  | .fell delivered _ => delivered

-- A stream that marks what it delivers by the given keys, until it is done.
inductive Hears (marks : List Path.Key) : Call → Prop where
  | counting {sink : Scan.Sink} {roots : List Path} :
      Hears marks (.counting (.streaming sink) roots marks)
  | scanning {sink : Scan.Sink} {roots : List Path} :
      Hears marks (.scanning (.streaming sink) roots marks)
  | saving {sink : Scan.Sink} {roots : List Path} {outcome : Scan.Outcome}
      {delivered : List Repository} (marked : Marked marks delivered) :
      Hears marks (.saving (.streaming sink) roots outcome delivered)
  | concluding {sink : Scan.Sink} {roots : List Path} {outcome : Scan.Outcome}
      {delivered : List Repository} (marked : Marked marks delivered) :
      Hears marks (.concluding (.streaming sink) roots outcome delivered)
  | done {reply : Reply} (marked : Marked marks reply.delivered) : Hears marks (.done reply)

theorem Call.Turn.hears {host : Host} {state next : State} {after : Call} {event : Option Event}
    (hears : Hears marks call) (turn : Call.Turn host state call event next after) :
    Hears marks after := by
  cases hears with
  | counting =>
    cases turn
    exact .scanning
  | scanning =>
    cases turn with
    | fall | cancel => exact .done (marked_deliveredOf marks _)
    | scan => exact .saving (marked_deliveredOf marks _)
  | saving marked =>
    cases turn
    exact .concluding marked
  | concluding marked =>
    cases turn
    exact .done marked
  | done marked =>
    cases turn
    exact .done marked

theorem Lived.hears (lived : Lived index own call) {first : Passage} (present : first ∈ own)
    {sink : Scan.Sink} {paths : List Path}
    (begins : first.pool.calls[index]? = some (.begun (.streaming sink) paths)) :
    Hears first.pool.state.configured call := by
  induction lived with
  | opened => cases present
  | turn _ stands turn _ _ ih =>
    rcases List.mem_append.mp present with old | new
    · exact turn.hears (ih old)
    · obtain rfl := List.mem_singleton.mp new
      obtain rfl := Option.some.inj (begins.symm.trans stands)
      cases turn
      exact .counting

theorem Lived.delivered_marked {reply : Reply} (lived : Lived index own (.done reply))
    {first : Passage} (present : first ∈ own) {sink : Scan.Sink} {paths : List Path}
    (begins : first.pool.calls[index]? = some (.begun (.streaming sink) paths)) :
    Marked first.pool.state.configured reply.delivered := by
  cases lived.hears present begins with
  | done marked => exact marked

end RepoFinder.Discovery
