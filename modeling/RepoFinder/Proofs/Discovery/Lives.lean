import RepoFinder.Proofs.Discovery.History

namespace RepoFinder.Discovery

variable {index : Nat} {own passages : List Passage} {start pool next : Pool} {call : Call}
  {roots : List Path} {outcome : Scan.Outcome}

def Action.isOf (index : Nat) : Action → Bool
  | .call other => other == index
  | _ => false

def ownOf (index : Nat) (passages : List Passage) : List Passage :=
  passages.filter fun passage => passage.action.isOf index

def Passage.after? (passage : Passage) : Option State :=
  (execute passage.host passage.pool passage.action).map Pool.state

theorem Passage.after?_eq {passage : Passage}
    (executed : execute passage.host passage.pool passage.action = some next) :
    passage.after? = some next.state := by
  rw [after?, executed]
  rfl

def Passage.ChangesNothing (passage : Passage) : Prop :=
  passage.after? = some passage.pool.state

-- The steps that a call has made since it was opened, and where they have led it.
inductive Lived (index : Nat) : List Passage → Call → Prop where
  | opened {demand : Demand} {paths : List Path} : Lived index [] (.begun demand paths)
  | turn {own : List Passage} {passage : Passage} {call after : Call} {event : Option Event}
      {next : State} (before : Lived index own call)
      (stands : passage.pool.calls[index]? = some call)
      (turn : Call.Turn passage.host passage.pool.state call event next after)
      (happened : passage.event? = event)
      (executed : execute passage.host passage.pool passage.action =
        some ⟨next, passage.pool.calls.set index after⟩) :
      Lived index (own ++ [passage]) after

theorem ownOf_snoc (index : Nat) (passages : List Passage) (passage : Passage) :
    ownOf index (passages ++ [passage]) =
      ownOf index passages ++ if passage.action.isOf index then [passage] else [] := by
  cases mine : passage.action.isOf index <;> simp [ownOf, mine]

theorem Run.lived_or_unopened {hosts : Host → Prop} (run : Run hosts start passages pool)
    (unopened : start.calls.length ≤ index) :
    (pool.calls[index]? = none → ownOf index passages = []) ∧
      ∀ call, pool.calls[index]? = some call → Lived index (ownOf index passages) call := by
  induction run with
  | start =>
    have none : start.calls[index]? = none := List.getElem?_eq_none unopened
    refine ⟨fun _ => rfl, ?_⟩
    intro call stands
    cases none.symm.trans stands
  | @step passages pool next host action before allowed executed ih =>
    obtain ⟨unmade, lived⟩ := ih
    rw [ownOf_snoc]
    have step := execute_step executed
    generalize happened : pool.event? host action = event at step
    cases step with
    | opened =>
      simp only [Action.isOf, Bool.false_eq_true, if_false, List.append_nil]
      constructor
      · intro none
        apply unmade
        rw [List.getElem?_eq_none_iff] at none ⊢
        simp only [List.length_append, List.length_singleton] at none
        omega
      · intro call stands
        rw [List.getElem?_append] at stands
        split at stands
        · exact lived call stands
        · rename_i beyond
          rw [List.getElem?_singleton] at stands
          split at stands
          · cases stands
            rw [unmade (List.getElem?_eq_none (by omega))]
            exact .opened
          · cases stands
    | @call moved call after event state stands turn =>
      by_cases same : moved = index
      · subst same
        obtain ⟨within, _⟩ := List.getElem?_eq_some_iff.mp stands
        simp only [Action.isOf, beq_self_eq_true, if_true, List.getElem?_set_self within]
        refine ⟨fun none => (Option.some_ne_none _ none).elim, ?_⟩
        intro later is
        cases is
        exact .turn (lived call stands) stands turn happened executed
      · simp only [Action.isOf, beq_eq_false_iff_ne.mpr same, Bool.false_eq_true, if_false,
          List.append_nil, List.getElem?_set_ne same]
        exact ⟨unmade, lived⟩
    | _ =>
      simp only [Action.isOf, Bool.false_eq_true, if_false, List.append_nil]
      exact ⟨unmade, lived⟩

theorem Run.lived {hosts : Host → Prop} (run : Run hosts start passages pool)
    (unopened : start.calls.length ≤ index) (stands : pool.calls[index]? = some call) :
    Lived index (ownOf index passages) call :=
  (run.lived_or_unopened unopened).2 call stands

theorem Run.allowed {hosts : Host → Prop} (run : Run hosts start passages pool)
    {passage : Passage} (present : passage ∈ passages) : hosts passage.host := by
  obtain ⟨earlier, later, cut⟩ := List.append_of_mem present
  exact (run.split cut).2.1

theorem mem_of_ownOf {passage : Passage} (present : passage ∈ ownOf index passages) :
    passage ∈ passages := (List.mem_filter.mp present).1

end RepoFinder.Discovery
