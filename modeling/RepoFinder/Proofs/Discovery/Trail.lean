import RepoFinder.Proofs.Discovery.Revalidation

namespace RepoFinder.Discovery

variable {host : Host} {pool next settled : Pool} {passages later : List Passage}
  {passage : Passage} {roots : List Path} {outcome : Scan.Outcome} {event : Option Event}

inductive Scanner where
  | call (index : Nat)
  | refresh

def Passage.stage? (passage : Passage) : Scanner → Option Stage
  | .call index => match passage.action with
    | .call other => if other = index then passage.event?.bind Event.call? else none
    | _ => none
  | .refresh => passage.event?.bind Event.refresh?

def stagesBy (scanner : Scanner) (passages : List Passage) : List Stage :=
  passages.filterMap (·.stage? scanner)

theorem stagesBy_append (scanner : Scanner) (earlier later : List Passage) :
    stagesBy scanner (earlier ++ later) = stagesBy scanner earlier ++ stagesBy scanner later := by
  simp [stagesBy]

theorem stagesBy_snoc (scanner : Scanner) (passages : List Passage) (passage : Passage) :
    stagesBy scanner (passages ++ [passage]) =
      stagesBy scanner passages ++ (passage.stage? scanner).toList := by
  rw [stagesBy_append]
  cases happened : passage.stage? scanner <;> simp [stagesBy, happened]

theorem stagesBy_refresh (passages : List Passage) :
    stagesBy .refresh passages = refreshStages passages := by
  simp [stagesBy, refreshStages, events, List.filterMap_filterMap, Passage.stage?]

def Call.isScanning : Call → Bool
  | scanning .. => true
  | saving .. => true
  | _ => false

def Refresh.isScanning : Refresh → Bool
  | counted _ => true
  | scanning .. => true
  | scanned .. => true
  | _ => false

def Pool.UnderWay (pool : Pool) : Scanner → Prop
  | .call index => ∃ call, pool.calls[index]? = some call ∧ call.isScanning = true
  | .refresh => pool.state.refreshing = true ∧
      ∃ refresh ∈ pool.state.refreshes, refresh.isScanning = true

-- A save that was made after a pool: of a scan that was begun after it as well, or of one that was
-- under way there, and whose scanner has done nothing else since but finish it.
inductive SavedSince (settled : Pool) (later : List Passage) (roots : List Path)
    (outcome : Scan.Outcome) : Prop where
  | begun (scanner : Scanner)
      (whole : [.counted, .scanned roots outcome, .saved roots outcome] <:+: stagesBy scanner later) :
      SavedSince settled later roots outcome
  | caught (scanner : Scanner) (flying : settled.UnderWay scanner)
      (first : [.saved roots outcome] <+: stagesBy scanner later ∨
        [.scanned roots outcome, .saved roots outcome] <+: stagesBy scanner later) :
      SavedSince settled later roots outcome

theorem SavedSince.append (since : SavedSince settled later roots outcome)
    (more : List Passage) : SavedSince settled (later ++ more) roots outcome := by
  cases since with
  | begun scanner whole =>
    refine .begun scanner ?_
    rw [stagesBy_append]
    exact whole.trans (List.prefix_append _ _).isInfix
  | caught scanner flying first =>
    refine .caught scanner flying ?_
    rw [stagesBy_append]
    exact first.imp (·.trans (List.prefix_append _ _)) (·.trans (List.prefix_append _ _))

-- The scan behind a save was begun after a pool, or goes back to before it. Where the trail of the
-- scanner is cut there decides which.
theorem SavedSince.of_trail {scanner : Scanner} {front : List Stage}
    (trail : [.counted, .scanned roots outcome] <:+ front ++ stagesBy scanner later)
    (flying : front.getLast? = some .counted ∨ front.getLast? = some (.scanned roots outcome) →
      settled.UnderWay scanner)
    (saves : passage.stage? scanner = some (.saved roots outcome)) :
    SavedSince settled (later ++ [passage]) roots outcome := by
  have stages : stagesBy scanner (later ++ [passage]) =
      stagesBy scanner later ++ [.saved roots outcome] := by
    rw [stagesBy_snoc, saves, Option.toList_some]
  obtain ⟨before, cut⟩ := trail
  rcases List.append_eq_append_iff.mp cut with ⟨behind, rfl, since⟩ | ⟨ahead, rfl, since⟩
  · -- What lies before the pool is nothing of this scan, its count, or all but its save.
    match behind, since with
    | [], since =>
      rw [List.nil_append] at since
      refine .begun scanner ?_
      rw [stages, ← since]
      exact List.infix_rfl
    | [_], since =>
      simp only [List.cons_append, List.nil_append, List.cons.injEq] at since
      obtain ⟨rfl, since⟩ := since
      refine .caught scanner (flying (.inl (by simp))) (.inr ?_)
      rw [stages, ← since]
      exact List.prefix_rfl
    | [_, _], since =>
      simp only [List.cons_append, List.nil_append, List.cons.injEq] at since
      obtain ⟨rfl, rfl, since⟩ := since
      refine .caught scanner (flying (.inr (by simp))) (.inl ?_)
      rw [stages, ← since]
      exact List.prefix_rfl
    | _ :: _ :: _ :: _, since => simp at since
  · refine .begun scanner ?_
    rw [stages, since, List.append_assoc]
    exact (List.suffix_append _ _).isInfix

def Call.passed : Call → List Stage
  | scanning .. => [.counted]
  | saving _ roots outcome _ => [.counted, .scanned roots outcome]
  | _ => []

def Pool.passedBy (pool : Pool) (index : Nat) : List Stage :=
  (pool.calls[index]?.map Call.passed).getD []

theorem Call.isScanning_of_passed {call : Call} (some : call.passed ≠ []) :
    call.isScanning = true := by
  cases call <;> first | rfl | exact absurd rfl some

theorem Pool.underWay_of_passedBy {index : Nat} (some : pool.passedBy index ≠ []) :
    pool.UnderWay (.call index) := by
  unfold Pool.passedBy at some
  cases stands : pool.calls[index]? with
  | none => simp [stands] at some
  | some call => exact ⟨call, stands, Call.isScanning_of_passed (by simpa [stands] using some)⟩

theorem Call.Turn.passed {state after : State} {call later : Call}
    (turn : Call.Turn host state call event after later) :
    later.passed <:+ call.passed ++ (event.bind Event.call?).toList := by
  cases turn with
  | count | scan => simp [Call.passed, Event.call?]
  | _ => exact List.nil_suffix

theorem Step.passedBy {action : Action} (happened : (⟨host, pool, action⟩ : Passage).event? = event)
    (step : Step host pool action event next) (index : Nat) :
    next.passedBy index <:+
      pool.passedBy index ++ ((⟨host, pool, action⟩ : Passage).stage? (.call index)).toList := by
  cases step with
  | opened =>
    simp only [Pool.passedBy, Passage.stage?, Option.toList_none, List.append_nil]
    rw [List.getElem?_append]
    split
    · exact List.suffix_rfl
    · rw [List.getElem?_singleton]
      split <;> exact List.nil_suffix
  | @call moved call after event state stands turn =>
    by_cases same : moved = index
    · subst same
      obtain ⟨within, _⟩ := List.getElem?_eq_some_iff.mp stands
      simp only [Pool.passedBy, stands, List.getElem?_set_self within, Passage.stage?, happened,
        if_true, Option.map_some, Option.getD_some]
      exact turn.passed
    · simp [Pool.passedBy, List.getElem?_set_ne same, Passage.stage?, same]
  | _ => simp [Pool.passedBy, Passage.stage?]

theorem Run.passedBy {hosts : Host → Prop} {start : Pool} (run : Run hosts start passages pool)
    (index : Nat) :
    pool.passedBy index <:+ start.passedBy index ++ stagesBy (.call index) passages := by
  induction run with
  | start => simp [stagesBy]
  | @step passages pool next host action before allowed executed ih =>
    rw [stagesBy_snoc, ← List.append_assoc]
    exact ((execute_step executed).passedBy rfl index).trans (List.suffix_append_self_iff.mpr ih)

theorem Refresh.Passed.scanned_eq {stages : List Stage}
    (passed : Refresh.Passed (.scanned roots outcome) stages) :
    ∃ searched, stages = [.claimed, .started searched, .counted, .scanned roots outcome] := by
  cases passed
  exact ⟨_, rfl⟩

theorem Aloft.underWay {stages : List Stage} (aloft : Aloft pool stages)
    (last : stages.getLast? = some .counted ∨
      stages.getLast? = some (.scanned roots outcome)) : pool.UnderWay .refresh := by
  cases aloft with
  | none | claimed => simp at last
  | started busy unclaimed only passed =>
    refine ⟨busy, _, by rw [only]; exact List.mem_singleton_self _, ?_⟩
    cases passed with
    | counted | scanning | scanned => rfl
    | started | saved | fell => simp at last

theorem Step.saving {action : Action}
    (step : Step host pool action (some (.ofCall (.saved roots outcome))) next) :
    ∃ index demand delivered, action = .call index ∧
      pool.calls[index]? = some (.saving demand roots outcome delivered) ∧
      next.state.files = (pool.state.persist host outcome.repositories roots).files := by
  generalize happened : some (Event.ofCall (.saved roots outcome)) = event at step
  cases step with
  | @call index call after event state stands turn =>
    cases turn <;> cases happened
    exact ⟨index, _, _, rfl, stands, rfl⟩
  | @refresh index refresh after event state stands turn => cases turn <;> cases happened
  | _ => cases happened

theorem SavedSince.of_step {hosts : Host → Prop} {action : Action} {first : List Stage}
    (aloft : Aloft settled first) (run : Run hosts settled later pool)
    (happened : (⟨host, pool, action⟩ : Passage).event? = event)
    (step : Step host pool action event next)
    (saves : event = some (.ofCall (.saved roots outcome)) ∨
      event = some (.ofRefresh (.saved roots outcome))) :
    SavedSince settled (later ++ [⟨host, pool, action⟩]) roots outcome := by
  rcases saves with rfl | rfl
  · obtain ⟨index, demand, delivered, rfl, stands, _⟩ := step.saving
    have trail := run.passedBy index
    simp only [Pool.passedBy, stands, Option.map_some, Option.getD_some, Call.passed] at trail
    refine .of_trail trail (fun last => Pool.underWay_of_passedBy ?_) ?_
    · intro none
      unfold Pool.passedBy at none
      simp [none] at last
    · simp [Passage.stage?, happened, Event.call?]
  · obtain ⟨index, rfl, stands, _⟩ := step.saved
    obtain ⟨flights, stages, same, _, now⟩ := run.aloft aloft
    obtain ⟨_, _, _, _, passed⟩ := now.of_refresh stands
    obtain ⟨searched, rfl⟩ := passed.scanned_eq
    have trail : [.counted, .scanned roots outcome] <:+ first ++ stagesBy .refresh later := by
      rw [stagesBy_refresh, same]
      exact ⟨flights.flatten ++ [.claimed, .started searched], by simp⟩
    refine .of_trail trail aloft.underWay ?_
    simp [Passage.stage?, happened, Event.refresh?]

end RepoFinder.Discovery
