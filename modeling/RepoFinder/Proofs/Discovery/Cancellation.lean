import RepoFinder.Proofs.Discovery.Lives
import RepoFinder.Proofs.Discovery.Sharing
import RepoFinder.Proofs.Scan.Decision

namespace RepoFinder.Discovery

variable {engine : Engine} {index : Nat} {own passages : List Passage} {start pool : Pool}
  {call : Call} {demand : Demand} {roots : List Path} {outcome : Scan.Outcome} {reply : Reply}
  {passage : Passage}

def Call.stepsLeft : Call → Nat
  | begun .. => 6
  | looking _ => 5
  | counting .. => 4
  | dating .. => 3
  | scanning .. => 3
  | claiming .. => 2
  | saving .. => 2
  | spawning .. => 1
  | concluding .. => 1
  | done _ => 0

theorem Call.done_of_stepsLeft (none : call.stepsLeft = 0) : ∃ reply, call = .done reply := by
  cases call with
  | done reply => exact ⟨reply, rfl⟩
  | _ => cases none

theorem Lived.stepsLeft (lived : Lived index own call) :
    own.length + call.stepsLeft ≤ Call.mostSteps ∨ ∃ reply, call = .done reply := by
  induction lived with
  | opened =>
    left
    simp [Call.stepsLeft, Call.mostSteps]
  | turn _ _ turn _ _ ih =>
    simp only [List.length_append, List.length_singleton]
    cases turn with
    | rest => exact .inr ⟨_, rfl⟩
    | _ =>
      left
      rcases ih with bound | ⟨_, finished⟩
      · simp only [Call.stepsLeft] at bound ⊢
        omega
      · cases finished

def Call.isEarly : Call → Bool
  | begun .. => true
  | looking _ => true
  | dating .. => true
  | claiming .. => true
  | counting .. => true
  | _ => false

theorem Lived.early (lived : Lived index own call) (early : call.isEarly = true) :
    ∀ passage ∈ own, passage.ChangesNothing := by
  induction lived with
  | opened => simp
  | turn _ _ turn _ executed ih =>
    intro passage present
    rcases List.mem_append.mp present with old | new
    · apply ih _ passage old
      cases turn <;> first | rfl | cases early
    · have left := Passage.after?_eq executed
      rw [List.mem_singleton.mp new]
      cases turn <;> first | exact left | cases early

def OnlyCounts (own : List Passage) : Prop :=
  ∃ earlier counting later, own = earlier ++ counting :: later ∧
    counting.after? = some counting.pool.state.countScan ∧
    ∀ passage ∈ earlier ++ later, passage.ChangesNothing

theorem OnlyCounts.snoc (counts : OnlyCounts own) (nothing : passage.ChangesNothing) :
    OnlyCounts (own ++ [passage]) := by
  obtain ⟨earlier, counting, later, rfl, counted, others⟩ := counts
  refine ⟨earlier, counting, later ++ [passage], by simp, counted, ?_⟩
  intro other present
  rw [← List.append_assoc] at present
  rcases List.mem_append.mp present with old | new
  · exact others other old
  · rw [List.mem_singleton.mp new]
    exact nothing

theorem Lived.counted {marks : List Path.Key} (lived : Lived index own call)
    (scans : call = .scanning demand roots marks) : OnlyCounts own := by
  cases lived with
  | opened => cases scans
  | turn before _ turn _ executed =>
    have left := Passage.after?_eq executed
    cases turn with
    | count => exact ⟨_, _, [], rfl, left, by simpa using before.early rfl⟩
    | _ => cases scans

structure MadeScan (index : Nat) (passage : Passage) (demand : Demand) (roots : List Path)
    (outcome : Scan.Outcome) : Prop where
  stands : ∃ marks, passage.pool.calls[index]? = some (.scanning demand roots marks)
  scanned : (passage.host.scan passage.pool.state.files roots (Call.sinkOf demand)).outcome =
    .ok outcome

theorem Lived.cancelled {delivered : List Repository} (lived : Lived index own call)
    (failed : call = .done (.cancelled delivered)) :
    OnlyCounts own ∧ ∃ scanning ∈ own, ∃ demand roots outcome,
      MadeScan index scanning demand roots outcome ∧ outcome.stop = .cancelled := by
  induction lived with
  | opened => cases failed
  | @turn own passage _ _ _ _ before stands turn _ executed ih =>
    have left := Passage.after?_eq executed
    cases turn with
    | cancel scanned cancelled =>
      exact ⟨(before.counted rfl).snoc left, passage, by simp, _, _, _, ⟨⟨_, stands⟩, scanned⟩,
        cancelled⟩
    | rest =>
      obtain ⟨counts, scanning, present, made⟩ := ih failed
      exact ⟨counts.snoc left, scanning, List.mem_append_left _ present, made⟩
    | @conclude demand => cases demand <;> cases failed
    | _ => cases failed

theorem Lived.fine (lived : Lived index own call)
    (unfallen : ∀ passage ∈ own, passage.event? ≠ some (.ofCall .fell))
    (finished : call = .done reply) :
    reply.isFine = true ∨ ∃ delivered, reply = .cancelled delivered := by
  induction lived with
  | opened => cases finished
  | turn _ _ turn happened _ ih =>
    cases turn with
    | serveYoung | serveBusy | spawn =>
      cases finished
      exact .inl rfl
    | cancel =>
      cases finished
      exact .inr ⟨_, rfl⟩
    | fall => exact absurd happened (unfallen _ (by simp))
    | @conclude demand =>
      cases finished
      cases demand <;> exact .inl rfl
    | rest =>
      apply ih _ finished
      intro passage present
      exact unfallen passage (List.mem_append_left _ present)
    | _ => cases finished

-- What becomes of a scan that was not cancelled: it is saved, and then answered. The answer does not
-- look at the files any more, so it is the same whatever the save has done to them.
inductive CarriedOut (own : List Passage) (demand : Demand) (roots : List Path)
    (outcome : Scan.Outcome) : Call → Prop where
  | scanned {delivered : List Repository} :
      CarriedOut own demand roots outcome (.saving demand roots outcome delivered)
  | saved {delivered : List Repository} {saving : Passage} (saves : saving ∈ own)
      (saved : saving.after? =
        some (saving.pool.state.persist saving.host outcome.repositories roots)) :
      CarriedOut own demand roots outcome (.concluding demand roots outcome delivered)
  | concluded {reply : Reply} {delivered : List Repository} {saving concluding : Passage} (saves : saving ∈ own)
      (saved : saving.after? =
        some (saving.pool.state.persist saving.host outcome.repositories roots))
      (concludes : concluding ∈ own)
      (answered : ∀ files, reply =
        Call.conclude { concluding.pool.state with files } demand roots outcome delivered) :
      CarriedOut own demand roots outcome (.done reply)

theorem conclude_files (state : State) (files : FileSystem) (delivered : List Repository) :
    Call.conclude state demand roots outcome delivered =
      Call.conclude { state with files } demand roots outcome delivered := by
  cases demand <;> rfl

theorem Lived.carriedOut (lived : Lived index own call) {scanning : Passage}
    (present : scanning ∈ own) (made : MadeScan index scanning demand roots outcome)
    (uncancelled : outcome.stop ≠ .cancelled) : CarriedOut own demand roots outcome call := by
  induction lived with
  | opened => cases present
  | @turn own passage call after event next _ stands turn _ executed ih =>
    have left := Passage.after?_eq executed
    have last : passage ∈ own ++ [passage] := List.mem_append_right _ (List.mem_singleton_self _)
    have keeps {other : Passage} (old : other ∈ own) : other ∈ own ++ [passage] :=
      List.mem_append_left _ old
    rcases List.mem_append.mp present with old | new
    · cases ih old with
      | scanned =>
        cases turn
        exact .saved last left
      | saved saves saved =>
        cases turn
        exact .concluded (keeps saves) saved last fun files => conclude_files _ files _
      | concluded saves saved concludes answered =>
        cases turn
        exact .concluded (keeps saves) saved (keeps concludes) answered
    · obtain rfl := List.mem_singleton.mp new
      obtain ⟨marks, scans⟩ := made.stands
      obtain rfl := Option.some.inj (scans.symm.trans stands)
      have scanned := made.scanned
      cases turn with
      | fall fell => cases fell.symm.trans scanned
      | cancel also cancelled =>
        obtain rfl := Except.ok.inj (also.symm.trans scanned)
        exact absurd cancelled uncancelled
      | scan also =>
        obtain rfl := Except.ok.inj (also.symm.trans scanned)
        exact .scanned

theorem stats_of_serves {host : Host} {files : FileSystem} {sink : Scan.Sink}
    (serves : host.Serves engine) (scanned : (host.scan files roots sink).outcome = .ok outcome) :
    outcome.stats.timedOut = (outcome.stop == .deadlineExceeded) := by
  obtain ⟨_, _, _, _, _, _, same⟩ := serves.scans scanned
  rw [same]
  rfl

theorem gaveUp_of_serves {host : Host} {files : FileSystem} {sink : Scan.Sink}
    (serves : host.Serves engine) (scanned : (host.scan files roots sink).outcome = .ok outcome)
    (cancelled : outcome.stop = .cancelled) :
    ∃ ended, outcome = ended.outcome .cancelled ∧
      Scan.GaveUp (engine.scene sink files)
        (Scan.State.initial roots engine.options.workers engine.options.capacity) ended := by
  obtain ⟨_, came⟩ := serves.scans scanned
  obtain ⟨events, ended, run, _, _, stopped, same⟩ := ends_of_came (fun _ is => is) came
  rw [cancelled] at stopped same
  exact ⟨ended, same, run.gaveUp (Scan.initial_fresh ..) stopped⟩

def Reply.stats? : Reply → Option Scan.Stats
  | .found answer => some answer.stats
  | .streamed _ stats => some stats
  | _ => none

-- Whatever state an engine is in, whatever lies at the place of its file, whenever a caller cancels
-- and whatever falls between the steps of a call: as long as its scan takes nobody down, a call is
-- done after a few steps of its own, with an answer, or because it was cancelled. It was cancelled
-- only if the request had been made before its scan was found idle. Then all it has done to the
-- engine is to count that scan. A scan that was not cancelled is saved and answered with its list
-- and its counts, also where it ran out of time, and the same whatever the save has come to.
theorem only_cancelled_calls_fail (run : Run (·.Serves engine) start passages pool)
    (unopened : start.calls.length ≤ index) (stands : pool.calls[index]? = some call)
    (unfallen : ∀ passage ∈ ownOf index passages, passage.event? ≠ some (.ofCall .fell)) :
    (Call.mostSteps ≤ (ownOf index passages).length → ∃ reply, call = .done reply) ∧
    (∀ reply, call = .done reply →
      reply.isFine = true ∨ ∃ delivered, reply = .cancelled delivered) ∧
    (∀ delivered, call = .done (.cancelled delivered) →
      OnlyCounts (ownOf index passages) ∧
      ∃ scanning ∈ ownOf index passages, ∃ demand roots outcome ended,
        MadeScan index scanning demand roots outcome ∧ outcome = ended.outcome .cancelled ∧
        Scan.GaveUp (engine.scene (Call.sinkOf demand) scanning.pool.state.files)
          (Scan.State.initial roots engine.options.workers engine.options.capacity) ended) ∧
    ∀ scanning ∈ ownOf index passages, ∀ demand roots outcome,
      MadeScan index scanning demand roots outcome → outcome.stop ≠ .cancelled →
        outcome.stats.timedOut = (outcome.stop == .deadlineExceeded) ∧
        ∀ reply, call = .done reply → reply.stats? = some outcome.stats ∧
          ∃ saving ∈ ownOf index passages, ∃ concluding ∈ ownOf index passages, ∃ delivered,
            saving.after? =
              some (saving.pool.state.persist saving.host outcome.repositories roots) ∧
            ∀ files, reply =
              Call.conclude { concluding.pool.state with files } demand roots outcome delivered := by
  have lived := run.lived unopened stands
  refine ⟨?_, ?_, ?_, ?_⟩
  · intro enough
    rcases lived.stepsLeft with bound | finished
    · exact Call.done_of_stepsLeft (by omega)
    · exact finished
  · intro reply finished
    exact lived.fine unfallen finished
  · intro delivered failed
    obtain ⟨counts, scanning, present, demand, roots, outcome, made, cancelled⟩ :=
      lived.cancelled failed
    obtain ⟨ended, same, gaveUp⟩ :=
      gaveUp_of_serves (run.allowed (mem_of_ownOf present)) made.scanned cancelled
    exact ⟨counts, scanning, present, demand, roots, outcome, ended, made, same, gaveUp⟩
  · intro scanning present demand roots outcome made uncancelled
    refine ⟨stats_of_serves (run.allowed (mem_of_ownOf present)) made.scanned, ?_⟩
    intro reply finished
    have carried := lived.carriedOut present made uncancelled
    rw [finished] at carried
    cases carried with
    | @concluded _ delivered saving concluding saves saved concludes answered =>
      refine ⟨?_, saving, saves, concluding, concludes, delivered, saved, answered⟩
      rw [answered concluding.pool.state.files]
      cases demand <;> rfl

def cancellingHost : Host :=
  Host.ofSettings ⟨none, none, none, 1, 0⟩ (sampleHost "/d/s").settings (fun _ _ => .failure)
    .firstCancels .promptly false

theorem cancellingHost_serves : cancellingHost.Serves sampleEngine :=
  Host.ofSettings_serves (by decide)

@[irreducible]
def cancelledSearch : List Passage × Pool :=
  follow cancellingHost (.open .fresh sampleRoots :: List.replicate 3 (.call 0))
    (.start sampleState.files sampleState.now)

theorem cancelledSearch_run : Run (·.Serves sampleEngine)
    (.start sampleState.files sampleState.now) cancelledSearch.1 cancelledSearch.2 := by
  unfold cancelledSearch
  exact follow_run cancellingHost_serves _ _

def Call.hasFailed : Call → Bool
  | done reply => !reply.isFine
  | _ => false

def Passage.isFall (passage : Passage) : Bool :=
  match passage.event? with
  | some (.ofCall .fell) => true
  | _ => false

theorem cancelledSearch_facts :
    cancelledSearch.2.calls.map Call.hasFailed = [true] ∧
      cancelledSearch.1.any Passage.isFall = false := by
  decide +kernel

theorem only_cancelled_calls_fail_sample :
    ∃ delivered, cancelledSearch.2.calls[0]? = some (.done (.cancelled delivered)) ∧
      OnlyCounts (ownOf 0 cancelledSearch.1) := by
  obtain ⟨failed, unfallen⟩ := cancelledSearch_facts
  obtain ⟨call, calls, fails⟩ := List.map_eq_singleton_iff.mp failed
  have stands : cancelledSearch.2.calls[0]? = some call := by
    rw [calls]
    rfl
  have standing : ∀ passage ∈ ownOf 0 cancelledSearch.1,
      passage.event? ≠ some (.ofCall .fell) := by
    intro passage present fell
    have falls : passage.isFall = true := by simp [Passage.isFall, fell]
    exact List.any_eq_false.mp unfallen passage (mem_of_ownOf present) falls
  obtain ⟨_, replies, cancelled, _⟩ :=
    only_cancelled_calls_fail cancelledSearch_run (Nat.zero_le _) stands standing
  cases call with
  | done reply =>
    rcases replies reply rfl with fine | ⟨delivered, rfl⟩
    · simp [Call.hasFailed, fine] at fails
    · exact ⟨delivered, stands, (cancelled delivered rfl).1⟩
  | _ => cases fails

end RepoFinder.Discovery
