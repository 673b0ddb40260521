import Mathlib.Data.List.Nodup
import Mathlib.Data.List.Perm.Basic
import RepoFinder.Proofs.FileSystem.Slots
import RepoFinder.Proofs.Path.Children
import RepoFinder.Proofs.Scan.Ledger

namespace RepoFinder

open FileSystem

namespace FileSystem

mutual

-- In every directory the entries have names that can stand there, and no two of them one name.
def Node.isTidy : Node → Bool
  | .directory _ _ entries => areTidy entries
  | .file .. => true
  | .link .. => true

def areTidy : List (Name × Node) → Bool
  | [] => true
  | (name, node) :: rest =>
    decide name.Proper && !(rest.map Prod.fst).contains name && node.isTidy && areTidy rest

end

theorem names_of_areTidy {entries : Entries} (tidy : areTidy entries = true) :
    (entries.map Prod.fst).Nodup ∧ ∀ entry ∈ entries, entry.1.Proper := by
  induction entries with
  | nil => simp
  | cons entry rest ih =>
    simp only [areTidy, Bool.and_eq_true, decide_eq_true_eq, Bool.not_eq_true'] at tidy
    obtain ⟨⟨⟨proper, fresh⟩, _⟩, others⟩ := tidy
    obtain ⟨apart, allProper⟩ := ih others
    refine ⟨List.nodup_cons.mpr ⟨?_, apart⟩, List.forall_mem_cons.mpr ⟨proper, allProper⟩⟩
    simpa [List.contains_iff_mem] using fresh

theorem isTidy_of_find? {entries : Entries} {name : Name} {node : Node}
    (tidy : areTidy entries = true) (found : entries.find? name = some node) :
    node.isTidy = true := by
  induction entries with
  | nil => cases found
  | cons entry rest ih =>
    simp only [areTidy, Bool.and_eq_true] at tidy
    unfold Entries.find? at found
    split at found
    · cases found
      exact tidy.1.2
    · exact ih tidy.2 found

theorem isTidy_of_get? {node found : Node} {place : Location} (tidy : node.isTidy = true)
    (there : node.get? place = some found) : found.isTidy = true := by
  induction place generalizing node with
  | nil =>
    cases there
    exact tidy
  | cons name place ih =>
    cases node with
    | directory mode modified entries =>
      simp only [Node.get?] at there
      split at there
      · rename_i child stands
        exact ih (isTidy_of_find? tidy stands) there
      · cases there
    | _ => cases there

theorem names_of_readDirectory {files : FileSystem} {path : Path} {entries : List (Name × Kind)}
    (tidy : files.root.isTidy = true) (read : files.readDirectory path = .ok entries) :
    (entries.map Prod.fst).Nodup ∧ ∀ entry ∈ entries, entry.1.Proper := by
  obtain ⟨mode, modified, nodes, stands, rfl⟩ := readDirectory_iff.mp read
  obtain ⟨place, _, there⟩ := status_iff.mp stands
  obtain ⟨apart, proper⟩ := names_of_areTidy (isTidy_of_get? tidy there)
  constructor
  · simpa [Function.comp_def] using apart
  · intro entry present
    obtain ⟨node, among, rfl⟩ := List.mem_map.mp present
    exact proper node among

end FileSystem

namespace Scan

variable {scene : Scene} {roots : List Path} {workers capacity : Nat} {state : State}
  {events : List Event} {root : Path} {job child : Job} {depth deep : Nat}

namespace Job

def pushed? (scene : Scene) (job : Job) (entry : Entry) : Option Job :=
  if EntryClass.ofEntry entry.1.display entry.2 = .descend ∧
      withinDepth (job.depth + 1) scene.depthLimit = true then
    some (job.child (job.path.child entry.1))
  else none

def below (scene : Scene) (job : Job) : List Job :=
  match scene.files.readDirectory job.path with
  | .ok entries => entries.filterMap (job.pushed? scene)
  | .error _ => []

def generation (scene : Scene) (job : Job) : Nat → List Job
  | 0 => [job]
  | depth + 1 => (generation scene job depth).flatMap (below scene)

def reach (scene : Scene) (job : Job) : Nat → List Job
  | 0 => []
  | deep + 1 => reach scene job deep ++ generation scene job deep

theorem mem_below : child ∈ job.below scene ↔
    ∃ name, scene.files.Lists job.path (name, .directory) ∧
      EntryClass.ofEntry name.display .directory = .descend ∧
      withinDepth (job.depth + 1) scene.depthLimit = true ∧
      child = job.child (job.path.child name) := by
  unfold below FileSystem.Lists
  constructor
  · intro present
    split at present
    · rename_i entries read
      obtain ⟨⟨name, kind⟩, listed, pushed⟩ := List.mem_filterMap.mp present
      unfold pushed? at pushed
      split at pushed
      · rename_i descends
        cases pushed
        obtain rfl := EntryClass.of_descend descends.1
        exact ⟨name, ⟨entries, read, listed⟩, descends.1, descends.2, rfl⟩
      · cases pushed
    · cases present
  · rintro ⟨name, ⟨entries, read, listed⟩, descends, within, rfl⟩
    simp only [read]
    exact List.mem_filterMap.mpr ⟨_, listed, by simp [pushed?, descends, within]⟩

theorem depth_of_below (present : child ∈ job.below scene) : child.depth = job.depth + 1 := by
  obtain ⟨_, _, _, _, rfl⟩ := mem_below.mp present
  rfl

theorem mem_generation : job ∈ (ofRoot root).generation scene depth ↔
    job.depth = depth ∧ withinDepth depth scene.depthLimit = true ∧
      Below scene.files root depth job.path := by
  induction depth generalizing job with
  | zero =>
    obtain ⟨path, depth⟩ := job
    simp only [generation, List.mem_singleton, ofRoot, Job.mk.injEq]
    constructor
    · rintro ⟨rfl, rfl⟩
      exact ⟨rfl, by simp [withinDepth], .root⟩
    · rintro ⟨same, _, below⟩
      cases below
      exact ⟨rfl, same⟩
  | succ depth ih =>
    simp only [generation, List.mem_flatMap, ih, mem_below]
    constructor
    · rintro ⟨above, ⟨placed, _, below⟩, name, lists, descends, within, rfl⟩
      rw [placed] at within
      exact ⟨congrArg (· + 1) placed, within, below.child lists descends⟩
    · rintro ⟨placed, within, below⟩
      obtain ⟨path, steps⟩ := job
      cases below with
      | @child _ above name higher lists descends =>
        obtain rfl : steps = depth + 1 := placed
        exact ⟨⟨above, depth⟩, ⟨rfl, withinDepth_of_succ within, higher⟩, name, lists, descends,
          within, rfl⟩

theorem mem_reach : job ∈ (ofRoot root).reach scene deep ↔
    job.depth < deep ∧ withinDepth job.depth scene.depthLimit = true ∧
      Below scene.files root job.depth job.path := by
  induction deep with
  | zero => simp [reach]
  | succ deep ih =>
    rw [reach, List.mem_append, ih, mem_generation]
    constructor
    · rintro (⟨less, within, below⟩ | ⟨rfl, within, below⟩)
      · exact ⟨Nat.lt_succ_of_lt less, within, below⟩
      · exact ⟨Nat.lt_succ_self _, within, below⟩
    · rintro ⟨less, within, below⟩
      rcases Nat.lt_succ_iff_lt_or_eq.mp less with less | rfl
      · exact .inl ⟨less, within, below⟩
      · exact .inr ⟨rfl, within, below⟩

theorem generation_along (tidy : scene.files.root.isTidy = true)
    (present : job ∈ (ofRoot root).generation scene depth) :
    ∃ names, names.length = depth ∧ (∀ name ∈ names, name.Proper) ∧
      job.path = root.along names := by
  induction depth generalizing job with
  | zero =>
    obtain rfl := List.mem_singleton.mp present
    exact ⟨[], rfl, by simp, rfl⟩
  | succ depth ih =>
    obtain ⟨above, placed, among⟩ := List.mem_flatMap.mp present
    obtain ⟨names, length, proper, spelled⟩ := ih placed
    obtain ⟨name, ⟨entries, read, listed⟩, _, _, rfl⟩ := mem_below.mp among
    have also := (names_of_readDirectory tidy read).2 _ listed
    refine ⟨names ++ [name], by simp [length], ?_, ?_⟩
    · simpa [or_imp, forall_and] using ⟨proper, also⟩
    · rw [Path.along_concat, ← spelled]
      rfl

theorem below_nodup (tidy : scene.files.root.isTidy = true) (job : Job) :
    ((job.below scene).map Job.path).Nodup := by
  unfold below
  split
  · rename_i entries read
    obtain ⟨apart, proper⟩ := names_of_readDirectory tidy read
    rw [List.Nodup, List.pairwise_map, List.pairwise_filterMap]
    refine (List.pairwise_map.mp apart).imp_of_mem ?_
    intro one other listed also differ child pushed child' pushed' same
    have spelled {entry : Entry} {child : Job} (pushed : job.pushed? scene entry = some child) :
        child.path = job.path.along [entry.1] := by
      unfold pushed? at pushed
      split at pushed <;> cases pushed
      rfl
    rw [spelled pushed, spelled pushed'] at same
    have names := Path.along_injective (by simpa using proper one listed)
      (by simpa using proper other also) same
    exact differ (List.singleton_inj.mp names)
  · exact List.nodup_nil

theorem generation_nodup (tidy : scene.files.root.isTidy = true) (root : Path) (depth : Nat) :
    (((ofRoot root).generation scene depth).map Job.path).Nodup := by
  induction depth with
  | zero => simp [generation]
  | succ depth ih =>
    rw [generation, List.map_flatMap, List.nodup_flatMap]
    refine ⟨fun job _ => below_nodup tidy job, ?_⟩
    refine (List.pairwise_map.mp ih).imp_of_mem ?_
    intro one other placed also differ path among among'
    obtain ⟨names, _, proper, spelled⟩ := generation_along tidy placed
    obtain ⟨names', _, proper', spelled'⟩ := generation_along tidy also
    obtain ⟨child, present, rfl⟩ := List.mem_map.mp among
    obtain ⟨child', present', same⟩ := List.mem_map.mp among'
    obtain ⟨name, ⟨entries, read, listed⟩, _, _, rfl⟩ := mem_below.mp present
    obtain ⟨name', ⟨entries', read', listed'⟩, _, _, rfl⟩ := mem_below.mp present'
    have trunks := congrArg Path.trunk same
    simp only [child, Path.trunk_child ((names_of_readDirectory tidy read).2 _ listed),
      Path.trunk_child ((names_of_readDirectory tidy read').2 _ listed'), spelled, spelled',
      Path.trunk_along proper, Path.trunk_along proper'] at trunks
    have chains : names' = names :=
      List.append_cancel_left (List.append_inj_left' trunks rfl)
    exact differ (by rw [spelled, spelled', chains])

theorem reach_nodup (tidy : scene.files.root.isTidy = true) (root : Path) (deep : Nat) :
    (((ofRoot root).reach scene deep).map Job.path).Nodup := by
  induction deep with
  | zero => simp [reach]
  | succ deep ih =>
    rw [reach, List.map_append, List.nodup_append']
    refine ⟨ih, generation_nodup tidy root deep, ?_⟩
    intro path early late
    obtain ⟨job, reached, rfl⟩ := List.mem_map.mp early
    obtain ⟨job', placed, same⟩ := List.mem_map.mp late
    obtain ⟨less, within, below⟩ := mem_reach.mp reached
    obtain ⟨names, length, proper, spelled⟩ :=
      generation_along tidy (mem_generation.mpr ⟨rfl, within, below⟩)
    obtain ⟨names', length', proper', spelled'⟩ := generation_along tidy placed
    rw [spelled, spelled'] at same
    have chains := Path.along_injective proper' proper same
    rw [chains] at length'
    omega

end Job

def Tally.times (job : Job) : Tally where
  read := 0
  skipped := 0
  accepted other := if other = job then 1 else 0

theorem Tally.times_jobs (job : Job) (jobs : List Job) :
    (Tally.times job).jobs jobs = jobs.count job := by
  induction jobs with
  | nil => rfl
  | cons first rest ih =>
    rw [jobs_cons, ih, List.count_cons]
    simp [times, Nat.add_comm]

theorem Tally.times_entries (job above : Job) (entries : List Entry) :
    (Tally.times job).entries scene above entries =
      (entries.filterMap (above.pushed? scene)).count job := by
  induction entries with
  | nil => rfl
  | cons entry rest ih =>
    have here : (Tally.times job).entry scene above entry =
        (above.pushed? scene entry).toList.count job := by
      unfold Tally.entry Job.pushed?
      split
      · simp [*]
      · rename_i descends
        split <;> simp_all [times, List.count_singleton]
      · simp_all [times]
    rw [entries_cons, ih, here]
    cases pushed : above.pushed? scene entry <;> simp [pushed, List.count_cons, Nat.add_comm]

theorem Tally.times_directories (job : Job) (jobs : List Job) :
    (Tally.times job).directories scene jobs = (jobs.flatMap (Job.below scene)).count job := by
  induction jobs with
  | nil => rfl
  | cons above rest ih =>
    have here : (Tally.times job).directory scene above = (above.below scene).count job := by
      unfold Tally.directory Job.below
      cases scene.files.readDirectory above.path with
      | ok entries => exact (Nat.zero_add _).trans (times_entries job above entries)
      | error failure => rfl
    rw [directories_cons, ih, here, List.flatMap_cons, List.count_append]

-- What a whole scan accepts are the jobs for its roots, and those below what it accepts.
theorem Exhaustive.accepted_below (full : Exhaustive scene roots workers capacity events state) :
    (accepted (State.initial roots workers capacity) events).Perm
      (roots.map Job.ofRoot ++
        (accepted (State.initial roots workers capacity) events).flatMap (Job.below scene)) := by
  apply List.perm_iff_count.mpr
  intro job
  have settled := full.settled (.times job)
  rw [Tally.times_jobs, Tally.times_jobs, Tally.times_directories] at settled
  rw [List.count_append, ← settled]
  simp [Tally.counters, Tally.times]

theorem filter_below (jobs : List Job) (depth : Nat) :
    (jobs.flatMap (Job.below scene)).filter (·.depth = depth + 1) =
      (jobs.filter (·.depth = depth)).flatMap (Job.below scene) := by
  induction jobs with
  | nil => rfl
  | cons job rest ih =>
    have here : (job.below scene).filter (·.depth = depth + 1) =
        if job.depth = depth then job.below scene else [] := by
      split
      · rename_i placed
        apply List.filter_eq_self.mpr
        intro child present
        simp [Job.depth_of_below present, placed]
      · rename_i elsewhere
        apply List.filter_eq_nil_iff.mpr
        intro child present
        simp [Job.depth_of_below present, elsewhere]
    rw [List.flatMap_cons, List.filter_append, ih, here]
    by_cases placed : job.depth = depth <;> simp [placed]

-- The induction is on the depth. Only the roots lie at its start, and none of them lies deeper.
theorem Exhaustive.generation_perm (full : Exhaustive scene roots workers capacity events state)
    (depth : Nat) :
    ((accepted (State.initial roots workers capacity) events).filter (·.depth = depth)).Perm
      ((roots.map Job.ofRoot).flatMap (Job.generation scene · depth)) := by
  have split := full.accepted_below.filter (·.depth = depth)
  rw [List.filter_append] at split
  induction depth with
  | zero =>
    have atStart : (roots.map Job.ofRoot).filter (·.depth = 0) = roots.map Job.ofRoot := by
      simp [Job.ofRoot]
    have deeper : ((accepted (State.initial roots workers capacity) events).flatMap
        (Job.below scene)).filter (·.depth = 0) = [] := by
      apply List.filter_eq_nil_iff.mpr
      intro child present
      obtain ⟨job, _, below⟩ := List.mem_flatMap.mp present
      simp [Job.depth_of_below below]
    rw [atStart, deeper, List.append_nil] at split
    simpa [Job.generation] using split
  | succ depth ih =>
    have atStart : (roots.map Job.ofRoot).filter (·.depth = depth + 1) = [] := by
      simp [Job.ofRoot]
    rw [atStart, filter_below, List.nil_append] at split
    have above := full.accepted_below.filter (·.depth = depth)
    rw [List.filter_append] at above
    have next := (ih above).flatMap_right (Job.below scene)
    rw [List.flatMap_assoc] at next
    exact split.trans next

theorem Exhaustive.reach_perm (full : Exhaustive scene roots workers capacity events state)
    (deep : Nat) :
    ((accepted (State.initial roots workers capacity) events).filter (·.depth < deep)).Perm
      ((roots.map Job.ofRoot).flatMap (Job.reach scene · deep)) := by
  induction deep with
  | zero => simp [Job.reach]
  | succ deep ih =>
    have split := List.filter_append_perm (·.depth < deep)
      ((accepted (State.initial roots workers capacity) events).filter (·.depth < deep + 1))
    have nearer (job : Job) :
        (decide (job.depth < deep) && decide (job.depth < deep + 1)) = decide (job.depth < deep) := by
      grind
    have last (job : Job) :
        (!decide (job.depth < deep) && decide (job.depth < deep + 1)) =
          decide (job.depth = deep) := by
      grind
    simp only [List.filter_filter, nearer, last] at split
    refine (split.symm.trans (ih.append (full.generation_perm deep))).trans ?_
    exact List.flatMap_append_perm _ _ _

theorem Exhaustive.accepted_reach (full : Exhaustive scene roots workers capacity events state) :
    ∃ deep, (∀ job ∈ accepted (State.initial roots workers capacity) events, job.depth < deep) ∧
      (accepted (State.initial roots workers capacity) events).Perm
        ((roots.map Job.ofRoot).flatMap (Job.reach scene · deep)) := by
  obtain ⟨deep, bound⟩ : ∃ deep, ∀ job ∈ accepted (State.initial roots workers capacity) events,
      job.depth < deep := by
    refine ⟨((accepted (State.initial roots workers capacity) events).map
      Job.depth).max?.getD 0 + 1, ?_⟩
    intro job present
    exact Nat.lt_succ_of_le (List.le_max?_getD_of_mem (List.mem_map_of_mem present))
  refine ⟨deep, bound, ?_⟩
  have all : (accepted (State.initial roots workers capacity) events).filter (·.depth < deep) =
      accepted (State.initial roots workers capacity) events := by
    apply List.filter_eq_self.mpr
    intro job present
    simpa using bound job present
  have reached := full.reach_perm deep
  rwa [all] at reached

end Scan

end RepoFinder
