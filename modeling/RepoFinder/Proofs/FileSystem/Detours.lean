import RepoFinder.Proofs.FileSystem.Ways
import RepoFinder.Proofs.Path.NormalForm

namespace RepoFinder.FileSystem

open RepoFinder.Path

variable {root : Node} {current location goal : Location} {list next : List Component}
  {segments names : List Name} {segment : Name} {ground : Ground} {fs : FileSystem} {p : Path}

structure Strides (step : Location → Component → Option Location) : Prop where
  root : ∀ location next, step location .root = some next → next = []
  here : ∀ location next, step location .here = some next → next = location
  parent : ∀ location next, step location .parent = some next → next = location.dropLast
  name : ∀ location name next, step location (.name name) = some next → next = location ++ [name]

theorem Strides.shortens {step : Location → Component → Option Location} (strides : Strides step)
    (shortens : Shortens list next) (walked : list.foldlM step location = some goal) :
    next.foldlM step location = some goal := by
  cases shortens with
  | dot front back =>
    rw [List.foldlM_append] at walked ⊢
    obtain ⟨middle, before, walked⟩ := Option.bind_eq_some_iff.mp walked
    obtain ⟨_, stayed, after⟩ := Option.bind_eq_some_iff.mp walked
    obtain rfl := strides.here _ _ stayed
    exact Option.bind_eq_some_iff.mpr ⟨_, before, after⟩
  | cancel front name back =>
    rw [List.foldlM_append] at walked ⊢
    obtain ⟨middle, before, walked⟩ := Option.bind_eq_some_iff.mp walked
    obtain ⟨_, went, walked⟩ := Option.bind_eq_some_iff.mp walked
    obtain ⟨_, returned, after⟩ := Option.bind_eq_some_iff.mp walked
    obtain rfl := strides.name _ _ _ went
    obtain rfl := strides.parent _ _ returned
    rw [List.dropLast_concat] at after
    exact Option.bind_eq_some_iff.mpr ⟨_, before, after⟩
  | atRoot front back =>
    rw [List.foldlM_append] at walked ⊢
    obtain ⟨middle, before, walked⟩ := Option.bind_eq_some_iff.mp walked
    obtain ⟨_, top, walked⟩ := Option.bind_eq_some_iff.mp walked
    obtain ⟨_, stayed, after⟩ := Option.bind_eq_some_iff.mp walked
    obtain rfl := strides.root _ _ top
    obtain rfl := strides.parent _ _ stayed
    exact Option.bind_eq_some_iff.mpr ⟨_, before, Option.bind_eq_some_iff.mpr ⟨_, top, after⟩⟩

theorem Strides.clean {step : Location → Component → Option Location} (strides : Strides step)
    (walked : list.foldlM step location = some goal) :
    (cleanComponents list).foldlM step location = some goal := by
  have reduces := reduces_clean list
  generalize cleanComponents list = last at reduces
  induction reduces with
  | refl => exact walked
  | tail _ shortens ih => exact strides.shortens shortens ih

-- One component of a walk that meets no link: a dot stays, a parent step goes up, from the root to
-- the root, and a name must be that of an entry.
def plainStep (root : Node) (location : Location) : Component → Option Location
  | .root => some []
  | .here => some location
  | .parent => some location.dropLast
  | .name name => match root.get? (location ++ [name]) with
    | none => none
    | some (.link _) => none
    | some _ => some (location ++ [name])

theorem plainStep_strides (root : Node) : Strides (plainStep root) where
  root _ _ top := (Option.some.inj top).symm
  here _ _ stayed := (Option.some.inj stayed).symm
  parent _ _ up := (Option.some.inj up).symm
  name location name next went := by
    simp only [plainStep] at went
    split at went <;> cases went
    rfl

def plainly (fs : FileSystem) (p : Path) : Option Location :=
  p.components.foldlM (plainStep fs.root) fs.current

theorem plainly_clean (walked : fs.plainly p = some goal) : fs.plainly p.clean = some goal := by
  have cleaned := (plainStep_strides fs.root).clean walked
  unfold plainly
  rw [components_clean]
  split
  · rename_i none
    rw [none] at cleaned
    exact cleaned
  · exact cleaned

def ahead? (root : Node) (location : Location) (segment : Name) : Option Location :=
  match stride? root location segment with
  | some (.ahead next) => some next
  | _ => none

theorem walk_zero_iff : walk root 0 location segments = .ok (.taken goal) ↔
    segments.foldlM (ahead? root) location = some goal := by
  induction segments generalizing location with
  | nil => simp [walk, walkWith]
  | cons segment rest ih =>
    rw [walk, walkWith_cons, List.foldlM_cons, Option.bind_eq_bind, Option.bind_eq_some_iff]
    constructor
    · rintro ⟨stride, made, walked⟩
      cases stride with
      | ahead next => exact ⟨next, by rw [ahead?, made], ih.mp walked⟩
      | behind target => cases walked
    · rintro ⟨next, made, walked⟩
      unfold ahead? at made
      split at made
      · rename_i stride
        cases made
        exact ⟨_, stride, ih.mpr walked⟩
      · cases made

theorem ahead?_trivial (trivial : component? segment = none) :
    ahead? root location segment = some goal ↔
      root.landmarkAt? location = some .directory ∧ goal = location := by
  have dot : (segment = [] || segment = Name.here) = true := by
    unfold component? at trivial
    split at trivial
    · assumption
    · split at trivial <;> cases trivial
  unfold ahead? stride?
  constructor
  · intro made
    cases read : entriesAt root location with
    | error failure => simp [read] at made
    | ok entries =>
      simp only [read, dot, if_true, Option.some.injEq] at made
      exact ⟨landmarkAt?_of_entriesAt read, made.symm⟩
  · rintro ⟨stands, rfl⟩
    obtain ⟨entries, read⟩ := entriesAt_of_landmarkAt? stands
    simp [read, dot]

theorem ahead?_parent (made : ahead? root location Name.parent = some goal) :
    goal = location.dropLast := by
  unfold ahead? stride? at made
  cases read : entriesAt root location with
  | error failure => simp [read] at made
  | ok entries => simpa [read, Name.here, Name.parent] using made.symm

theorem ahead?_name {name : Name} (named : component? segment = some (.name name))
    (made : ahead? root location segment = some goal) : goal = location ++ [segment] := by
  obtain ⟨_, filled, noDot, noDots⟩ := component?_eq_name named
  obtain ⟨rfl, _⟩ := component?_eq_name named
  unfold ahead? stride? at made
  cases read : entriesAt root location with
  | error failure => simp [read] at made
  | ok entries =>
    simp only [read, filled, noDot, noDots, decide_false, Bool.or_self, Bool.false_eq_true,
      if_false] at made
    split at made
    · rename_i stride
      split at stride
      · cases stride
      split at stride <;> cases stride
      cases made
      rfl
    · cases made

-- Where one component leads. The segment of the root is empty, and is taken from the root. What no
-- segment stands for leads nowhere.
def systemStep (root : Node) (location : Location) : Component → Option Location
  | .root => ahead? root [] []
  | .here => ahead? root location Name.here
  | component =>
    if component? (segmentOf component) = some component then
      ahead? root location (segmentOf component)
    else none

theorem systemStep_strides (root : Node) : Strides (systemStep root) where
  root _ _ top := ((ahead?_trivial component?_nil).mp top).2
  here _ _ stayed := ((ahead?_trivial component?_here).mp stayed).2
  parent _ _ up := ahead?_parent up
  name location name next went := by
    simp only [systemStep] at went
    split at went
    · rename_i named
      exact ahead?_name named went
    · cases went

theorem systemStep_component? {component : Component} (read : component? segment = some component) :
    systemStep root location component = ahead? root location segment := by
  unfold component? at read
  split at read
  · cases read
  · split at read
    · rename_i up
      cases read
      subst up
      rfl
    · rename_i filled noDots
      cases read
      have named : component? segment = some (.name segment) := by
        rw [component?, if_neg filled, if_neg noDots]
      rw [systemStep, segmentOf, if_pos named]
      · exact fun never => by cases never
      · exact fun never => by cases never

theorem systemStep_of_ahead? (walked : segments.foldlM (ahead? root) location = some goal) :
    (segments.filterMap component?).foldlM (systemStep root) location = some goal := by
  induction segments generalizing location with
  | nil => exact walked
  | cons segment rest ih =>
    rw [List.foldlM_cons] at walked
    obtain ⟨middle, made, after⟩ := Option.bind_eq_some_iff.mp walked
    cases read : component? segment with
    | none =>
      obtain rfl := ((ahead?_trivial read).mp made).2
      rw [List.filterMap_cons_none read]
      exact ih after
    | some component =>
      rw [List.filterMap_cons_some read, List.foldlM_cons, systemStep_component? read]
      exact Option.bind_eq_some_iff.mpr ⟨middle, made, ih after⟩

theorem ahead?_of_systemStep (noRoot : .root ∉ list)
    (walked : list.foldlM (systemStep root) location = some goal) :
    (list.map segmentOf).foldlM (ahead? root) location = some goal := by
  induction list generalizing location with
  | nil => exact walked
  | cons component rest ih =>
    rw [List.mem_cons, not_or] at noRoot
    rw [List.foldlM_cons] at walked
    obtain ⟨middle, made, after⟩ := Option.bind_eq_some_iff.mp walked
    rw [List.map_cons, List.foldlM_cons]
    refine Option.bind_eq_some_iff.mpr ⟨middle, ?_, ih noRoot.2 after⟩
    cases component with
    | root => exact absurd rfl noRoot.1
    | here => exact made
    | parent => exact made
    | name name =>
      simp only [systemStep] at made
      split at made
      · exact made
      · cases made

theorem checkPath_iff : checkPath p = .ok () ↔
    0 ∉ p.bytes ∧ p.bytes ≠ [] ∧ p.bytes.length ≤ longestPath := by
  unfold checkPath
  by_cases zero : p.bytes.contains 0 = true
  · rw [if_pos zero]
    simpa using fun never : 0 ∉ p.bytes => absurd (List.contains_iff_mem.mp zero) never
  · rw [if_neg zero]
    have none : 0 ∉ p.bytes := by simpa using zero
    by_cases empty : p.bytes = []
    · simp [empty]
    · by_cases long : longestPath < p.bytes.length
      · simp [empty, long]
      · simp [empty, long, none, Nat.not_lt.mp long]

theorem checkPath_clean (usable : checkPath p = .ok ()) : checkPath p.clean = .ok () := by
  obtain ⟨noZero, filled, short⟩ := checkPath_iff.mp usable
  obtain ⟨ground, names, grounded, _⟩ := p.clean_grounded
  rw [clean_eq]
  split
  · rfl
  rename_i some
  by_cases atRoot : cleanComponents p.components = [.root]
  · rw [atRoot]
    rfl
  have sublist := p.clean_sublist
  have spelled : joinSegments p.segments = p.bytes := joinSegments_segmentsOf p.bytes
  refine checkPath_iff.mpr ⟨?_, grounded.bytes_ne_nil some, ?_⟩
  · rw [ofComponents_of_ne atRoot]
    intro zero
    rcases mem_joinSegments zero with never | ⟨segment, among, inside⟩
    · cases never
    · apply noZero
      rw [← spelled]
      exact subset_joinSegments (sublist.subset among) inside
  · have shorter := length_joinSegments_le sublist
    rw [spelled] at shorter
    rw [ofComponents_of_ne atRoot]
    exact shorter.trans short

structure LeadsPlainly (fs : FileSystem) (p : Path) (goal : Location) : Prop where
  usable : checkPath p = .ok ()
  walked : walk fs.root 0 (startOf fs.current p) p.segments = .ok (.taken goal)

theorem LeadsPlainly.locate (leads : fs.LeadsPlainly p goal) : fs.locate p = .ok goal := by
  have same : ∀ location segment stride, stride? fs.root location segment = some stride →
      stride? fs.root location segment = some stride := fun _ _ _ made => made
  have walked := walk_more same leads.walked mostLinks
  rw [Nat.zero_add] at walked
  exact locate_iff.mpr ⟨leads.usable, walked⟩

theorem LeadsPlainly.steps (leads : fs.LeadsPlainly p goal) :
    p.steps.foldlM (systemStep fs.root) fs.current = some goal ∧
      (p.isAbsolute = false → fs.root.landmarkAt? fs.current = some .directory) := by
  have walked := walk_zero_iff.mp leads.walked
  have on := systemStep_of_ahead? walked
  rw [steps_eq]
  cases absolute : p.isAbsolute with
  | true =>
    obtain ⟨others, segments, _⟩ := p.segmentsOf_head absolute
    rw [startOf, if_pos absolute] at walked on
    rw [segments, List.foldlM_cons] at walked
    obtain ⟨middle, top, _⟩ := Option.bind_eq_some_iff.mp walked
    obtain rfl := ((ahead?_trivial component?_nil).mp top).2
    refine ⟨?_, fun relative => by cases relative⟩
    rw [if_pos rfl, List.singleton_append, List.foldlM_cons]
    exact Option.bind_eq_some_iff.mpr ⟨_, top, on⟩
  | false =>
    rw [startOf, absolute, if_neg (by simp)] at walked on
    refine ⟨on, fun _ => ?_⟩
    cases segments : p.segments with
    | nil => exact absurd segments (segmentsOf_ne_nil p.bytes)
    | cons first others =>
      rw [segments, List.foldlM_cons] at walked
      obtain ⟨middle, made, _⟩ := Option.bind_eq_some_iff.mp walked
      unfold ahead? stride? at made
      cases read : entriesAt fs.root fs.current with
      | error failure => simp [read] at made
      | ok entries => exact landmarkAt?_of_entriesAt read

theorem walked_of_grounded (grounded : Grounded list ground names) (nonempty : list ≠ [])
    (walked : list.foldlM (systemStep root) current = some goal) :
    (ofComponents list).segments.foldlM (ahead? root)
      (if ground = .root then [] else current) = some goal := by
  have tail := grounded.root_not_mem_tail
  cases ground with
  | root =>
    cases list with
    | nil => exact absurd rfl nonempty
    | cons first rest =>
      obtain rfl : first = .root := (List.cons.inj grounded.spelled).1
      rw [List.foldlM_cons] at walked
      obtain ⟨top, made, below⟩ := Option.bind_eq_some_iff.mp walked
      obtain ⟨stands, rfl⟩ := (ahead?_trivial component?_nil).mp made
      rw [if_pos rfl]
      by_cases atRoot : rest = []
      · subst atRoot
        cases below
        have again : ahead? root [] [] = some [] := made
        simp [ofComponents, Path.segments, segmentsOf, again]
      · rw [grounded.segments_eq nonempty (by simpa using atRoot), List.map_cons, List.foldlM_cons]
        exact Option.bind_eq_some_iff.mpr ⟨_, made, ahead?_of_systemStep tail below⟩
  | above steps =>
    have noRoot : .root ∉ list := by
      intro present
      rcases grounded.mem present with ⟨_, never⟩ | never | ⟨_, _, never⟩ <;> cases never
    have other : list ≠ [.root] := fun atRoot => noRoot (by simp [atRoot])
    rw [if_neg (by simp), grounded.segments_eq nonempty other]
    exact ahead?_of_systemStep noRoot walked

theorem LeadsPlainly.clean (leads : fs.LeadsPlainly p goal) : fs.LeadsPlainly p.clean goal := by
  obtain ⟨walked, home⟩ := leads.steps
  obtain ⟨ground, names, grounded, rooted, _⟩ := p.clean_grounded
  refine ⟨checkPath_clean leads.usable, walk_zero_iff.mpr ?_⟩
  have cleaned := (systemStep_strides fs.root).clean walked
  rw [← cleanComponents_steps] at cleaned
  rw [startOf, isAbsolute_clean, clean_eq]
  by_cases none : cleanComponents p.components = []
  · rw [none] at cleaned grounded
    cases cleaned
    have relative : p.isAbsolute = false := by
      rw [← Bool.not_eq_true, ← rooted]
      rintro rfl
      cases grounded.spelled
    have stays := (ahead?_trivial component?_here).mpr ⟨home relative, rfl⟩
    rw [if_pos none, relative, if_neg (by simp)]
    exact Option.bind_eq_some_iff.mpr ⟨_, stays, rfl⟩
  · have leads := walked_of_grounded grounded none cleaned
    simpa only [rooted, if_neg none] using leads

-- Where a path leads component by component without meeting a link, its cleaned form leads, again
-- without one. And so for the walks of the system, which want directories before dots and at the
-- end of a path that ends in a separator: the cleaned path is found where the path itself is.
theorem clean_leads_there (fs : FileSystem) (p : Path) (goal : Location) :
    (fs.plainly p = some goal → fs.plainly p.clean = some goal) ∧
    (fs.LeadsPlainly p goal → fs.LeadsPlainly p.clean goal ∧ fs.locate p = .ok goal ∧
      fs.locate p.clean = .ok goal ∧ fs.status p.clean = fs.status p) := by
  refine ⟨plainly_clean, ?_⟩
  intro leads
  have before := leads.locate
  have after := leads.clean.locate
  refine ⟨leads.clean, before, after, ?_⟩
  rw [status, status, before, after]

def shallowFiles : FileSystem :=
  let folder : Name × Node := (Text.Utf8.ofString "a", .directory 0o755 .epoch [])
  let file : Name × Node := (Text.Utf8.ofString "f", .file [] 0o644)
  ⟨.directory 0o755 .epoch [(Text.Utf8.ofString "w", .directory 0o755 .epoch [folder, file])],
    [Text.Utf8.ofString "w"]⟩

def roundaboutPath : Path := Path.ofString "../../w//a/.././f"

theorem clean_leads_there_roundabout :
    roundaboutPath.clean = Path.ofString "../../w/f" ∧
      shallowFiles.plainly roundaboutPath.clean = some (["w", "f"].map Text.Utf8.ofString) ∧
      shallowFiles.locate roundaboutPath.clean = .ok (["w", "f"].map Text.Utf8.ofString) ∧
      shallowFiles.status roundaboutPath.clean = shallowFiles.status roundaboutPath := by
  obtain ⟨plain, plainly⟩ := clean_leads_there shallowFiles roundaboutPath
    (["w", "f"].map Text.Utf8.ofString)
  obtain ⟨_, _, located, same⟩ := plainly ⟨rfl, rfl⟩
  exact ⟨rfl, plain rfl, located, same⟩

end RepoFinder.FileSystem
