import RepoFinder.Proofs.FileSystem.Detours

namespace RepoFinder

open RepoFinder.Path FileSystem

namespace Path

variable {list : List Component} {ground base : Ground} {names others : List Name}

theorem Grounded.ground_eq_root (grounded : Grounded list ground names) :
    ground = .root ↔ .root ∈ list := by
  constructor
  · rintro rfl
    rw [grounded.spelled]
    exact List.mem_append_left _ (List.mem_singleton_self _)
  · intro present
    rcases grounded.mem present with ⟨_, same⟩ | never | ⟨_, _, never⟩
    · exact same
    · cases never
    · cases never

theorem Grounded.count_parent (grounded : Grounded list ground names) :
    ground = .above (list.count .parent) ∨ ground = .root := by
  cases ground with
  | root => exact .inr rfl
  | above steps =>
    have named : (names.map Component.name).count .parent = 0 := by
      simp [List.count_eq_zero]
    have counted : list.count .parent = steps := by
      rw [grounded.spelled, List.count_append, named, Ground.components]
      simp
    exact .inl (by rw [counted])

theorem Grounded.unique (grounded : Grounded list ground names) (also : Grounded list base others) :
    ground = base ∧ names = others := by
  have same : ground = base := by
    by_cases root : Component.root ∈ list
    · rw [grounded.ground_eq_root.mpr root, also.ground_eq_root.mpr root]
    · have here := grounded.count_parent.resolve_right (root ∘ grounded.ground_eq_root.mp)
      have there := also.count_parent.resolve_right (root ∘ also.ground_eq_root.mp)
      rw [here, there]
  subst same
  have spelled := grounded.spelled.symm.trans also.spelled
  exact ⟨rfl, List.map_injective_iff.mpr (fun _ _ same => Component.name.inj same)
    (List.append_cancel_left spelled)⟩

theorem Grounded.append (grounded : Grounded list ground names)
    (proper : ∀ name ∈ others, name.Proper) :
    Grounded (list ++ others.map .name) ground (names ++ others) where
  spelled := by rw [grounded.spelled, List.map_append, List.append_assoc]
  proper := List.forall_mem_append.mpr ⟨grounded.proper, proper⟩

theorem steps_whole {name : Name} (proper : name.Proper) :
    (⟨name⟩ : Path).steps = [.name name] := by
  rw [steps_eq, isAbsolute_whole proper.whole, segments, segmentsOf_whole proper.whole,
    List.filterMap_cons_some (component?_name proper)]
  rfl

theorem steps_along (proper : ∀ name ∈ names, name.Proper) (folder : Path) :
    (folder.along names).steps = folder.steps ++ names.map .name := by
  induction names generalizing folder with
  | nil => simp [along]
  | cons name rest ih =>
    obtain ⟨here, later⟩ := List.forall_mem_cons.mp proper
    have deeper := ih later (folder.child name)
    rw [child, steps_join (isAbsolute_whole here.whole), steps_whole here, List.append_assoc] at deeper
    exact deeper

theorem Grounded.along {folder : Path}
    (grounded : Grounded (cleanComponents folder.components) ground names)
    (cleaned : folder.clean = folder) (proper : ∀ name ∈ others, name.Proper) :
    Grounded (cleanComponents (folder.along others).components) ground (names ++ others) := by
  have pushed := grounded.append proper
  have steps : folder.steps = cleanComponents folder.components := by
    rw [← steps_clean, cleaned]
  rw [cleanComponents_steps, steps_along proper, steps, pushed.cleanComponents_eq]
  exact pushed

end Path

namespace FileSystem

variable {fs : FileSystem} {p : Path} {location goal : Location} {list : List Component}
  {ground : Ground} {names : List Name}

def originOf (location : Location) : Ground → Location
  | .root => []
  | .above steps => List.dropLast^[steps] location

theorem Strides.goal_eq {step : Location → Component → Option Location} (strides : Strides step)
    (grounded : Grounded list ground names) (walked : list.foldlM step location = some goal) :
    goal = originOf location ground ++ names := by
  have named (names : List Name) (location : Location)
      (walked : (names.map Component.name).foldlM step location = some goal) :
      goal = location ++ names := by
    induction names generalizing location with
    | nil =>
      rw [List.append_nil]
      exact (Option.some.inj walked).symm
    | cons name rest ih =>
      obtain ⟨next, went, after⟩ := Option.bind_eq_some_iff.mp walked
      rw [ih next after, strides.name _ _ _ went, List.append_assoc]
      rfl
  have raised (steps : Nat) (location middle : Location)
      (walked : (List.replicate steps Component.parent).foldlM step location = some middle) :
      middle = List.dropLast^[steps] location := by
    induction steps generalizing location with
    | zero => exact (Option.some.inj walked).symm
    | succ steps ih =>
      obtain ⟨next, went, after⟩ := Option.bind_eq_some_iff.mp walked
      rw [ih next after, strides.parent _ _ went]
      rfl
  rw [grounded.spelled, List.foldlM_append] at walked
  obtain ⟨middle, before, after⟩ := Option.bind_eq_some_iff.mp walked
  rw [named names middle after]
  congr 1
  cases ground with
  | root =>
    obtain ⟨next, went, stays⟩ := Option.bind_eq_some_iff.mp before
    obtain rfl := strides.root _ _ went
    exact (Option.some.inj stays).symm
  | above steps => exact raised steps location middle before

theorem LeadsPlainly.goal_eq (leads : fs.LeadsPlainly p goal)
    (grounded : Grounded (cleanComponents p.components) ground names) :
    goal = originOf fs.current ground ++ names := by
  have walked := (systemStep_strides fs.root).clean leads.steps.1
  rw [← cleanComponents_steps] at walked
  exact (systemStep_strides fs.root).goal_eq grounded walked

-- An absolute path that meets no link spells the place where it leads, and so has its key.
theorem clean_of_plainly (absolute : p.isAbsolute = true) (walked : fs.plainly p = some goal) :
    p.clean = goal.toPath := by
  obtain ⟨ground, names, grounded, rooted, _⟩ := p.clean_grounded
  obtain rfl := rooted.mpr absolute
  have cleaned := (plainStep_strides fs.root).clean walked
  have led := (plainStep_strides fs.root).goal_eq grounded cleaned
  rw [originOf, List.nil_append] at led
  have spelled := grounded.spelled
  rw [clean_eq, spelled, if_neg (by simp [Ground.components]), led]
  rfl

end FileSystem

end RepoFinder
