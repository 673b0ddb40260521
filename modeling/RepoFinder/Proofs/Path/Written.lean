import RepoFinder.Proofs.Path.Segments

namespace RepoFinder.Path

-- What the names of a path without detours stand on: the root, or so many parent steps.
inductive Ground where
  | root
  | above (steps : Nat)
deriving DecidableEq

def Ground.components : Ground → List Component
  | root => [.root]
  | above steps => List.replicate steps .parent

structure Grounded (list : List Component) (ground : Ground) (names : List Name) : Prop where
  spelled : list = ground.components ++ names.map .name
  proper : ∀ name ∈ names, name.Proper

variable {list : List Component} {ground : Ground} {segments names : List Name} {name : Name}
  {component : Component}

theorem ofComponents_of_ne (other : list ≠ [.root]) :
    ofComponents list = ⟨joinSegments (list.map segmentOf)⟩ := by
  unfold ofComponents
  split
  · exact absurd rfl other
  · rfl

theorem joinSegments_concat (some : segments ≠ []) (name : Name) :
    joinSegments (segments ++ [name]) = joinSegments segments ++ separator :: name := by
  induction segments with
  | nil => exact absurd rfl some
  | cons first others ih =>
    cases others with
    | nil => rfl
    | cons second more =>
      have filled : second :: more ≠ [] := by simp
      rw [List.cons_append, joinSegments_cons (by simp), ih filled, joinSegments_cons filled,
        List.append_assoc, List.cons_append]

namespace Grounded

variable (grounded : Grounded list ground names)

include grounded

theorem mem (present : component ∈ list) :
    (component = .root ∧ ground = .root) ∨ component = .parent ∨
      ∃ name, name.Proper ∧ component = .name name := by
  rw [grounded.spelled, List.mem_append] at present
  rcases present with base | named
  · cases ground with
    | root => exact .inl ⟨List.mem_singleton.mp base, rfl⟩
    | above steps => exact .inr (.inl (List.eq_of_mem_replicate base))
  · obtain ⟨name, listed, rfl⟩ := List.mem_map.mp named
    exact .inr (.inr ⟨name, grounded.proper name listed, rfl⟩)

theorem root_not_mem_tail : .root ∉ list.tail := by
  rw [grounded.spelled]
  cases ground with
  | root => simp [Ground.components]
  | above steps =>
    intro present
    simpa [Ground.components] using List.mem_of_mem_tail present

theorem whole : ∀ segment ∈ list.map segmentOf, separator ∉ segment := by
  intro segment present
  obtain ⟨component, among, rfl⟩ := List.mem_map.mp present
  rcases grounded.mem among with ⟨rfl, _⟩ | rfl | ⟨name, proper, rfl⟩
  · exact List.not_mem_nil
  · decide
  · exact proper.whole

theorem eq_root_of_empty (present : component ∈ list) (empty : segmentOf component = []) :
    component = .root ∧ ground = .root := by
  rcases grounded.mem present with root | rfl | ⟨name, proper, rfl⟩
  · exact root
  · cases empty
  · exact absurd empty proper.filled

theorem filled : [] ∉ (list.map segmentOf).tail := by
  rw [← List.map_tail]
  intro present
  obtain ⟨component, among, empty⟩ := List.mem_map.mp present
  obtain ⟨rfl, _⟩ := grounded.eq_root_of_empty (List.mem_of_mem_tail among) empty
  exact grounded.root_not_mem_tail among

theorem segments_eq (nonempty : list ≠ []) (other : list ≠ [.root]) :
    (ofComponents list).segments = list.map segmentOf := by
  rw [ofComponents_of_ne other]
  exact segmentsOf_joinSegments (by simpa using nonempty) grounded.whole

theorem isAbsolute_eq : (ofComponents list).isAbsolute = decide (ground = .root) := by
  rw [Bool.eq_iff_iff, decide_eq_true_eq]
  constructor
  · intro absolute
    obtain ⟨others, segments, _⟩ := segmentsOf_head _ absolute
    by_cases atRoot : list = [.root]
    · have root : Component.root ∈ list := by simp [atRoot]
      exact (grounded.eq_root_of_empty root rfl).2
    cases list with
    | nil => cases absolute
    | cons first rest =>
      rw [grounded.segments_eq (by simp) atRoot, List.map_cons, List.cons.injEq] at segments
      exact (grounded.eq_root_of_empty (List.mem_cons_self ..) segments.1).2
  · rintro rfl
    rw [grounded.spelled]
    cases names <;> rfl

theorem filterMap_eq :
    (if ground = .root then [.root] else []) ++
      (list.map segmentOf).filterMap component? = list := by
  have read (list : List Component) (noRoot : ∀ component ∈ list, component = .parent ∨
      ∃ name, name.Proper ∧ component = .name name) :
      (list.map segmentOf).filterMap component? = list := by
    induction list with
    | nil => rfl
    | cons first rest ih =>
      obtain ⟨here, later⟩ := List.forall_mem_cons.mp noRoot
      have reads : component? (segmentOf first) = some first := by
        rcases here with rfl | ⟨name, proper, rfl⟩
        · rfl
        · exact component?_name proper
      rw [List.map_cons, List.filterMap_cons_some reads, ih later]
  have spelled := grounded.spelled
  cases ground with
  | root =>
    rw [if_pos rfl, spelled, Ground.components, List.singleton_append, List.singleton_append,
      List.map_cons, List.filterMap_cons_none (show component? (segmentOf .root) = none from rfl)]
    congr 1
    apply read
    intro component present
    obtain ⟨name, listed, rfl⟩ := List.mem_map.mp present
    exact .inr ⟨name, grounded.proper name listed, rfl⟩
  | above steps =>
    rw [if_neg (by simp), List.nil_append]
    apply read
    intro component present
    rcases grounded.mem present with ⟨_, never⟩ | other
    · cases never
    · exact other

theorem head?_ne_here (nonempty : list ≠ []) (other : list ≠ [.root]) :
    (ofComponents list).segments.head? ≠ some Name.here := by
  rw [grounded.segments_eq nonempty other, List.head?_map]
  intro dot
  obtain ⟨first, head, same⟩ := Option.map_eq_some_iff.mp dot
  rcases grounded.mem (List.mem_of_head? head) with ⟨rfl, _⟩ | rfl | ⟨name, proper, rfl⟩
  · cases same
  · cases same
  · exact proper.noDot same

theorem components_eq (nonempty : list ≠ []) : (ofComponents list).components = list := by
  by_cases atRoot : list = [.root]
  · rw [atRoot]
    rfl
  have whole := grounded.filterMap_eq
  rw [Path.components_eq, grounded.isAbsolute_eq, if_neg (grounded.head?_ne_here nonempty atRoot),
    grounded.segments_eq nonempty atRoot]
  simpa using whole

omit grounded in
theorem mem_tail_of_append (front : List UInt8) {back : List UInt8} (present : [] ∈ segmentsOf back) :
    [] ∈ (segmentsOf (front ++ separator :: back)).tail := by
  rw [segmentsOf_append]
  cases some : segmentsOf front with
  | nil => exact absurd some (segmentsOf_ne_nil front)
  | cons first others => exact List.mem_append_right others present

theorem undoubled : ¬ [separator, separator] <:+: (ofComponents list).bytes := by
  rintro ⟨front, back, doubled⟩
  by_cases none : list = []
  · have length := congrArg List.length doubled
    simp [none, ofComponents, joinSegments] at length
  by_cases atRoot : list = [.root]
  · have length := congrArg List.length doubled
    simp [atRoot, ofComponents] at length
    omega
  apply grounded.filled
  rw [← grounded.segments_eq none atRoot, segments, ← doubled, List.append_assoc]
  apply mem_tail_of_append front
  simp [segmentsOf]

theorem unended (other : list ≠ [.root]) :
    (ofComponents list).bytes.getLast? ≠ some separator := by
  intro ends
  by_cases none : list = []
  · rw [none] at ends
    cases ends
  obtain ⟨front, ended⟩ := List.getLast?_eq_some_iff.mp ends
  apply grounded.filled
  rw [← grounded.segments_eq none other, segments, ended]
  exact mem_tail_of_append front (List.mem_singleton_self _)

theorem bytes_ne_nil (nonempty : list ≠ []) : (ofComponents list).bytes ≠ [] := by
  intro empty
  have components := grounded.components_eq nonempty
  rw [Path.components_eq, segments, isAbsolute, empty] at components
  exact nonempty components.symm

theorem join_eq (whole : separator ∉ segmentOf component) (noRoot : component ≠ .root) :
    (ofComponents list).join ⟨segmentOf component⟩ = ofComponents (list ++ [component]) := by
  simp only [join, isAbsolute_whole whole, Bool.false_eq_true, if_false]
  by_cases none : list = []
  · have alone : [component] ≠ [.root] := fun same => noRoot (List.singleton_inj.mp same)
    rw [none, List.nil_append, ofComponents_of_ne alone]
    rfl
  by_cases atRoot : list = [.root]
  · rw [atRoot]
    rfl
  have other : list ++ [component] ≠ [.root] := by
    intro same
    exact none (List.append_eq_singleton_iff.mp same |>.elim (·.1) fun last => by cases last.2)
  cases ends : (ofComponents list).bytes.getLast? with
  | none => exact absurd (List.getLast?_eq_none_iff.mp ends) (grounded.bytes_ne_nil none)
  | some last =>
    have differs : last ≠ separator := by
      rintro rfl
      exact grounded.unended atRoot ends
    simp only [differs, if_false]
    rw [ofComponents_of_ne other, ofComponents_of_ne atRoot, List.map_append, List.map_singleton,
      joinSegments_concat (by simpa using none)]

theorem untrivial (present : component ∈ list) (noRoot : component ≠ .root) :
    isTrivial (segmentOf component) = false := by
  rcases grounded.mem present with ⟨root, _⟩ | rfl | ⟨name, proper, rfl⟩
  · exact absurd root noRoot
  · rfl
  · simp [isTrivial, segmentOf, component?_name proper]

end Grounded

theorem trimSegments_map (untrivial : ∀ component ∈ list, isTrivial (segmentOf component) = false) :
    trimSegments (list.map segmentOf) = list.map segmentOf := by
  unfold trimSegments
  rw [← List.map_reverse]
  cases backwards : list.reverse with
  | nil => simpa using backwards.symm
  | cons last before =>
    have present : last ∈ list := by
      rw [← List.mem_reverse, backwards]
      exact List.mem_cons_self ..
    rw [List.map_cons, List.dropWhile_cons_of_neg (by simp [untrivial last present]),
      ← List.map_cons, ← backwards, List.map_reverse, List.reverse_reverse]

theorem parent?_eq {p : Path} {front back : List Name} {last : Name}
    (segments : p.segments = front ++ (back ++ [last]))
    (kept : (if p.isAbsolute || p.segments.head? == some Name.here then 1 else 0) = front.length)
    (trimmed : trimSegments (back ++ [last]) = back ++ [last])
    (before : trimSegments back = back) :
    p.parent? = some ⟨if front ++ back = [[]] then [separator]
      else joinSegments (front ++ back)⟩ := by
  unfold parent?
  rw [kept, segments]
  simp only [List.drop_left, List.take_left, trimmed]
  cases split : back ++ [last] with
  | nil => simp at split
  | cons first rest =>
    have dropped : (first :: rest).dropLast = back := by rw [← split, List.dropLast_concat]
    simp only [dropped, before]
    split
    · rename_i atRoot
      rw [if_pos atRoot]
    · rename_i below
      rw [if_neg below]

theorem Grounded.parent?_push (grounded : Grounded (list ++ [.name name]) ground names) :
    (ofComponents (list ++ [.name name])).parent? = some (ofComponents list) := by
  have other : list ++ [.name name] ≠ [.root] := by
    intro same
    rcases List.append_eq_singleton_iff.mp same with ⟨_, last⟩ | ⟨_, last⟩ <;> cases last
  have segments := grounded.segments_eq (by simp) other
  -- Without its root, if it has one, the list has no trivial segment.
  have untrivial (rest : List Component) (within : rest ⊆ list) (noRoot : .root ∉ rest) :
      trimSegments (rest.map segmentOf ++ [name]) = rest.map segmentOf ++ [name] ∧
        trimSegments (rest.map segmentOf) = rest.map segmentOf := by
    have filled (component : Component) (present : component ∈ rest ++ [Component.name name]) :
        isTrivial (segmentOf component) = false := by
      apply grounded.untrivial
      · rcases List.mem_append.mp present with early | last
        · exact List.mem_append_left _ (within early)
        · exact List.mem_append_right _ last
      · rintro rfl
        simp [noRoot] at present
    have whole := trimSegments_map filled
    rw [List.map_append] at whole
    exact ⟨whole, trimSegments_map fun component early =>
      filled component (List.mem_append_left _ early)⟩
  cases ground with
  | root =>
    cases list with
    | nil => cases grounded.spelled
    | cons first rest =>
      obtain rfl : first = .root := (List.cons.inj grounded.spelled).1
      have noRoot : .root ∉ rest := fun present =>
        grounded.root_not_mem_tail (List.mem_append_left _ present)
      obtain ⟨whole, before⟩ := untrivial rest (List.subset_cons_self _ _) noRoot
      have split : (ofComponents (.root :: rest ++ [.name name])).segments =
          [[]] ++ (rest.map segmentOf ++ [name]) := by
        rw [segments, List.map_append]
        rfl
      have kept : (if (ofComponents (.root :: rest ++ [.name name])).isAbsolute ||
          (ofComponents (.root :: rest ++ [.name name])).segments.head? == some Name.here
            then 1 else 0) = [([] : Name)].length := by
        rw [grounded.isAbsolute_eq]
        rfl
      rw [parent?_eq split kept whole before]
      cases rest with
      | nil => rfl
      | cons second more =>
        rw [if_neg (by simp), ofComponents_of_ne (by simp)]
        rfl
  | above steps =>
    have noRoot : .root ∉ list := by
      intro present
      rcases grounded.mem (List.mem_append_left _ present) with ⟨_, never⟩ | up | ⟨_, _, named⟩
      · cases never
      · cases up
      · cases named
    obtain ⟨whole, before⟩ := untrivial list (List.Subset.refl _) noRoot
    have split : (ofComponents (list ++ [.name name])).segments =
        [] ++ (list.map segmentOf ++ [name]) := by
      rw [segments, List.map_append]
      rfl
    have kept : (if (ofComponents (list ++ [.name name])).isAbsolute ||
        (ofComponents (list ++ [.name name])).segments.head? == some Name.here
          then 1 else 0) = ([] : List Name).length := by
      have noDot := grounded.head?_ne_here (by simp) other
      simp [grounded.isAbsolute_eq, noDot]
    rw [parent?_eq split kept whole before, List.nil_append]
    have filled : list.map segmentOf ≠ [[]] := by
      intro only
      obtain ⟨component, rfl, empty⟩ := List.map_eq_singleton_iff.mp only
      obtain ⟨rfl, _⟩ := grounded.eq_root_of_empty (List.mem_cons_self ..) empty
      exact noRoot (List.mem_singleton_self _)
    rw [if_neg filled, ofComponents_of_ne fun atRoot => noRoot (by simp [atRoot])]

end RepoFinder.Path
