import Mathlib.Algebra.GroupWithZero.Nat
import Mathlib.Algebra.Order.BigOperators.Group.List
import Mathlib.Algebra.Order.Group.Nat
import RepoFinder.Proofs.Path.Children

namespace RepoFinder.Path

variable {p base rest : Path} {segments shorter : List Name} {segment name : Name}
  {component : Component}

theorem whole_of_mem_segmentsOf {bytes : List UInt8} (present : segment ∈ segmentsOf bytes) :
    separator ∉ segment := by
  induction bytes generalizing segment with
  | nil =>
    obtain rfl := List.mem_singleton.mp present
    exact List.not_mem_nil
  | cons byte more ih =>
    unfold segmentsOf at present
    split at present
    · rcases List.mem_cons.mp present with rfl | later
      · exact List.not_mem_nil
      · exact ih later
    · rename_i differs
      split at present
      · rename_i none
        exact absurd none (segmentsOf_ne_nil more)
      · rename_i first others split
        rw [split] at ih
        rcases List.mem_cons.mp present with rfl | later
        · rw [List.mem_cons, not_or]
          exact ⟨Ne.symm differs, ih (List.mem_cons_self ..)⟩
        · exact ih (List.mem_cons_of_mem _ later)

theorem joinSegments_cons (some : segments ≠ []) :
    joinSegments (segment :: segments) = segment ++ separator :: joinSegments segments := by
  cases segments with
  | nil => exact absurd rfl some
  | cons => rfl

theorem joinSegments_segmentsOf (bytes : List UInt8) : joinSegments (segmentsOf bytes) = bytes := by
  induction bytes with
  | nil => rfl
  | cons byte more ih =>
    unfold segmentsOf
    split
    · rename_i same
      rw [joinSegments_cons (segmentsOf_ne_nil more), ih, same, List.nil_append]
    · split
      · rename_i none
        exact absurd none (segmentsOf_ne_nil more)
      · rename_i first others split
        rw [split] at ih
        cases others with
        | nil => exact congrArg (byte :: ·) ih
        | cons => exact congrArg (byte :: ·) ih

theorem segmentsOf_joinSegments (some : segments ≠ [])
    (whole : ∀ segment ∈ segments, separator ∉ segment) :
    segmentsOf (joinSegments segments) = segments := by
  induction segments with
  | nil => exact absurd rfl some
  | cons first others ih =>
    obtain ⟨here, later⟩ := List.forall_mem_cons.mp whole
    cases others with
    | nil => exact segmentsOf_whole here
    | cons second more =>
      rw [joinSegments_cons (by simp), segmentsOf_append, segmentsOf_whole here, ih (by simp) later]
      rfl

theorem length_joinSegments (some : segments ≠ []) :
    (joinSegments segments).length + 1 = (segments.map (·.length + 1)).sum := by
  induction segments with
  | nil => exact absurd rfl some
  | cons first others ih =>
    cases others with
    | nil => simp [joinSegments]
    | cons second more =>
      have rest := ih (by simp)
      rw [joinSegments_cons (by simp), List.map_cons, List.sum_cons, ← rest, List.length_append,
        List.length_cons]
      omega

theorem length_joinSegments_le {fewer : List Name} (sublist : fewer.Sublist segments) :
    (joinSegments fewer).length ≤ (joinSegments segments).length := by
  by_cases none : fewer = []
  · simp [none, joinSegments]
  · have some : segments ≠ [] := by
      rintro rfl
      exact none (List.sublist_nil.mp sublist)
    have less := length_joinSegments none
    have more := length_joinSegments some
    have sums := (sublist.map (·.length + 1)).sum_le_sum fun _ _ => Nat.zero_le _
    omega

theorem mem_joinSegments {byte : UInt8} (present : byte ∈ joinSegments segments) :
    byte = separator ∨ ∃ segment ∈ segments, byte ∈ segment := by
  induction segments with
  | nil => cases present
  | cons first others ih =>
    cases others with
    | nil => exact .inr ⟨first, List.mem_singleton_self _, present⟩
    | cons second more =>
      rw [joinSegments_cons (by simp), List.mem_append, List.mem_cons] at present
      rcases present with here | rfl | later
      · exact .inr ⟨first, List.mem_cons_self .., here⟩
      · exact .inl rfl
      · rcases ih later with same | ⟨segment, among, inside⟩
        · exact .inl same
        · exact .inr ⟨segment, List.mem_cons_of_mem _ among, inside⟩

theorem subset_joinSegments (present : segment ∈ segments) : segment ⊆ joinSegments segments := by
  induction segments with
  | nil => cases present
  | cons first others ih =>
    intro byte inside
    cases others with
    | nil =>
      obtain rfl := List.mem_singleton.mp present
      exact inside
    | cons second more =>
      rw [joinSegments_cons (by simp)]
      rcases List.mem_cons.mp present with rfl | later
      · exact List.mem_append_left _ inside
      · exact List.mem_append_right _ (List.mem_cons_of_mem _ (ih later inside))

theorem component?_eq_name (read : component? segment = some (.name name)) :
    segment = name ∧ name ≠ [] ∧ name ≠ Name.here ∧ name ≠ Name.parent := by
  unfold component? at read
  split at read
  · cases read
  · rename_i filled
    split at read
    · cases read
    · rename_i noParent
      cases read
      simp only [Bool.or_eq_true, decide_eq_true_eq, not_or] at filled
      exact ⟨rfl, filled.1, filled.2, noParent⟩

theorem component?_name (proper : name.Proper) : component? name = some (.name name) := by
  simp [component?, proper.filled, proper.noDot, proper.noDots]

@[simp]
theorem component?_nil : component? [] = none := rfl

@[simp]
theorem component?_here : component? Name.here = none := rfl

theorem mem_filterMap_component? (present : component ∈ segments.filterMap component?) :
    component = .parent ∨ ∃ name ∈ segments, component = .name name ∧
      component? name = some (.name name) := by
  obtain ⟨segment, among, read⟩ := List.mem_filterMap.mp present
  cases component with
  | root | here =>
    unfold component? at read
    split at read
    · cases read
    · split at read <;> cases read
  | parent => exact .inl rfl
  | name name =>
    obtain ⟨rfl, _⟩ := component?_eq_name read
    exact .inr ⟨segment, among, rfl, read⟩

theorem components_eq (p : Path) :
    p.components = (if p.isAbsolute then [.root]
      else if p.segments.head? = some Name.here then [.here] else []) ++
        p.segments.filterMap component? := by
  unfold components
  cases p.isAbsolute with
  | true => rfl
  | false =>
    cases p.segments with
    | nil => rfl
    | cons first others =>
      by_cases dot : first = Name.here
      · subst dot
        simp [List.filterMap_cons_none component?_here]
      · simp [dot]

theorem filterMap_component?_sublist (segments : List Name) :
    ((segments.filterMap component?).map segmentOf).Sublist segments := by
  induction segments with
  | nil => exact .slnil
  | cons segment rest ih =>
    cases read : component? segment with
    | none =>
      rw [List.filterMap_cons_none read]
      exact ih.cons segment
    | some component =>
      have same : segmentOf component = segment := by
        unfold component? at read
        split at read
        · cases read
        · split at read
          · rename_i up
            cases read
            exact up.symm
          · cases read
            rfl
      rw [List.filterMap_cons_some read, List.map_cons, same]
      exact ih.cons_cons segment

def steps (p : Path) : List Component := p.components.filter (· ≠ .here)

theorem steps_eq (p : Path) :
    p.steps = (if p.isAbsolute then [.root] else []) ++ p.segments.filterMap component? := by
  have noDots : (p.segments.filterMap component?).filter (· ≠ .here) =
      p.segments.filterMap component? := by
    apply List.filter_eq_self.mpr
    intro component present
    rcases mem_filterMap_component? present with rfl | ⟨name, _, rfl, _⟩ <;> simp
  rw [steps, components_eq, List.filter_append, noDots]
  congr 1
  split
  · rfl
  · split <;> rfl

theorem proper_of_mem_steps (present : .name name ∈ p.steps) : name.Proper := by
  rw [steps_eq, List.mem_append] at present
  rcases present with root | later
  · split at root <;> simp at root
  · rcases mem_filterMap_component? later with up | ⟨_, among, same, read⟩
    · cases up
    · cases same
      obtain ⟨_, filled, noDot, noDots⟩ := component?_eq_name read
      exact ⟨filled, noDot, noDots, whole_of_mem_segmentsOf among⟩

theorem components_cases (p : Path) :
    p.components = p.steps ∨ p.isAbsolute = false ∧ p.components = .here :: p.steps := by
  rw [steps_eq, components_eq]
  cases p.isAbsolute with
  | true => exact .inl rfl
  | false =>
    by_cases dot : p.segments.head? = some Name.here
    · exact .inr ⟨rfl, by simp [dot]⟩
    · exact .inl (by simp [dot])

theorem segmentsOf_head (p : Path) (absolute : p.isAbsolute = true) :
    ∃ others, p.segments = [] :: others ∧ others ≠ [] := by
  obtain ⟨bytes⟩ := p
  cases bytes with
  | nil => cases absolute
  | cons byte more =>
    simp only [isAbsolute, List.head?_cons, beq_iff_eq, Option.some.injEq] at absolute
    subst absolute
    exact ⟨segmentsOf more, by simp [segments, segmentsOf], segmentsOf_ne_nil more⟩

theorem join_absolute (absolute : rest.isAbsolute = true) (base : Path) :
    base.join rest = rest := by
  simp [join, absolute]

theorem steps_join (relative : rest.isAbsolute = false) (base : Path) :
    (base.join rest).steps = base.steps ++ rest.steps := by
  have absolute (more : List UInt8) (some : base.bytes ≠ []) :
      (⟨base.bytes ++ more⟩ : Path).isAbsolute = base.isAbsolute := by
    obtain ⟨byte, others, spelled⟩ := List.exists_cons_of_ne_nil some
    simp [isAbsolute, spelled]
  simp only [steps_eq, relative, join, Bool.false_eq_true, if_false, List.nil_append]
  split
  · rename_i none
    have empty : base.bytes = [] := List.getLast?_eq_none_iff.mp none
    have nothing : base.segments.filterMap component? = [] := by
      simp [segments, empty, segmentsOf]
    have atHome : base.isAbsolute = false := by simp [isAbsolute, empty]
    simp [nothing, atHome, relative]
  · rename_i last ends
    obtain ⟨front, spelled⟩ := List.getLast?_eq_some_iff.mp ends
    have some : base.bytes ≠ [] := by simp [spelled]
    split
    · rename_i same
      have here : base.segments = segmentsOf front ++ [[]] := by
        rw [segments, spelled, same, segmentsOf_append]
        rfl
      have both : (⟨base.bytes ++ rest.bytes⟩ : Path).segments =
          segmentsOf front ++ rest.segments := by
        simp only [segments, spelled, same, List.append_assoc, List.singleton_append]
        rw [segmentsOf_append]
      rw [absolute _ some, both, here]
      simp
    · have both : (⟨base.bytes ++ separator :: rest.bytes⟩ : Path).segments =
          base.segments ++ rest.segments := by
        simp only [segments]
        rw [segmentsOf_append]
      rw [absolute _ some, both]
      simp

theorem isAbsolute_join (absolute : base.isAbsolute = true) (rest : Path) :
    (base.join rest).isAbsolute = true := by
  cases relative : rest.isAbsolute with
  | true => rwa [join_absolute relative]
  | false =>
    obtain ⟨bytes⟩ := base
    cases bytes with
    | nil => cases absolute
    | cons byte more =>
      simp only [join, relative, Bool.false_eq_true, if_false]
      split
      · rename_i none
        simp at none
      · split <;> simpa [isAbsolute] using absolute

end RepoFinder.Path
