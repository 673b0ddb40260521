import RepoFinder.Path.Basic

namespace RepoFinder

structure Name.Proper (name : Name) : Prop where
  filled : name ≠ []
  noDot : name ≠ Name.here
  noDots : name ≠ Name.parent
  whole : Path.separator ∉ name

instance (name : Name) : Decidable name.Proper :=
  decidable_of_iff
    (name ≠ [] ∧ name ≠ Name.here ∧ name ≠ Name.parent ∧ Path.separator ∉ name)
    ⟨fun all => ⟨all.1, all.2.1, all.2.2.1, all.2.2.2⟩,
      fun proper => ⟨proper.filled, proper.noDot, proper.noDots, proper.whole⟩⟩

namespace Path

variable {name : Name} {names others : List Name}

theorem segmentsOf_whole (whole : separator ∉ name) : segmentsOf name = [name] := by
  induction name with
  | nil => rfl
  | cons byte rest ih =>
    rw [List.mem_cons, not_or] at whole
    simp [segmentsOf, Ne.symm whole.1, ih whole.2]

theorem segmentsOf_append (front back : List UInt8) :
    segmentsOf (front ++ separator :: back) = segmentsOf front ++ segmentsOf back := by
  induction front with
  | nil => simp [segmentsOf]
  | cons byte rest ih =>
    by_cases same : byte = separator
    · simp [segmentsOf, same, ih]
    · simp only [List.cons_append, segmentsOf, same, if_false, ih]
      cases segments : segmentsOf rest with
      | nil => exact absurd segments (segmentsOf_ne_nil rest)
      | cons => rfl

def trunk (p : Path) : List Name :=
  match p.bytes.getLast? with
  | none => []
  | some last => if last = separator then segmentsOf p.bytes.dropLast else p.segments

theorem isAbsolute_whole (whole : separator ∉ name) : (⟨name⟩ : Path).isAbsolute = false := by
  cases name with
  | nil => rfl
  | cons byte rest =>
    rw [List.mem_cons, not_or] at whole
    simpa [isAbsolute] using Ne.symm whole.1

theorem segments_child (proper : name.Proper) (folder : Path) :
    (folder.child name).segments = folder.trunk ++ [name] := by
  have last := segmentsOf_whole proper.whole
  simp only [child, join, isAbsolute_whole proper.whole, Bool.false_eq_true, if_false, trunk]
  cases ends : folder.bytes.getLast? with
  | none => exact last
  | some byte =>
    by_cases same : byte = separator
    · subst same
      obtain ⟨front, bytes⟩ := List.getLast?_eq_some_iff.mp ends
      simp [segments, bytes, segmentsOf_append, last]
    · simp [segments, same, segmentsOf_append, last]

theorem trunk_child (proper : name.Proper) (folder : Path) :
    (folder.child name).trunk = folder.trunk ++ [name] := by
  rw [← segments_child proper folder]
  obtain ⟨front, last, spelled⟩ := List.eq_nil_or_concat name |>.resolve_left proper.filled
  have noSeparator : last ≠ separator := by
    rintro rfl
    exact proper.whole (by simp [spelled])
  have ends : (folder.child name).bytes.getLast? = some last := by
    simp only [child, join, isAbsolute_whole proper.whole, Bool.false_eq_true, if_false]
    split
    · simp [spelled]
    · split <;> simp [spelled, List.getLast?_append, List.getLast?_cons]
  simp [trunk, ends, noSeparator]

def along (folder : Path) (names : List Name) : Path := names.foldl child folder

theorem along_concat (folder : Path) (names : List Name) (name : Name) :
    folder.along (names ++ [name]) = (folder.along names).child name := by
  simp [along]

theorem trunk_along (proper : ∀ name ∈ names, name.Proper) (folder : Path) :
    (folder.along names).trunk = folder.trunk ++ names := by
  induction names generalizing folder with
  | nil => simp [along]
  | cons name rest ih =>
    rw [List.forall_mem_cons] at proper
    have deeper := ih proper.2 (folder.child name)
    rw [trunk_child proper.1, List.append_assoc] at deeper
    exact deeper

theorem along_injective {folder : Path} (proper : ∀ name ∈ names, name.Proper)
    (also : ∀ name ∈ others, name.Proper) (same : folder.along names = folder.along others) :
    names = others := by
  have trunks := congrArg trunk same
  rw [trunk_along proper, trunk_along also] at trunks
  exact List.append_cancel_left trunks

end Path

end RepoFinder
