import RepoFinder.Proofs.FileSystem.Slots

namespace RepoFinder.FileSystem

mutual

def Node.times : Node → List Time.Timestamp
  | .directory _ modified entries => modified :: timesIn entries
  | .file .. => []
  | .link .. => []

def timesIn : List (Name × Node) → List Time.Timestamp
  | [] => []
  | (_, node) :: rest => node.times ++ timesIn rest

end

theorem times_subset_of_find? {entries : Entries} {name : Name} {node : Node}
    (found : entries.find? name = some node) : node.times ⊆ timesIn entries := by
  induction entries with
  | nil => cases found
  | cons entry rest ih =>
    obtain ⟨n, child⟩ := entry
    by_cases here : n = name
    · simp only [Entries.find?, here, if_true, Option.some.injEq] at found
      rw [← found]
      exact List.subset_append_left _ _
    · simp only [Entries.find?, here, if_false] at found
      intro time present
      exact List.mem_append_right _ (ih found present)

theorem mem_times_of_get? {node : Node} {location : Location} {mode : Nat}
    {modified : Time.Timestamp} {entries : Entries}
    (found : node.get? location = some (.directory mode modified entries)) :
    modified ∈ node.times := by
  induction location generalizing node with
  | nil =>
    cases found
    exact List.mem_cons_self ..
  | cons name location ih =>
    cases node with
    | directory mode modified others =>
      simp only [Node.get?] at found
      split at found
      · rename_i child there
        exact List.mem_cons_of_mem _ (times_subset_of_find? there (ih found))
      · cases found
    | _ => cases found

theorem modified_mem (fs : FileSystem) (p : Path) :
    fs.modified p = .epoch ∨ fs.modified p ∈ fs.root.times := by
  unfold modified
  split
  · rename_i mode modified entries stands
    right
    obtain ⟨_, _, found⟩ := status_iff.mp stands
    exact mem_times_of_get? found
  · left
    rfl

theorem modified_isMoment {fs : FileSystem} (times : ∀ time ∈ fs.root.times, time.IsMoment)
    (p : Path) : (fs.modified p).IsMoment := by
  rcases fs.modified_mem p with start | among
  · rw [start]
    decide
  · exact times _ among

end RepoFinder.FileSystem
