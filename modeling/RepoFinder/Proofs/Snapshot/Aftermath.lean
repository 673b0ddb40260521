import RepoFinder.Proofs.FileSystem.Ways
import RepoFinder.Proofs.Snapshot.Saved

namespace RepoFinder.Snapshot

open FileSystem

variable {fs after : FileSystem} {file : Path} {snapshot : Snapshot} {bytes : List UInt8}

-- The way to a file that can be read is free of the file, so a save there is read back.
theorem wayIsFree_of_contentOf (read : fs.contentOf file = .ok bytes)
    (saved : save fs file snapshot = (after, .ok ())) : WayIsFree (withFolder fs file) file := by
  obtain ⟨made, _, goal, making, _, names, _, _⟩ := save_ok saved
  have same : withFolder fs file = made := by simp [withFolder, making]
  have grown : Grown fs made := same ▸ makeAlong_grown fs _ _
  rw [same]
  intro slot named
  obtain ⟨also, _, _⟩ := names_iff.mp names
  obtain rfl := Except.ok.inj (also.symm.trans named)
  exact (names_iff.mp (names.clear (grown.contentOf read))).1

-- Where a path names an entry, all that can be read at the path in a tree without further
-- landmarks is read at the entry, or behind it.
theorem node_of_contentOf {other : FileSystem} {slot : Slot} (names : fs.Names file slot)
    (within : Node.LandmarksIn other.root fs.root) (current : other.current = fs.current)
    (read : other.contentOf file = .ok bytes) :
    ∃ node, other.get? (slot.directory ++ [slot.name]) = some node ∧
      ∀ content mode, node = .file content mode → content = bytes := by
  obtain ⟨_, location, mode, walked, found⟩ := contentOf_iff.mp read
  obtain ⟨left, last⟩ := names.last within current walked
  obtain ⟨node, there, goes⟩ := walk_entry names.entry last
  refine ⟨node, there, ?_⟩
  rintro content mode rfl
  rcases goes with ⟨target, _, link, _⟩ | ⟨_, rfl⟩
  · cases link
  · cases there.symm.trans found
    rfl

theorem render?_of_contentOf (saved : save fs file snapshot = (after, .ok ()))
    (read : after.contentOf file = .ok bytes) : snapshot.render? = some bytes := by
  obtain ⟨made, text, goal, _, rendered, names, _, rfl⟩ := save_ok saved
  obtain ⟨node, there, same⟩ :=
    node_of_contentOf names (fill_landmarks made goal text filePermissions) rfl read
  have is := Option.some.inj (there.symm.trans (get?_fill names.there _))
  rw [rendered, same text filePermissions is]

theorem unreadable_of_clear {slot : Slot} (names : fs.Names file slot) :
    (fs.clear slot).contentOf file ≠ .ok bytes := by
  intro read
  obtain ⟨node, there, _⟩ := node_of_contentOf names (clear_fewer fs slot) rfl read
  cases (get?_clear names.there).symm.trans there

theorem names_of_removeFile {removed : FileSystem} (removing : fs.removeFile file = .ok removed) :
    ∃ slot, fs.Names file slot ∧
      fs.root.landmarkAt? (slot.directory ++ [slot.name]) ≠ some .directory ∧
      removed = fs.clear slot := by
  simp only [removeFile, bind, Except.bind] at removing
  split at removing
  · cases removing
  rename_i slot named
  split at removing
  · cases removing
  rename_i entry
  have entry : slot.isEntry = true := by simpa using entry
  split at removing
  · cases removing
  · cases removing
  · rename_i node noDirectory there
    split at removing
    · cases removing
    · rename_i plain
      cases removing
      refine ⟨slot, names_iff.mpr ⟨named, entry, by simpa using plain⟩, ?_, rfl⟩
      intro directory
      obtain ⟨_, _, _, found⟩ := Node.directory_of_landmarkAt? directory
      cases there.symm.trans found
      exact noDirectory _ _ _ rfl

theorem contentOf_of_discard (read : (discard fs file).1.contentOf file = .ok bytes) :
    fs.contentOf file = .ok bytes := by
  unfold discard at read
  split at read
  · rename_i removed removing
    obtain ⟨slot, names, _, rfl⟩ := names_of_removeFile removing
    exact absurd read (unreadable_of_clear names)
  · exact read
  · exact read

theorem unreadable_of_discard (discarded : discard fs file = (after, .ok ())) :
    after.contentOf file ≠ .ok bytes := by
  intro read
  unfold discard at discarded
  split at discarded
  · rename_i removed removing
    cases discarded
    obtain ⟨slot, names, _, rfl⟩ := names_of_removeFile removing
    exact unreadable_of_clear names read
  · rename_i absent
    cases discarded
    -- There is an entry at the path, so it is not what was missing.
    obtain ⟨slot, names⟩ := Names.of_contentOf read
    obtain ⟨node, there, _⟩ :=
      node_of_contentOf names (fun _ _ stands => stands) rfl read
    obtain ⟨named, entry, plain⟩ := names_iff.mp names
    have there : fs.atSlot? slot = some node := there
    cases node <;> simp [removeFile, named, entry, plain, there, bind, Except.bind, pure, Except.pure] at absent
  · cases discarded

end RepoFinder.Snapshot
