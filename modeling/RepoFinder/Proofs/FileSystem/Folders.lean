import RepoFinder.Proofs.Scan.Reach
import RepoFinder.Proofs.Snapshot.Aftermath

namespace RepoFinder.FileSystem

def Entries.folders (entries : Entries) : List Name :=
  (entries.filter fun entry => entry.2.isDirectory).map (·.1)

def Node.folders : Node → List Name
  | directory _ _ entries => Entries.folders entries
  | _ => []

def Node.foldersAt (node : Node) (place : Location) : List Name :=
  match node.get? place with
  | some found => found.folders
  | none => []

theorem Entries.folders_insert {entries : Entries} {name : Name}
    (plain : ∀ node, entries.find? name = some node → node.isDirectory = false)
    (content : List UInt8) (mode : Nat) :
    Entries.folders (entries.insert name (.file content mode)) = Entries.folders entries := by
  induction entries with
  | nil => rfl
  | cons entry rest ih =>
    obtain ⟨n, node⟩ := entry
    by_cases here : n = name
    · have same := plain node (by simp [find?, here])
      have file : (Node.file content mode).isDirectory = false := rfl
      simp [Entries.insert, here, folders, same, file]
    · simp only [find?, here, if_false] at plain
      simp only [Entries.insert, here, if_false, folders, List.filter_cons] at ih ⊢
      have ih := ih plain
      split <;> simp_all

theorem Entries.folders_modify {f : Node → Node}
    (same : ∀ node, (f node).isDirectory = node.isDirectory) (entries : Entries) (name : Name) :
    Entries.folders (entries.modify name f) = Entries.folders entries := by
  induction entries with
  | nil => rfl
  | cons entry rest ih =>
    obtain ⟨n, node⟩ := entry
    unfold folders at ih ⊢
    by_cases here : n = name
    · simp [Entries.modify, here, List.filter_cons, same, apply_ite]
    · simp only [Entries.modify, here, if_false, List.filter_cons]
      split <;> simp_all

theorem Node.isDirectory_alter (f : Entries → Entries) (location : Location) (node : Node) :
    (node.alter f location).isDirectory = node.isDirectory := by
  cases node with
  | directory => cases location <;> rfl
  | _ => cases location <;> rfl

theorem Node.foldersAt_plain {node : Node} (plain : node.isDirectory = false)
    (place : Location) : node.foldersAt place = [] := by
  cases node with
  | directory => cases plain
  | _ => cases place <;> rfl

-- A file in the place of a file, or of nothing, adds no directory anywhere and takes none away. The
-- induction goes down to the place.
theorem Node.foldersAt_alter {location : Location} {node : Node} {name : Name}
    (plain : ∀ child, node.get? (location ++ [name]) = some child → child.isDirectory = false)
    (content : List UInt8) (mode : Nat) (place : Location) :
    (node.alter (·.insert name (.file content mode)) location).foldersAt place =
      node.foldersAt place := by
  induction location generalizing node place with
  | nil =>
    cases node with
    | directory permissions modified entries =>
      have there (child : Node) (found : Entries.find? entries name = some child) :
          child.isDirectory = false := plain child (by simp [get?, found])
      cases place with
      | nil => exact Entries.folders_insert there content mode
      | cons first rest =>
        by_cases same : first = name
        · subst same
          have file : (Node.file content mode).foldersAt rest = [] := foldersAt_plain rfl rest
          unfold foldersAt at file
          simp only [alter, foldersAt, get?, Entries.find?_insert_self, file]
          cases found : Entries.find? entries first with
          | none => rfl
          | some child => exact (foldersAt_plain (there child found) rest).symm
        · simp only [alter, foldersAt, get?, Entries.find?_insert_of_ne entries _ same]
    | _ => rfl
  | cons step location ih =>
    cases node with
    | directory permissions modified entries =>
      cases place with
      | nil => exact Entries.folders_modify (Node.isDirectory_alter _ _) entries step
      | cons first rest =>
        simp only [alter, foldersAt, get?, Entries.find?_modify]
        by_cases same : first = step
        · subst same
          cases there : Entries.find? entries first with
          | none => simp
          | some child =>
            have plain : ∀ grandchild, child.get? (location ++ [name]) = some grandchild →
                grandchild.isDirectory = false := by
              simpa [get?, there] using plain
            simpa [foldersAt] using ih plain rest
        · simp [same]
    | _ => rfl

theorem directory_of_foldersAt {node : Node} {place : Location} {name : Name}
    (listed : name ∈ node.foldersAt place) : node.landmarkAt? place = some .directory := by
  unfold Node.foldersAt at listed
  split at listed
  · rename_i found there
    rw [Node.landmarkAt?, there]
    cases found with
    | directory => rfl
    | _ => cases listed
  · cases listed

theorem Entries.mem_folders {entries : Entries} {name : Name} :
    name ∈ Entries.folders entries ↔
      (name, Kind.directory) ∈ entries.map fun entry => (entry.1, entry.2.kind) := by
  have kinds (node : Node) : node.isDirectory = true ↔ node.kind = .directory := by
    cases node <;> simp [Node.isDirectory, Node.kind]
  simp only [folders, List.mem_map, List.mem_filter, kinds, Prod.mk.injEq]
  constructor
  · rintro ⟨entry, ⟨present, directory⟩, rfl⟩
    exact ⟨entry, present, rfl, directory⟩
  · rintro ⟨entry, present, rfl, directory⟩
    exact ⟨entry, ⟨present, directory⟩, rfl⟩

theorem lists_iff {fs : FileSystem} {path : Path} {name : Name} :
    fs.Lists path (name, .directory) ↔ checkPath path = .ok () ∧ ∃ place,
      walk fs.root mostLinks (startOf fs.current path) path.segments = .ok (.taken place) ∧
        name ∈ fs.root.foldersAt place := by
  constructor
  · rintro ⟨entries, read, listed⟩
    obtain ⟨mode, modified, nodes, stands, rfl⟩ := readDirectory_iff.mp read
    obtain ⟨place, located, there⟩ := status_iff.mp stands
    obtain ⟨usable, walked⟩ := locate_iff.mp located
    refine ⟨usable, place, walked, ?_⟩
    rw [Node.foldersAt, show fs.root.get? place = _ from there]
    exact Entries.mem_folders.mpr listed
  · rintro ⟨usable, place, walked, listed⟩
    obtain ⟨mode, modified, nodes, there⟩ :=
      Node.directory_of_landmarkAt? (directory_of_foldersAt listed)
    rw [Node.foldersAt, there] at listed
    have located := locate_iff.mpr ⟨usable, walked⟩
    have stands := status_iff.mpr ⟨place, located, there⟩
    exact ⟨_, readDirectory_iff.mpr ⟨mode, modified, nodes, stands, rfl⟩,
      Entries.mem_folders.mp listed⟩

def SameFolders (fs other : FileSystem) : Prop :=
  ∀ path name, fs.Lists path (name, .directory) ↔ other.Lists path (name, .directory)

theorem fill_sameFolders {fs : FileSystem} {slot : Slot}
    (plain : ∀ node, fs.atSlot? slot = some node → ∃ text permissions, node = .file text permissions)
    (content : List UInt8) (mode : Nat) : SameFolders fs (fs.fill slot (.file content mode)) := by
  have same (place : Location) :
      (fs.fill slot (.file content mode)).root.foldersAt place = fs.root.foldersAt place := by
    apply Node.foldersAt_alter
    intro node there
    obtain ⟨text, permissions, rfl⟩ := plain node there
    rfl
  have fewer := fill_landmarks fs slot content mode
  have more : Node.LandmarksIn fs.root (fs.fill slot (.file content mode)).root := by
    cases there : fs.atSlot? slot with
    | none =>
      have cleared := clear_fewer (fs.fill slot (.file content mode)) slot
      rwa [clear_fill there] at cleared
    | some node =>
      obtain ⟨text, permissions, rfl⟩ := plain node there
      intro place mark stands
      exact clear_landmarks fs slot _ _ _ (clear_file_within there _ _ stands)
  intro path name
  rw [lists_iff, lists_iff]
  apply and_congr_right
  intro _
  apply exists_congr
  intro place
  rw [same]
  apply and_congr_left
  intro listed
  have also : name ∈ (fs.fill slot (.file content mode)).root.foldersAt place := by rwa [same]
  exact ⟨fun walked => walk_landmarks more walked (directory_of_foldersAt listed),
    fun walked => walk_landmarks fewer walked (directory_of_foldersAt also)⟩

structure InPlace (fs : FileSystem) (file : Path) : Prop where
  folder : Snapshot.withFolder fs file = fs
  plain : ∀ slot node, fs.slot file = .ok slot → fs.atSlot? slot = some node →
    ∃ text permissions, node = .file text permissions

theorem save_sameFolders {fs : FileSystem} {file : Path} (inPlace : InPlace fs file)
    (snapshot : Snapshot) : SameFolders fs (Snapshot.save fs file snapshot).1 := by
  rcases saved : Snapshot.save fs file snapshot with ⟨after, result⟩
  cases result with
  | ok _ =>
    obtain ⟨made, text, goal, making, _, names, _, rfl⟩ := Snapshot.save_ok saved
    have same : made = fs := by
      rw [← inPlace.folder]
      simp [Snapshot.withFolder, making]
    subst same
    exact fill_sameFolders (inPlace.plain goal · (names_iff.mp names).1) text
      Snapshot.filePermissions
  | error problem =>
    rw [Snapshot.save_failed saved, inPlace.folder]
    exact fun _ _ => Iff.rfl

end RepoFinder.FileSystem
