import RepoFinder.FileSystem.Edit

namespace RepoFinder.FileSystem

-- What a walk can go on from. The content and the mode of a file are left out, and so is the
-- file itself: a path that ends in a directory never depends on one.
inductive Landmark where
  | directory
  | link (target : Path)

namespace Node

def landmark? : Node → Option Landmark
  | file .. => none
  | link target => some (.link target)
  | directory .. => some .directory

def landmarkAt? (node : Node) (location : Location) : Option Landmark :=
  (node.get? location).bind landmark?

-- The second tree may have more: only what the first one has must stand there unchanged.
def LandmarksIn (node other : Node) : Prop :=
  ∀ location mark, node.landmarkAt? location = some mark → other.landmarkAt? location = some mark

theorem get?_append (node : Node) (location rest : Location) :
    node.get? (location ++ rest) = (node.get? location).bind (·.get? rest) := by
  induction location generalizing node with
  | nil => simp [get?]
  | cons name location ih =>
    cases node with
    | directory mode modified entries =>
      simp only [List.cons_append, get?]
      cases Entries.find? entries name with
      | none => rfl
      | some child => exact ih child
    | _ => rfl

theorem directory_of_landmarkAt? {node : Node} {location : Location}
    (stands : node.landmarkAt? location = some .directory) :
    ∃ mode modified entries, node.get? location = some (directory mode modified entries) := by
  unfold landmarkAt? at stands
  obtain ⟨found, there, mark⟩ := Option.bind_eq_some_iff.mp stands
  cases found with
  | directory mode modified entries => exact ⟨mode, modified, entries, there⟩
  | _ => cases mark

theorem landmarkAt?_directory (mode : Nat) (modified : Time.Timestamp) (entries : Entries)
    (name : Name) (rest : Location) :
    (directory mode modified entries).landmarkAt? (name :: rest) =
      (Entries.find? entries name).bind (·.landmarkAt? rest) := by
  simp only [landmarkAt?, get?]
  cases Entries.find? entries name <;> rfl

end Node

theorem Entries.find?_modify (entries : Entries) (name other : Name) (f : Node → Node) :
    (entries.modify name f).find? other =
      if other = name then (entries.find? other).map f else entries.find? other := by
  induction entries with
  | nil => simp [modify, find?]
  | cons entry rest ih =>
    obtain ⟨n, node⟩ := entry
    by_cases here : n = name
    · subst here
      by_cases same : other = n
      · simp [modify, find?, same]
      · simp [modify, find?, same, Ne.symm same]
    · by_cases same : n = other
      · subst same
        simp [modify, find?, here]
      · simp [modify, find?, here, same, ih]

namespace Node

-- Two changes to one directory compare like what they do to its entries. The induction follows
-- the way down to that directory, and the case split is on whether a place lies on this way.
theorem landmarksIn_alter {f g : Entries → Entries}
    (entriesIn : ∀ entries name rest mark,
      ((f entries).find? name).bind (·.landmarkAt? rest) = some mark →
        ((g entries).find? name).bind (·.landmarkAt? rest) = some mark)
    (location : Location) (node : Node) :
    LandmarksIn (node.alter f location) (node.alter g location) := by
  induction location generalizing node with
  | nil =>
    intro place mark stands
    cases node with
    | directory mode modified entries =>
      cases place with
      | nil => exact stands
      | cons name rest =>
        simp only [alter, landmarkAt?_directory] at stands ⊢
        exact entriesIn entries name rest mark stands
    | _ => exact stands
  | cons step location ih =>
    intro place mark stands
    cases node with
    | directory mode modified entries =>
      cases place with
      | nil => exact stands
      | cons name rest =>
        simp only [alter, landmarkAt?_directory, Entries.find?_modify] at stands ⊢
        by_cases same : name = step
        · rw [if_pos same] at stands ⊢
          cases there : Entries.find? entries name with
          | none => simp [there] at stands
          | some child =>
            simp only [there, Option.map_some, Option.bind_some] at stands ⊢
            exact ih child rest mark stands
        · rw [if_neg same] at stands ⊢
          exact stands
    | _ => exact stands

theorem alter_same (location : Location) (node : Node) :
    node.alter (fun entries => entries) location = node := by
  induction location generalizing node with
  | nil => cases node <;> rfl
  | cons name location ih =>
    cases node with
    | directory mode modified entries =>
      have modified : Entries.modify entries name (alter (fun entries => entries) location) =
          entries := by
        induction entries with
        | nil => rfl
        | cons entry rest ihRest =>
          simp only [Entries.modify, ih, ihRest]
          split <;> rfl
      simp [alter, modified]
    | _ => rfl

theorem alter_alter (f g : Entries → Entries) (location : Location) (node : Node) :
    (node.alter f location).alter g location = node.alter (fun entries => g (f entries)) location := by
  induction location generalizing node with
  | nil => cases node <;> rfl
  | cons name location ih =>
    cases node with
    | directory mode modified entries =>
      have modified : Entries.modify (Entries.modify entries name (alter f location)) name
          (alter g location) =
            Entries.modify entries name (alter (fun entries => g (f entries)) location) := by
        induction entries with
        | nil => rfl
        | cons entry rest ihRest =>
          by_cases here : entry.1 = name <;> simp [Entries.modify, here, ih, ihRest]
      simp [alter, modified]
    | _ => rfl

theorem get?_alter {location : Location} {node : Node} {mode : Nat} {modified : Time.Timestamp}
    {entries : Entries} (there : node.get? location = some (directory mode modified entries))
    (f : Entries → Entries) :
    (node.alter f location).get? location = some (directory mode modified (f entries)) := by
  induction location generalizing node with
  | nil =>
    cases there
    rfl
  | cons name location ih =>
    cases node with
    | directory mode modified entries =>
      simp only [get?] at there
      cases child : Entries.find? entries name with
      | none => simp [child] at there
      | some node =>
        simp only [child] at there
        simp [alter, get?, Entries.find?_modify, child, ih there]
    | _ => cases there

end Node

namespace Entries

theorem modify_insert (entries : Entries) (name : Name) (node : Node) (f : Node → Node) :
    (entries.insert name node).modify name f = entries.insert name (f node) := by
  induction entries with
  | nil => simp [insert, modify]
  | cons entry rest ih => by_cases here : entry.1 = name <;> simp [insert, modify, here, ih]

theorem modify_fixed {entries : Entries} {name : Name} {node : Node} {f : Node → Node}
    (found : entries.find? name = some node) (fixed : f node = node) :
    entries.modify name f = entries := by
  induction entries with
  | nil => rfl
  | cons entry rest ih =>
    obtain ⟨n, old⟩ := entry
    by_cases here : n = name
    · subst here
      simp only [find?, if_true, Option.some.injEq] at found
      simp [modify, found, fixed]
    · simp only [find?, here, if_false] at found
      simp [modify, here, ih found]

theorem erase_insert {entries : Entries} {name : Name} (absent : entries.find? name = none)
    (node : Node) : (entries.insert name node).erase name = entries := by
  induction entries with
  | nil => simp [insert, erase]
  | cons entry rest ih =>
    by_cases here : entry.1 = name
    · simp [find?, here] at absent
    · simp only [find?, here, if_false] at absent
      simp [insert, erase, here, ih absent]

end Entries

theorem clear_landmarks (fs : FileSystem) (slot : Slot) (node : Node) :
    Node.LandmarksIn (fs.clear slot).root (fs.fill slot node).root := by
  apply Node.landmarksIn_alter
  intro entries name rest mark stands
  by_cases same : name = slot.name
  · simp [same, Entries.find?_erase_self] at stands
  · rw [Entries.find?_erase_of_ne entries same] at stands
    rw [Entries.find?_insert_of_ne entries node same]
    exact stands

-- A file is no landmark, so filling a slot with one adds none. It may well take one away: the
-- other direction fails where the slot held a link.
theorem fill_landmarks (fs : FileSystem) (slot : Slot) (content : List UInt8) (mode : Nat) :
    Node.LandmarksIn (fs.fill slot (.file content mode)).root fs.root := by
  have compared : Node.LandmarksIn (fs.root.alter (·.insert slot.name (.file content mode))
      slot.directory) (fs.root.alter (fun entries => entries) slot.directory) := by
    apply Node.landmarksIn_alter
    intro entries name rest mark stands
    by_cases same : name = slot.name
    · rw [same, Entries.find?_insert_self, Option.bind_some] at stands
      cases rest <;> simp [Node.landmarkAt?, Node.get?, Node.landmark?] at stands
    · rw [Entries.find?_insert_of_ne entries _ same] at stands
      exact stands
  rw [Node.alter_same] at compared
  exact compared

theorem Entries.modify_absent {entries : Entries} {name : Name} (f : Node → Node)
    (absent : entries.find? name = none) : entries.modify name f = entries := by
  induction entries with
  | nil => rfl
  | cons entry rest ih =>
    by_cases here : entry.1 = name
    · simp [find?, here] at absent
    · simp only [find?, here, if_false] at absent
      simp [modify, here, ih absent]

theorem Node.alter_fixed {f : Entries → Entries} {location : Location} {node : Node}
    (fixed : ∀ mode modified entries, node.get? location = some (directory mode modified entries) →
      f entries = entries) : node.alter f location = node := by
  induction location generalizing node with
  | nil =>
    cases node with
    | directory mode modified entries => simp [alter, fixed mode modified entries rfl]
    | _ => rfl
  | cons name location ih =>
    cases node with
    | directory mode modified others =>
      have same : Entries.modify others name (alter f location) = others := by
        cases found : Entries.find? others name with
        | none => exact Entries.modify_absent _ found
        | some child =>
          apply Entries.modify_fixed found
          apply ih
          intro mode modified entries there
          apply fixed mode modified entries
          simp [get?, found, there]
      simp [alter, same]
    | _ => rfl

theorem clear_fill {fs : FileSystem} {slot : Slot} (absent : fs.atSlot? slot = none)
    (node : Node) : (fs.fill slot node).clear slot = fs := by
  have fixed : fs.root.alter (fun entries => (entries.insert slot.name node).erase slot.name)
      slot.directory = fs.root := by
    apply Node.alter_fixed
    intro mode modified entries found
    apply Entries.erase_insert
    unfold atSlot? FileSystem.get? at absent
    rw [Node.get?_append, found, Option.bind_some, Node.get?] at absent
    split at absent
    · cases absent
    · assumption
  simp only [fill, clear, alter, Node.alter_alter, fixed]

theorem clear_fill_landmarks (fs : FileSystem) (slot : Slot) (node : Node) :
    Node.LandmarksIn ((fs.fill slot node).clear slot).root (fs.clear slot).root := by
  simp only [fill, clear, alter, Node.alter_alter]
  apply Node.landmarksIn_alter
  intro entries name rest mark stands
  by_cases same : name = slot.name
  · simp [same, Entries.find?_erase_self] at stands
  · rw [Entries.find?_erase_of_ne _ same, Entries.find?_insert_of_ne entries node same] at stands
    rw [Entries.find?_erase_of_ne entries same]
    exact stands

theorem get?_fill {fs : FileSystem} {slot : Slot}
    (there : fs.root.landmarkAt? slot.directory = some .directory) (node : Node) :
    (fs.fill slot node).get? (slot.directory ++ [slot.name]) = some node := by
  obtain ⟨mode, modified, entries, found⟩ := Node.directory_of_landmarkAt? there
  have changed := Node.get?_alter found (·.insert slot.name node)
  simp only [get?, fill, alter, Node.get?_append, changed, Option.bind_some]
  simp [Node.get?, Entries.find?_insert_self]

theorem clear_fewer (fs : FileSystem) (slot : Slot) :
    Node.LandmarksIn (fs.clear slot).root fs.root := by
  have compared : Node.LandmarksIn (fs.root.alter (·.erase slot.name) slot.directory)
      (fs.root.alter (fun entries => entries) slot.directory) := by
    apply Node.landmarksIn_alter
    intro entries name rest mark stands
    by_cases same : name = slot.name
    · simp [same, Entries.find?_erase_self] at stands
    · rw [Entries.find?_erase_of_ne entries same] at stands
      exact stands
  rw [Node.alter_same] at compared
  exact compared

theorem get?_clear {fs : FileSystem} {slot : Slot}
    (there : fs.root.landmarkAt? slot.directory = some .directory) :
    (fs.clear slot).get? (slot.directory ++ [slot.name]) = none := by
  obtain ⟨mode, modified, entries, found⟩ := Node.directory_of_landmarkAt? there
  have changed := Node.get?_alter found (·.erase slot.name)
  simp only [get?, clear, alter, Node.get?_append, changed, Option.bind_some]
  simp [Node.get?, Entries.find?_erase_self]

theorem alter_fill (fs : FileSystem) (slot : Slot) (node : Node) (f : Node → Node) :
    (fs.fill slot node).alter slot.directory (·.modify slot.name f) = fs.fill slot (f node) := by
  simp only [fill, alter, Node.alter_alter, Entries.modify_insert]

end RepoFinder.FileSystem
