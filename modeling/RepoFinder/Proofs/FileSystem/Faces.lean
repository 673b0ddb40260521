import RepoFinder.Proofs.FileSystem.Frames

namespace RepoFinder.FileSystem

inductive Face where
  | file (content : List UInt8) (mode : Nat)
  | link (target : Path)
  -- What lies in a directory shows at places of its own.
  | directory (mode : Nat)
deriving DecidableEq

def Node.face : Node → Face
  | file content mode => .file content mode
  | link target => .link target
  | directory mode .. => .directory mode

def faceAt? (fs : FileSystem) (place : Location) : Option Face := (fs.get? place).map Node.face

variable {fs middle after made : FileSystem} {slot : Slot} {place goal : Location} {p : Path}
  {paths : List Path} {mode : Nat} {content : List UInt8} {node : Node}

theorem faceAt?_of_get? (there : fs.get? place = some node) :
    fs.faceAt? place = some node.face := by
  simp [faceAt?, there]

theorem landmarkAt?_directory_iff :
    fs.root.landmarkAt? place = some .directory ↔
      ∃ mode, fs.faceAt? place = some (.directory mode) := by
  unfold Node.landmarkAt? faceAt? get?
  cases fs.root.get? place with
  | none => simp
  | some node => cases node <;> simp [Node.landmark?, Node.face]

-- Where neither the old entry nor the new one has anything in it, a change to a slot shows at the
-- slot alone.
theorem fill_faceAt? (home : fs.root.landmarkAt? slot.directory = some .directory)
    (plain : fs.root.landmarkAt? (slot.directory ++ [slot.name]) ≠ some .directory)
    (bare : ∀ name more, node.get? (name :: more) = none)
    (other : place ≠ slot.directory ++ [slot.name]) :
    (fs.fill slot node).faceAt? place = fs.faceAt? place := by
  have filled := get?_fill home node
  unfold get? at filled
  have behind (name : Name) (more : Location) :
      (fs.fill slot node).root.get? (slot.directory ++ [slot.name] ++ name :: more) = none := by
    rw [Node.get?_append, filled, Option.bind_some, bare]
  have same : ((fs.fill slot node).get? place).bind (some ∘ Node.face) =
      (fs.get? place).bind (some ∘ Node.face) :=
    alter_shows_here (fun _ _ _ _ => rfl)
      (fun entries _ differ => Entries.find?_insert_of_ne entries node differ)
      (get?_below_plain plain) behind other
  rwa [← Option.map_eq_bind, ← Option.map_eq_bind] at same

theorem locate_grown (grown : Grown fs after) (located : fs.locate p = .ok goal)
    (stands : fs.root.landmarkAt? goal = some .directory) : after.locate p = .ok goal := by
  obtain ⟨usable, walked⟩ := locate_iff.mp located
  refine locate_iff.mpr ⟨usable, ?_⟩
  rw [grown.current]
  exact walk_landmarks grown.landmarks walked stands

-- A tree that shows all that another one shows, and more only where some paths lead to directories
-- of the given mode.
structure Furnished (mode : Nat) (paths : List Path) (fs after : FileSystem) : Prop where
  grown : Grown fs after
  kept : ∀ place face, fs.faceAt? place = some face → after.faceAt? place = some face
  fresh : ∀ place face, fs.faceAt? place = none → after.faceAt? place = some face →
    face = .directory mode ∧ ∃ path ∈ paths, after.locate path = .ok place

namespace Furnished

theorem refl (fs : FileSystem) : Furnished mode paths fs fs where
  grown := .refl fs
  kept _ _ shown := shown
  fresh place face absent shown := by cases absent.symm.trans shown

theorem trans (first : Furnished mode paths fs middle) (second : Furnished mode paths middle after) :
    Furnished mode paths fs after where
  grown := first.grown.trans second.grown
  kept place face shown := second.kept place face (first.kept place face shown)
  fresh place face absent shown := by
    cases between : middle.faceAt? place with
    | none => exact second.fresh place face between shown
    | some early =>
      obtain rfl := Option.some.inj ((second.kept place early between).symm.trans shown)
      obtain ⟨rfl, path, among, located⟩ := first.fresh place early absent between
      have stands := landmarkAt?_directory_iff.mpr ⟨mode, between⟩
      exact ⟨rfl, path, among, locate_grown second.grown located stands⟩

end Furnished

theorem makeDirectory_furnished (among : p ∈ paths) (making : fs.makeDirectory mode p = .ok made) :
    Furnished mode paths fs made := by
  have grown := makeDirectory_grown making
  obtain ⟨slot, named, entry, absent, rfl⟩ := makeDirectory_ok making
  have absent : fs.get? (slot.directory ++ [slot.name]) = none := absent
  have home := landmarkAt?_of_slot named (.inl entry)
  have plain : fs.root.landmarkAt? (slot.directory ++ [slot.name]) ≠ some .directory := by
    intro directory
    obtain ⟨_, _, _, there⟩ := Node.directory_of_landmarkAt? directory
    cases absent.symm.trans there
  have filled := get?_fill home (.directory mode .epoch [])
  have here : (fs.fill slot (.directory mode .epoch [])).faceAt?
      (slot.directory ++ [slot.name]) = some (.directory mode) := faceAt?_of_get? filled
  have elsewhere (place : Location) (other : place ≠ slot.directory ++ [slot.name]) :
      (fs.fill slot (.directory mode .epoch [])).faceAt? place = fs.faceAt? place :=
    fill_faceAt? home plain (fun _ _ => rfl) other
  refine ⟨grown, ?_, ?_⟩
  · intro place face shown
    rw [elsewhere place]
    · exact shown
    · rintro rfl
      simp [faceAt?, absent] at shown
  · intro place face missing shown
    by_cases other : place = slot.directory ++ [slot.name]
    · subst other
      obtain rfl := Option.some.inj (here.symm.trans shown)
      have stands := landmarkAt?_directory_iff.mpr ⟨mode, here⟩
      exact ⟨rfl, p, among, locate_slot named entry grown.landmarks grown.current stands⟩
    · rw [elsewhere place other] at shown
      cases missing.symm.trans shown

theorem makeAlong_furnished {some : List Path} (among : some ⊆ paths) (fs : FileSystem)
    (mode : Nat) : Furnished mode paths fs (fs.makeAlong mode some).1 :=
  makeAlong_rel .refl .trans (fun _ listed _ _ => makeDirectory_furnished (among listed)) fs

end RepoFinder.FileSystem
