import RepoFinder.Proofs.FileSystem.Frames

namespace RepoFinder.FileSystem

variable {root other : Node} {fs written : FileSystem} {slot : Slot} {p : Path}
  {content : List UInt8} {links : Nat} {segments rest : List Name} {location : Location}
  {segment : Name}

theorem walkWith_stride {follow : Location → List Name → Except Failure Place} {stride : Stride}
    (made : stride? root location segment = some stride) :
    walkWith root follow location (segment :: rest) = match stride with
      | .ahead next => walkWith root follow next rest
      | .behind target => follow (startOf location target) (target.segments ++ rest) := by
  rw [walkWith]
  unfold stride? at made
  cases read : entriesAt root location with
  | error failure => simp [read] at made
  | ok entries =>
    simp only [read] at made ⊢
    split at made
    · rename_i dot
      cases made
      rw [if_pos dot]
    rename_i noDot
    rw [if_neg noDot]
    split at made
    · rename_i up
      cases made
      rw [if_pos up]
    rename_i noUp
    rw [if_neg noUp]
    split at made
    · cases made
    rename_i short
    rw [if_neg short]
    cases found : entries.find? segment with
    | none => simp [found] at made
    | some node => cases node <;> simp only [found] at made <;> cases made <;> rfl

structure Slot.IsFree (root : Node) (slot : Slot) : Prop where
  home : root.landmarkAt? slot.directory = some .directory
  entry : slot.isEntry = true
  short : slot.name.length ≤ longestName
  absent : root.get? (slot.directory ++ [slot.name]) = none

theorem walkWith_stuck {follow : Location → List Name → Except Failure Place}
    {directory : Location} {name : Name} (stuck : stride? root location segment = none)
    (walked : walkWith root follow location (segment :: rest) = .ok (.free directory name)) :
    rest = [] ∧ location = directory ∧ segment = name ∧
      Slot.IsFree root ⟨directory, name, false⟩ := by
  rw [walkWith] at walked
  unfold stride? at stuck
  cases read : entriesAt root location with
  | error failure => simp [read] at walked
  | ok entries =>
    simp only [read] at stuck walked
    split at stuck
    · cases stuck
    rename_i noDot
    rw [if_neg noDot] at walked
    split at stuck
    · cases stuck
    rename_i noUp
    rw [if_neg noUp] at walked
    split at stuck
    · rename_i long
      simp [long] at walked
    rename_i short
    rw [if_neg short] at walked
    cases found : entries.find? segment with
    | some node => cases node <;> simp [found] at stuck
    | none =>
      simp only [found] at walked
      split at walked
      · rename_i last
        cases walked
        refine ⟨List.isEmpty_iff.mp last, rfl, rfl, ?_⟩
        refine ⟨landmarkAt?_of_entriesAt read, ?_, Nat.le_of_not_lt short, ?_⟩
        · simp only [Bool.or_eq_true, decide_eq_true_eq, not_or] at noDot
          simp [Slot.isEntry, noDot, noUp]
        · rw [get?_of_entriesAt read]
          exact found
      · cases walked

-- A tree that keeps every stride when the free name is taken, and has one to that name.
structure Slot.IsTaken (root other : Node) (slot : Slot) : Prop where
  strides : ∀ location segment stride, stride? root location segment = some stride →
    stride? other location segment = some stride
  last : stride? other slot.directory slot.name = some (.ahead (slot.directory ++ [slot.name]))

theorem walkWith_free {follow goOn : Location → List Name → Except Failure Place}
    {directory : Location} {name : Name}
    (takes : Slot.IsFree root ⟨directory, name, false⟩ →
      Slot.IsTaken root other ⟨directory, name, false⟩)
    (follows : ∀ location segments, follow location segments = .ok (.free directory name) →
      Slot.IsFree root ⟨directory, name, false⟩ ∧
        goOn location segments = .ok (.taken (directory ++ [name])))
    (walked : walkWith root follow location segments = .ok (.free directory name)) :
    Slot.IsFree root ⟨directory, name, false⟩ ∧
      walkWith other goOn location segments = .ok (.taken (directory ++ [name])) := by
  induction segments generalizing location with
  | nil => cases walked
  | cons segment rest ih =>
    cases made : stride? root location segment with
    | none =>
      obtain ⟨rfl, rfl, rfl, free⟩ := walkWith_stuck made walked
      exact ⟨free, walkWith_cons.mpr ⟨_, (takes free).last, rfl⟩⟩
    | some stride =>
      rw [walkWith_stride made] at walked
      cases stride with
      | ahead next =>
        obtain ⟨free, goes⟩ := ih walked
        exact ⟨free, (walkWith_stride ((takes free).strides _ _ _ made)).trans goes⟩
      | behind target =>
        obtain ⟨free, goes⟩ := follows _ _ walked
        exact ⟨free, (walkWith_stride ((takes free).strides _ _ _ made)).trans goes⟩

theorem walk_free {directory : Location} {name : Name}
    (takes : Slot.IsFree root ⟨directory, name, false⟩ →
      Slot.IsTaken root other ⟨directory, name, false⟩)
    (walked : walk root links location segments = .ok (.free directory name)) :
    Slot.IsFree root ⟨directory, name, false⟩ ∧
      walk other links location segments = .ok (.taken (directory ++ [name])) := by
  induction links generalizing location segments with
  | zero =>
    apply walkWith_free takes _ walked
    intro location segments walked
    cases walked
  | succ links ih =>
    apply walkWith_free takes _ walked
    intro location segments walked
    exact ih walked

-- A file in a slot that held no directory and no link bars no way.
theorem fill_stride? {mode : Nat} {stride : Stride}
    (home : fs.root.landmarkAt? slot.directory = some .directory)
    (vacant : fs.root.landmarkAt? (slot.directory ++ [slot.name]) = none)
    (made : stride? fs.root location segment = some stride) :
    stride? (fs.fill slot (.file content mode)).root location segment = some stride := by
  have plain : fs.root.landmarkAt? (slot.directory ++ [slot.name]) ≠ some .directory := by
    simp [vacant]
  have filled := get?_fill home (.file content mode)
  have landmarks : Node.LandmarksIn fs.root (fs.fill slot (.file content mode)).root := by
    intro place mark stands
    have other : place ≠ slot.directory ++ [slot.name] := by
      rintro rfl
      cases vacant.symm.trans stands
    have behind (name : Name) (more : Location) : (fs.fill slot (.file content mode)).root.get?
        (slot.directory ++ [slot.name] ++ name :: more) = none :=
      get?_below filled (by simp [Node.landmark?])
    have same := alter_shows_here landmark?_plain
      (fun entries _ differ => Entries.find?_insert_of_ne entries (.file content mode) differ)
      (get?_below_plain plain) behind other
    exact same.trans stands
  apply stride?_local (landmarks _ _) (landmarks _) made
  rintro rfl
  obtain ⟨node, there, noLink⟩ := stride?_ahead_entry made
  by_cases here : location ++ [segment] = slot.directory ++ [slot.name]
  · exact .inr ⟨content, mode, here ▸ filled⟩
  · cases node with
    | file old oldMode =>
      have frame := fill_frame plain content mode
      exact .inr ⟨old, oldMode, (frame.file (by simpa using here)).mpr there⟩
    | link target => exact absurd rfl (noLink target)
    | directory =>
      left
      simp [Node.landmarkAt?, there, Node.landmark?]

theorem place_iff {place : Place} : fs.place p = .ok place ↔ checkPath p = .ok () ∧
    walk fs.root mostLinks (startOf fs.current p) p.segments = .ok place := by
  unfold FileSystem.place
  cases checkPath p <;> simp

theorem Slot.IsFree.fill {mode : Nat} (free : slot.IsFree fs.root) :
    slot.IsTaken fs.root (fs.fill slot (.file content mode)).root where
  strides location segment stride made :=
    fill_stride? free.home (by simp [Node.landmarkAt?, free.absent]) made
  last := by
    obtain ⟨_, _, entries, found⟩ := Node.directory_of_landmarkAt? free.home
    have read : entriesAt (fs.fill slot (.file content mode)).root slot.directory =
        .ok (Entries.insert entries slot.name (.file content mode)) := by
      unfold entriesAt FileSystem.fill FileSystem.alter
      rw [Node.get?_alter found]
    have entry := free.entry
    simp only [Slot.isEntry, Bool.and_eq_true, decide_eq_true_eq] at entry
    simp [stride?, read, entry, Nat.not_lt.mpr free.short, Entries.find?_insert_self]

theorem contentOf_writeFile (wrote : fs.writeFile p content = .ok written) :
    written.contentOf p = .ok content := by
  simp only [writeFile, bind, Except.bind] at wrote
  split at wrote
  · cases wrote
  rename_i place placed
  obtain ⟨usable, walked⟩ := place_iff.mp placed
  cases place with
  | free directory name =>
    cases wrote
    obtain ⟨free, leads⟩ := walk_free (fun free => free.fill) walked
    exact contentOf_iff.mpr ⟨usable, _, _, leads, get?_fill free.home _⟩
  | taken location =>
    dsimp only at wrote
    split at wrote
    · rename_i old mode name there last
      cases wrote
      obtain ⟨before, rfl⟩ := List.getLast?_eq_some_iff.mp last
      have home := directory_of_entry there
      have vacant : fs.root.landmarkAt? (before ++ [name]) = none := by
        unfold Node.landmarkAt?
        rw [show fs.root.get? _ = _ from there]
        rfl
      rw [List.dropLast_concat]
      let slot : Slot := ⟨before, name, false⟩
      have leads : walk (fs.fill slot (.file content mode)).root (mostLinks + 0) _ _ = _ :=
        walk_more (fun _ _ _ => fill_stride? home vacant) walked 0
      exact contentOf_iff.mpr ⟨usable, _, _, leads, get?_fill home _⟩
    · cases wrote

end RepoFinder.FileSystem
