import RepoFinder.Proofs.FileSystem.Ways
import RepoFinder.Proofs.Path.Children

namespace RepoFinder

namespace FileSystem

variable {fs middle after : FileSystem} {slot : Slot} {place : Location} {p : Path} {name : Name}
  {content : List UInt8} {mode : Nat}

def Node.leaf? : Node → Option Node
  | directory .. => none
  | node => some node

def Node.leafAt? (node : Node) (place : Location) : Option Node := (node.get? place).bind leaf?

theorem Node.leafAt?_file {node : Node} :
    node.leafAt? place = some (.file content mode) ↔ node.get? place = some (.file content mode) := by
  unfold leafAt?
  cases node.get? place with
  | none => simp
  | some found => cases found <;> simp [leaf?]

theorem Node.leafAt?_link {node : Node} {target : Path} :
    node.leafAt? place = some (.link target) ↔ node.get? place = some (.link target) := by
  unfold leafAt?
  cases node.get? place with
  | none => simp
  | some found => cases found <;> simp [leaf?]

-- A change shows no files and no links but at the given places, and at these it leaves no link.
structure Frame (touched : List Location) (fs after : FileSystem) : Prop where
  current : after.current = fs.current
  leaves : ∀ place, place ∉ touched → after.root.leafAt? place = fs.root.leafAt? place
  links : ∀ place ∈ touched, ∀ target, after.get? place ≠ some (.link target)

namespace Frame

variable {touched more : List Location}

theorem refl (fs : FileSystem) : Frame [] fs fs :=
  ⟨rfl, fun _ _ => rfl, by simp⟩

theorem file (frame : Frame touched fs after) (outside : place ∉ touched) :
    after.get? place = some (.file content mode) ↔ fs.get? place = some (.file content mode) := by
  unfold get?
  rw [← Node.leafAt?_file, ← Node.leafAt?_file, frame.leaves place outside]

theorem link (frame : Frame touched fs after) {target : Path}
    (there : after.get? place = some (.link target)) : fs.get? place = some (.link target) := by
  have outside : place ∉ touched := fun present => frame.links place present target there
  unfold get? at there ⊢
  rw [← Node.leafAt?_link] at there ⊢
  rwa [← frame.leaves place outside]

theorem trans (first : Frame touched fs middle) (second : Frame more middle after) :
    Frame (touched ++ more) fs after where
  current := second.current.trans first.current
  leaves place outside := by
    rw [List.mem_append, not_or] at outside
    rw [second.leaves place outside.2, first.leaves place outside.1]
  links place present target there := by
    rcases List.mem_append.mp present with early | late
    · exact first.links place early target (second.link there)
    · exact second.links place late target there

end Frame

theorem get?_below_plain {root : Node} {location : Location}
    (plain : root.landmarkAt? location ≠ some .directory) (name : Name) (more : Location) :
    root.get? (location ++ name :: more) = none := by
  cases found : root.get? location with
  | none => rw [Node.get?_append, found, Option.bind_none]
  | some node =>
    apply get?_below found
    intro directory
    rw [Node.landmarkAt?, found, Option.bind_some] at plain
    exact plain directory

-- With nothing below the slot, before and after, a change to the slot shows at the slot alone.
theorem alter_shows_here {β : Type} {view : Node → Option β} {f : Entries → Entries}
    (flat : ∀ mode modified entries others,
      view (.directory mode modified entries) = view (.directory mode modified others))
    (elsewhere : ∀ entries other, other ≠ slot.name →
      Entries.find? (f entries) other = Entries.find? entries other)
    (before : ∀ name more, fs.root.get? (slot.directory ++ [slot.name] ++ name :: more) = none)
    (behind : ∀ name more,
      (fs.root.alter f slot.directory).get? (slot.directory ++ [slot.name] ++ name :: more) = none)
    (other : place ≠ slot.directory ++ [slot.name]) :
    ((fs.root.alter f slot.directory).get? place).bind view = (fs.root.get? place).bind view := by
  by_cases below : slot.directory ++ [slot.name] <+: place
  · obtain ⟨more, rfl⟩ := below
    cases more with
    | nil => simp at other
    | cons name more => rw [before, behind]
  · exact Node.get?_alter_of_apart flat elsewhere slot.directory fs.root below

theorem alter_leaves {f : Entries → Entries}
    (elsewhere : ∀ entries other, other ≠ slot.name →
      Entries.find? (f entries) other = Entries.find? entries other)
    (plain : fs.root.landmarkAt? (slot.directory ++ [slot.name]) ≠ some .directory)
    (still : (fs.alter slot.directory f).root.landmarkAt? (slot.directory ++ [slot.name]) ≠
      some .directory)
    (other : place ≠ slot.directory ++ [slot.name]) :
    (fs.alter slot.directory f).root.leafAt? place = fs.root.leafAt? place :=
  alter_shows_here (fun _ _ _ _ => rfl) elsewhere (get?_below_plain plain)
    (get?_below_plain still) other

theorem fill_frame (plain : fs.root.landmarkAt? (slot.directory ++ [slot.name]) ≠ some .directory)
    (content : List UInt8) (mode : Nat) :
    Frame [slot.directory ++ [slot.name]] fs (fs.fill slot (.file content mode)) := by
  have fewer := fill_landmarks fs slot content mode
  refine ⟨rfl, ?_, ?_⟩
  · intro place outside
    rw [List.mem_singleton] at outside
    exact alter_leaves (fun entries _ differ => Entries.find?_insert_of_ne entries _ differ) plain
      (fun stands => plain (fewer _ _ stands)) outside
  · intro place present target there
    rw [List.mem_singleton] at present
    subst present
    have home := fewer _ _ (directory_of_entry there)
    cases there.symm.trans (get?_fill home _)

theorem clear_frame (plain : fs.root.landmarkAt? (slot.directory ++ [slot.name]) ≠ some .directory) :
    Frame [slot.directory ++ [slot.name]] fs (fs.clear slot) := by
  have fewer := clear_fewer fs slot
  refine ⟨rfl, ?_, ?_⟩
  · intro place outside
    rw [List.mem_singleton] at outside
    exact alter_leaves (fun entries _ differ => Entries.find?_erase_of_ne entries differ) plain
      (fun stands => plain (fewer _ _ stands)) outside
  · intro place present target there
    rw [List.mem_singleton] at present
    subst present
    have home := fewer _ _ (directory_of_entry there)
    cases there.symm.trans (get?_clear home)

theorem Entries.insert_found {entries : Entries} {node : Node}
    (found : entries.find? name = some node) : entries.insert name node = entries := by
  induction entries with
  | nil => cases found
  | cons entry rest ih =>
    obtain ⟨n, old⟩ := entry
    by_cases here : n = name
    · simp only [find?, here, if_true, Option.some.injEq] at found
      simp [insert, here, found]
    · simp only [find?, here, if_false] at found
      simp [insert, here, ih found]

theorem fill_same {node : Node} (there : fs.get? (slot.directory ++ [slot.name]) = some node) :
    fs.fill slot node = fs := by
  have same : fs.root.alter (·.insert slot.name node) slot.directory = fs.root := by
    apply Node.alter_fixed
    intro mode modified entries found
    apply Entries.insert_found
    unfold get? at there
    rw [Node.get?_append, found, Option.bind_some, Node.get?] at there
    split at there
    · rename_i entry stands
      rw [stands]
      exact there
    · cases there
  simp only [fill, alter, same]

theorem makeDirectory_frame {made : FileSystem} (making : fs.makeDirectory mode p = .ok made) :
    Frame [] fs made := by
  obtain ⟨slot, named, entry, absent, rfl⟩ := makeDirectory_ok making
  have absent : fs.get? (slot.directory ++ [slot.name]) = none := absent
  have home := landmarkAt?_of_slot named (.inl entry)
  have made := get?_fill home (.directory mode .epoch [])
  unfold get? at absent made
  refine ⟨rfl, ?_, by simp⟩
  intro place _
  -- At the slot there is an empty directory now, and in it nothing.
  by_cases here : place = slot.directory ++ [slot.name]
  · rw [here, Node.leafAt?, Node.leafAt?, made, absent]
    rfl
  · apply alter_shows_here (fun _ _ _ _ => rfl)
      (fun entries _ differ => Entries.find?_insert_of_ne entries _ differ) _ _ here
    · intro name more
      rw [Node.get?_append, absent, Option.bind_none]
    · intro name more
      have below := Node.get?_append (fs.fill slot (.directory mode .epoch [])).root
        (slot.directory ++ [slot.name]) (name :: more)
      rw [made] at below
      exact below

theorem makeAlong_frame (fs : FileSystem) (mode : Nat) (paths : List Path) :
    Frame [] fs (fs.makeAlong mode paths).1 :=
  makeAlong_rel .refl .trans (fun _ _ _ _ => makeDirectory_frame) fs

-- Neither a path nor a link spells a name, nor does the place where relative paths start.
structure Unspelled (fs : FileSystem) (p : Path) (name : Name) : Prop where
  path : name ∉ p.segments
  current : name ∉ fs.current
  links : ∀ place target, fs.get? place = some (.link target) → name ∉ target.segments

theorem Unspelled.frame {touched : List Location} (unspelled : fs.Unspelled p name)
    (frame : Frame touched fs after) : after.Unspelled p name where
  path := unspelled.path
  current := frame.current ▸ unspelled.current
  links place target there := unspelled.links place target (frame.link there)

theorem startOf_unspelled {location : Location} (start : name ∉ location) (p : Path) :
    name ∉ startOf location p := by
  unfold startOf
  split <;> simp [start]

variable {root other : Node} {location goal : Location} {segment : Name} {segments : List Name}
  {links : Nat}

theorem stride?_unspelled {stride : Stride}
    (unspelled : ∀ place target, root.get? place = some (.link target) → name ∉ target.segments)
    (start : name ∉ location) (fresh : name ≠ segment)
    (made : stride? root location segment = some stride) :
    (∀ next, stride = .ahead next → name ∉ next) ∧
      ∀ target, stride = .behind target → name ∉ target.segments := by
  unfold stride? at made
  split at made
  · cases made
  rename_i entries read
  split at made
  · cases made
    simpa using start
  split at made
  · cases made
    simpa using fun present => start (List.dropLast_subset location present)
  split at made
  · cases made
  split at made
  · cases made
  · rename_i target found
    cases made
    rw [← get?_of_entriesAt read] at found
    simpa using unspelled _ target found
  · cases made
    simpa using ⟨start, fresh⟩

-- The induction is on the segments; each of them is another name, and so is each segment of a link
-- that the walk goes behind.
theorem walkWith_unspelled {follow goOn : Location → List Name → Except Failure Place}
    (unspelled : ∀ place target, root.get? place = some (.link target) → name ∉ target.segments)
    (strides : ∀ location segment stride, name ≠ segment →
      stride? root location segment = some stride → stride? other location segment = some stride)
    (follows : ∀ location segments, name ∉ location → name ∉ segments →
      follow location segments = .ok (.taken goal) →
        goOn location segments = .ok (.taken goal) ∧ name ∉ goal)
    (start : name ∉ location) (fresh : name ∉ segments)
    (walked : walkWith root follow location segments = .ok (.taken goal)) :
    walkWith other goOn location segments = .ok (.taken goal) ∧ name ∉ goal := by
  induction segments generalizing location with
  | nil =>
    cases walked
    exact ⟨rfl, start⟩
  | cons segment rest ih =>
    rw [List.mem_cons, not_or] at fresh
    obtain ⟨stride, made, walked⟩ := walkWith_cons.mp walked
    obtain ⟨ahead, behind⟩ := stride?_unspelled unspelled start fresh.1 made
    have also := strides _ _ _ fresh.1 made
    cases stride with
    | ahead next =>
      obtain ⟨on, outside⟩ := ih (ahead next rfl) fresh.2 walked
      exact ⟨walkWith_cons.mpr ⟨_, also, on⟩, outside⟩
    | behind target =>
      have others : name ∉ target.segments ++ rest := by simp [behind target rfl, fresh.2]
      obtain ⟨on, outside⟩ := follows _ _ (startOf_unspelled start target) others walked
      exact ⟨walkWith_cons.mpr ⟨_, also, on⟩, outside⟩

theorem walk_unspelled
    (unspelled : ∀ place target, root.get? place = some (.link target) → name ∉ target.segments)
    (strides : ∀ location segment stride, name ≠ segment →
      stride? root location segment = some stride → stride? other location segment = some stride)
    (start : name ∉ location) (fresh : name ∉ segments)
    (walked : walk root links location segments = .ok (.taken goal)) :
    walk other links location segments = .ok (.taken goal) ∧ name ∉ goal := by
  induction links generalizing location segments with
  | zero =>
    apply walkWith_unspelled unspelled strides _ start fresh walked
    intro location segments _ _ walked
    cases walked
  | succ links ih =>
    apply walkWith_unspelled unspelled strides _ start fresh walked
    intro location segments start fresh walked
    exact ih start fresh walked

theorem Unspelled.outside (unspelled : fs.Unspelled p name)
    (walked : walk fs.root links (startOf fs.current p) p.segments = .ok (.taken goal)) :
    name ∉ goal :=
  (walk_unspelled unspelled.links (fun _ _ _ _ made => made)
    (startOf_unspelled unspelled.current p) unspelled.path walked).2

theorem Unspelled.contentOf (unspelled : fs.Unspelled p slot.name)
    (frame : Frame [slot.directory ++ [slot.name]] fs after)
    (fewer : Node.LandmarksIn after.root fs.root) (read : after.contentOf p = .ok content) :
    fs.contentOf p = .ok content := by
  obtain ⟨usable, place, mode, walked, there⟩ := contentOf_iff.mp read
  have before := unspelled.frame frame
  have elsewhere {location : Location} {segment : Name} (fresh : slot.name ≠ segment) :
      location ++ [segment] ∉ [slot.directory ++ [slot.name]] := by
    rw [List.mem_singleton]
    intro same
    exact fresh (List.singleton_inj.mp (List.append_inj' same rfl).2).symm
  have strides (location : Location) (segment : Name) (stride : Stride)
      (fresh : slot.name ≠ segment) (made : stride? after.root location segment = some stride) :
      stride? fs.root location segment = some stride := by
    apply stride?_local (fewer _ _) (fewer _) made
    rintro rfl
    obtain ⟨node, found, noLink⟩ := stride?_ahead_entry made
    cases node with
    | file text mode => exact .inr ⟨text, mode, (frame.file (elsewhere fresh)).mp found⟩
    | link target => exact absurd rfl (noLink target)
    | directory =>
      left
      simp [Node.landmarkAt?, found, Node.landmark?]
  obtain ⟨walked, outside⟩ := walk_unspelled before.links strides
    (startOf_unspelled before.current p) unspelled.path walked
  rw [frame.current] at walked
  refine contentOf_iff.mpr ⟨usable, place, mode, walked, (frame.file ?_).mp there⟩
  rw [List.mem_singleton]
  rintro rfl
  simp at outside

theorem slot_child {folder : Path} (proper : name.Proper)
    (named : fs.slot (folder.child name) = .ok slot) : slot.name = name ∧ slot.isEntry = true := by
  have segments := Path.segments_child proper folder
  have filled := proper.filled
  simp only [FileSystem.slot, bind, Except.bind, segments, List.reverse_append,
    List.reverse_singleton, List.singleton_append] at named
  split at named
  · cases named
  rw [List.dropWhile_cons_of_neg (by simpa using filled)] at named
  dsimp only at named
  split at named
  · cases named
  rename_i reached _
  cases reached with
  | free => cases named
  | taken directory =>
    dsimp only at named
    split at named
    · cases named
    split at named
    · cases named
    cases named
    exact ⟨rfl, by simp [Slot.isEntry, filled, proper.noDot, proper.noDots]⟩

-- A file that is renamed to a path takes the place of the entry that the path names, and leaves
-- its own slot, unless the two are one.
theorem renameSlot_file {renamed : FileSystem}
    (held : fs.get? (slot.directory ++ [slot.name]) = some (.file content mode))
    (moving : fs.renameSlot slot p = .ok renamed) (apart : slot.name ∉ p.segments) :
    ∃ goal, fs.Names p goal ∧ goal.name ∈ p.segments ∧
      fs.root.landmarkAt? (goal.directory ++ [goal.name]) ≠ some .directory ∧
      renamed = (fs.clear slot).fill goal (.file content mode) := by
  simp only [renameSlot, bind, Except.bind] at moving
  split at moving
  · cases moving
  rename_i goal reached
  have there : fs.atSlot? slot = some (.file content mode) := held
  simp only [there] at moving
  split at moving
  · cases moving
  rename_i possible
  obtain ⟨unslashed, plain⟩ := checkRename_file possible
  have names := names_iff.mpr ⟨reached, isEntry_of_checkRename possible, unslashed⟩
  obtain ⟨before, segments, _⟩ := names.leads
  have spelled : goal.name ∈ p.segments := by simp [segments]
  refine ⟨goal, names, spelled, plain, ?_⟩
  split at moving
  · rename_i same
    simp only [Bool.and_eq_true, decide_eq_true_eq] at same
    exact absurd (same.2 ▸ spelled) apart
  · cases moving
    rfl

end FileSystem

end RepoFinder
