import RepoFinder.Proofs.FileSystem.Slots

namespace RepoFinder.FileSystem

variable {root other : Node} {links : Nat} {segments rest : List Name} {location goal : Location}

theorem walkWith_split {follow : Location → List Name → Except Failure Place}
    (same : walk root links = walkWith root follow)
    (follows : ∀ location segments goal, follow location (segments ++ rest) = .ok (.taken goal) →
      ∃ middle left, follow location segments = .ok (.taken middle) ∧
        walk root left middle rest = .ok (.taken goal))
    (walked : walkWith root follow location (segments ++ rest) = .ok (.taken goal)) :
    ∃ middle left, walkWith root follow location segments = .ok (.taken middle) ∧
      walk root left middle rest = .ok (.taken goal) := by
  induction segments generalizing location with
  | nil => exact ⟨location, links, rfl, same ▸ walked⟩
  | cons segment others ih =>
    obtain ⟨stride, made, walked⟩ := walkWith_cons.mp walked
    cases stride with
    | ahead next =>
      obtain ⟨middle, left, first, second⟩ := ih walked
      exact ⟨middle, left, walkWith_cons.mpr ⟨_, made, first⟩, second⟩
    | behind target =>
      have walked : follow (startOf location target) ((target.segments ++ others) ++ rest) =
          .ok (.taken goal) := by
        rw [List.append_assoc]
        exact walked
      obtain ⟨middle, left, first, second⟩ := follows _ _ goal walked
      exact ⟨middle, left, walkWith_cons.mpr ⟨_, made, first⟩, second⟩

theorem walk_split (walked : walk root links location (segments ++ rest) = .ok (.taken goal)) :
    ∃ middle left, walk root links location segments = .ok (.taken middle) ∧
      walk root left middle rest = .ok (.taken goal) := by
  induction links generalizing segments location goal with
  | zero =>
    have same : walk root 0 = walkWith root fun _ _ => .error .tooManyLinks := rfl
    apply walkWith_split same _ walked
    intro location segments goal walked
    cases walked
  | succ links ih =>
    have same : walk root (links + 1) = walkWith root (walk root links) := rfl
    apply walkWith_split same _ walked
    intro location segments goal walked
    exact ih walked

theorem walkWith_more {follow goOn : Location → List Name → Except Failure Place}
    (strides : ∀ location segment stride, stride? root location segment = some stride →
      stride? other location segment = some stride)
    (follows : ∀ location segments goal, follow location segments = .ok (.taken goal) →
      goOn location segments = .ok (.taken goal))
    (walked : walkWith root follow location segments = .ok (.taken goal)) :
    walkWith other goOn location segments = .ok (.taken goal) := by
  induction segments generalizing location with
  | nil => exact walked
  | cons segment others ih =>
    obtain ⟨stride, made, walked⟩ := walkWith_cons.mp walked
    refine walkWith_cons.mpr ⟨stride, strides _ _ _ made, ?_⟩
    cases stride with
    | ahead next => exact ih walked
    | behind target => exact follows _ _ goal walked

theorem walk_more
    (strides : ∀ location segment stride, stride? root location segment = some stride →
      stride? other location segment = some stride)
    (walked : walk root links location segments = .ok (.taken goal)) (extra : Nat) :
    walk other (links + extra) location segments = .ok (.taken goal) := by
  induction links generalizing segments location goal with
  | zero =>
    cases extra with
    | zero =>
      apply walkWith_more strides _ walked
      intro location segments goal walked
      cases walked
    | succ extra =>
      rw [Nat.zero_add]
      apply walkWith_more strides _ walked
      intro location segments goal walked
      cases walked
  | succ links ih =>
    rw [Nat.add_right_comm]
    apply walkWith_more strides _ walked
    intro location segments goal walked
    exact ih walked

theorem walk_unique {others : Nat} {end_ : Location}
    (first : walk root links location segments = .ok (.taken goal))
    (second : walk root others location segments = .ok (.taken end_)) : goal = end_ := by
  have same : ∀ location segment stride, stride? root location segment = some stride →
      stride? root location segment = some stride := fun _ _ _ made => made
  have first := walk_more same first others
  rw [Nat.add_comm, walk_more same second links] at first
  cases first
  rfl

structure AllBut (root other : Node) (slot : Slot) (target : Path) : Prop where
  link : root.get? (slot.directory ++ [slot.name]) = some (.link target)
  entry : slot.isEntry = true
  within : ∀ place mark, place ≠ slot.directory ++ [slot.name] →
    root.landmarkAt? place = some mark → other.landmarkAt? place = some mark

variable {slot : Slot} {target : Path}

theorem AllBut.here (allBut : AllBut root other slot target)
    (stands : root.landmarkAt? location = some .directory) :
    other.landmarkAt? location = some .directory := by
  apply allBut.within location .directory _ stands
  rintro rfl
  simp [Node.landmarkAt?, allBut.link, Node.landmark?] at stands

-- A stride is made in the other tree too, unless it is the one behind the link.
theorem AllBut.stride? (allBut : AllBut root other slot target) {segment : Name} {stride : Stride}
    (made : stride? root location segment = some stride)
    (toDirectory : ∀ next, stride = .ahead next → root.landmarkAt? next = some .directory) :
    FileSystem.stride? other location segment = some stride ∨
      location = slot.directory ∧ stride = .behind target := by
  by_cases same : location ++ [segment] = slot.directory ++ [slot.name]
  · right
    obtain ⟨rfl, last⟩ := List.append_inj' same rfl
    obtain rfl := List.singleton_inj.mp last
    refine ⟨rfl, ?_⟩
    have entry := allBut.entry
    simp only [Slot.isEntry, Bool.and_eq_true, decide_eq_true_eq] at entry
    unfold FileSystem.stride? at made
    split at made
    · cases made
    · rename_i entries read
      have found : entries.find? slot.name = some (.link target) := by
        rw [← get?_of_entriesAt read]
        exact allBut.link
      simp only [entry, decide_false, Bool.or_self, Bool.false_eq_true, if_false, found]
        at made
      split at made <;> cases made
      rfl
  · left
    exact stride?_local allBut.here (fun mark => allBut.within _ mark same) made
      fun ahead => .inl (toDirectory _ ahead)

theorem AllBut.walkWith (allBut : AllBut root other slot target)
    {follow goOn : Location → List Name → Except Failure Place}
    (follows : ∀ location segments, follow location segments = .ok (.taken goal) →
      goOn location segments = .ok (.taken goal) ∨
        ∃ left rest, walk root left (startOf slot.directory target) (target.segments ++ rest) =
          .ok (.taken goal))
    (behind : ∀ location segments, follow location segments = .ok (.taken goal) →
      ∃ left, walk root left location segments = .ok (.taken goal))
    (walked : FileSystem.walkWith root follow location segments = .ok (.taken goal))
    (stands : root.landmarkAt? goal = some .directory) :
    FileSystem.walkWith other goOn location segments = .ok (.taken goal) ∨
      ∃ left rest, walk root left (startOf slot.directory target) (target.segments ++ rest) =
        .ok (.taken goal) := by
  induction segments generalizing location with
  | nil => exact .inl walked
  | cons segment others ih =>
    obtain ⟨stride, made, walked⟩ := walkWith_cons.mp walked
    have toDirectory : ∀ next, stride = .ahead next →
        root.landmarkAt? next = some .directory := by
      intro next ahead
      subst ahead
      exact landmarkAt?_of_walkWith walked stands
    rcases allBut.stride? made toDirectory with also | ⟨rfl, rfl⟩
    · cases stride with
      | ahead next =>
        rcases ih walked with on | followed
        · exact .inl (walkWith_cons.mpr ⟨_, also, on⟩)
        · exact .inr followed
      | behind next =>
        rcases follows _ _ walked with on | followed
        · exact .inl (walkWith_cons.mpr ⟨_, also, on⟩)
        · exact .inr followed
    · obtain ⟨left, walked⟩ := behind _ _ walked
      exact .inr ⟨left, others, walked⟩

theorem AllBut.walk (allBut : AllBut root other slot target)
    (walked : FileSystem.walk root links location segments = .ok (.taken goal))
    (stands : root.landmarkAt? goal = some .directory) :
    FileSystem.walk other links location segments = .ok (.taken goal) ∨
      ∃ left rest, FileSystem.walk root left (startOf slot.directory target)
        (target.segments ++ rest) = .ok (.taken goal) := by
  induction links generalizing segments location with
  | zero =>
    apply allBut.walkWith _ _ walked stands
    · intro location segments walked
      cases walked
    · intro location segments walked
      cases walked
  | succ links ih =>
    apply allBut.walkWith _ _ walked stands
    · intro location segments walked
      exact ih walked
    · intro location segments walked
      exact ⟨links, walked⟩

variable {fs : FileSystem} {p : Path} {content : List UInt8}

theorem contentOf_iff : fs.contentOf p = .ok content ↔ checkPath p = .ok () ∧ ∃ location mode,
    walk fs.root mostLinks (startOf fs.current p) p.segments = .ok (.taken location) ∧
      fs.get? location = some (.file content mode) := by
  have shows : fs.contentOf p = .ok content ↔ ∃ mode, fs.status p = .ok (.file content mode) := by
    unfold FileSystem.contentOf
    cases fs.status p with
    | error failure => simp
    | ok node => cases node <;> simp
  rw [shows]
  constructor
  · rintro ⟨mode, stands⟩
    obtain ⟨location, located, found⟩ := status_iff.mp stands
    obtain ⟨usable, walked⟩ := locate_iff.mp located
    exact ⟨usable, location, mode, walked, found⟩
  · rintro ⟨usable, location, mode, walked, found⟩
    exact ⟨mode, status_iff.mpr ⟨location, locate_iff.mpr ⟨usable, walked⟩, found⟩⟩

theorem Names.last {fs other : FileSystem} (names : fs.Names p slot)
    (within : Node.LandmarksIn other.root fs.root) (current : other.current = fs.current)
    (walked : walk other.root mostLinks (startOf other.current p) p.segments =
      .ok (.taken goal)) :
    ∃ left, walk other.root left slot.directory [slot.name] = .ok (.taken goal) := by
  obtain ⟨before, segments, leads⟩ := names.leads
  rw [segments] at walked
  obtain ⟨middle, left, first, last⟩ := walk_split walked
  have stands : other.root.landmarkAt? middle = some .directory := by
    cases left <;>
    · obtain ⟨stride, made, _⟩ := walkWith_cons.mp last
      unfold FileSystem.stride? at made
      split at made
      · cases made
      · rename_i read
        exact landmarkAt?_of_entriesAt read
  have also := walk_landmarks within first stands
  rw [current] at also
  rw [walk_unique leads also]
  exact ⟨left, last⟩

theorem stride?_entry {stride : Stride} (entry : slot.isEntry = true)
    (made : stride? root slot.directory slot.name = some stride) :
    ∃ node, root.get? (slot.directory ++ [slot.name]) = some node ∧
      ((∃ target, node = .link target ∧ stride = .behind target) ∨
        (∀ target, node ≠ .link target) ∧ stride = .ahead (slot.directory ++ [slot.name])) := by
  simp only [Slot.isEntry, Bool.and_eq_true, decide_eq_true_eq] at entry
  unfold FileSystem.stride? at made
  split at made
  · cases made
  · rename_i entries read
    rw [get?_of_entriesAt read]
    simp only [entry, decide_false, Bool.or_self, Bool.false_eq_true, if_false] at made
    split at made
    · cases made
    split at made
    · cases made
    · rename_i target found
      obtain rfl := Option.some.inj made
      exact ⟨_, found, .inl ⟨target, rfl, rfl⟩⟩
    · rename_i node noLink found
      obtain rfl := Option.some.inj made
      exact ⟨node, found, .inr ⟨noLink, rfl⟩⟩

theorem walk_entry (entry : slot.isEntry = true)
    (walked : walk root links slot.directory [slot.name] = .ok (.taken goal)) :
    ∃ node, root.get? (slot.directory ++ [slot.name]) = some node ∧
      ((∃ target left, node = .link target ∧
        walk root left (startOf slot.directory target) target.segments = .ok (.taken goal)) ∨
        (∀ target, node ≠ .link target) ∧ goal = slot.directory ++ [slot.name]) := by
  have shape : ∃ follow, walkWith root follow slot.directory [slot.name] = .ok (.taken goal) ∧
      ∀ location segments, follow location segments = .ok (.taken goal) →
        ∃ left, walk root left location segments = .ok (.taken goal) := by
    cases links with
    | zero =>
      refine ⟨_, walked, ?_⟩
      intro location segments followed
      cases followed
    | succ links => exact ⟨_, walked, fun _ _ followed => ⟨links, followed⟩⟩
  obtain ⟨follow, walked, follows⟩ := shape
  obtain ⟨stride, made, walked⟩ := walkWith_cons.mp walked
  obtain ⟨node, there, ⟨target, rfl, rfl⟩ | ⟨noLink, rfl⟩⟩ := stride?_entry entry made
  · obtain ⟨left, walked⟩ := follows _ _ walked
    rw [List.append_nil] at walked
    exact ⟨_, there, .inl ⟨target, left, rfl, walked⟩⟩
  · cases walked
    exact ⟨node, there, .inr ⟨noLink, rfl⟩⟩

theorem landmarkAt?_of_walk (walked : walk root links location segments = .ok (.taken goal))
    (stands : root.landmarkAt? goal = some .directory) :
    root.landmarkAt? location = some .directory := by
  cases links <;> exact landmarkAt?_of_walkWith walked stands

theorem directory_of_entry {name : Name} {node : Node}
    (there : root.get? (location ++ [name]) = some node) :
    root.landmarkAt? location = some .directory := by
  rw [Node.get?_append] at there
  obtain ⟨found, stands, below⟩ := Option.bind_eq_some_iff.mp there
  cases found with
  | directory => simp [Node.landmarkAt?, stands, Node.landmark?]
  | _ => cases below

theorem landmarkAt?_dropLast (stands : root.landmarkAt? location = some .directory) :
    root.landmarkAt? location.dropLast = some .directory := by
  rcases List.eq_nil_or_concat location with rfl | ⟨before, name, rfl⟩
  · exact stands
  · rw [List.concat_eq_append] at stands ⊢
    rw [List.dropLast_concat]
    obtain ⟨_, _, _, found⟩ := Node.directory_of_landmarkAt? stands
    exact directory_of_entry found

theorem isEntry_of_stride? {name : Name} {stride : Stride}
    (made : stride? root location name = some stride)
    (leaves : ∀ next, stride = .ahead next → root.landmarkAt? next ≠ some .directory) :
    (Slot.mk location name false).isEntry = true ∧ name.length ≤ longestName := by
  unfold FileSystem.stride? at made
  split at made
  · cases made
  rename_i entries read
  have stands := landmarkAt?_of_entriesAt read
  split at made
  · exact absurd stands (leaves _ (Option.some.inj made).symm)
  rename_i noDot
  split at made
  · exact absurd (landmarkAt?_dropLast stands) (leaves _ (Option.some.inj made).symm)
  rename_i noDots
  split at made
  · cases made
  rename_i short
  exact ⟨by simp_all [Slot.isEntry], Nat.le_of_not_lt short⟩

theorem Names.of_contentOf (read : fs.contentOf p = .ok content) : ∃ slot, fs.Names p slot := by
  obtain ⟨usable, location, mode, walked, found⟩ := contentOf_iff.mp read
  have noDirectory : fs.root.landmarkAt? location ≠ some .directory := by
    rw [Node.landmarkAt?, show fs.root.get? location = _ from found]
    simp [Node.landmark?]
  obtain ⟨before, name, segments⟩ := (List.eq_nil_or_concat p.segments).resolve_left (Path.segmentsOf_ne_nil p.bytes)
  rw [List.concat_eq_append] at segments
  rw [segments] at walked
  obtain ⟨middle, left, first, last⟩ := walk_split walked
  obtain ⟨follow, shape⟩ : ∃ follow, walkWith fs.root follow middle [name] = .ok (.taken location) := by
    cases left <;> exact ⟨_, last⟩
  obtain ⟨stride, made, goes⟩ := walkWith_cons.mp shape
  have leaves (next : Location) (ahead : stride = .ahead next) :
      fs.root.landmarkAt? next ≠ some .directory := by
    subst ahead
    cases goes
    exact noDirectory
  obtain ⟨entry, short⟩ := isEntry_of_stride? made leaves
  have there : fs.root.landmarkAt? middle = some .directory := by
    unfold FileSystem.stride? at made
    split at made
    · cases made
    · rename_i read
      exact landmarkAt?_of_entriesAt read
  exact ⟨⟨middle, name, false⟩, usable, ⟨before, segments, first⟩, there, short, entry, rfl⟩

theorem Node.get?_alter_of_apart {β : Type} {view : Node → Option β} {f : Entries → Entries}
    {name : Name}
    (plain : ∀ mode modified entries others,
      view (directory mode modified entries) = view (directory mode modified others))
    (elsewhere : ∀ entries other, other ≠ name →
      Entries.find? (f entries) other = Entries.find? entries other)
    (location : Location) (node : Node) {place : Location}
    (apart : ¬ location ++ [name] <+: place) :
    ((node.alter f location).get? place).bind view = (node.get? place).bind view := by
  induction location generalizing node place with
  | nil =>
    cases node with
    | directory mode modified entries =>
      cases place with
      | nil => exact plain ..
      | cons first rest =>
        have other : first ≠ name := by
          rintro rfl
          exact apart ⟨rest, rfl⟩
        simp only [alter, get?, elsewhere entries first other]
    | _ => rfl
  | cons step location ih =>
    cases node with
    | directory mode modified entries =>
      cases place with
      | nil => exact plain ..
      | cons first rest =>
        simp only [alter, get?, Entries.find?_modify]
        by_cases same : first = step
        · subst same
          have apart : ¬ location ++ [name] <+: rest := by
            rintro ⟨more, rfl⟩
            exact apart ⟨more, rfl⟩
          cases Entries.find? entries first with
          | none => simp
          | some child => simpa using ih child apart
        · simp [same]
    | _ => rfl

theorem landmark?_plain (mode : Nat) (modified : Time.Timestamp) (entries others : Entries) :
    (Node.directory mode modified entries).landmark? =
      (Node.directory mode modified others).landmark? := rfl

theorem get?_below {node : Node} (there : root.get? location = some node)
    (noDirectory : node.landmark? ≠ some .directory) {name : Name} {more : Location} :
    root.get? (location ++ name :: more) = none := by
  rw [Node.get?_append, there, Option.bind_some]
  cases node with
  | directory => exact absurd rfl noDirectory
  | _ => rfl

theorem clear_within {fs : FileSystem} {node : Node}
    (there : fs.root.get? (slot.directory ++ [slot.name]) = some node)
    (noDirectory : node.landmark? ≠ some .directory) (place : Location) (mark : Landmark)
    (other : place ≠ slot.directory ++ [slot.name])
    (stands : fs.root.landmarkAt? place = some mark) :
    (fs.clear slot).root.landmarkAt? place = some mark := by
  by_cases below : slot.directory ++ [slot.name] <+: place
  · obtain ⟨more, rfl⟩ := below
    cases more with
    | nil => simp at other
    | cons name more =>
      rw [Node.landmarkAt?, get?_below there noDirectory] at stands
      cases stands
  · unfold Node.landmarkAt? clear FileSystem.alter
    rw [Node.get?_alter_of_apart landmark?_plain _ _ _ below]
    · exact stands
    · intro entries name differ
      exact Entries.find?_erase_of_ne entries differ

-- A file is no landmark, so all landmarks stay where it is taken away.
theorem clear_file_within {fs : FileSystem} {mode : Nat}
    (held : fs.get? (slot.directory ++ [slot.name]) = some (.file content mode)) :
    Node.LandmarksIn fs.root (fs.clear slot).root := by
  intro place mark stands
  refine clear_within held (by simp [Node.landmark?]) place mark ?_ stands
  rintro rfl
  rw [Node.landmarkAt?, show fs.root.get? _ = _ from held] at stands
  cases stands

-- Where a path can be read, the entry that it names is not on its own way: it is a file, which
-- leads nowhere, or a link, and one that was followed to a directory on the way would lead to that
-- directory at the end as well.
theorem Names.clear (names : fs.Names p slot) (read : fs.contentOf p = .ok content) :
    (fs.clear slot).Names p slot := by
  obtain ⟨_, location, mode, walked, found⟩ := contentOf_iff.mp read
  have reflexive : Node.LandmarksIn fs.root fs.root := fun _ _ stands => stands
  obtain ⟨left, last⟩ := names.last reflexive rfl walked
  obtain ⟨node, there, goes⟩ := walk_entry names.entry last
  have noDirectory : node.landmark? ≠ some .directory := by
    rcases goes with ⟨target, _, rfl, _⟩ | ⟨_, rfl⟩
    · simp [Node.landmark?]
    · obtain rfl : node = .file content mode := Option.some.inj (there.symm.trans found)
      simp [Node.landmark?]
  have within := clear_within there noDirectory
  have stands : (fs.clear slot).root.landmarkAt? slot.directory = some .directory := by
    apply within _ _ _ names.there
    intro same
    simpa using congrArg List.length same
  obtain ⟨before, segments, leads⟩ := names.leads
  refine { names with leads := ⟨before, segments, ?_⟩, there := stands }
  rcases goes with ⟨target, others, rfl, behind⟩ | ⟨_, rfl⟩
  · have allBut : AllBut fs.root (fs.clear slot).root slot target := ⟨there, names.entry, within⟩
    rcases allBut.walk leads names.there with around | ⟨left, rest, followed⟩
    · exact around
    · obtain ⟨middle, more, first, second⟩ := walk_split followed
      obtain rfl := walk_unique first behind
      have directory := landmarkAt?_of_walk second names.there
      rw [Node.landmarkAt?, show fs.root.get? middle = _ from found] at directory
      cases directory
  · exact walk_landmarks (clear_file_within found) leads names.there

structure Grown (fs grown : FileSystem) : Prop where
  current : grown.current = fs.current
  landmarks : Node.LandmarksIn fs.root grown.root
  files : ∀ place content mode, fs.get? place = some (.file content mode) →
    grown.get? place = some (.file content mode)

theorem Grown.refl (fs : FileSystem) : Grown fs fs :=
  ⟨rfl, fun _ _ stands => stands, fun _ _ _ found => found⟩

theorem Grown.trans {fs grown more : FileSystem} (first : Grown fs grown)
    (second : Grown grown more) : Grown fs more where
  current := second.current.trans first.current
  landmarks place mark stands := second.landmarks place mark (first.landmarks place mark stands)
  files place content mode found :=
    second.files place content mode (first.files place content mode found)

def Node.file? : Node → Option (List UInt8 × Nat)
  | .file content mode => some (content, mode)
  | _ => none

theorem fill_grown {fs : FileSystem} (absent : fs.atSlot? slot = none) (node : Node) :
    Grown fs (fs.fill slot node) := by
  have apart {place : Location} {found : Node} (there : fs.root.get? place = some found) :
      ¬ slot.directory ++ [slot.name] <+: place := by
    rintro ⟨more, rfl⟩
    rw [Node.get?_append, show fs.root.get? _ = none from absent] at there
    cases there
  have elsewhere (entries : Entries) (name : Name) (differ : name ≠ slot.name) :
      Entries.find? (entries.insert slot.name node) name = Entries.find? entries name :=
    Entries.find?_insert_of_ne entries node differ
  refine ⟨rfl, ?_, ?_⟩
  · intro place mark stands
    obtain ⟨found, there, _⟩ := Option.bind_eq_some_iff.mp stands
    unfold Node.landmarkAt? fill FileSystem.alter
    rw [Node.get?_alter_of_apart landmark?_plain elsewhere _ _ (apart there)]
    exact stands
  · intro place content mode there
    have same : ((fs.fill slot node).get? place).bind Node.file? =
        (fs.get? place).bind Node.file? := by
      apply Node.get?_alter_of_apart _ elsewhere _ _ (apart there)
      intro mode modified entries others
      rfl
    have whole : ((fs.fill slot node).get? place).bind Node.file? = some (content, mode) := by
      rw [same, there]
      rfl
    obtain ⟨found, stands, is⟩ := Option.bind_eq_some_iff.mp whole
    cases found with
    | file =>
      cases is
      exact stands
    | _ => cases is

theorem makeDirectory_ok {fs made : FileSystem} {mode : Nat}
    (making : fs.makeDirectory mode p = .ok made) :
    ∃ slot, fs.slot p = .ok slot ∧ slot.isEntry = true ∧ fs.atSlot? slot = none ∧
      made = fs.fill slot (.directory mode .epoch []) := by
  simp only [makeDirectory, bind, Except.bind] at making
  split at making
  · cases making
  rename_i slot named
  split at making
  · cases making
  rename_i free
  simp only [Bool.or_eq_true, Bool.not_eq_true', not_or, Bool.not_eq_false] at free
  cases making
  exact ⟨slot, named, free.1, Option.not_isSome_iff_eq_none.mp free.2, rfl⟩

-- What holds from before a directory is made until after it holds for a whole row of them.
theorem makeAlong_rel {Rel : FileSystem → FileSystem → Prop} {mode : Nat}
    (refl : ∀ fs, Rel fs fs) (trans : ∀ {fs middle after}, Rel fs middle → Rel middle after →
      Rel fs after)
    {paths : List Path} (making : ∀ path ∈ paths, ∀ {fs made : FileSystem},
      fs.makeDirectory mode path = .ok made → Rel fs made) (fs : FileSystem) :
    Rel fs (fs.makeAlong mode paths).1 := by
  induction paths with
  | nil => exact refl fs
  | cons path above ih =>
    obtain ⟨here, further⟩ := List.forall_mem_cons.mp making
    have ih := ih further
    unfold makeAlong
    split
    · exact refl fs
    split
    · rename_i made
      exact here made
    · split
      · rename_i along
        rw [along] at ih
        exact ih
      · rename_i along
        rw [along] at ih
        split
        · rename_i made
          exact trans ih (here made)
        · exact ih
    · exact refl fs

theorem makeDirectory_grown {fs made : FileSystem} {mode : Nat}
    (making : fs.makeDirectory mode p = .ok made) : Grown fs made := by
  obtain ⟨slot, _, _, absent, rfl⟩ := makeDirectory_ok making
  exact fill_grown absent _

theorem makeAlong_grown (fs : FileSystem) (mode : Nat) (paths : List Path) :
    Grown fs (fs.makeAlong mode paths).1 :=
  makeAlong_rel .refl .trans (fun _ _ _ _ => makeDirectory_grown) fs

theorem stride?_ahead_entry {segment : Name}
    (made : stride? root location segment = some (.ahead (location ++ [segment]))) :
    ∃ node, root.get? (location ++ [segment]) = some node ∧ ∀ target, node ≠ .link target := by
  have longer : location ++ [segment] ≠ location := by simp
  have longerStill : location ++ [segment] ≠ location.dropLast := by
    intro same
    have lengths := congrArg List.length same
    simp only [List.length_append, List.length_singleton, List.length_dropLast] at lengths
    omega
  unfold FileSystem.stride? at made
  split at made
  · cases made
  · rename_i entries read
    rw [get?_of_entriesAt read]
    split at made
    · exact absurd (Stride.ahead.inj (Option.some.inj made)).symm longer
    split at made
    · exact absurd (Stride.ahead.inj (Option.some.inj made)).symm longerStill
    split at made
    · cases made
    split at made
    · cases made
    · cases made
    · rename_i node noLink found
      exact ⟨node, found, noLink⟩

theorem Grown.stride? {fs grown : FileSystem} (more : Grown fs grown) {segment : Name}
    {stride : Stride} (made : FileSystem.stride? fs.root location segment = some stride) :
    FileSystem.stride? grown.root location segment = some stride := by
  apply stride?_local (more.landmarks _ _) (more.landmarks _) made
  rintro rfl
  obtain ⟨node, there, noLink⟩ := stride?_ahead_entry made
  cases node with
  | file content mode => exact .inr ⟨content, mode, more.files _ content mode there⟩
  | link target => exact absurd rfl (noLink target)
  | directory =>
    left
    simp [Node.landmarkAt?, there, Node.landmark?]

theorem Grown.contentOf {fs grown : FileSystem} (more : Grown fs grown)
    (read : fs.contentOf p = .ok content) : grown.contentOf p = .ok content := by
  obtain ⟨usable, location, mode, walked, found⟩ := contentOf_iff.mp read
  refine contentOf_iff.mpr ⟨usable, location, mode, ?_, more.files _ _ _ found⟩
  rw [more.current]
  exact walk_more (fun _ _ _ => more.stride?) walked 0

end RepoFinder.FileSystem
