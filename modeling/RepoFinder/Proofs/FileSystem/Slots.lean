import RepoFinder.Proofs.FileSystem.Landmarks

namespace RepoFinder.FileSystem

theorem get?_of_entriesAt {root : Node} {location : Location} {entries : Entries}
    (read : entriesAt root location = .ok entries) (name : Name) :
    root.get? (location ++ [name]) = entries.find? name := by
  unfold entriesAt at read
  split at read
  · rename_i mode modified others found
    cases read
    rw [Node.get?_append, found]
    simp only [Option.bind_some, Node.get?]
    split <;> simp_all
  · cases read
  · cases read

theorem landmarkAt?_of_entriesAt {root : Node} {location : Location} {entries : Entries}
    (read : entriesAt root location = .ok entries) :
    root.landmarkAt? location = some .directory := by
  unfold entriesAt at read
  split at read
  · rename_i found
    simp [Node.landmarkAt?, found, Node.landmark?]
  · cases read
  · cases read

theorem entriesAt_of_landmarkAt? {root : Node} {location : Location}
    (stands : root.landmarkAt? location = some .directory) :
    ∃ entries, entriesAt root location = .ok entries := by
  obtain ⟨_, _, entries, found⟩ := Node.directory_of_landmarkAt? stands
  exact ⟨entries, by simp [entriesAt, found]⟩

-- Where one segment of a path leads: to a node, or behind a link, whose own path comes next then.
inductive Stride where
  | ahead (location : Location)
  | behind (target : Path)

def stride? (root : Node) (location : Location) (segment : Name) : Option Stride :=
  match entriesAt root location with
  | .error _ => none
  | .ok entries =>
    if segment = [] || segment = Name.here then some (.ahead location)
    else if segment = Name.parent then some (.ahead location.dropLast)
    else if longestName < segment.length then none
    else match entries.find? segment with
      | none => none
      | some (.link target) => some (.behind target)
      | some _ => some (.ahead (location ++ [segment]))

theorem walkWith_cons {root : Node} {follow : Location → List Name → Except Failure Place}
    {location goal : Location} {segment : Name} {rest : List Name} :
    walkWith root follow location (segment :: rest) = .ok (.taken goal) ↔
      ∃ stride, stride? root location segment = some stride ∧
        match stride with
        | .ahead next => walkWith root follow next rest = .ok (.taken goal)
        | .behind target =>
          follow (startOf location target) (target.segments ++ rest) = .ok (.taken goal) := by
  rw [walkWith, stride?]
  -- The cases are those of the walk: a dot, two dots, a name that is too long, then the entry.
  cases entriesAt root location with
  | error failure => simp
  | ok entries =>
    dsimp only
    split
    · simp
    split
    · simp
    split
    · simp
    cases entries.find? segment with
    | none => cases rest <;> simp
    | some node => cases node <;> simp

theorem landmarkAt?_of_walkWith {root : Node}
    {follow : Location → List Name → Except Failure Place} {location goal : Location}
    {segments : List Name} (walked : walkWith root follow location segments = .ok (.taken goal))
    (stands : root.landmarkAt? goal = some .directory) :
    root.landmarkAt? location = some .directory := by
  cases segments with
  | nil =>
    cases walked
    exact stands
  | cons segment rest =>
    obtain ⟨stride, made, _⟩ := walkWith_cons.mp walked
    unfold stride? at made
    split at made
    · cases made
    · rename_i read
      exact landmarkAt?_of_entriesAt read

-- A stride depends on two landmarks, that of the place where it starts and that of the entry that
-- it goes to. A file is none, so a stride to a file needs a file there in the other tree.
theorem stride?_local {root other : Node} {location : Location} {segment : Name} {stride : Stride}
    (here : root.landmarkAt? location = some .directory →
      other.landmarkAt? location = some .directory)
    (there : ∀ mark, root.landmarkAt? (location ++ [segment]) = some mark →
      other.landmarkAt? (location ++ [segment]) = some mark)
    (made : stride? root location segment = some stride)
    (goes : stride = .ahead (location ++ [segment]) →
      root.landmarkAt? (location ++ [segment]) = some .directory ∨
        ∃ content mode, other.get? (location ++ [segment]) = some (.file content mode)) :
    stride? other location segment = some stride := by
  unfold stride? at made ⊢
  split at made
  · cases made
  · rename_i entries read
    obtain ⟨others, readOther⟩ :=
      entriesAt_of_landmarkAt? (here (landmarkAt?_of_entriesAt read))
    have entry := get?_of_entriesAt read segment
    have otherEntry := get?_of_entriesAt readOther segment
    simp only [readOther]
    split at made
    · rename_i dot
      rw [if_pos dot, made]
    rename_i noDot
    rw [if_neg noDot]
    split at made
    · rename_i up
      rw [if_pos up, made]
    rename_i noUp
    rw [if_neg noUp]
    split at made
    · cases made
    rename_i short
    rw [if_neg short]
    split at made
    · cases made
    · rename_i target found
      have link : root.landmarkAt? (location ++ [segment]) = some (.link target) := by
        simp [Node.landmarkAt?, entry, found, Node.landmark?]
      have mark := there (.link target) link
      simp only [Node.landmarkAt?, otherEntry, Option.bind_eq_some_iff] at mark
      obtain ⟨node, foundOther, link⟩ := mark
      cases node <;> cases link
      simpa [foundOther] using made
    · rename_i node _ found
      obtain rfl := Option.some.inj made
      rcases goes rfl with directory | ⟨content, mode, file⟩
      · have mark := there .directory directory
        simp only [Node.landmarkAt?, otherEntry, Option.bind_eq_some_iff] at mark
        obtain ⟨node, foundOther, directory⟩ := mark
        cases node <;> cases directory
        simp [foundOther]
      · rw [otherEntry] at file
        simp [file]

theorem stride?_landmarks {root other : Node} (within : Node.LandmarksIn root other)
    {location : Location} {segment : Name} {stride : Stride}
    (made : stride? root location segment = some stride)
    (toDirectory : ∀ next, stride = .ahead next → root.landmarkAt? next = some .directory) :
    stride? other location segment = some stride :=
  stride?_local (within _ _) (within _) made fun ahead => .inl (toDirectory _ ahead)

-- The induction is on the segments alone; what a link leads to is left to the hypothesis on how
-- the two walks follow links, and the induction on their number comes after.
theorem walkWith_landmarks {root other : Node} (within : Node.LandmarksIn root other)
    {follow goOn : Location → List Name → Except Failure Place}
    (follows : ∀ location segments goal, follow location segments = .ok (.taken goal) →
      root.landmarkAt? goal = some .directory → goOn location segments = .ok (.taken goal))
    {segments : List Name} {location goal : Location}
    (walked : walkWith root follow location segments = .ok (.taken goal))
    (stands : root.landmarkAt? goal = some .directory) :
    walkWith other goOn location segments = .ok (.taken goal) := by
  induction segments generalizing location with
  | nil => exact walked
  | cons segment rest ih =>
    obtain ⟨stride, made, walked⟩ := walkWith_cons.mp walked
    refine walkWith_cons.mpr ⟨stride, ?_, ?_⟩
    · apply stride?_landmarks within made
      intro next ahead
      subst ahead
      exact landmarkAt?_of_walkWith walked stands
    · cases stride with
      | ahead next => exact ih walked
      | behind target => exact follows _ _ goal walked stands

theorem walk_landmarks {root other : Node} (within : Node.LandmarksIn root other) {links : Nat}
    {segments : List Name} {location goal : Location}
    (walked : walk root links location segments = .ok (.taken goal))
    (stands : root.landmarkAt? goal = some .directory) :
    walk other links location segments = .ok (.taken goal) := by
  induction links generalizing segments location goal with
  | zero =>
    refine walkWith_landmarks within ?_ walked stands
    intro location segments goal walked _
    cases walked
  | succ links ih =>
    refine walkWith_landmarks within ?_ walked stands
    intro location segments goal walked stands
    exact ih walked stands

-- A walk that is continued goes on from where it ended, with the links that it has left. How many
-- these are depends on the way, so they are given here and never computed.
theorem walkWith_append {root : Node} (links : Nat)
    {follow : Location → List Name → Except Failure Place}
    (same : walk root links = walkWith root follow)
    (follows : ∀ location segments goal, follow location segments = .ok (.taken goal) →
      ∃ left, ∀ rest final, walk root left goal rest = .ok (.taken final) →
        follow location (segments ++ rest) = .ok (.taken final))
    {segments : List Name} {location goal : Location}
    (walked : walkWith root follow location segments = .ok (.taken goal)) :
    ∃ left, ∀ rest final, walk root left goal rest = .ok (.taken final) →
      walkWith root follow location (segments ++ rest) = .ok (.taken final) := by
  induction segments generalizing location with
  | nil =>
    cases walked
    refine ⟨links, ?_⟩
    intro rest final after
    rwa [same] at after
  | cons segment others ih =>
    obtain ⟨stride, made, walked⟩ := walkWith_cons.mp walked
    cases stride with
    | ahead next =>
      obtain ⟨left, goesOn⟩ := ih walked
      refine ⟨left, ?_⟩
      intro rest final after
      exact walkWith_cons.mpr ⟨_, made, goesOn rest final after⟩
    | behind target =>
      obtain ⟨left, goesOn⟩ := follows _ _ goal walked
      refine ⟨left, ?_⟩
      intro rest final after
      have goes := goesOn rest final after
      rw [List.append_assoc] at goes
      exact walkWith_cons.mpr ⟨_, made, goes⟩

theorem walk_append {root : Node} {links : Nat} {segments : List Name} {location goal : Location}
    (walked : walk root links location segments = .ok (.taken goal)) :
    ∃ left, ∀ rest final, walk root left goal rest = .ok (.taken final) →
      walk root links location (segments ++ rest) = .ok (.taken final) := by
  induction links generalizing segments location goal with
  | zero =>
    refine walkWith_append 0 rfl ?_ walked
    intro location segments goal walked
    cases walked
  | succ links ih =>
    refine walkWith_append (links + 1) rfl ?_ walked
    intro location segments goal walked
    exact ih walked

theorem walk_blanks {root : Node} {links : Nat} {location : Location} {blanks : List Name}
    (stands : root.landmarkAt? location = some .directory)
    (blank : ∀ segment ∈ blanks, segment = []) :
    walk root links location blanks = .ok (.taken location) := by
  induction blanks with
  | nil => cases links <;> rfl
  | cons segment rest ih =>
    obtain ⟨rfl, others⟩ := List.forall_mem_cons.mp blank
    obtain ⟨entries, read⟩ := entriesAt_of_landmarkAt? stands
    have stride : stride? root location [] = some (.ahead location) := by simp [stride?, read]
    have on := ih others
    cases links <;> exact walkWith_cons.mpr ⟨_, stride, on⟩

theorem walk_ahead {root : Node} {links : Nat} {location : Location} {before : List Name}
    {slot : Slot} {node : Node}
    (walked : walk root links location before = .ok (.taken slot.directory))
    (home : root.landmarkAt? slot.directory = some .directory) (entry : slot.isEntry = true)
    (short : slot.name.length ≤ longestName)
    (there : root.get? (slot.directory ++ [slot.name]) = some node)
    (noLink : ∀ target, node ≠ .link target) :
    walk root links location (before ++ [slot.name]) =
      .ok (.taken (slot.directory ++ [slot.name])) := by
  obtain ⟨left, goesOn⟩ := walk_append walked
  obtain ⟨entries, read⟩ := entriesAt_of_landmarkAt? home
  have found : entries.find? slot.name = some node := by
    rw [← get?_of_entriesAt read]
    exact there
  simp only [Slot.isEntry, Bool.and_eq_true, decide_eq_true_eq] at entry
  have stride : stride? root slot.directory slot.name =
      some (.ahead (slot.directory ++ [slot.name])) := by
    simp only [stride?, read, entry, Nat.not_lt.mpr short, found]
    cases node with
    | link target => exact absurd rfl (noLink target)
    | _ => rfl
  apply goesOn
  cases left <;> exact walkWith_cons.mpr ⟨_, stride, rfl⟩

theorem locate_iff {fs : FileSystem} {p : Path} {goal : Location} :
    fs.locate p = .ok goal ↔ checkPath p = .ok () ∧
      walk fs.root mostLinks (startOf fs.current p) p.segments = .ok (.taken goal) := by
  unfold locate place
  cases usable : checkPath p with
  | error failure => simp
  | ok _ =>
    cases walk fs.root mostLinks (startOf fs.current p) p.segments with
    | error failure => simp
    | ok reached => cases reached <;> simp

theorem status_iff {fs : FileSystem} {p : Path} {node : Node} :
    fs.status p = .ok node ↔ ∃ place, fs.locate p = .ok place ∧ fs.get? place = some node := by
  unfold status
  cases fs.locate p with
  | error failure => simp
  | ok place => cases found : fs.get? place <;> simp [found]

theorem readDirectory_iff {fs : FileSystem} {p : Path} {entries : List (Name × Kind)} :
    fs.readDirectory p = .ok entries ↔ ∃ mode modified nodes,
      fs.status p = .ok (.directory mode modified nodes) ∧
        nodes.map (fun entry => (entry.1, entry.2.kind)) = entries := by
  unfold readDirectory
  cases fs.status p with
  | error failure => simp
  | ok node => cases node <;> simp [and_assoc]

theorem slot_leads {fs : FileSystem} {p : Path} {slot : Slot} (named : fs.slot p = .ok slot)
    (entry : slot.isEntry = true) :
    checkPath p = .ok () ∧ fs.root.landmarkAt? slot.directory = some .directory ∧
      slot.name.length ≤ longestName ∧
      ∃ before blanks, p.segments = before ++ [slot.name] ++ blanks ∧
        (∀ segment ∈ blanks, segment = []) ∧ slot.slashed = !blanks.isEmpty ∧
        walk fs.root mostLinks (startOf fs.current p) before = .ok (.taken slot.directory) := by
  simp only [FileSystem.slot, bind, Except.bind] at named
  split at named
  · cases named
  rename_i usable
  split at named
  · obtain rfl := Except.ok.inj named
    cases entry
  rename_i name before reversed
  split at named
  · cases named
  rename_i reached walked
  cases reached with
  | free directory name => cases named
  | taken directory =>
    dsimp only at named
    split at named
    · cases named
    rename_i entries read
    split at named
    · cases named
    rename_i short
    obtain rfl := Except.ok.inj named
    refine ⟨usable, landmarkAt?_of_entriesAt read, Nat.le_of_not_lt short, before.reverse,
      (p.segments.reverse.takeWhile (· = [])).reverse, ?_, ?_, by simp, walked⟩
    · have whole := List.takeWhile_append_dropWhile (p := fun x : Name => decide (x = []))
        (l := p.segments.reverse)
      rw [reversed] at whole
      simpa using (congrArg List.reverse whole).symm
    · intro segment present
      simpa using List.all_eq_true.mp List.all_takeWhile segment (List.mem_reverse.mp present)

theorem locate_slot {fs other : FileSystem} {p : Path} {slot : Slot}
    (named : fs.slot p = .ok slot) (entry : slot.isEntry = true)
    (within : Node.LandmarksIn fs.root other.root) (current : other.current = fs.current)
    (stands : other.root.landmarkAt? (slot.directory ++ [slot.name]) = some .directory) :
    other.locate p = .ok (slot.directory ++ [slot.name]) := by
  obtain ⟨usable, home, short, before, blanks, segments, blank, _, walked⟩ :=
    slot_leads named entry
  obtain ⟨mode, modified, entries, there⟩ := Node.directory_of_landmarkAt? stands
  have ahead := walk_ahead (walk_landmarks within walked home) (within _ _ home) entry short there
    (by simp)
  obtain ⟨left, goesOn⟩ := walk_append ahead
  refine locate_iff.mpr ⟨usable, ?_⟩
  rw [segments, current]
  exact goesOn _ _ (walk_blanks stands blank)

-- A path names an entry of a directory: all but its last segment lead to the directory, and the
-- last one is the name.
structure Names (fs : FileSystem) (p : Path) (slot : Slot) : Prop where
  usable : checkPath p = .ok ()
  leads : ∃ before, p.segments = before ++ [slot.name] ∧
    walk fs.root mostLinks (startOf fs.current p) before = .ok (.taken slot.directory)
  there : fs.root.landmarkAt? slot.directory = some .directory
  short : slot.name.length ≤ longestName
  entry : slot.isEntry = true
  plain : slot.slashed = false

theorem names_iff {fs : FileSystem} {p : Path} {slot : Slot} :
    fs.Names p slot ↔ fs.slot p = .ok slot ∧ slot.isEntry = true ∧ slot.slashed = false := by
  constructor
  · intro names
    obtain ⟨before, segments, walked⟩ := names.leads
    obtain ⟨entries, read⟩ := entriesAt_of_landmarkAt? names.there
    have entry := names.entry
    simp only [Slot.isEntry, Bool.and_eq_true, decide_eq_true_eq] at entry
    have plain := names.plain
    refine ⟨?_, names.entry, names.plain⟩
    simp [FileSystem.slot, names.usable, segments, entry, walked, read,
      Nat.not_lt.mpr names.short, bind, Except.bind, pure, Except.pure, ← plain]
  · rintro ⟨named, entry, plain⟩
    obtain ⟨usable, home, short, before, blanks, segments, _, slashed, walked⟩ :=
      slot_leads named entry
    obtain rfl : blanks = [] := by simpa [slashed] using plain
    rw [List.append_nil] at segments
    exact ⟨usable, ⟨before, segments, walked⟩, home, short, entry, plain⟩

-- The slot of the root itself is the odd one: nothing was read on the way to it, so that the root
-- is a directory has to come from elsewhere.
theorem landmarkAt?_of_slot {fs : FileSystem} {p : Path} {slot : Slot}
    (named : fs.slot p = .ok slot)
    (any : slot.isEntry = true ∨ ∃ location, fs.root.landmarkAt? location = some .directory) :
    fs.root.landmarkAt? slot.directory = some .directory := by
  simp only [FileSystem.slot, bind, Except.bind] at named
  split at named
  · cases named
  split at named
  · obtain rfl := Except.ok.inj named
    rcases any with entry | ⟨location, any⟩
    · cases entry
    · cases location with
      | nil => exact any
      | cons name rest =>
        cases root : fs.root with
        | directory mode modified entries => rfl
        | _ => simp [root, Node.landmarkAt?, Node.get?] at any
  split at named
  · cases named
  rename_i place walked
  cases place with
  | free directory name => cases named
  | taken directory =>
    dsimp only at named
    split at named
    · cases named
    rename_i read
    split at named
    · cases named
    obtain rfl := Except.ok.inj named
    exact landmarkAt?_of_entriesAt read

theorem Names.of_landmarks {fs other : FileSystem} {p : Path} {slot : Slot}
    (names : fs.Names p slot) (within : Node.LandmarksIn fs.root other.root)
    (current : other.current = fs.current) : other.Names p slot := by
  obtain ⟨before, segments, walked⟩ := names.leads
  have walked := walk_landmarks within walked names.there
  exact { names with
    leads := ⟨before, segments, current ▸ walked⟩
    there := within _ _ names.there }

theorem Names.status {fs : FileSystem} {p : Path} {slot : Slot} {node : Node}
    (names : fs.Names p slot) (there : fs.get? (slot.directory ++ [slot.name]) = some node)
    (noLink : ∀ target, node ≠ .link target) : fs.status p = .ok node := by
  obtain ⟨before, segments, walked⟩ := names.leads
  have ahead := walk_ahead walked names.there names.entry names.short there noLink
  have located : fs.locate p = .ok (slot.directory ++ [slot.name]) :=
    locate_iff.mpr ⟨names.usable, segments ▸ ahead⟩
  exact status_iff.mpr ⟨_, located, there⟩

theorem isEntry_of_checkRename {fs : FileSystem} {node : Node} {goal : Slot}
    (possible : checkRename fs node goal = .ok ()) : goal.isEntry = true := by
  by_cases entry : goal.isEntry = true
  · exact entry
  · simp [checkRename, entry] at possible

theorem checkRename_file {fs : FileSystem} {content : List UInt8} {mode : Nat} {goal : Slot}
    (possible : checkRename fs (.file content mode) goal = .ok ()) :
    goal.slashed = false ∧
      fs.root.landmarkAt? (goal.directory ++ [goal.name]) ≠ some .directory := by
  have entry := isEntry_of_checkRename possible
  have plain : goal.slashed = false := by
    cases slashed : goal.slashed with
    | false => rfl
    | true => simp [checkRename, entry, slashed, Node.isDirectory] at possible
  refine ⟨plain, ?_⟩
  intro directory
  obtain ⟨_, _, entries, found⟩ := Node.directory_of_landmarkAt? directory
  have found : fs.atSlot? goal = some (.directory _ _ entries) := found
  simp [checkRename, entry, plain, found, Node.isDirectory] at possible

end RepoFinder.FileSystem
