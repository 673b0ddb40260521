import RepoFinder.Proofs.FileSystem.Ways
import RepoFinder.Proofs.Snapshot.RoundTrip
import RepoFinder.Snapshot.Store

namespace RepoFinder.Snapshot

open FileSystem

-- The temporary file has a place of its own, from which it takes the place of what the path
-- names. What is left is the tree with the folder made and the file in the slot.
theorem renameSlot_fill {made after : FileSystem} {temporary : Slot} {path target : Path}
    {bytes : List UInt8} (named : made.slot path = .ok temporary)
    (absent : made.atSlot? temporary = none)
    (renamed : (made.fill temporary (.file bytes filePermissions)).renameSlot temporary target =
      .ok after) :
    ∃ goal, made.Names target goal ∧
      made.root.landmarkAt? (goal.directory ++ [goal.name]) ≠ some .directory ∧
      after = made.fill goal (.file bytes filePermissions) := by
  have fewer := fill_landmarks made temporary bytes filePermissions
  simp only [renameSlot, bind, Except.bind] at renamed
  split at renamed
  · cases renamed
  rename_i goal reached
  split at renamed
  · cases renamed
  rename_i node there
  split at renamed
  · cases renamed
  rename_i possible
  have entry := isEntry_of_checkRename possible
  -- The path was resolved with the temporary file in the tree. It names the same entry without
  -- that file, since a file leads no walk anywhere.
  have stands := fewer _ _ (landmarkAt?_of_slot reached (.inl entry))
  have home := landmarkAt?_of_slot named (.inr ⟨_, stands⟩)
  obtain rfl : node = .file bytes filePermissions := by
    simpa [atSlot?, get?_fill home] using there.symm
  obtain ⟨unslashed, plain⟩ := checkRename_file possible
  have names := (names_iff.mpr ⟨reached, entry, unslashed⟩).of_landmarks fewer rfl
  have more := (fill_grown absent (.file bytes filePermissions)).landmarks
  refine ⟨goal, names, fun directory => plain (more _ _ directory), ?_⟩
  split at renamed
  · rename_i same
    simp only [Bool.and_eq_true, decide_eq_true_eq] at same
    cases renamed
    simp only [fill, same.1, same.2]
  · cases renamed
    rw [clear_fill absent]

namespace Save

-- What a save has made of the tree by the time that it has come to a stage, if nobody else changes
-- anything meanwhile.
inductive Stands (fs : FileSystem) (start : Save) : FileSystem → Stage → Prop where
  | starting : Stands fs start fs .starting
  | creating {made : FileSystem}
      (making : fs.makeDirectories folderPermissions start.folder = (made, .ok ())) :
      Stands fs start made .creating
  | drafted {made : FileSystem} {slot : Slot} {written : List UInt8}
      {rest : Option (List UInt8)} {stage : Stage}
      (making : fs.makeDirectories folderPermissions start.folder = (made, .ok ()))
      (named : made.slot start.temporaryPath = .ok slot) (absent : made.atSlot? slot = none)
      (text : start.text = rest.map (written ++ ·))
      (draft : (start.inStage stage).draft? = some (slot, rest)) :
      Stands fs start (made.fill slot (.file written filePermissions)) stage
  | saved {made : FileSystem} {goal : Slot} {bytes : List UInt8}
      (making : fs.makeDirectories folderPermissions start.folder = (made, .ok ()))
      (text : start.text = some bytes) (names : made.Names start.target goal)
      (plain : made.root.landmarkAt? (goal.directory ++ [goal.name]) ≠ some .directory) :
      Stands fs start (made.fill goal (.file bytes filePermissions)) .saved
  | failed (problem : Problem) : Stands fs start (withFolder fs start.target) (.failed problem)

-- How many stages a save has still before it, where it writes its text at once.
def ahead : Stage → Nat
  | .starting => 7
  | .creating => 6
  | .writing _ none => 1
  | .writing _ (some []) => 4
  | .writing _ (some (_ :: _)) => 5
  | .restricting _ => 3
  | .syncing _ => 2
  | .renaming _ => 1
  | .saved => 0
  | .failed _ => 0

variable {fs tree : FileSystem} {start : Save} {stage : Stage}

theorem withFolder_of_making {made : FileSystem} {result : Except Failure Unit}
    (making : fs.makeDirectories folderPermissions start.folder = (made, result)) :
    withFolder fs start.target = made :=
  congrArg Prod.fst making

theorem Stands.of_making {made : FileSystem} {result : Except Failure Unit}
    (making : fs.makeDirectories folderPermissions start.folder = (made, result))
    (problem : Problem) : Stands fs start made (.failed problem) := by
  rw [← withFolder_of_making making]
  exact .failed problem

theorem Stands.dropped {made : FileSystem} {slot : Slot}
    (making : fs.makeDirectories folderPermissions start.folder = (made, .ok ()))
    (absent : made.atSlot? slot = none) (written : List UInt8) (problem : Problem) :
    Stands fs start ((made.fill slot (.file written filePermissions)).clear slot)
      (.failed problem) := by
  rw [clear_fill absent]
  exact .of_making making problem

-- The next stage leaves a save where it should stand, and nearer to its end if it can write the
-- whole text at once.
def Advances (fs : FileSystem) (start : Save) (piece : Nat) (tree : FileSystem) (stage : Stage) :
    Prop :=
  ∃ after next, (start.inStage stage).step tree piece = (after, start.inStage next) ∧
    Stands fs start after next ∧
    ((start.text.getD []).length ≤ piece → ahead next ≤ ahead stage - 1)

theorem starting_advances (fs : FileSystem) (start : Save) (piece : Nat) :
    Advances fs start piece fs .starting := by
  have unfolded : start.folder = folderOf start.target := rfl
  rcases making : fs.makeDirectories folderPermissions start.folder with ⟨made, result⟩
  cases result with
  | ok _ =>
    refine ⟨made, .creating, ?_, .creating making, by simp [ahead]⟩
    rw [unfolded] at making
    simp [Save.step, inStage, folder, making]
  | error failure =>
    refine ⟨made, .failed (.failed start.folder failure), ?_, .of_making making _, by simp [ahead]⟩
    rw [unfolded] at making ⊢
    simp [Save.step, inStage, folder, making]

theorem creating_advances {made : FileSystem}
    (making : fs.makeDirectories folderPermissions start.folder = (made, .ok ())) (piece : Nat) :
    Advances fs start piece made .creating := by
  have unfolded : start.temporaryPath = (folderOf start.target).child start.temporary := rfl
  cases named : made.slot start.temporaryPath with
  | error failure =>
    refine ⟨made, .failed (.failed start.folder failure), ?_, .of_making making _, by simp [ahead]⟩
    rw [unfolded] at named
    simp [Save.step, inStage, temporaryPath, folder, named]
  | ok slot =>
    cases there : made.atSlot? slot with
    | some node =>
      refine ⟨made, .failed (.failed start.folder .alreadyExists), ?_, .of_making making _,
        by simp [ahead]⟩
      rw [unfolded] at named
      simp [Save.step, inStage, temporaryPath, folder, named, there]
    | none =>
      refine ⟨made.fill slot (.file [] filePermissions), .writing slot start.text, ?_,
        .drafted making named there ?_ rfl, ?_⟩
      · rw [unfolded] at named
        simp [Save.step, inStage, temporaryPath, folder, named, there]
      · cases start.text <;> rfl
      · intro _
        rcases start.text with _ | _ | _ <;> simp [ahead]

theorem drafted_advances {made : FileSystem} {slot : Slot} {written : List UInt8}
    {rest : Option (List UInt8)}
    (making : fs.makeDirectories folderPermissions start.folder = (made, .ok ()))
    (named : made.slot start.temporaryPath = .ok slot) (absent : made.atSlot? slot = none)
    (text : start.text = rest.map (written ++ ·))
    (draft : (start.inStage stage).draft? = some (slot, rest)) (piece : Nat) :
    Advances fs start piece (made.fill slot (.file written filePermissions)) stage := by
  have changed := alter_fill made slot (.file written filePermissions)
  cases stage with
  | writing temporary left =>
    obtain ⟨rfl, rfl⟩ := Prod.mk.inj (Option.some.inj draft)
    rcases left with _ | _ | ⟨byte, left⟩
    · exact ⟨_, _, rfl, .dropped making absent written _, by simp [ahead]⟩
    · exact ⟨_, _, rfl, .drafted making named absent text rfl, by simp [ahead]⟩
    · have goesOn : start.text = (some ((byte :: left).drop piece)).map
          (written ++ (byte :: left).take piece ++ ·) := by
        simp [text]
      refine ⟨_, .writing temporary (some ((byte :: left).drop piece)), ?_,
        .drafted making named absent goesOn rfl, ?_⟩
      · simp only [Save.step, inStage, alterSlot, changed]
        rfl
      · intro long
        have all : (byte :: left).drop piece = [] := by
          rw [List.drop_eq_nil_iff]
          simp only [text, Option.map_some, Option.getD_some, List.length_append] at long
          omega
        rw [all]
        simp [ahead]
  | restricting temporary =>
    obtain ⟨rfl, rfl⟩ := Prod.mk.inj (Option.some.inj draft)
    refine ⟨_, .syncing temporary, ?_, .drafted making named absent text rfl, by simp [ahead]⟩
    simp only [Save.step, inStage, alterSlot, changed]
    rfl
  | syncing temporary =>
    obtain ⟨rfl, rfl⟩ := Prod.mk.inj (Option.some.inj draft)
    exact ⟨_, _, rfl, .drafted making named absent text rfl, by simp [ahead]⟩
  | starting | creating | saved | failed => cases draft
  | _ =>
    rename_i temporary
    obtain ⟨rfl, rfl⟩ := Prod.mk.inj (Option.some.inj draft)
    cases moving : (made.fill temporary (.file written filePermissions)).renameSlot temporary
        start.target with
    | ok renamed =>
      obtain ⟨goal, names, plain, rfl⟩ := renameSlot_fill named absent moving
      refine ⟨_, .saved, ?_, .saved making (by simpa using text) names plain, by simp [ahead]⟩
      simp [Save.step, inStage, moving]
    | error failure =>
      refine ⟨_, .failed (.failed start.target failure), ?_, .dropped making absent written _,
        by simp [ahead]⟩
      simp [Save.step, inStage, moving]

theorem Stands.advances (stands : Stands fs start tree stage) (piece : Nat) :
    Advances fs start piece tree stage := by
  cases stands with
  | starting => exact starting_advances fs start piece
  | creating making => exact creating_advances making piece
  | drafted making named absent text draft =>
    exact drafted_advances making named absent text draft piece
  | saved making text names plain =>
    exact ⟨_, .saved, rfl, .saved making text names plain, by simp [ahead]⟩
  | failed problem => exact ⟨_, .failed problem, rfl, .failed problem, by simp [ahead]⟩

-- The system refused to make one of the folders, and those above it are all that is left.
inductive BrokenOff (fs : FileSystem) (start : Save) : FileSystem → Stage → Prop where
  | intro (problem : Problem) (missing : Nat) :
      BrokenOff fs start
        (fs.makeAlong folderPermissions ((ancestors start.folder).drop missing)).1
        (.failed problem)

theorem Stands.refused (stands : Stands fs start tree stage) (failure : Failure) (missing : Nat) :
    ∃ after next, (start.inStage stage).refuse tree failure missing = (after, start.inStage next) ∧
      (Stands fs start after next ∨ BrokenOff fs start after next) := by
  cases stands with
  | starting => exact ⟨_, _, rfl, .inr (.intro _ missing)⟩
  | creating making => exact ⟨_, _, rfl, .inl (.of_making making _)⟩
  | @drafted made slot written rest _ making named absent text draft =>
    cases stage with
    | starting | creating | saved | failed => cases draft
    | _ =>
      obtain ⟨rfl, rfl⟩ := Prod.mk.inj (Option.some.inj draft)
      exact ⟨_, _, rfl, .inl (.dropped making absent written _)⟩
  | saved making text names plain =>
    exact ⟨_, .saved, rfl, .inl (.saved making text names plain)⟩
  | failed problem => exact ⟨_, .failed problem, rfl, .inl (.failed problem)⟩

-- Whatever the system does with the stages of a save, by then it stands where it should, or was
-- broken off.
theorem Stands.through (turnouts : List Turnout)
    (stands : Stands fs start tree stage ∨ BrokenOff fs start tree stage) :
    ∃ after last, (start.inStage stage).through turnouts tree = (after, start.inStage last) ∧
      (Stands fs start after last ∨ BrokenOff fs start after last) := by
  induction turnouts generalizing tree stage with
  | nil => exact ⟨tree, stage, by rw [Save.through], stands⟩
  | cons turnout later ih =>
    rcases stands with stands | broken
    · cases turnout with
      | granted piece =>
        obtain ⟨after, next, stepped, stands, _⟩ := stands.advances piece
        simpa only [Save.through, stepped] using ih (.inl stands)
      | refused failure missing =>
        obtain ⟨after, next, refused, stands⟩ := stands.refused failure missing
        simpa only [Save.through, refused] using ih stands
    · obtain ⟨problem, missing⟩ := broken
      have still := ih (.inr (.intro problem missing))
      cases turnout <;> (rw [Save.through]; exact still)

theorem Stands.throughout (stands : Stands fs start tree stage) (stages : Nat) :
    ∃ after last, (start.inStage stage).through
        (List.replicate stages (.granted (start.text.getD []).length)) tree =
          (after, start.inStage last) ∧
      Stands fs start after last ∧ ahead last ≤ ahead stage - stages := by
  induction stages generalizing tree stage with
  | zero => exact ⟨tree, stage, by rw [List.replicate_zero, Save.through], stands, Nat.le_refl _⟩
  | succ stages ih =>
    obtain ⟨after, next, stepped, stands, nearer⟩ := stands.advances (start.text.getD []).length
    obtain ⟨after, last, went, stands, near⟩ := ih stands
    refine ⟨after, last, ?_, stands, ?_⟩
    · simpa only [List.replicate_succ, Save.through, stepped] using went
    · have nearer := nearer (Nat.le_refl _)
      omega

theorem Stands.ends (stands : Stands fs start tree stage) (none : ahead stage = 0) :
    stage = .saved ∨ ∃ problem, stage = .failed problem := by
  rcases stage with _ | _ | ⟨_, _ | _ | _⟩ | _ | _ | _ | _ | problem <;> simp [ahead] at none ⊢

end Save

theorem save_stands (fs : FileSystem) (file : Path) (snapshot : Snapshot) :
    ∃ temporary turnouts last after,
      (Save.begun file snapshot temporary).through turnouts fs =
        (after, (Save.begun file snapshot temporary).inStage last) ∧
      Save.Stands fs (.begun file snapshot temporary) after last ∧
      (last = .saved ∧ save fs file snapshot = (after, .ok ()) ∨
        ∃ problem, last = .failed problem ∧ save fs file snapshot = (after, .error problem)) := by
  let start := Save.begun file snapshot (freshName (namesBeside (withFolder fs file) file))
  have begins : Save.Stands fs start fs .starting := .starting
  obtain ⟨after, last, went, stands, near⟩ := begins.throughout Save.mostStages
  have whole : save fs file snapshot = (after, (start.inStage last).result?.getD (.ok ())) := by
    have through : start.through _ fs = (after, start.inStage last) := went
    unfold save
    dsimp only
    rw [through]
  refine ⟨_, _, last, after, went, stands, ?_⟩
  rcases stands.ends (Nat.le_zero.mp near) with rfl | ⟨problem, rfl⟩
  · exact .inl ⟨rfl, whole⟩
  · exact .inr ⟨problem, rfl, whole⟩

theorem save_ok {fs after : FileSystem} {file : Path} {snapshot : Snapshot}
    (saved : save fs file snapshot = (after, .ok ())) :
    ∃ made bytes goal, fs.makeDirectories folderPermissions (folderOf file) = (made, .ok ()) ∧
      snapshot.render? = some bytes ∧ made.Names file goal ∧
      made.root.landmarkAt? (goal.directory ++ [goal.name]) ≠ some .directory ∧
      after = made.fill goal (.file bytes filePermissions) := by
  obtain ⟨temporary, _, last, _, _, stands, ⟨rfl, same⟩ | ⟨problem, _, same⟩⟩ :=
    save_stands fs file snapshot
  · obtain rfl := (Prod.mk.inj (same.symm.trans saved)).1
    cases stands with
    | saved making text names plain => exact ⟨_, _, _, making, text, names, plain, rfl⟩
    | drafted _ _ _ _ draft => cases draft
  · cases (Prod.mk.inj (same.symm.trans saved)).2

theorem save_failed {fs after : FileSystem} {file : Path} {snapshot : Snapshot} {problem : Problem}
    (saved : save fs file snapshot = (after, .error problem)) : after = withFolder fs file := by
  obtain ⟨temporary, _, last, _, _, stands, ⟨_, same⟩ | ⟨problem, rfl, same⟩⟩ :=
    save_stands fs file snapshot
  · cases (Prod.mk.inj (same.symm.trans saved)).2
  · obtain rfl := (Prod.mk.inj (same.symm.trans saved)).1
    cases stands with
    | failed => rfl
    | drafted _ _ _ _ draft => cases draft

-- What the save of a file replaces is not on the way to the file: a path that names an entry
-- names it still when the entry is gone. Only a link that a path leads through twice is on its
-- own way.
def WayIsFree (fs : FileSystem) (file : Path) : Prop :=
  ∀ slot, fs.slot file = .ok slot → (fs.clear slot).slot file = .ok slot

-- The new file can be reached by its path just where the way to it was free: a path that leads to a
-- file leads there past the file, so it needs nothing of what the file has replaced.
theorem status_iff_wayIsFree {fs : FileSystem} {file : Path} {slot : Slot}
    (names : fs.Names file slot) (text : List UInt8) :
    (fs.fill slot (.file text filePermissions)).status file = .ok (.file text filePermissions) ↔
      WayIsFree fs file := by
  have filled := get?_fill names.there (.file text filePermissions)
  obtain ⟨named, entry, unslashed⟩ := names_iff.mp names
  constructor
  · intro shown slot' also
    obtain rfl := Except.ok.inj (named.symm.trans also)
    have read : (fs.fill slot (.file text filePermissions)).contentOf file = .ok text := by
      simp [contentOf, shown]
    obtain ⟨goal, named'⟩ := Names.of_contentOf read
    have fewer := fill_landmarks fs slot text filePermissions
    obtain ⟨still, _, _⟩ := names_iff.mp (named'.of_landmarks fewer rfl)
    obtain rfl := Except.ok.inj (named.symm.trans still)
    have within := clear_fill_landmarks fs slot (.file text filePermissions)
    exact (names_iff.mp ((named'.clear read).of_landmarks within rfl)).1
  · intro free
    have without : (fs.clear slot).Names file slot :=
      names_iff.mpr ⟨free slot named, entry, unslashed⟩
    have within := clear_landmarks fs slot (.file text filePermissions)
    exact (without.of_landmarks within rfl).status filled (by simp)

theorem contentOf_saved {fs after : FileSystem} {file : Path} {snapshot : Snapshot}
    (free : WayIsFree (withFolder fs file) file)
    (saved : save fs file snapshot = (after, .ok ())) :
    ∃ bytes, snapshot.render? = some bytes ∧ after.contentOf file = .ok bytes := by
  obtain ⟨made, bytes, goal, making, rendered, names, _, rfl⟩ := save_ok saved
  obtain rfl : withFolder fs file = made := by simp [withFolder, making]
  have reached := (status_iff_wayIsFree names bytes).mpr free
  exact ⟨bytes, rendered, by simp [contentOf, reached]⟩

theorem load?_eq_some {fs : FileSystem} {file : Path} {snapshot : Snapshot} :
    load? fs file = some snapshot ↔
      ∃ bytes, fs.contentOf file = .ok bytes ∧ parse? bytes = some snapshot := by
  unfold load?
  cases fs.contentOf file <;> simp

theorem version_of_load? {fs : FileSystem} {file : Path} {snapshot : Snapshot}
    (loaded : load? fs file = some snapshot) : snapshot.version = currentVersion := by
  obtain ⟨bytes, _, parsed⟩ := load?_eq_some.mp loaded
  exact version_of_parse? parsed

theorem exists_ok_of_isOk {ε α : Type} {result : Except ε α} (fine : result.isOk = true) :
    ∃ value, result = .ok value := by
  cases result with
  | ok value => exact ⟨value, rfl⟩
  | error _ => cases fine

theorem eq_ok_of_isOk {ε : Type} {result : Except ε Unit} (fine : result.isOk = true) :
    result = .ok () := by
  obtain ⟨_, same⟩ := exists_ok_of_isOk fine
  exact same

theorem ne_ok_of_isOk {ε α : Type} {result : Except ε α} (failed : result.isOk = false)
    (value : α) : result ≠ .ok value := by
  rintro rfl
  cases failed

theorem ok_of_toOption {ε α : Type} {result other : Except ε α} {value : α}
    (same : result.toOption = other.toOption) (fine : result = .ok value) : other = .ok value := by
  subst fine
  cases other with
  | error _ => cases same
  | ok found => rw [Option.some.inj same]

end RepoFinder.Snapshot
