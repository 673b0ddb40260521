import RepoFinder.Proofs.FileSystem.Frames
import RepoFinder.Proofs.Snapshot.Aftermath

namespace RepoFinder.Snapshot.Save

open FileSystem

variable {fs : FileSystem} {save : Save} {slot : Slot} {rest : Option (List UInt8)}
  {uncovering : Bool}

def draftPlace? (save : Save) : Option Location :=
  save.draft?.map fun draft => draft.1.directory ++ [draft.1.name]

def replaces (fs : FileSystem) (save : Save) : Bool :=
  match save.stage with
  | .renaming slot => (fs.renameSlot slot save.target).isOk
  | _ => false

-- Whether the next stage of a save brings a file to light with the folders that it makes.
def uncovers (fs : FileSystem) (save : Save) : Bool :=
  match save.stage with
  | .starting =>
    !(fs.contentOf save.target).isOk && ((withFolder fs save.target).contentOf save.target).isOk
  | _ => false

structure Drafted (fs : FileSystem) (save : Save) (slot : Slot) (rest : Option (List UInt8)) :
    Prop where
  name : slot.name = save.temporary
  held : ∃ written mode, fs.get? (slot.directory ++ [slot.name]) = some (.file written mode) ∧
    save.text = rest.map (written ++ ·)

-- A save at work: the name of its temporary file is one that nothing spells.
structure AtWork (fs : FileSystem) (save : Save) : Prop where
  proper : save.temporary.Proper
  unspelled : fs.Unspelled save.target save.temporary
  drafted : ∀ slot rest, save.draft? = some (slot, rest) → save.Drafted fs slot rest

-- What one turn of a save does, in a tree in which other saves have their own temporary files. The
-- text takes the place of the target in it if it is `replacing`, and it may bring a file to light
-- only if it is `uncovering`.
structure Turn (fs : FileSystem) (save : Save) (replacing uncovering : Bool)
    (touched : List Location) (after : FileSystem) (next : Save) : Prop where
  frame : Frame touched fs after
  sameTarget : next.target = save.target
  sameText : next.text = save.text
  sameTemporary : next.temporary = save.temporary
  settled : save.stage = .saved → next = save
  own : ∀ place, save.draftPlace? = some place → place ∈ touched
  drafted : ∀ slot rest, next.draft? = some (slot, rest) →
    next.Drafted after slot rest ∧ slot.directory ++ [slot.name] ∈ touched
  -- What is touched was the temporary file before, or free, or what the target names.
  room : ∀ place ∈ touched, save.draftPlace? = some place ∨ fs.get? place = none ∨
    ∃ before name, name ∈ save.target.segments ∧ place = before ++ [name]
  -- What is left there is the temporary file, or the whole text.
  left : ∀ place ∈ touched, ∀ content mode, after.get? place = some (.file content mode) →
    next.draftPlace? = some place ∨ next.stage = .saved ∧ next.text = some content
  replaced : replacing = true → next.stage = .saved ∧
    ∀ bytes, after.contentOf save.target = .ok bytes → save.text = some bytes
  unread : replacing = false → ∀ bytes, after.contentOf save.target = .ok bytes →
    fs.contentOf save.target = .ok bytes ∨ uncovering = true

theorem Drafted.plain (drafted : save.Drafted fs slot rest) :
    fs.root.landmarkAt? (slot.directory ++ [slot.name]) ≠ some .directory := by
  obtain ⟨written, mode, there, _⟩ := drafted.held
  rw [Node.landmarkAt?, show fs.root.get? _ = _ from there]
  simp [Node.landmark?]

theorem alterSlot_file {written : List UInt8} {mode : Nat}
    (there : fs.get? (slot.directory ++ [slot.name]) = some (.file written mode))
    (f : Node → Node) : alterSlot fs slot f = fs.fill slot (f (.file written mode)) := by
  have changed := alter_fill fs slot (.file written mode) f
  rwa [fill_same there] at changed

theorem rest_turn {stage : Stage} (no : save.draft? = none)
    (none : (save.inStage stage).draft? = none)
    (settled : save.stage = .saved → save.inStage stage = save) :
    Turn fs save false uncovering [] fs (save.inStage stage) where
  frame := .refl fs
  sameTarget := rfl
  sameText := rfl
  sameTemporary := rfl
  settled := settled
  own place := by simp [draftPlace?, no]
  drafted slot rest := by simp [none]
  room := by simp
  left := by simp
  replaced := by simp
  unread _ bytes read := .inl read

theorem stay_turn (no : save.draft? = none) : Turn fs save false uncovering [] fs save := by
  change Turn fs save false uncovering [] fs (save.inStage save.stage)
  exact rest_turn no no (fun _ => rfl)

theorem folders_turn {stage : Stage} (starting : save.stage = .starting)
    (none : (save.inStage stage).draft? = none) :
    Turn fs save false (save.uncovers fs) [] (withFolder fs save.target) (save.inStage stage) where
  frame := makeAlong_frame fs _ _
  sameTarget := rfl
  sameText := rfl
  sameTemporary := rfl
  settled saved := by cases starting.symm.trans saved
  own place := by simp [draftPlace?, draft?, starting]
  drafted slot rest := by simp [none]
  room := by simp
  left := by simp
  replaced := by simp
  unread _ bytes read := by
    have grown := makeAlong_grown fs folderPermissions (ancestors (folderOf save.target))
    cases before : fs.contentOf save.target with
    | ok other =>
      -- A file that can be read is still read when there are more folders.
      have same : (withFolder fs save.target).contentOf save.target = .ok other :=
        grown.contentOf before
      rw [read] at same
      exact .inl same.symm
    | error failure =>
      right
      simp [uncovers, starting, before, read, Except.isOk, Except.toBool]

theorem AtWork.plain (work : save.AtWork fs) {place : Location}
    (own : save.draftPlace? = some place) : fs.root.landmarkAt? place ≠ some .directory := by
  obtain ⟨⟨slot, rest⟩, draft, rfl⟩ := Option.map_eq_some_iff.mp own
  exact (work.drafted slot rest draft).plain

theorem write_turn {stage : Stage} {written : List UInt8} (work : save.AtWork fs)
    (name : slot.name = save.temporary)
    (home : fs.root.landmarkAt? slot.directory = some .directory)
    (room : save.draftPlace? = some (slot.directory ++ [slot.name]) ∨
      save.draft? = none ∧ fs.get? (slot.directory ++ [slot.name]) = none)
    (draft : (save.inStage stage).draft? = some (slot, rest))
    (text : save.text = rest.map (written ++ ·)) (unsettled : save.stage ≠ .saved) (mode : Nat) :
    Turn fs save false uncovering [slot.directory ++ [slot.name]] (fs.fill slot (.file written mode))
      (save.inStage stage) := by
  have plain : fs.root.landmarkAt? (slot.directory ++ [slot.name]) ≠ some .directory := by
    rcases room with own | ⟨_, absent⟩
    · exact work.plain own
    · rw [Node.landmarkAt?, show fs.root.get? _ = _ from absent]
      simp
  have frame := fill_frame plain written mode
  have own : (save.inStage stage).draftPlace? = some (slot.directory ++ [slot.name]) := by
    simp [draftPlace?, draft]
  refine ⟨frame, rfl, rfl, rfl, fun saved => absurd saved unsettled, ?_, ?_, ?_, ?_, ?_, ?_⟩
  · intro place before
    rcases room with same | ⟨no, _⟩
    · simp [Option.some.inj (before.symm.trans same)]
    · simp [draftPlace?, no] at before
  · intro other more also
    obtain ⟨rfl, rfl⟩ := Prod.mk.inj (Option.some.inj (draft.symm.trans also))
    exact ⟨⟨name, written, mode, get?_fill home _, text⟩, List.mem_singleton_self _⟩
  · intro place present
    obtain rfl := List.mem_singleton.mp present
    rcases room with same | ⟨_, absent⟩
    · exact .inl same
    · exact .inr (.inl absent)
  · intro place present content mode _
    obtain rfl := List.mem_singleton.mp present
    exact .inl own
  · simp
  · intro _ bytes read
    left
    have unspelled := work.unspelled
    rw [← name] at unspelled
    exact unspelled.contentOf frame (fill_landmarks fs slot written mode) read

theorem drop_turn (work : save.AtWork fs) (draft : save.draft? = some (slot, rest))
    (problem : Problem) :
    Turn fs save false uncovering [slot.directory ++ [slot.name]] (fs.clear slot)
      (save.inStage (.failed problem)) := by
  have drafted := work.drafted slot rest draft
  obtain ⟨written, mode, held, _⟩ := drafted.held
  have frame := clear_frame drafted.plain
  have own : save.draftPlace? = some (slot.directory ++ [slot.name]) := by
    simp [draftPlace?, draft]
  refine ⟨frame, rfl, rfl, rfl, ?_, ?_, ?_, ?_, ?_, ?_, ?_⟩
  · intro saved
    simp [draft?, saved] at draft
  · intro place before
    simp [Option.some.inj (before.symm.trans own)]
  · intro other more also
    cases also
  · intro place present
    obtain rfl := List.mem_singleton.mp present
    exact .inl own
  · intro place present content mode there
    obtain rfl := List.mem_singleton.mp present
    cases there.symm.trans (get?_clear (directory_of_entry held))
  · simp
  · intro _ bytes read
    left
    have unspelled := work.unspelled
    rw [← drafted.name] at unspelled
    exact unspelled.contentOf frame (clear_fewer fs slot) read

theorem replace_turn {renamed : FileSystem} (work : save.AtWork fs)
    (last : save.stage = .renaming slot) (moving : fs.renameSlot slot save.target = .ok renamed) :
    ∃ touched, Turn fs save true uncovering touched renamed (save.inStage .saved) := by
  have draft : save.draft? = some (slot, some []) := by simp [draft?, last]
  have own : save.draftPlace? = some (slot.directory ++ [slot.name]) := by
    simp [draftPlace?, draft]
  have drafted := work.drafted slot (some []) draft
  obtain ⟨written, mode, held, text⟩ := drafted.held
  have text : save.text = some written := by simpa using text
  have apart : slot.name ∉ save.target.segments := drafted.name ▸ work.unspelled.path
  obtain ⟨goal, names, spelled, plain, rfl⟩ := renameSlot_file held moving apart
  have differ : slot.directory ++ [slot.name] ∉ [goal.directory ++ [goal.name]] := by
    rw [List.mem_singleton]
    intro same
    exact apart (List.singleton_inj.mp (List.append_inj' same rfl).2 ▸ spelled)
  have within := clear_file_within held
  have free : (fs.clear slot).root.landmarkAt? (goal.directory ++ [goal.name]) ≠ some .directory :=
    fun stands => plain (clear_fewer fs slot _ _ stands)
  have put := fill_frame free written mode
  have there := get?_fill (within _ _ names.there) (.file written mode)
  refine ⟨_, (clear_frame drafted.plain).trans put, rfl, rfl, rfl, ?_, ?_, ?_, ?_, ?_, ?_, ?_⟩
  · intro saved
    cases last.symm.trans saved
  · intro place before
    simp [Option.some.inj (before.symm.trans own)]
  · intro other more also
    cases also
  · intro place present
    rcases List.mem_append.mp present with here | goes
    · obtain rfl := List.mem_singleton.mp here
      exact .inl own
    · obtain rfl := List.mem_singleton.mp goes
      exact .inr (.inr ⟨_, _, spelled, rfl⟩)
  · intro place present content permissions found
    rcases List.mem_append.mp present with here | goes
    · obtain rfl := List.mem_singleton.mp here
      cases (get?_clear (directory_of_entry held)).symm.trans ((put.file differ).mp found)
    · obtain rfl := List.mem_singleton.mp goes
      cases found.symm.trans there
      exact .inr ⟨rfl, text⟩
  · intro _
    refine ⟨rfl, ?_⟩
    intro bytes read
    have names := names.of_landmarks within rfl
    obtain ⟨node, found, same⟩ := node_of_contentOf names (fill_landmarks _ goal written mode) rfl read
    rw [text, same written mode (Option.some.inj (found.symm.trans there))]
  · simp

theorem starting_turn (starting : save.stage = .starting) (piece : Nat) :
    Turn fs save false (save.uncovers fs) [] (save.step fs piece).1 (save.step fs piece).2 := by
  have made : (fs.makeDirectories folderPermissions save.folder).1 =
    withFolder fs save.target := rfl
  rcases making : fs.makeDirectories folderPermissions save.folder with ⟨after, result⟩
  rw [making] at made
  subst made
  cases result with
  | ok _ =>
    simp only [step, starting, making]
    exact folders_turn starting rfl
  | error failure =>
    simp only [step, starting, making]
    exact folders_turn starting rfl

theorem creating_turn (work : save.AtWork fs) (creating : save.stage = .creating) (piece : Nat) :
    ∃ touched, Turn fs save false uncovering touched (save.step fs piece).1 (save.step fs piece).2 := by
  have no : save.draft? = none := by simp [draft?, creating]
  have unsettled : save.stage ≠ .saved := by simp [creating]
  cases named : fs.slot save.temporaryPath with
  | error failure =>
    refine ⟨[], ?_⟩
    simp only [step, creating, named]
    exact rest_turn no rfl (fun saved => absurd saved unsettled)
  | ok slot =>
    obtain ⟨name, entry⟩ := slot_child work.proper named
    by_cases taken : (fs.atSlot? slot).isSome = true
    · refine ⟨[], ?_⟩
      simp only [step, creating, named, taken, if_true]
      exact rest_turn no rfl (fun saved => absurd saved unsettled)
    · refine ⟨[slot.directory ++ [slot.name]], ?_⟩
      simp only [step, creating, named, taken, Bool.false_eq_true, if_false]
      have absent : fs.get? (slot.directory ++ [slot.name]) = none :=
        Option.not_isSome_iff_eq_none.mp taken
      exact write_turn work name (landmarkAt?_of_slot named (.inl entry)) (.inr ⟨no, absent⟩)
        (by rfl) (by simp) unsettled _

theorem writing_turn (work : save.AtWork fs) (writing : save.stage = .writing slot rest)
    (piece : Nat) :
    Turn fs save false uncovering [slot.directory ++ [slot.name]] (save.step fs piece).1
      (save.step fs piece).2 := by
  have draft : save.draft? = some (slot, rest) := by simp [draft?, writing]
  have drafted := work.drafted slot rest draft
  obtain ⟨written, mode, held, text⟩ := drafted.held
  have home := directory_of_entry held
  have own : save.draftPlace? = some (slot.directory ++ [slot.name]) := by
    simp [draftPlace?, draft]
  have unsettled : save.stage ≠ .saved := by simp [writing]
  cases rest with
  | none =>
    simp only [step, writing]
    exact drop_turn work draft _
  | some rest =>
    cases rest with
    | nil =>
      simp only [step, writing]
      have turn : Turn fs save false uncovering _ (fs.fill slot (.file written mode))
          (save.inStage (.restricting slot)) :=
        write_turn work drafted.name home (.inl own) rfl text unsettled mode
      rwa [fill_same held] at turn
    | cons byte rest =>
      simp only [step, writing, alterSlot_file held]
      have text : save.text = (some ((byte :: rest).drop piece)).map
          (written ++ (byte :: rest).take piece ++ ·) := by simp [text]
      exact write_turn work drafted.name home (.inl own) rfl text unsettled mode

theorem restricting_turn (work : save.AtWork fs) (restricting : save.stage = .restricting slot)
    (piece : Nat) :
    Turn fs save false uncovering [slot.directory ++ [slot.name]] (save.step fs piece).1
      (save.step fs piece).2 := by
  have draft : save.draft? = some (slot, some []) := by simp [draft?, restricting]
  have drafted := work.drafted slot (some []) draft
  obtain ⟨written, mode, held, text⟩ := drafted.held
  have own : save.draftPlace? = some (slot.directory ++ [slot.name]) := by
    simp [draftPlace?, draft]
  simp only [step, restricting, alterSlot_file held]
  exact write_turn work drafted.name (directory_of_entry held) (.inl own) rfl text
    (by simp [restricting]) filePermissions

theorem syncing_turn (work : save.AtWork fs) (syncing : save.stage = .syncing slot)
    (piece : Nat) :
    Turn fs save false uncovering [slot.directory ++ [slot.name]] (save.step fs piece).1
      (save.step fs piece).2 := by
  have draft : save.draft? = some (slot, some []) := by simp [draft?, syncing]
  have drafted := work.drafted slot (some []) draft
  obtain ⟨written, mode, held, text⟩ := drafted.held
  have own : save.draftPlace? = some (slot.directory ++ [slot.name]) := by
    simp [draftPlace?, draft]
  have turn : Turn fs save false uncovering _ (fs.fill slot (.file written mode))
      (save.inStage (.renaming slot)) :=
    write_turn work drafted.name (directory_of_entry held) (.inl own) rfl text
      (by simp [syncing]) mode
  rw [fill_same held] at turn
  simpa only [step, syncing] using turn

theorem renaming_turn (work : save.AtWork fs) (last : save.stage = .renaming slot) (piece : Nat) :
    ∃ touched, Turn fs save (save.replaces fs) uncovering touched (save.step fs piece).1
      (save.step fs piece).2 := by
  cases moving : fs.renameSlot slot save.target with
  | ok renamed =>
    have now : save.replaces fs = true := by
      simp [replaces, last, moving, Except.isOk, Except.toBool]
    rw [now]
    simp only [step, last, moving]
    exact replace_turn work last moving
  | error failure =>
    have never : save.replaces fs = false := by
      simp [replaces, last, moving, Except.isOk, Except.toBool]
    have draft : save.draft? = some (slot, some []) := by simp [draft?, last]
    rw [never]
    simp only [step, last, moving]
    exact ⟨_, drop_turn work draft _⟩

-- The only place where the stages of a save are told apart. What later proofs know of them is a
-- Turn.
theorem step_turn (work : save.AtWork fs) (piece : Nat) :
    ∃ touched, Turn fs save (save.replaces fs) (save.uncovers fs) touched (save.step fs piece).1
      (save.step fs piece).2 := by
  have early (before : ∀ slot, save.stage ≠ .renaming slot) : save.replaces fs = false := by
    unfold replaces
    split
    · exact absurd ‹_› (before _)
    · rfl
  cases stage : save.stage with
  | starting =>
    rw [early (by simp [stage])]
    exact ⟨_, starting_turn stage piece⟩
  | creating =>
    rw [early (by simp [stage])]
    exact creating_turn work stage piece
  | writing =>
    rw [early (by simp [stage])]
    exact ⟨_, writing_turn work stage piece⟩
  | restricting =>
    rw [early (by simp [stage])]
    exact ⟨_, restricting_turn work stage piece⟩
  | syncing =>
    rw [early (by simp [stage])]
    exact ⟨_, syncing_turn work stage piece⟩
  | saved | failed =>
    rw [early (by simp [stage])]
    simp only [step, stage]
    exact ⟨_, stay_turn (by simp [draft?, stage])⟩
  | _ => exact renaming_turn work stage piece

theorem abandon_turn (work : save.AtWork fs) (problem : Problem) :
    ∃ touched, Turn fs save false false touched (save.abandon fs problem).1
      (save.abandon fs problem).2 := by
  unfold abandon
  split
  · rename_i draft
    exact ⟨_, drop_turn work draft problem⟩
  · rename_i no
    exact ⟨_, stay_turn no⟩

end RepoFinder.Snapshot.Save
