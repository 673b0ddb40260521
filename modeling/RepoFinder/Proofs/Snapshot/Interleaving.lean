import RepoFinder.Proofs.Snapshot.Traffic

namespace RepoFinder.Snapshot.Traffic

open FileSystem

inductive Origin where
  | start
  | save (index : Nat)
  | uncovered
  | nobody
deriving DecidableEq

namespace Origin

def turned (index : Nat) (replacing uncovering : Bool) (origin : Origin) : Origin :=
  if replacing then .save index else if uncovering then .uncovered else origin

def after (file : Path) (origin : Origin) (passage : Passage) : Origin :=
  match passage.move with
  | .enter .. => origin
  | .advance index _ =>
    match passage.traffic.attempts[index]? with
    | some attempt =>
      origin.turned index (attempt.save.replaces passage.traffic.files)
        (attempt.save.uncovers passage.traffic.files)
    | none => origin
  | .giveUp .. => origin
  | .discard => if (Snapshot.discard passage.traffic.files file).2.isOk then .nobody else origin

def afterAll (file : Path) (passages : List Passage) : Origin :=
  passages.foldl (Origin.after file) .start

end Origin

-- Whether a text has such an origin. One that was brought to light is at least a whole one.
def Origin.Holds (files : FileSystem) (file : Path) (traffic : Traffic) (bytes : List UInt8) :
    Origin → Prop
  | .start => files.contentOf file = .ok bytes
  | .save index =>
    ∃ snapshot, traffic.Renamed index snapshot ∧ snapshot.render? = some bytes
  | .uncovered =>
    (∃ place mode, files.get? place = some (.file bytes mode)) ∨
      ∃ index snapshot, traffic.Renamed index snapshot ∧ snapshot.render? = some bytes
  | .nobody => False

def Origin.Loads (files : FileSystem) (file : Path) (traffic : Traffic) (loaded : Snapshot) :
    Origin → Prop
  | .start => load? files file = some loaded
  | .save index =>
    ∃ snapshot, traffic.Renamed index snapshot ∧ loaded = snapshot.settled ∧
      (snapshot.Dated → loaded = snapshot)
  | .uncovered =>
    (∃ place bytes mode, files.get? place = some (.file bytes mode) ∧ parse? bytes = some loaded) ∨
      ∃ index snapshot, traffic.Renamed index snapshot ∧ loaded = snapshot.settled
  | .nobody => False

def Passage.uncovers (passage : Passage) : Bool :=
  match passage.move with
  | .advance index _ =>
    passage.traffic.attempts[index]?.any fun attempt => attempt.save.uncovers passage.traffic.files
  | _ => false

variable {file : Path} {files : FileSystem} {traffic : Traffic} {index : Nat}

inductive Change (file : Path) (traffic : Traffic) : Move → Traffic → (Origin → Origin) → Prop where
  | enter (snapshot : Snapshot) (temporary : Name) :
      Change file traffic (.enter snapshot temporary)
        (traffic.step file (.enter snapshot temporary)) fun origin => origin
  | turn {move : Move} {index : Nat} {attempt : Attempt} {replacing uncovering : Bool}
      {touched : List Location} {after : FileSystem} {next : Save}
      (found : traffic.attempts[index]? = some attempt)
      (turn : attempt.save.Turn traffic.files replacing uncovering touched after next) :
      Change file traffic move (traffic.put index attempt.snapshot (after, next))
        (Origin.turned index replacing uncovering)
  | remove {slot : Slot} (names : traffic.files.Names file slot)
      (plain : traffic.files.root.landmarkAt? (slot.directory ++ [slot.name]) ≠ some .directory) :
      Change file traffic .discard ⟨traffic.files.clear slot, traffic.attempts⟩ fun _ => .nobody
  | absent (nothing : ∀ bytes, traffic.files.contentOf file ≠ .ok bytes) :
      Change file traffic .discard traffic fun _ => .nobody
  | idle {move : Move} : Change file traffic move traffic fun origin => origin

theorem discard_change (file : Path) (traffic : Traffic) :
    Change file traffic .discard (traffic.step file .discard)
      fun origin => origin.after file ⟨traffic, .discard⟩ := by
  simp only [step, Origin.after]
  cases removing : traffic.files.removeFile file with
  | ok removed =>
    obtain ⟨slot, names, plain, rfl⟩ := names_of_removeFile removing
    simpa [Snapshot.discard, removing, Except.isOk, Except.toBool] using Change.remove names plain
  | error failure =>
    by_cases absent : failure = .notFound
    · subst absent
      have done : Snapshot.discard traffic.files file = (traffic.files, .ok ()) := by
        simp only [Snapshot.discard, removing]
      simpa [done, Except.isOk, Except.toBool] using
        Change.absent fun bytes => unreadable_of_discard done
    · have done : Snapshot.discard traffic.files file =
          (traffic.files, .error (.failed file failure)) := by
        cases failure <;> simp_all [Snapshot.discard]
      simpa [done, Except.isOk, Except.toBool] using Change.idle

-- The only place where the moves are told apart. What later proofs know of them is a Change.
theorem Sound.change (sound : Sound file files traffic) (move : Move) :
    Change file traffic move (traffic.step file move)
      fun origin => origin.after file ⟨traffic, move⟩ := by
  cases move with
  | enter snapshot temporary => exact .enter snapshot temporary
  | advance index piece =>
    cases found : traffic.attempts[index]? with
    | none => simpa only [step, Origin.after, found] using Change.idle
    | some attempt =>
      obtain ⟨touched, turn⟩ := Save.step_turn (sound.inOrder index attempt found).work piece
      simpa only [step, Origin.after, found] using Change.turn found turn
  | giveUp index problem =>
    cases found : traffic.attempts[index]? with
    | none => simpa only [step, Origin.after, found] using Change.idle
    | some attempt =>
      obtain ⟨touched, turn⟩ := Save.abandon_turn (sound.inOrder index attempt found).work problem
      have change : Change file traffic (.giveUp index problem) _ (Origin.turned index false false) :=
        .turn found turn
      simp only [step, found]
      exact change
  | discard => exact discard_change file traffic

variable {move : Move} {later : Traffic} {onward : Origin → Origin}

theorem Sound.changed (sound : Sound file files traffic)
    (change : Change file traffic move later onward)
    (fair : (⟨traffic, move⟩ : Passage).IsFair file) : Sound file files later := by
  cases change with
  | enter snapshot temporary => exact sound.enter fair
  | turn found turn => exact sound.put found turn
  | remove names plain => exact sound.clear names plain
  | absent | idle => exact sound

theorem Renamed.changed (change : Change file traffic move later onward) {snapshot : Snapshot}
    (renamed : traffic.Renamed index snapshot) : later.Renamed index snapshot := by
  cases change with
  | enter =>
    obtain ⟨attempt, stands, saved⟩ := renamed
    exact ⟨attempt, enter_other stands, saved⟩
  | turn found turn => exact renamed.put found turn
  | remove | absent | idle => exact renamed

-- What is read at the file is no temporary file, so it is whole.
theorem Sound.read (sound : Sound file files traffic) {bytes : List UInt8}
    (read : traffic.files.contentOf file = .ok bytes) :
    (∃ place mode, files.get? place = some (.file bytes mode)) ∨
      ∃ index snapshot, traffic.Renamed index snapshot ∧ snapshot.render? = some bytes := by
  obtain ⟨_, place, mode, walked, there⟩ := contentOf_iff.mp read
  rcases sound.whole place bytes mode there with ⟨index, attempt, stands, own⟩ | initial | renamed
  · obtain ⟨directory, rfl, unspelled, _⟩ := (sound.inOrder index attempt stands).unspelled own
    exact absurd (by simp) (unspelled.outside walked)
  · exact .inl ⟨place, mode, initial⟩
  · exact .inr renamed

theorem Origin.Holds.mono {origin : Origin} {bytes : List UInt8}
    (stays : ∀ index snapshot, traffic.Renamed index snapshot → later.Renamed index snapshot)
    (holds : origin.Holds files file traffic bytes) : origin.Holds files file later bytes := by
  cases origin with
  | start => exact holds
  | save index =>
    obtain ⟨snapshot, renamed, text⟩ := holds
    exact ⟨snapshot, stays _ _ renamed, text⟩
  | uncovered =>
    rcases holds with initial | ⟨index, snapshot, renamed, text⟩
    · exact .inl initial
    · exact .inr ⟨index, snapshot, stays _ _ renamed, text⟩
  | nobody => exact holds

-- Whose text can be read is known after each change from what it was before: the text of a save
-- that is renamed is new, what is uncovered is at least whole, and else nothing has changed.
theorem Sound.holds_changed (sound : Sound file files traffic)
    (change : Change file traffic move later onward) (after : Sound file files later)
    {origin : Origin}
    (holds : ∀ bytes, traffic.files.contentOf file = .ok bytes →
      origin.Holds files file traffic bytes) (bytes : List UInt8)
    (read : later.files.contentOf file = .ok bytes) :
    (onward origin).Holds files file later bytes := by
  have whole := after.read read
  have mono (before : traffic.files.contentOf file = .ok bytes) :
      origin.Holds files file later bytes :=
    (holds bytes before).mono fun _ _ renamed => renamed.changed change
  cases change with
  | enter => exact mono read
  | @turn _ index attempt replacing uncovering touched left next found turn =>
    have order := sound.inOrder index attempt found
    have target := order.target
    cases replacing with
    | true =>
      obtain ⟨saved, text⟩ := turn.replaced rfl
      refine ⟨attempt.snapshot, ⟨_, put_self found _ _, saved, rfl⟩, ?_⟩
      rw [← order.text, text bytes (target ▸ read)]
    | false =>
      cases uncovering with
      | true => exact whole
      | false =>
        rcases turn.unread rfl bytes (target ▸ read) with before | impossible
        · exact mono (target ▸ before)
        · cases impossible
  | remove names plain => exact unreadable_of_clear names read
  | absent nothing => exact nothing bytes read
  | idle => exact mono read

theorem Run.holds {passages : List Passage} (run : Run file traffic passages later)
    (fair : ∀ passage ∈ passages, passage.IsFair file) (sound : Sound file files traffic)
    {origin : Origin}
    (holds : ∀ bytes, traffic.files.contentOf file = .ok bytes →
      origin.Holds files file traffic bytes) :
    Sound file files later ∧ ∀ bytes, later.files.contentOf file = .ok bytes →
      (passages.foldl (Origin.after file) origin).Holds files file later bytes := by
  induction run generalizing origin with
  | rest => exact ⟨sound, holds⟩
  | move move later ih =>
    have change := sound.change move
    have after := sound.changed change (fair _ (by simp))
    exact ih (fun passage present => fair passage (by simp [present])) after
      (sound.holds_changed change after holds)

theorem Sound.parse? (sound : Sound file files traffic) {snapshot loaded : Snapshot}
    {bytes : List UInt8} (renamed : traffic.Renamed index snapshot)
    (text : snapshot.render? = some bytes) (parsed : Snapshot.parse? bytes = some loaded) :
    loaded = snapshot.settled := by
  obtain ⟨attempt, stands, _, rfl⟩ := renamed
  have order := sound.inOrder index attempt stands
  rw [parse?_settled order.shown order.current text] at parsed
  exact (Option.some.inj parsed).symm

theorem Origin.Holds.loads (sound : Sound file files traffic) {origin : Origin}
    {bytes : List UInt8} {loaded : Snapshot} (holds : origin.Holds files file traffic bytes)
    (parsed : Snapshot.parse? bytes = some loaded) : origin.Loads files file traffic loaded := by
  cases origin with
  | start => exact load?_eq_some.mpr ⟨bytes, holds, parsed⟩
  | save index =>
    obtain ⟨snapshot, renamed, text⟩ := holds
    have same := sound.parse? renamed text parsed
    exact ⟨snapshot, renamed, same, fun dated => same.trans dated.settled⟩
  | uncovered =>
    rcases holds with ⟨place, mode, there⟩ | ⟨index, snapshot, renamed, text⟩
    · exact .inl ⟨place, bytes, mode, there, parsed⟩
    · exact .inr ⟨index, snapshot, renamed, sound.parse? renamed text parsed⟩
  | nobody => exact holds

theorem Origin.after_uncovered {origin : Origin} {passage : Passage}
    (uncovered : origin.after file passage = .uncovered) :
    origin = .uncovered ∨ passage.uncovers = true := by
  obtain ⟨traffic, move⟩ := passage
  cases move with
  | enter => exact .inl uncovered
  | advance index piece =>
    simp only [Origin.after, Passage.uncovers] at uncovered ⊢
    cases found : traffic.attempts[index]? with
    | none => exact .inl (by simpa only [found] using uncovered)
    | some attempt =>
      simp only [found, Origin.turned] at uncovered
      split at uncovered
      · cases uncovered
      split at uncovered
      · rename_i uncovers
        exact .inr (by simpa using uncovers)
      · exact .inl uncovered
  | giveUp => exact .inl uncovered
  | discard =>
    simp only [Origin.after] at uncovered
    split at uncovered
    · cases uncovered
    · exact .inl uncovered

theorem Origin.foldl_uncovered {passages : List Passage} {origin : Origin}
    (uncovered : passages.foldl (Origin.after file) origin = .uncovered) :
    origin = .uncovered ∨ ∃ passage ∈ passages, passage.uncovers = true := by
  induction passages generalizing origin with
  | nil => exact .inl uncovered
  | cons passage passages ih =>
    rcases ih uncovered with now | ⟨other, present, uncovers⟩
    · rcases Origin.after_uncovered now with before | uncovers
      · exact .inl before
      · exact .inr ⟨passage, by simp, uncovers⟩
    · exact .inr ⟨other, by simp [present], uncovers⟩

-- No snapshot is ever torn. However saves, loads and discards of one file are interleaved, and
-- wherever a save is abandoned, at every moment the file holds what it held at the start, or nothing
-- that can be read, or the whole text of one save, the one that was renamed last; and a load answers
-- accordingly. Only with the folders that a save makes another file may come to light there, and
-- that is a whole one too. Of the names of temporary files it is asked that nothing spells them.
theorem never_torn {passages : List Passage} (run : Run file (.start files) passages traffic)
    (fair : ∀ passage ∈ passages, passage.IsFair file) :
    (∀ bytes, traffic.files.contentOf file = .ok bytes →
      (Origin.afterAll file passages).Holds files file traffic bytes) ∧
    (∀ loaded, load? traffic.files file = some loaded →
      (Origin.afterAll file passages).Loads files file traffic loaded) ∧
    (Origin.afterAll file passages = .uncovered →
      ∃ passage ∈ passages, passage.uncovers = true) := by
  have initially (bytes : List UInt8) (read : (start files).files.contentOf file = .ok bytes) :
      Origin.start.Holds files file (start files) bytes := read
  obtain ⟨sound, holds⟩ := run.holds fair (start_sound file files) initially
  refine ⟨holds, ?_, ?_⟩
  · intro loaded answered
    obtain ⟨bytes, read, parsed⟩ := load?_eq_some.mp answered
    exact (holds bytes read).loads sound parsed
  · intro uncovered
    rcases Origin.foldl_uncovered uncovered with impossible | some
    · cases impossible
    · exact some

theorem unspelled_of_plain {name : Name} (path : name ∉ file.segments)
    (current : name ∉ files.current)
    (plain : ∀ place target, files.get? place ≠ some (.link target)) :
    files.Unspelled file name :=
  ⟨path, current, fun place target there => absurd there (plain place target)⟩

theorem plain_folder {entries : List (String × Node)}
    (plain : ∀ entry ∈ entries, ∀ place target, entry.2.get? place ≠ some (.link target))
    (place : Location) (target : Path) :
    (folderNode entries).get? place ≠ some (.link target) := by
  cases place with
  | nil => simp [folderNode, Node.get?]
  | cons name rest =>
    induction entries with
    | nil => simp [folderNode, Node.get?, Entries.find?]
    | cons entry entries ih =>
      obtain ⟨first, others⟩ := List.forall_mem_cons.mp plain
      have ih := ih others
      simp only [folderNode, List.map_cons, Node.get?, Entries.find?] at ih ⊢
      split
      · rename_i node found
        split at found
        · cases found
          exact first rest target
        · simpa [found] using ih
      · simp

def sharedFile : Path := Path.ofString "/d/s"

def emptyFiles : FileSystem := ⟨folderNode [("d", folderNode [])], []⟩

theorem emptyFiles_plain : ∀ place target, emptyFiles.get? place ≠ some (.link target) :=
  plain_folder (by simp; exact plain_folder (by simp))

def firstName : Name := temporaryName 0

def secondName : Name := temporaryName 1

def firstSnapshot : Snapshot := take ⟨1700000000, 0⟩ [] [Path.ofString "/w"]

def secondSnapshot : Snapshot := take ⟨1700000001, 0⟩ [] [Path.ofString "/x"]

def entering : List Move := [.enter firstSnapshot firstName, .enter secondSnapshot secondName]

def overtaking : List Move :=
  [.advance 0 0, .advance 0 0, .advance 0 7] ++ List.replicate 7 (.advance 1 200) ++ [.advance 0 7]

@[irreducible]
def overtaken : Traffic := follow sharedFile (.start emptyFiles) (entering ++ overtaking)

theorem overtaken_facts :
    Origin.afterAll sharedFile
        (passagesOf sharedFile (.start emptyFiles) (entering ++ overtaking)) = .save 1 ∧
      (overtaken.attempts[0]?.bind fun attempt => attempt.save.draft?).isSome = true ∧
      load? overtaken.files sharedFile = some secondSnapshot := by
  decide +kernel

theorem emptyFiles_unspelled {name : Name} (path : name ∉ sharedFile.segments) :
    emptyFiles.Unspelled sharedFile name :=
  unspelled_of_plain path (by simp [emptyFiles]) emptyFiles_plain

theorem entering_fair : ∀ passage ∈ passagesOf sharedFile (.start emptyFiles) entering,
    passage.IsFair sharedFile := by
  have first : (⟨.start emptyFiles, .enter firstSnapshot firstName⟩ : Passage).IsFair sharedFile :=
    ⟨take_shown ⟨by decide, by decide⟩ (by simp) _, rfl, by decide +kernel,
      emptyFiles_unspelled (by decide +kernel)⟩
  have second (traffic : Traffic) (same : traffic.files = emptyFiles) :
      (⟨traffic, .enter secondSnapshot secondName⟩ : Passage).IsFair sharedFile :=
    ⟨take_shown ⟨by decide, by decide⟩ (by simp) _, rfl, by decide +kernel,
      same ▸ emptyFiles_unspelled (by decide +kernel)⟩
  intro passage present
  simp only [entering, passagesOf, List.mem_cons, List.not_mem_nil, or_false] at present
  rcases present with rfl | rfl
  · exact first
  · exact second _ rfl

theorem never_torn_overtaken :
    (∃ attempt, overtaken.attempts[0]? = some attempt ∧ attempt.save.draft? ≠ none) ∧
      ∃ snapshot, overtaken.Renamed 1 snapshot ∧ secondSnapshot = snapshot.settled := by
  obtain ⟨origin, half, loaded⟩ := overtaken_facts
  have run : Run sharedFile (.start emptyFiles)
      (passagesOf sharedFile (.start emptyFiles) (entering ++ overtaking)) overtaken := by
    unfold overtaken
    exact follow_run _ _ _
  have fair : ∀ passage ∈ passagesOf sharedFile (.start emptyFiles) (entering ++ overtaking),
      passage.IsFair sharedFile := by
    intro passage present
    rw [passagesOf_append] at present
    rcases List.mem_append.mp present with early | late
    · exact entering_fair passage early
    · exact follow_fair (by decide) _ passage late
  obtain ⟨_, loads, _⟩ := never_torn run fair
  have answer := loads secondSnapshot loaded
  rw [origin] at answer
  obtain ⟨snapshot, renamed, same, _⟩ := answer
  obtain ⟨draft, halfway⟩ := Option.isSome_iff_exists.mp half
  obtain ⟨attempt, stands, drafted⟩ := Option.bind_eq_some_iff.mp halfway
  exact ⟨⟨attempt, stands, by simp [drafted]⟩, snapshot, renamed, same⟩

def strayFile : Path := Path.ofString "/a/../s"

def strayFiles : FileSystem :=
  ⟨folderNode [("s", .file (firstSnapshot.render?.getD []) 0o644)], []⟩

def strayMoves : List Move := [.enter secondSnapshot firstName, .advance 0 0]

@[irreducible]
def strayTraffic : Traffic := follow strayFile (.start strayFiles) strayMoves

theorem strayFiles_plain : ∀ place target, strayFiles.get? place ≠ some (.link target) := by
  apply plain_folder
  intro entry present place target
  rw [List.mem_singleton.mp present]
  cases place <;> simp [Node.get?]

theorem strayMoves_fair :
    ∀ passage ∈ passagesOf strayFile (.start strayFiles) strayMoves, passage.IsFair strayFile := by
  have first : (⟨.start strayFiles, .enter secondSnapshot firstName⟩ : Passage).IsFair strayFile :=
    ⟨take_shown ⟨by decide, by decide⟩ (by simp) _, rfl, by decide +kernel,
      unspelled_of_plain (by decide +kernel) (by simp [start, strayFiles]) strayFiles_plain⟩
  intro passage present
  rcases List.mem_cons.mp present with rfl | later
  · exact first
  · exact follow_fair (by decide) _ passage later

def strangeSnapshot : Snapshot := take strangeTime [] []

def strangeMoves : List Move :=
  .enter strangeSnapshot firstName :: List.replicate 7 (.advance 0 200)

@[irreducible]
def strangeTraffic : Traffic := follow sharedFile (.start emptyFiles) strangeMoves

theorem strangeMoves_fair :
    ∀ passage ∈ passagesOf sharedFile (.start emptyFiles) strangeMoves,
      passage.IsFair sharedFile := by
  have first : (⟨.start emptyFiles, .enter strangeSnapshot firstName⟩ : Passage).IsFair sharedFile :=
    ⟨take_shown strangeTime_shown (by simp) _, rfl, by decide +kernel,
      emptyFiles_unspelled (by decide +kernel)⟩
  intro passage present
  rcases List.mem_cons.mp present with rfl | later
  · exact first
  · exact follow_fair (by decide) _ passage later

theorem stray_facts :
    (strayFiles.contentOf strayFile).isOk = false ∧
      load? strayTraffic.files strayFile = some firstSnapshot ∧
      strayTraffic.attempts.all (fun attempt => !attempt.isSaved) = true := by
  decide +kernel

theorem strange_facts :
    (strangeTraffic.attempts.map fun attempt => (attempt.snapshot, attempt.isSaved)) =
        [(strangeSnapshot, true)] ∧
      load? strangeTraffic.files sharedFile = some (take ⟨1700000001, 500000000⟩ [] []) := by
  decide +kernel

-- The folders that a save makes bring a snapshot of somebody else's to light, before any save is
-- renamed. And a save whose time runs on within its minute is loaded with another time.
theorem loaded_from_no_save :
    (∃ passages, Run strayFile (.start strayFiles) passages strayTraffic ∧
      (∀ passage ∈ passages, passage.IsFair strayFile) ∧
      (∀ bytes, strayFiles.contentOf strayFile ≠ .ok bytes) ∧
      load? strayTraffic.files strayFile = some firstSnapshot ∧
      ∀ index snapshot, ¬ strayTraffic.Renamed index snapshot) ∧
    ∃ passages, Run sharedFile (.start emptyFiles) passages strangeTraffic ∧
      (∀ passage ∈ passages, passage.IsFair sharedFile) ∧
      (∃ save, strangeTraffic.attempts = [⟨strangeSnapshot, save⟩] ∧ save.stage = .saved) ∧
      ∃ loaded, load? strangeTraffic.files sharedFile = some loaded ∧ loaded ≠ strangeSnapshot := by
  obtain ⟨none, loaded, unsaved⟩ := stray_facts
  obtain ⟨only, other⟩ := strange_facts
  have strayRun : Run strayFile (.start strayFiles)
      (passagesOf strayFile (.start strayFiles) strayMoves) strayTraffic := by
    unfold strayTraffic
    exact follow_run _ _ _
  have strangeRun : Run sharedFile (.start emptyFiles)
      (passagesOf sharedFile (.start emptyFiles) strangeMoves) strangeTraffic := by
    unfold strangeTraffic
    exact follow_run _ _ _
  refine ⟨⟨_, strayRun, strayMoves_fair, ne_ok_of_isOk none, loaded, ?_⟩, _, strangeRun,
    strangeMoves_fair, ?_, _, other, by decide⟩
  · rintro index snapshot ⟨attempt, stands, saved, _⟩
    have still := List.all_eq_true.mp unsaved attempt (List.mem_of_getElem? stands)
    simp [Attempt.isSaved_iff.mpr saved] at still
  · obtain ⟨attempt, same, seen⟩ := List.map_eq_singleton_iff.mp only
    obtain ⟨strange, saved⟩ := Prod.mk.inj seen
    exact ⟨attempt.save, by rw [same, ← strange], Attempt.isSaved_iff.mp saved⟩

end RepoFinder.Snapshot.Traffic
