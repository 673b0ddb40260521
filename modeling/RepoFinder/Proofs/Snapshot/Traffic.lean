import RepoFinder.Proofs.Snapshot.Drafts
import RepoFinder.Proofs.Snapshot.Return

namespace RepoFinder.Snapshot

open FileSystem

structure Attempt where
  snapshot : Snapshot
  save : Save

def Attempt.isSaved (attempt : Attempt) : Bool :=
  match attempt.save.stage with
  | .saved => true
  | _ => false

theorem Attempt.isSaved_iff {attempt : Attempt} :
    attempt.isSaved = true ↔ attempt.save.stage = .saved := by
  unfold isSaved
  cases attempt.save.stage <;> simp

structure Traffic where
  files : FileSystem
  attempts : List Attempt

namespace Traffic

def start (files : FileSystem) : Traffic := ⟨files, []⟩

-- Loads are no moves: they change nothing, and what one would answer is said of every moment. A save
-- that is cut off is one that does not advance any more; one that fails gives up.
inductive Move where
  | enter (snapshot : Snapshot) (temporary : Name)
  | advance (index piece : Nat)
  | giveUp (index : Nat) (problem : Problem)
  | discard

def put (traffic : Traffic) (index : Nat) (snapshot : Snapshot) (turned : FileSystem × Save) :
    Traffic :=
  ⟨turned.1, traffic.attempts.set index ⟨snapshot, turned.2⟩⟩

def step (file : Path) (traffic : Traffic) : Move → Traffic
  | .enter snapshot temporary =>
    ⟨traffic.files,
      traffic.attempts ++ [⟨snapshot, ⟨file, snapshot.render?, temporary, .starting⟩⟩]⟩
  | .advance index piece =>
    match traffic.attempts[index]? with
    | some attempt => traffic.put index attempt.snapshot (attempt.save.step traffic.files piece)
    | none => traffic
  | .giveUp index problem =>
    match traffic.attempts[index]? with
    | some attempt =>
      traffic.put index attempt.snapshot (attempt.save.abandon traffic.files problem)
    | none => traffic
  | .discard => { traffic with files := (Snapshot.discard traffic.files file).1 }

structure Passage where
  traffic : Traffic
  move : Move

inductive Run (file : Path) : Traffic → List Passage → Traffic → Prop where
  | rest (traffic : Traffic) : Run file traffic [] traffic
  | move {traffic ended : Traffic} {passages : List Passage} (move : Move)
      (later : Run file (traffic.step file move) passages ended) :
      Run file traffic (⟨traffic, move⟩ :: passages) ended

def Renamed (traffic : Traffic) (index : Nat) (snapshot : Snapshot) : Prop :=
  ∃ attempt, traffic.attempts[index]? = some attempt ∧ attempt.save.stage = .saved ∧
    attempt.snapshot = snapshot

-- A save may be begun with any snapshot of this version whose times are times of the calendar, and
-- with a name for its temporary file that has not been used in a path or a link.
def Passage.IsFair (file : Path) (passage : Passage) : Prop :=
  match passage.move with
  | .enter snapshot temporary =>
    snapshot.Shown ∧ snapshot.version = currentVersion ∧ temporary.Proper ∧
      passage.traffic.files.Unspelled file temporary
  | _ => True

def passagesOf (file : Path) : Traffic → List Move → List Passage
  | _, [] => []
  | traffic, move :: moves => ⟨traffic, move⟩ :: passagesOf file (traffic.step file move) moves

def follow (file : Path) (traffic : Traffic) (moves : List Move) : Traffic :=
  moves.foldl (step file) traffic

theorem follow_run (file : Path) (traffic : Traffic) (moves : List Move) :
    Run file traffic (passagesOf file traffic moves) (follow file traffic moves) := by
  induction moves generalizing traffic with
  | nil => exact .rest traffic
  | cons move moves ih => exact .move move (ih (traffic.step file move))

def Move.enters : Move → Bool
  | .enter .. => true
  | _ => false

theorem follow_fair {moves : List Move} (entered : moves.all (fun move => !move.enters) = true)
    (traffic : Traffic) : ∀ passage ∈ passagesOf file traffic moves, passage.IsFair file := by
  induction moves generalizing traffic with
  | nil => simp [passagesOf]
  | cons move moves ih =>
    simp only [List.all_cons, Bool.and_eq_true, Bool.not_eq_true'] at entered
    intro passage present
    rcases List.mem_cons.mp present with rfl | later
    · cases move with
      | enter => cases entered.1
      | _ => trivial
    · exact ih entered.2 _ passage later

theorem passagesOf_append (file : Path) (traffic : Traffic) (moves more : List Move) :
    passagesOf file traffic (moves ++ more) =
      passagesOf file traffic moves ++ passagesOf file (follow file traffic moves) more := by
  induction moves generalizing traffic with
  | nil => rfl
  | cons move moves ih =>
    rw [List.cons_append, passagesOf, passagesOf, ih]
    rfl

theorem follow_alone (file : Path) (snapshot : Snapshot) (stages piece : Nat) (fs : FileSystem)
    (save : Save) :
    let went := save.through (List.replicate stages (.granted piece)) fs
    follow file ⟨fs, [⟨snapshot, save⟩]⟩ (List.replicate stages (.advance 0 piece)) =
      ⟨went.1, [⟨snapshot, went.2⟩]⟩ := by
  induction stages generalizing fs save with
  | zero =>
    rw [List.replicate_zero, Save.through]
    rfl
  | succ stages ih =>
    rw [List.replicate_succ, List.replicate_succ, Save.through]
    exact ih (save.step fs piece).1 (save.step fs piece).2

-- The save of an engine is the run of one save that nobody interrupts.
theorem save_alone (fs : FileSystem) (file : Path) (snapshot : Snapshot) :
    (Snapshot.save fs file snapshot).1 = (follow file (.start fs)
      (.enter snapshot (freshName (namesBeside (withFolder fs file) file)) ::
        List.replicate Save.mostStages (.advance 0 (snapshot.render?.getD []).length))).files := by
  have entered (temporary : Name) (moves : List Move) :
      follow file (.start fs) (.enter snapshot temporary :: moves) =
        follow file ⟨fs, [⟨snapshot, .begun file snapshot temporary⟩]⟩ moves := rfl
  rw [entered, follow_alone]
  unfold Snapshot.save
  rfl

variable {file : Path} {files : FileSystem} {traffic : Traffic} {attempt : Attempt} {index : Nat}
  {touched : List Location} {replacing uncovering : Bool} {after : FileSystem} {next : Save}

structure InOrder (file : Path) (fs : FileSystem) (attempt : Attempt) : Prop where
  target : attempt.save.target = file
  text : attempt.save.text = attempt.snapshot.render?
  shown : attempt.snapshot.Shown
  current : attempt.snapshot.version = currentVersion
  work : attempt.save.AtWork fs

-- The saves are in order, no two have one temporary file, and every file that is no temporary one
-- was there from the start or has the whole text of a save.
structure Sound (file : Path) (files : FileSystem) (traffic : Traffic) : Prop where
  inOrder : ∀ (index : Nat) attempt, traffic.attempts[index]? = some attempt →
    InOrder file traffic.files attempt
  apart : ∀ (index number : Nat) (attempt other : Attempt) place,
    traffic.attempts[index]? = some attempt → traffic.attempts[number]? = some other →
    attempt.save.draftPlace? = some place → other.save.draftPlace? = some place → index = number
  whole : ∀ place content mode, traffic.files.get? place = some (.file content mode) →
    (∃ (index : Nat) (attempt : Attempt), traffic.attempts[index]? = some attempt ∧
      attempt.save.draftPlace? = some place) ∨
      files.get? place = some (.file content mode) ∨
      ∃ index snapshot, traffic.Renamed index snapshot ∧ snapshot.render? = some content

theorem start_sound (file : Path) (files : FileSystem) : Sound file files (.start files) where
  inOrder index attempt found := by simp [start] at found
  apart index number attempt other place found := by simp [start] at found
  whole place content mode there := .inr (.inl there)

theorem InOrder.unspelled (order : InOrder file traffic.files attempt) {place : Location}
    (own : attempt.save.draftPlace? = some place) :
    ∃ directory, place = directory ++ [attempt.save.temporary] ∧
      traffic.files.Unspelled file attempt.save.temporary ∧ traffic.files.get? place ≠ none := by
  obtain ⟨⟨slot, rest⟩, draft, rfl⟩ := Option.map_eq_some_iff.mp own
  have drafted := order.work.drafted slot rest draft
  obtain ⟨written, mode, held, _⟩ := drafted.held
  refine ⟨slot.directory, by rw [drafted.name], ?_, by simp [held]⟩
  have unspelled := order.work.unspelled
  rwa [order.target] at unspelled

theorem InOrder.frame (order : InOrder file traffic.files attempt)
    (frame : Frame touched traffic.files after)
    (outside : ∀ place, attempt.save.draftPlace? = some place → place ∉ touched) :
    InOrder file after attempt := by
  refine { order with work := ⟨order.work.proper, order.work.unspelled.frame frame, ?_⟩ }
  intro slot rest draft
  have drafted := order.work.drafted slot rest draft
  obtain ⟨written, mode, held, text⟩ := drafted.held
  have own : attempt.save.draftPlace? = some (slot.directory ++ [slot.name]) := by
    simp [Save.draftPlace?, draft]
  exact ⟨drafted.name, written, mode, (frame.file (outside _ own)).mpr held, text⟩

-- A turn does not touch the temporary files of others: they are taken, and the path does not spell
-- their names.
theorem Sound.untouched (sound : Sound file files traffic)
    (found : traffic.attempts[index]? = some attempt)
    (turn : attempt.save.Turn traffic.files replacing uncovering touched after next) {number : Nat}
    {other : Attempt} (stands : traffic.attempts[number]? = some other) (differ : index ≠ number)
    (place : Location) (own : other.save.draftPlace? = some place) : place ∉ touched := by
  intro present
  have order := sound.inOrder number other stands
  obtain ⟨directory, rfl, unspelled, taken⟩ := order.unspelled own
  rcases turn.room _ present with mine | free | ⟨before, name, spelled, same⟩
  · exact differ (sound.apart _ _ _ _ _ found stands mine own)
  · exact taken free
  · rw [(sound.inOrder index attempt found).target] at spelled
    obtain ⟨_, same⟩ := List.append_inj' same rfl
    exact unspelled.path (List.singleton_inj.mp same ▸ spelled)

theorem getElem?_put {number : Nat} {other : Attempt} (snapshot : Snapshot)
    (turned : FileSystem × Save)
    (stands : (traffic.put index snapshot turned).attempts[number]? = some other) :
    index = number ∧ other = ⟨snapshot, turned.2⟩ ∨
      index ≠ number ∧ traffic.attempts[number]? = some other := by
  simp only [put, List.getElem?_set] at stands
  by_cases same : index = number
  · left
    rw [if_pos same] at stands
    split at stands
    · exact ⟨same, (Option.some.inj stands).symm⟩
    · cases stands
  · exact .inr ⟨same, by rwa [if_neg same] at stands⟩

theorem put_self (found : traffic.attempts[index]? = some attempt) (snapshot : Snapshot)
    (turned : FileSystem × Save) :
    (traffic.put index snapshot turned).attempts[index]? = some ⟨snapshot, turned.2⟩ := by
  obtain ⟨bound, _⟩ := List.getElem?_eq_some_iff.mp found
  simp [put, bound]

theorem put_other {number : Nat} (differ : index ≠ number) (snapshot : Snapshot)
    (turned : FileSystem × Save) :
    (traffic.put index snapshot turned).attempts[number]? = traffic.attempts[number]? := by
  simp [put, differ]

theorem Renamed.put (found : traffic.attempts[index]? = some attempt)
    (turn : attempt.save.Turn traffic.files replacing uncovering touched after next) {number : Nat}
    {snapshot : Snapshot} (renamed : traffic.Renamed number snapshot) :
    (traffic.put index attempt.snapshot (after, next)).Renamed number snapshot := by
  obtain ⟨other, stands, saved, same⟩ := renamed
  by_cases differ : index = number
  · subst differ
    obtain rfl := Option.some.inj (stands.symm.trans found)
    have settled := turn.settled saved
    exact ⟨_, put_self found _ _, settled ▸ saved, same⟩
  · exact ⟨other, (put_other differ _ _).trans stands, saved, same⟩

theorem InOrder.turn (order : InOrder file traffic.files attempt)
    (turn : attempt.save.Turn traffic.files replacing uncovering touched after next) :
    InOrder file after ⟨attempt.snapshot, next⟩ where
  target := turn.sameTarget.trans order.target
  text := turn.sameText.trans order.text
  shown := order.shown
  current := order.current
  work := by
    refine ⟨turn.sameTemporary ▸ order.work.proper, ?_, ?_⟩
    · rw [turn.sameTarget, turn.sameTemporary]
      exact order.work.unspelled.frame turn.frame
    · intro slot rest draft
      exact (turn.drafted slot rest draft).1

theorem Sound.put (sound : Sound file files traffic)
    (found : traffic.attempts[index]? = some attempt)
    (turn : attempt.save.Turn traffic.files replacing uncovering touched after next) :
    Sound file files (traffic.put index attempt.snapshot (after, next)) := by
  have order := sound.inOrder index attempt found
  have mine (place : Location) (own : next.draftPlace? = some place) : place ∈ touched := by
    obtain ⟨⟨slot, rest⟩, draft, rfl⟩ := Option.map_eq_some_iff.mp own
    exact (turn.drafted slot rest draft).2
  have others {number : Nat} {other : Attempt}
      (stands : traffic.attempts[number]? = some other) (differ : index ≠ number) (place : Location)
      (own : other.save.draftPlace? = some place) : place ∉ touched :=
    sound.untouched found turn stands differ place own
  refine ⟨?_, ?_, ?_⟩
  · intro number other stands
    rcases getElem?_put _ _ stands with ⟨_, rfl⟩ | ⟨differ, stands⟩
    · exact order.turn turn
    · exact (sound.inOrder number other stands).frame turn.frame (others stands differ)
  · intro first second one two place standsOne standsTwo ownOne ownTwo
    rcases getElem?_put _ _ standsOne with ⟨rfl, rfl⟩ | ⟨differOne, standsOne⟩ <;>
      rcases getElem?_put _ _ standsTwo with ⟨rfl, rfl⟩ | ⟨differTwo, standsTwo⟩
    · rfl
    · exact absurd (mine place ownOne) (others standsTwo differTwo place ownTwo)
    · exact absurd (mine place ownTwo) (others standsOne differOne place ownOne)
    · exact sound.apart _ _ _ _ _ standsOne standsTwo ownOne ownTwo
  · intro place content mode there
    by_cases present : place ∈ touched
    · rcases turn.left place present content mode there with own | ⟨saved, text⟩
      · exact .inl ⟨index, _, put_self found _ _, own⟩
      · refine .inr (.inr ⟨index, attempt.snapshot, ⟨_, put_self found _ _, saved, rfl⟩, ?_⟩)
        rw [← order.text, ← turn.sameText, text]
    · rcases sound.whole place content mode ((turn.frame.file present).mp there) with
        ⟨number, other, stands, own⟩ | initial | ⟨number, snapshot, renamed, text⟩
      · by_cases differ : index = number
        · subst differ
          obtain rfl := Option.some.inj (stands.symm.trans found)
          exact absurd (turn.own place own) present
        · exact .inl ⟨number, other, (put_other differ _ _).trans stands, own⟩
      · exact .inr (.inl initial)
      · exact .inr (.inr ⟨number, snapshot, renamed.put found turn, text⟩)

theorem getElem?_enter {snapshot : Snapshot} {temporary : Name}
    (stands : (traffic.step file (.enter snapshot temporary)).attempts[index]? = some attempt) :
    traffic.attempts[index]? = some attempt ∨
      attempt = ⟨snapshot, ⟨file, snapshot.render?, temporary, .starting⟩⟩ := by
  simp only [step, List.getElem?_append] at stands
  split at stands
  · exact .inl stands
  · exact .inr (List.mem_singleton.mp (List.mem_of_getElem? stands))

theorem enter_other {snapshot : Snapshot} {temporary : Name}
    (stands : traffic.attempts[index]? = some attempt) :
    (traffic.step file (.enter snapshot temporary)).attempts[index]? = some attempt := by
  obtain ⟨bound, _⟩ := List.getElem?_eq_some_iff.mp stands
  simpa only [step, List.getElem?_append_left bound]

theorem Sound.enter (sound : Sound file files traffic) {snapshot : Snapshot} {temporary : Name}
    (fair : (⟨traffic, .enter snapshot temporary⟩ : Passage).IsFair file) :
    Sound file files (traffic.step file (.enter snapshot temporary)) := by
  obtain ⟨shown, current, proper, unspelled⟩ := fair
  refine ⟨?_, ?_, ?_⟩
  · intro index attempt stands
    rcases getElem?_enter stands with before | rfl
    · exact sound.inOrder index attempt before
    · exact ⟨rfl, rfl, shown, current, proper, unspelled, by simp [Save.draft?]⟩
  · intro index number attempt other place stands also own same
    -- The new save has no temporary file yet.
    rcases getElem?_enter stands with before | rfl
    · rcases getElem?_enter also with too | rfl
      · exact sound.apart _ _ _ _ _ before too own same
      · cases same
    · cases own
  · intro place content mode there
    rcases sound.whole place content mode there with
      ⟨index, attempt, stands, own⟩ | initial | ⟨index, saved, ⟨attempt, stands, renamed⟩, text⟩
    · exact .inl ⟨index, attempt, enter_other stands, own⟩
    · exact .inr (.inl initial)
    · exact .inr (.inr ⟨index, saved, ⟨attempt, enter_other stands, renamed⟩, text⟩)

theorem Sound.clear (sound : Sound file files traffic) {slot : Slot}
    (names : traffic.files.Names file slot)
    (plain : traffic.files.root.landmarkAt? (slot.directory ++ [slot.name]) ≠ some .directory) :
    Sound file files ⟨traffic.files.clear slot, traffic.attempts⟩ := by
  have frame := clear_frame plain
  obtain ⟨before, segments, _⟩ := names.leads
  refine ⟨?_, sound.apart, ?_⟩
  · intro index attempt stands
    have order := sound.inOrder index attempt stands
    apply order.frame frame
    intro place own present
    obtain ⟨directory, rfl, unspelled, _⟩ := order.unspelled own
    obtain ⟨_, same⟩ := List.append_inj' (List.mem_singleton.mp present) rfl
    have spelled : slot.name ∈ file.segments := by simp [segments]
    exact unspelled.path (List.singleton_inj.mp same ▸ spelled)
  · intro place content mode there
    apply sound.whole place content mode
    apply (frame.file _).mp there
    rw [List.mem_singleton]
    rintro rfl
    cases there.symm.trans (get?_clear names.there)

end Traffic

end RepoFinder.Snapshot
