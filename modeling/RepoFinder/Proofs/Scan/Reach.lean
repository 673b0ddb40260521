import RepoFinder.Proofs.Scan.Quiescence
import RepoFinder.Proofs.Text.Utf8

namespace RepoFinder

open FileSystem

def FileSystem.Lists (files : FileSystem) (path : Path) (entry : Name × Kind) : Prop :=
  ∃ entries, files.readDirectory path = .ok entries ∧ entry ∈ entries

theorem FileSystem.lists_of_readDirectory {files : FileSystem} {path : Path}
    {entries : List (Name × Kind)} (read : files.readDirectory path = .ok entries)
    {entry : Name × Kind} : files.Lists path entry ↔ entry ∈ entries := by
  simp [Lists, read]

-- Names are bytes, and a name is compared with the sentinel as it is shown. Only these bytes are
-- shown as the sentinel, since its name holds no replacement character.
def EntryClass.sentinelBytes : Name := Text.Utf8.ofString EntryClass.sentinelName

theorem EntryClass.eq_sentinelBytes {name : Name} (shown : name.display = sentinelName) :
    name = sentinelBytes := by
  have decoded : Text.Utf8.decodeLossy name = sentinelName.toList := by
    rw [← shown]
    simp [Name.display, Text.Utf8.decodeStringLossy]
  exact (Text.Utf8.encode_of_decodeLossy decoded (by decide)).symm

theorem EntryClass.of_sentinel {name : Name} {kind : Kind}
    (meets : ofEntry name.display kind = .sentinel) :
    kind = .directory ∧ name = sentinelBytes := by
  cases kind with
  | directory =>
    simp only [ofEntry] at meets
    split at meets
    · rename_i shown
      exact ⟨rfl, eq_sentinelBytes shown⟩
    · repeat' split at meets
      all_goals cases meets
  | link => cases meets
  | other => cases meets

theorem EntryClass.sentinel_meets :
    ofEntry (Name.display sentinelBytes) .directory = .sentinel := by
  have shown : Name.display sentinelBytes = sentinelName := by
    have decoded := Text.Utf8.pieces_encode sentinelName.toList
    simp [Name.display, sentinelBytes, Text.Utf8.ofString, Text.Utf8.decodeStringLossy,
      Text.Utf8.decodeLossy, decoded, Function.comp_def]
  simp [ofEntry, shown]

theorem EntryClass.of_descend {name : String} {kind : Kind}
    (meets : ofEntry name kind = .descend) : kind = .directory := by
  cases kind with
  | directory => rfl
  | link => cases meets
  | other => cases meets

namespace Scan

variable {scene : Scene} {roots : List Path} {start state next : State} {events : List Event}

-- A directory so many steps below a root: each step is a real directory that is listed in the one
-- before and descended into, and is spelled by its name.
inductive Below (files : FileSystem) (root : Path) : Nat → Path → Prop where
  | root : Below files root 0 root
  | child {depth : Nat} {path : Path} {name : Name} (above : Below files root depth path)
      (lists : files.Lists path (name, .directory))
      (descends : EntryClass.ofEntry name.display .directory = .descend) :
      Below files root (depth + 1) (path.child name)

def sentinel : Entry := (EntryClass.sentinelBytes, .directory)

def Target (scene : Scene) (roots : List Path) (path : Path) : Prop :=
  ∃ root ∈ roots, ∃ depth, (scene.depthLimit = 0 ∨ depth ≤ scene.depthLimit) ∧
    Below scene.files root depth path ∧ scene.files.Lists path sentinel

def Answer.url : Answer → String
  | .address url => url
  | _ => ""

def repositoryAt (scene : Scene) (path : Path) : Repository :=
  .ofPath path (scene.remote path).url (scene.files.modified path)

-- Whoever records a directory gets over it: its address is answered, and its time of modification
-- has a place in the calendar.
structure Scene.Recordable (scene : Scene) (path : Path) : Prop where
  answered : scene.remote path ≠ .crash
  dated : (scene.files.modified path).IsMoment

def Job.Due (scene : Scene) (roots : List Path) (job : Job) : Prop :=
  withinDepth job.depth scene.depthLimit = true ∧
    ∃ root ∈ roots, Below scene.files root job.depth job.path

theorem withinDepth_iff {depth limit : Nat} :
    withinDepth depth limit = true ↔ limit = 0 ∨ depth ≤ limit := by
  simp [withinDepth]

theorem Job.Due.target {job : Job} (due : job.Due scene roots)
    (marked : scene.files.Lists job.path sentinel) : Target scene roots job.path := by
  obtain ⟨within, root, listed, below⟩ := due
  exact ⟨root, listed, job.depth, withinDepth_iff.mp within, below, marked⟩

theorem Job.Due.child {job : Job} {entry : Entry} (due : job.Due scene roots)
    (lists : scene.files.Lists job.path entry)
    (meets : EntryClass.ofEntry entry.1.display entry.2 = .descend)
    (within : withinDepth (job.depth + 1) scene.depthLimit = true) :
    (job.child (job.path.child entry.1)).Due scene roots := by
  obtain ⟨_, root, listed, below⟩ := due
  obtain ⟨name, kind⟩ := entry
  obtain rfl := EntryClass.of_descend meets
  exact ⟨within, root, listed, below.child lists meets⟩

-- The entries that a worker has not come to yet are entries of its directory; what it pushes is
-- due, and what it reports is as it should be.
def Phase.Sound (scene : Scene) (roots : List Path) : Phase → Prop
  | .reading job rest => ∀ entry ∈ rest, scene.files.Lists job.path entry
  | .meeting job met rest => ∀ entry ∈ met :: rest, scene.files.Lists job.path entry
  | .offering job child rest =>
    child.Due scene roots ∧ ∀ entry ∈ rest, scene.files.Lists job.path entry
  | .counting job child rest =>
    child.Due scene roots ∧ ∀ entry ∈ rest, scene.files.Lists job.path entry
  | .sending job child rest =>
    child.Due scene roots ∧ ∀ entry ∈ rest, scene.files.Lists job.path entry
  | .retracting job rest => ∀ entry ∈ rest, scene.files.Lists job.path entry
  | .claiming job rest =>
    scene.files.Lists job.path sentinel ∧ ∀ entry ∈ rest, scene.files.Lists job.path entry
  | .asking job rest =>
    scene.files.Lists job.path sentinel ∧ ∀ entry ∈ rest, scene.files.Lists job.path entry
  | .stamping job url rest =>
    (scene.files.Lists job.path sentinel ∧ url = (scene.remote job.path).url) ∧
      ∀ entry ∈ rest, scene.files.Lists job.path entry
  | .delivering job found rest =>
    (scene.files.Lists job.path sentinel ∧ found = repositoryAt scene job.path ∧
      found.modified.IsMoment) ∧ ∀ entry ∈ rest, scene.files.Lists job.path entry
  | .storing job found rest =>
    (scene.files.Lists job.path sentinel ∧ found = repositoryAt scene job.path ∧
      found.modified.IsMoment) ∧ ∀ entry ∈ rest, scene.files.Lists job.path entry
  | _ => True

structure Sound (scene : Scene) (roots : List Path) (start : State) (events : List Event)
    (state : State) : Prop where
  due : ∀ job ∈ accepted start events, job.Due scene roots
  phases : ∀ phase ∈ state.workers, phase.Sound scene roots
  found : ∀ repository ∈ state.found,
    Target scene roots repository.path ∧ repository = repositoryAt scene repository.path
  dated : ∀ repository ∈ state.found, repository.modified.IsMoment

theorem isListing_mem {entries actual : List Entry} (listing : isListing entries actual = true)
    {entry : Entry} : entry ∈ entries ↔ entry ∈ actual := by
  rcases Bool.or_eq_true_iff.mp listing with same | perm
  · rw [eq_of_beq same]
  · exact (List.isPerm_iff.mp perm).mem_iff

theorem Turn.sound {phase after : Phase} (turn : Turn scene state phase next after)
    (due : ∀ job, phase.held? = some job → job.Due scene roots)
    (sound : phase.Sound scene roots) : after.Sound scene roots := by
  cases turn with
  | read within listed listing =>
    intro entry present
    exact (lists_of_readDirectory listed).mpr ((isListing_mem listing).mp present)
  | @meetSentinel job entry rest meets =>
    obtain ⟨kind, name⟩ := EntryClass.of_sentinel meets
    have same : entry = sentinel := Prod.ext name kind
    constructor
    · rw [← same]
      exact sound _ (List.mem_cons_self ..)
    · intro entry present
      exact sound entry (List.mem_cons_of_mem _ present)
  | meetBelow meets within =>
    constructor
    · exact (due _ rfl).child (sound _ (List.mem_cons_self ..)) meets within
    · intro entry present
      exact sound entry (List.mem_cons_of_mem _ present)
  | learn answered => exact ⟨⟨sound.1, by simp [answered, Answer.url]⟩, sound.2⟩
  | learnNothing answered => exact ⟨⟨sound.1, by simp [answered, Answer.url]⟩, sound.2⟩
  | stamp dated => exact ⟨⟨sound.1.1, by rw [repositoryAt, sound.1.2], dated⟩, sound.2⟩
  | come | offer | count | claim | keep | drop => exact sound
  | meetTooDeep | passBy =>
    intro entry present
    exact sound entry (List.mem_cons_of_mem _ present)
  | refuseClosed | send | refuseFull | known | store => exact sound.2
  | retract => exact sound
  | _ => trivial

theorem Turn.sound_outcome {phase after : Phase} (turn : Turn scene state phase next after)
    (due : ∀ job, phase.held? = some job → job.Due scene roots)
    (sound : phase.Sound scene roots) :
    (∀ job, phase.event? state.queue = some (.accepted job) → job.Due scene roots) ∧
      ∀ repository ∈ next.found, repository ∈ state.found ∨
        (Target scene roots repository.path ∧ repository = repositoryAt scene repository.path) ∧
          repository.modified.IsMoment := by
  cases turn with
  | send room =>
    refine ⟨?_, fun repository present => .inl present⟩
    intro job accepted
    simp only [Phase.event?, room, if_true, Option.some.injEq, Event.accepted.injEq] at accepted
    rw [← accepted]
    exact sound.1
  | store =>
    constructor
    · intro job accepted
      cases accepted
    · intro repository present
      rcases List.mem_append.mp present with old | new
      · exact .inl old
      · obtain rfl := List.mem_singleton.mp new
        obtain ⟨⟨marked, same, dated⟩, _⟩ := sound
        have path : repository.path = _ := congrArg Repository.path same
        rw [path]
        exact .inr ⟨⟨(due _ rfl).target marked, same⟩, dated⟩
  | refuseClosed closed =>
    exact ⟨(by simp [Phase.event?, closed]), fun repository present => .inl present⟩
  | offer isOpen =>
    exact ⟨(by simp [Phase.event?, isOpen]), fun repository present => .inl present⟩
  | refuseFull full =>
    exact ⟨(by simp [Phase.event?, full]), fun repository present => .inl present⟩
  | _ =>
    refine ⟨?_, fun repository present => .inl present⟩
    intro job accepted
    cases accepted

theorem Balanced.mem_accepted (books : Balanced start events state) {phase : Phase}
    (stands : phase ∈ state.workers) {job : Job} (held : phase.held? = some job) :
    job ∈ accepted start events := by
  have some : 0 < state.holdersOf job :=
    List.countP_pos_iff.mpr ⟨phase, stands, by simp [Phase.holds, held]⟩
  have ledger := books.ledger job
  exact List.count_pos_iff.mp (by omega)

theorem Step.sound {event : Option Event} (books : Balanced start events state)
    (sound : Sound scene roots start events state) (step : Step scene state event next) :
    Sound scene roots start (events ++ event.toList) next := by
  cases step with
  | look look => cases look <;> simpa using { sound with }
  | outside => simpa using { sound with }
  | @work worker phase after next stands turn =>
    have stands' := List.mem_of_getElem? stands
    have due (job : Job) (held : phase.held? = some job) : job.Due scene roots :=
      sound.due job (books.mem_accepted stands' held)
    have outcome := turn.sound_outcome due (sound.phases phase stands')
    refine ⟨?_, ?_, ?_, ?_⟩
    · intro job present
      simp only [accepted, List.filterMap_append, ← List.append_assoc] at present
      rcases List.mem_append.mp present with old | new
      · exact sound.due job old
      · obtain ⟨event, happened, is⟩ := List.mem_filterMap.mp new
        cases event <;> simp [Event.accepted?] at is
        exact is ▸ outcome.1 _ (Option.mem_toList.mp happened)
    · intro other standing
      rcases List.mem_or_eq_of_mem_set standing with old | rfl
      · rw [turn.workers] at old
        exact sound.phases other old
      · exact turn.sound due (sound.phases phase stands')
    · intro repository present
      rcases outcome.2 repository present with old | new
      · exact sound.found repository old
      · exact new.1
    · intro repository present
      rcases outcome.2 repository present with old | new
      · exact sound.dated repository old
      · exact new.2

theorem sound_start {workers capacity : Nat} (fresh : Fresh workers capacity roots start) :
    Sound scene roots start [] start where
  due job present := by
    obtain ⟨root, listed, rfl⟩ := fresh.ofRoots job (by simpa [accepted] using present)
    exact ⟨by simp [withinDepth, Job.ofRoot], root, listed, .root⟩
  phases phase stands := by
    rw [fresh.crew] at stands
    rw [List.eq_of_mem_replicate stands]
    trivial
  found repository present := by simp [fresh.unfound] at present
  dated repository present := by simp [fresh.unfound] at present

theorem Run.sound {workers capacity : Nat} (fresh : Fresh workers capacity roots start)
    (run : Run scene start events state) : Sound scene roots start events state := by
  induction run with
  | start => exact sound_start fresh
  | step action before executed ih =>
    exact (execute_step executed).sound (before.balanced fresh) ih

end Scan

end RepoFinder
