import RepoFinder.Proofs.Discovery.Provenance
import RepoFinder.Proofs.FileSystem.Folders
import RepoFinder.Proofs.Scan.Schedules

namespace RepoFinder.Discovery

open FileSystem

def Reaches (files : FileSystem) (limit : Nat) (roots : List Path) (path : Path) : Prop :=
  ∃ root ∈ roots, ∃ depth, (limit = 0 ∨ depth ≤ limit) ∧
    Scan.Below files root depth path ∧ files.Lists path Scan.sentinel

def SameRepositories (files other : FileSystem) : Prop :=
  ∀ limit roots path, Reaches files limit roots path ↔ Reaches other limit roots path

theorem below_of_sameFolders {files other : FileSystem} (same : SameFolders files other)
    {root path : Path} {depth : Nat} (below : Scan.Below files root depth path) :
    Scan.Below other root depth path := by
  induction below with
  | root => exact .root
  | child _ lists descends ih => exact ih.child ((same _ _).mp lists) descends

theorem reaches_of_sameFolders {files other : FileSystem} (same : SameFolders files other)
    {limit : Nat} {roots : List Path} {path : Path} (reaches : Reaches files limit roots path) :
    Reaches other limit roots path := by
  obtain ⟨root, listed, depth, within, below, marked⟩ := reaches
  exact ⟨root, listed, depth, within, below_of_sameFolders same below, (same _ _).mp marked⟩

theorem sameRepositories_of_sameFolders {files other : FileSystem}
    (same : SameFolders files other) : SameRepositories files other := by
  intro limit roots path
  have back : SameFolders other files := fun path name => (same path name).symm
  exact ⟨reaches_of_sameFolders same, reaches_of_sameFolders back⟩

theorem SameRepositories.refl (files : FileSystem) : SameRepositories files files :=
  fun _ _ _ => Iff.rfl

theorem Reaches.congr_roots {files : FileSystem} {limit : Nat} {roots others : List Path}
    (same : ∀ root, root ∈ roots ↔ root ∈ others) (path : Path) :
    Reaches files limit roots path ↔ Reaches files limit others path := by
  simp only [Reaches, same]

structure Whole (engine : Engine) (host : Host) (files : FileSystem) (roots : List Path)
    (sink : Scan.Sink) (outcome : Scan.Outcome) : Prop where
  answered : (host.scan files roots sink).outcome = .ok outcome
  ended : ∃ workers capacity events state,
    Scan.Exhaustive (engine.scene sink files) roots workers capacity events state ∧
      outcome = state.outcome .idle
  apart : Scan.KeysApart (engine.scene sink files) roots

namespace Whole

variable {engine : Engine} {host : Host} {files : FileSystem} {roots : List Path}
  {sink : Scan.Sink} {outcome : Scan.Outcome}

theorem uncancelled (whole : Whole engine host files roots sink outcome) :
    outcome.stop ≠ .cancelled := by
  obtain ⟨_, _, _, state, _, rfl⟩ := whole.ended
  intro stop
  cases stop

theorem orderly (whole : Whole engine host files roots sink outcome) :
    Orderly outcome.repositories := by
  obtain ⟨_, _, _, state, full, rfl⟩ := whole.ended
  exact full.run.orderly .idle

theorem mem_repositories_iff (whole : Whole engine host files roots sink outcome)
    {repository : Repository} :
    repository ∈ outcome.repositories ↔ ∃ path, Reaches files engine.settings.depthLimit roots path ∧
      repository = Scan.repositoryAt (engine.scene sink files) path := by
  obtain ⟨_, _, _, state, full, rfl⟩ := whole.ended
  exact full.mem_repositories_iff whole.apart

theorem mem_paths_iff (whole : Whole engine host files roots sink outcome) {path : Path} :
    path ∈ outcome.repositories.map Repository.path ↔
      Reaches files engine.settings.depthLimit roots path := by
  simp only [List.mem_map, whole.mem_repositories_iff]
  constructor
  · rintro ⟨_, ⟨found, reaches, rfl⟩, rfl⟩
    exact reaches
  · intro reaches
    exact ⟨_, ⟨path, reaches, rfl⟩, rfl⟩

theorem modified (whole : Whole engine host files roots sink outcome) :
    ∀ repository ∈ outcome.repositories, repository.modified = files.modified repository.path := by
  intro repository present
  obtain ⟨path, _, rfl⟩ := whole.mem_repositories_iff.mp present
  rfl

end Whole

structure Visit where
  engine : Engine
  host : Host
  state : State
  demand : Demand
  paths : List Path

namespace Visit

def roots (visit : Visit) : List Path := rootsOf visit.host visit.state visit.paths

def limit (visit : Visit) : Nat := visit.engine.settings.depthLimit

def scans (visit : Visit) : Prop := Scans visit.host visit.state visit.paths visit.demand

def after (visit : Visit) : State := (answer visit.host visit.state visit.demand visit.paths).1

def reply (visit : Visit) : Reply := (answer visit.host visit.state visit.demand visit.paths).2

def save (visit : Visit) (outcome : Scan.Outcome) :
    FileSystem × Except Snapshot.Problem Unit :=
  Snapshot.save visit.state.files visit.host.file
    (Snapshot.take visit.state.now outcome.repositories visit.roots)

def saves (visit : Visit) : Prop :=
  visit.scans ∧ ∃ outcome,
    (scanFor visit.host visit.state visit.demand visit.paths).outcome = .ok outcome ∧
      (visit.save outcome).2 = .ok ()

-- A visit by an engine of the given file while the tree is as given: its scan, if it makes one,
-- leaves nothing out, and a snapshot that it is answered from is young. A save of it that fails
-- brings nothing to light.
structure Calm (visit : Visit) (tree : FileSystem) (file : Path) : Prop where
  serves : visit.host.Serves visit.engine
  file : visit.engine.file = file
  unchanged : SameRepositories tree visit.state.files
  whole : visit.scans → ∃ outcome,
    Whole visit.engine visit.host visit.state.files visit.roots (Call.sinkOf visit.demand) outcome ∧
      KeepsHidden visit.engine visit.state.files
        (Snapshot.take visit.state.now outcome.repositories visit.roots)
  young : ∀ snapshot, Matches visit.host visit.state.files visit.roots snapshot →
    (snapshot.age visit.state.now).lt visit.host.settings.snapshotLife = true
  clock : visit.state.now.IsShown
  times : ∀ path, (visit.state.files.modified path).IsMoment

structure Found (visit : Visit) (tree : FileSystem) (repositories : List Repository) : Prop where
  orderly : Orderly repositories
  paths : ∀ path, path ∈ repositories.map Repository.path ↔
    Reaches tree visit.limit visit.roots path

theorem Found.map {visit : Visit} {tree : FileSystem} {repositories : List Repository}
    (found : visit.Found tree repositories) {f : Repository → Repository}
    (same : ∀ repository, (f repository).path = repository.path) :
    visit.Found tree (repositories.map f) where
  orderly := found.orderly.map same
  paths path := by
    rw [List.map_map, ← found.paths path]
    have kept : Repository.path ∘ f = Repository.path := funext same
    rw [kept]

theorem Found.paths_ext {visit other : Visit} {tree : FileSystem}
    {repositories others : List Repository} (found : visit.Found tree repositories)
    (also : other.Found tree others) (limit : other.limit = visit.limit)
    (roots : ∀ root, root ∈ other.roots ↔ root ∈ visit.roots) :
    repositories.map Repository.path = others.map Repository.path := by
  apply found.orderly.paths_ext also.orderly
  intro path
  rw [found.paths, also.paths, limit, Reaches.congr_roots roots]

variable {visit : Visit} {tree : FileSystem} {file : Path}

theorem Calm.found (calm : visit.Calm tree file) {sink : Scan.Sink} {outcome : Scan.Outcome}
    (whole : Whole visit.engine visit.host visit.state.files visit.roots sink outcome) :
    visit.Found tree outcome.repositories where
  orderly := whole.orderly
  paths path := by
    rw [whole.mem_paths_iff, calm.unchanged]
    rfl

structure Came (visit : Visit) (tree : FileSystem) (outcome : Scan.Outcome) : Prop where
  found : visit.Found tree outcome.repositories
  times : ∀ repository ∈ outcome.repositories, repository.modified.IsMoment
  hidden : KeepsHidden visit.engine visit.state.files
    (Snapshot.take visit.state.now outcome.repositories visit.roots)
  saves : visit.saves ↔ (visit.save outcome).2 = .ok ()
  files : visit.after.files = (visit.save outcome).1
  replies : ∃ delivered,
    visit.reply = Call.conclude visit.after visit.demand visit.roots outcome delivered

theorem Calm.came (calm : visit.Calm tree file) (scans : visit.scans) :
    ∃ outcome, visit.Came tree outcome := by
  obtain ⟨outcome, whole, hidden⟩ := calm.whole scans
  have answered := answer_scanned scans whole.answered whole.uncancelled
  have after : visit.after =
      visit.state.countScan.persist visit.host outcome.repositories visit.roots :=
    congrArg Prod.fst answered
  refine ⟨outcome, calm.found whole, ?_, hidden, ?_, ?_, ?_⟩
  · intro repository present
    rw [whole.modified repository present]
    exact calm.times repository.path
  · constructor
    · rintro ⟨_, other, also, saved⟩
      obtain rfl := Except.ok.inj (also.symm.trans whole.answered)
      exact saved
    · intro saved
      exact ⟨scans, outcome, whole.answered, saved⟩
  · rw [after]
    rfl
  · rw [after]
    exact ⟨_, congrArg Prod.snd answered⟩

theorem Calm.fresh (calm : visit.Calm tree file) (demand : visit.demand = .fresh) :
    ∃ answer, visit.reply = .found answer ∧ visit.Found tree answer.repositories := by
  have scans : visit.scans := by
    unfold Visit.scans
    rw [demand]
    trivial
  obtain ⟨outcome, came⟩ := calm.came scans
  obtain ⟨delivered, replied⟩ := came.replies
  rw [demand] at replied
  exact ⟨_, replied, came.found.map fun _ => rfl⟩

end Visit

-- Visits to one file, one after the other. Between them, anything may happen that leaves the
-- content of the file alone.
inductive Shared (tree : FileSystem) (file : Path) (start : FileSystem) :
    List Visit → FileSystem → Prop where
  | start : Shared tree file start [] start
  | changed {visits : List Visit} {files next : FileSystem}
      (before : Shared tree file start visits files)
      (kept : next.contentOf file = files.contentOf file) : Shared tree file start visits next
  | visited {visits : List Visit} {visit : Visit}
      (before : Shared tree file start visits visit.state.files) (calm : visit.Calm tree file) :
      Shared tree file start (visits ++ [visit]) visit.after.files

def LastToSave (visits : List Visit) (writer : Visit) : Prop :=
  ∃ earlier later, visits = earlier ++ writer :: later ∧ writer.saves ∧
    ∀ visit ∈ later, ¬visit.saves

def Traced (tree : FileSystem) (file : Path) (visits : List Visit) (files : FileSystem) : Prop :=
  ∀ snapshot, Snapshot.load? files file = some snapshot → ∃ writer, LastToSave visits writer ∧
    snapshot.searchPaths = writer.roots ∧ writer.Found tree snapshot.repositories

variable {tree start files : FileSystem} {file : Path} {visits : List Visit} {visit writer : Visit}

theorem LastToSave.append (last : LastToSave visits writer) (unsaved : ¬visit.saves) :
    LastToSave (visits ++ [visit]) writer := by
  obtain ⟨earlier, later, rfl, saves, others⟩ := last
  refine ⟨earlier, later ++ [visit], by simp, saves, ?_⟩
  intro other present
  rcases List.mem_append.mp present with old | new
  · exact others other old
  · rwa [List.mem_singleton.mp new]

theorem Visit.Calm.served (calm : visit.Calm tree file) (unscanned : ¬visit.scans) :
    ∃ snapshot, Matches visit.host visit.state.files visit.roots snapshot ∧
      visit.after = visit.state ∧ visit.reply = Call.serve visit.state visit.roots snapshot
        (snapshot.age visit.state.now) visit.state.refreshing := by
  unfold Visit.scans at unscanned
  unfold Visit.after Visit.reply
  cases demand : visit.demand with
  | cached =>
    rw [demand] at unscanned
    obtain ⟨snapshot, matching⟩ := not_not.mp unscanned
    have answered := answer_young matching (calm.young snapshot matching)
    exact ⟨snapshot, matching, congrArg Prod.fst answered, congrArg Prod.snd answered⟩
  | fresh | streaming =>
    rw [demand] at unscanned
    exact absurd trivial unscanned

theorem Visit.Calm.keeps (calm : visit.Calm tree file) (inPlace : InPlace visit.state.files file) :
    SameRepositories tree visit.after.files := by
  obtain rfl := calm.file
  by_cases scans : visit.scans
  · obtain ⟨outcome, came⟩ := calm.came scans
    have same := save_sameFolders inPlace
      (Snapshot.take visit.state.now outcome.repositories visit.roots)
    intro limit roots path
    rw [calm.unchanged, came.files, Visit.save, calm.serves.file]
    exact sameRepositories_of_sameFolders same limit roots path
  · obtain ⟨_, _, after, _⟩ := calm.served scans
    rw [after]
    exact calm.unchanged

theorem Visit.Calm.load?_saved (calm : visit.Calm tree file) (saves : visit.saves)
    {snapshot : Snapshot} (loaded : Snapshot.load? visit.after.files file = some snapshot) :
    snapshot.searchPaths = visit.roots ∧ visit.Found tree snapshot.repositories := by
  obtain ⟨outcome, came⟩ := calm.came saves.1
  obtain ⟨bytes, read, _⟩ := Snapshot.load?_eq_some.mp loaded
  have whole : Snapshot.save visit.state.files file
      (Snapshot.take visit.state.now outcome.repositories visit.roots) =
        (visit.after.files, .ok ()) := by
    rw [came.files, ← came.saves.mp saves, ← calm.file, ← calm.serves.file]
    rfl
  have rendered := Snapshot.render?_of_contentOf whole read
  have held := load?_of_rendered calm.clock came.times rendered read
  obtain rfl := Option.some.inj (loaded.symm.trans held)
  exact ⟨rfl, came.found.map fun _ => rfl⟩

theorem Visit.Calm.load?_unsaved (calm : visit.Calm tree file) (unsaved : ¬visit.saves)
    {snapshot : Snapshot} (loaded : Snapshot.load? visit.after.files file = some snapshot) :
    Snapshot.load? visit.state.files file = some snapshot := by
  by_cases scans : visit.scans
  · obtain ⟨outcome, came⟩ := calm.came scans
    rw [came.saves] at unsaved
    obtain ⟨bytes, read, parsed⟩ := Snapshot.load?_eq_some.mp loaded
    rw [came.files] at read
    refine Snapshot.load?_eq_some.mpr ⟨bytes, ?_, parsed⟩
    unfold Visit.save at unsaved read
    rw [calm.serves.file] at unsaved read
    rw [← calm.file] at read ⊢
    rcases whole : Snapshot.save visit.state.files visit.engine.file
      (Snapshot.take visit.state.now outcome.repositories visit.roots) with ⟨left, result⟩
    rw [whole] at unsaved read
    cases result with
    | ok _ => exact absurd rfl unsaved
    | error problem =>
      apply came.hidden
      · rw [whole]
        rfl
      · rwa [← Snapshot.save_failed whole]
  · obtain ⟨_, _, after, _⟩ := calm.served scans
    rwa [after] at loaded

theorem Visit.Calm.traced (calm : visit.Calm tree file)
    (traced : Traced tree file visits visit.state.files) :
    Traced tree file (visits ++ [visit]) visit.after.files := by
  intro snapshot loaded
  by_cases saves : visit.saves
  · exact ⟨visit, ⟨visits, [], rfl, saves, by simp⟩, calm.load?_saved saves loaded⟩
  · obtain ⟨writer, last, found⟩ := traced snapshot (calm.load?_unsaved saves loaded)
    exact ⟨writer, last.append saves, found⟩

theorem Shared.traced (absent : Snapshot.load? start file = none)
    (shared : Shared tree file start visits files) : Traced tree file visits files := by
  induction shared with
  | start =>
    intro snapshot loaded
    cases absent.symm.trans loaded
  | changed _ kept ih =>
    intro snapshot loaded
    rw [load?_congr kept] at loaded
    exact ih snapshot loaded
  | visited _ calm ih => exact calm.traced ih

-- A search of an engine that shares its file with others is answered with exactly the repositories
-- that are within reach of one engine: its own if it scans itself, and else the last one that has
-- saved, which looked from roots of the same keys. It is that engine's depth that decides what is
-- answered, and any fresh search to the same depth from the same roots finds the same.
theorem found_as_deep_as_scanned (absent : Snapshot.load? start file = none)
    (shared : Shared tree file start visits visit.state.files) (calm : visit.Calm tree file)
    (asks : visit.demand = .cached) :
    ∃ answer origin, visit.reply = .found answer ∧
      (answer.cached = true ∧ LastToSave visits origin ∨
        answer.cached = false ∧ origin = visit) ∧
      Alike origin.roots visit.roots ∧
      (∀ path, path ∈ answer.repositories.map Repository.path ↔
        Reaches tree origin.limit origin.roots path) ∧
      ∀ other : Visit, other.Calm tree file → other.demand = .fresh →
        other.limit = origin.limit → (∀ root, root ∈ other.roots ↔ root ∈ origin.roots) →
          ∃ fresh, other.reply = .found fresh ∧
            answer.repositories.map Repository.path = fresh.repositories.map Repository.path := by
  suffices answered : ∃ answer origin, visit.reply = .found answer ∧
      (answer.cached = true ∧ LastToSave visits origin ∨
        answer.cached = false ∧ origin = visit) ∧
      Alike origin.roots visit.roots ∧ origin.Found tree answer.repositories by
    obtain ⟨answer, origin, replied, whose, alike, found⟩ := answered
    refine ⟨answer, origin, replied, whose, alike, found.paths, ?_⟩
    intro other also fresh limit roots
    obtain ⟨anew, replied, finds⟩ := also.fresh fresh
    exact ⟨anew, replied, found.paths_ext finds limit roots⟩
  by_cases scans : visit.scans
  · obtain ⟨outcome, came⟩ := calm.came scans
    obtain ⟨delivered, replied⟩ := came.replies
    rw [asks] at replied
    exact ⟨_, visit, replied, .inr ⟨rfl, rfl⟩, fun _ => Iff.rfl, came.found.map fun _ => rfl⟩
  · obtain ⟨snapshot, matching, _, replied⟩ := calm.served scans
    have loaded := matching.loaded
    rw [calm.serves.file, calm.file] at loaded
    obtain ⟨writer, last, roots, found⟩ := shared.traced absent snapshot loaded
    refine ⟨_, writer, replied, .inl ⟨rfl, last⟩, ?_, found.map fun _ => rfl⟩
    rw [← roots]
    exact matching.keys

def Engine.isWhole (engine : Engine) (uptime : Nat) (answering : Scan.Answering)
    (files : FileSystem) (roots : List Path) (sink : Scan.Sink) : Bool :=
  let scene := engine.scene sink files
  let options := engine.settings.scanOptions
  let start := Scan.State.initial roots options.workers options.capacity
  let course := Scan.Course.start roots options false
  let steps := Scan.Course.stepBound scene roots.length course.state.workers.length
  let events := course.eventsFor scene answering steps
  let ended := (course.runFor scene answering steps).state
  let taken := Scan.accepted start events
  Scan.clockReaches uptime options.timeout && decide (Scan.Fits options.workers options.capacity) &&
    decide (start.queue.jobs = roots.map Scan.Job.ofRoot) && !events.any Scan.Event.isRefused &&
    decide (ended.stopReason? = some .idle) && !ended.hasFallen &&
    taken.all fun job => taken.all fun other =>
      decide (job.path.key = other.path.key → job.path = other.path)

def Engine.lastOf (engine : Engine) (answering : Scan.Answering) (files : FileSystem)
    (roots : List Path) (sink : Scan.Sink) : Scan.State :=
  ((Scan.Course.start roots engine.options false).run (engine.scene sink files) answering
    roots.length).state

theorem Engine.isWhole_sound {engine : Engine} {uptime : Nat} {answering : Scan.Answering}
    {files : FileSystem} {roots : List Path} {sink : Scan.Sink}
    (checked : engine.isWhole uptime answering files roots sink = true) :
    Scan.clockReaches uptime engine.options.timeout = true ∧
      (∃ events, Scan.Exhaustive (engine.scene sink files) roots engine.options.workers
        engine.options.capacity events (engine.lastOf answering files roots sink)) ∧
      Scan.KeysApart (engine.scene sink files) roots := by
  simp only [isWhole, Bool.and_eq_true, Bool.not_eq_true', decide_eq_true_eq,
    List.all_eq_true] at checked
  obtain ⟨⟨⟨⟨⟨⟨inTime, fits⟩, rootsTaken⟩, unrefused⟩, idle⟩, standing⟩, distinct⟩ := checked
  have full := Scan.Exhaustive.ofCourse fits rootsTaken
    (Scan.Course.start_run roots engine.settings.scanOptions false) unrefused idle standing
  exact ⟨inTime, ⟨_, full⟩, full.keysApart distinct⟩

theorem Host.ofSettings_whole {env : Environment} {settings : SearchSettings}
    {remote : FileSystem → Path → Scan.Answer} {answering background : Scan.Answering}
    {files : FileSystem} {roots : List Path} {sink : Scan.Sink} {engine : Engine}
    (same : engine = ⟨settings, env.home, settings.snapshotPath env, remote⟩)
    (checked : engine.isWhole env.uptime answering files roots sink = true) :
    ∃ outcome, Whole engine (Host.ofSettings env settings remote answering background false) files
      roots sink outcome := by
  subst same
  obtain ⟨inTime, ⟨events, full⟩, apart⟩ := Engine.isWhole_sound checked
  exact ⟨_, Scan.scan_outcome inTime full.idle full.standing, ⟨_, _, _, _, full, rfl⟩, apart⟩

def sharedFiles : FileSystem :=
  let repository := Snapshot.folderNode [(".git", Snapshot.folderNode [])]
  let work := Snapshot.folderNode [("a", Snapshot.folderNode [("b", repository)])]
  ⟨Snapshot.folderNode [("w", work), ("W", Snapshot.folderNode []), ("d", Snapshot.folderNode [])],
    []⟩

def sharedFile : Path := Path.ofString "/d/s"

def deepRepository : Repository := .ofPath (Path.ofString "/w/a/b") "" .epoch

def sharingHost (limit : Nat) : Host :=
  Host.ofSettings ⟨none, none, none, 1, 0⟩ ⟨limit, ⟨20, 0⟩, 1, ⟨60, 0⟩, some sharedFile, []⟩
    (fun _ _ => .failure) .promptly .promptly false

def sharingEngine (limit : Nat) : Engine :=
  ⟨(sharingHost limit).settings, none, sharedFile, fun _ _ => .failure⟩

theorem sharingHost_whole {limit : Nat} {files : FileSystem} {roots : List Path} {sink : Scan.Sink}
    (checked : (sharingEngine limit).isWhole 0 .promptly files roots sink = true) :
    ∃ outcome, Whole (sharingEngine limit) (sharingHost limit) files roots sink outcome :=
  Host.ofSettings_whole rfl checked

def visitOf (limit : Nat) (demand : Demand) (files : FileSystem) (root : String) : Visit :=
  ⟨sharingEngine limit, sharingHost limit, .start files ⟨1700000000, 0⟩, demand,
    [Path.ofString root]⟩

def Visit.isCalm (visit : Visit) : Bool :=
  let files := visit.state.files
  let file := visit.engine.file
  visit.engine.isWhole 0 .promptly files visit.roots (Call.sinkOf visit.demand) &&
    decide (((Snapshot.withFolder files file).contentOf file).toOption =
      (files.contentOf file).toOption) &&
    (Snapshot.load? files file).all (fun snapshot =>
      (snapshot.age visit.state.now).lt visit.host.settings.snapshotLife) &&
    files.root.times.all fun time => decide (time = .epoch)

theorem visitOf_calm {limit : Nat} {demand : Demand} {files : FileSystem} {root : String}
    (unchanged : SameRepositories sharedFiles files)
    (checked : (visitOf limit demand files root).isCalm = true) :
    (visitOf limit demand files root).Calm sharedFiles sharedFile := by
  simp only [Visit.isCalm, Bool.and_eq_true, decide_eq_true_eq, List.all_eq_true] at checked
  obtain ⟨⟨⟨whole, hidden⟩, young⟩, times⟩ := checked
  refine ⟨Host.ofSettings_serves (by decide), rfl, unchanged, ?_, ?_, ?_, ?_⟩
  · intro _
    obtain ⟨outcome, whole⟩ := sharingHost_whole whole
    exact ⟨outcome, whole, fun _ _ => Snapshot.ok_of_toOption hidden⟩
  · intro snapshot matching
    have loaded : Snapshot.load? (visitOf limit demand files root).state.files
        (visitOf limit demand files root).engine.file = some snapshot := matching.loaded
    rw [loaded, Option.all_some] at young
    exact young
  · have clock : (⟨1700000000, 0⟩ : Time.Timestamp).IsMoment := by decide
    exact clock.shown
  · intro path
    have start : files.modified path = .epoch := by
      rcases files.modified_mem path with start | among
      · exact start
      · exact times _ among
    have moment : Time.Timestamp.IsMoment .epoch := by decide
    exact start ▸ moment

theorem firstVisit_calm : (visitOf 0 .cached sharedFiles "/w").Calm sharedFiles sharedFile :=
  visitOf_calm (.refl _) (by decide +kernel)

theorem sharedFiles_absent : Snapshot.load? sharedFiles sharedFile = none := by
  decide +kernel

@[irreducible]
def savedFiles : FileSystem := (visitOf 0 .cached sharedFiles "/w").after.files

theorem savedFiles_eq : (visitOf 0 .cached sharedFiles "/w").after.files = savedFiles := by
  unfold savedFiles
  rfl

theorem firstVisit_unchanged : SameRepositories sharedFiles savedFiles := by
  have named : sharedFiles.slot sharedFile = .ok ⟨[[0x64]], [0x73], false⟩ := by rfl
  have inPlace : InPlace sharedFiles sharedFile := by
    refine ⟨rfl, ?_⟩
    intro slot node also there
    obtain rfl := Except.ok.inj (named.symm.trans also)
    cases there
  rw [← savedFiles_eq]
  exact firstVisit_calm.keeps inPlace

theorem savedFiles_shared : Shared sharedFiles sharedFile sharedFiles
    [visitOf 0 .cached sharedFiles "/w"] savedFiles :=
  savedFiles_eq ▸ .visited .start firstVisit_calm

def Reply.answer? : Reply → Option Answer
  | .found answer => some answer
  | _ => none

theorem Reply.eq_found {reply : Reply} {answer : Answer} (found : reply.answer? = some answer) :
    reply = .found answer := by
  cases reply with
  | found _ => rw [Option.some.inj found]
  | _ => cases found

def deepAnswer (root : String) : Answer :=
  .ofSnapshot [deepRepository] [Path.ofString root] 0 false 0

theorem found_as_deep_as_scanned_shared :
    ∃ fresh, (visitOf 1 .cached savedFiles "/w").reply = .found (deepAnswer "/w") ∧
      (visitOf 0 .fresh savedFiles "/w").reply = .found fresh ∧
      fresh.repositories.map Repository.path = [Path.ofString "/w/a/b"] := by
  have replied : (visitOf 1 .cached savedFiles "/w").reply = .found (deepAnswer "/w") :=
    Reply.eq_found (by decide +kernel)
  have calm : (visitOf 1 .cached savedFiles "/w").Calm sharedFiles sharedFile :=
    visitOf_calm firstVisit_unchanged (by decide +kernel)
  have deep : (visitOf 0 .fresh savedFiles "/w").Calm sharedFiles sharedFile :=
    visitOf_calm firstVisit_unchanged (by decide +kernel)
  have roots : (visitOf 0 .fresh savedFiles "/w").roots =
      (visitOf 0 .cached sharedFiles "/w").roots := by
    decide +kernel
  obtain ⟨answer, origin, also, whose, _, _, same⟩ :=
    found_as_deep_as_scanned sharedFiles_absent savedFiles_shared calm rfl
  obtain rfl := Reply.found.inj (also.symm.trans replied)
  obtain ⟨_, earlier, later, visits, _⟩ | ⟨scanned, _⟩ := whose
  · obtain rfl : visitOf 0 .cached sharedFiles "/w" = origin := by
      cases earlier with
      | nil => exact (List.cons.inj visits).1
      | cons => simp at visits
    obtain ⟨fresh, anew, paths⟩ := same _ deep rfl rfl fun root => by rw [roots]
    exact ⟨fresh, replied, anew, paths.symm⟩
  · cases scanned

def isMisled (limit : Nat) (root : String) : Bool :=
  let asked := visitOf limit .cached savedFiles root
  let anew := visitOf limit .fresh savedFiles root
  asked.isCalm && anew.isCalm && decide (asked.reply.answer? = some (deepAnswer root)) &&
    decide (anew.reply.repositories? = some [])

-- What is answered from the file is not what a fresh search of the same engine would find: the
-- engine that looks one step deep gets a repository that lies deeper. And where two folders have
-- one key, a search for the empty one gets the repository of the other.
theorem deeper_than_asked :
    Snapshot.load? sharedFiles sharedFile = none ∧
      Shared sharedFiles sharedFile sharedFiles [visitOf 0 .cached sharedFiles "/w"] savedFiles ∧
      ∀ limit root, (limit, root) ∈ [(1, "/w"), (0, "/W")] →
        (visitOf limit .cached savedFiles root).Calm sharedFiles sharedFile ∧
        (visitOf limit .fresh savedFiles root).Calm sharedFiles sharedFile ∧
        (visitOf limit .cached savedFiles root).reply = .found (deepAnswer root) ∧
        ∃ fresh, (visitOf limit .fresh savedFiles root).reply = .found fresh ∧
          fresh.repositories = [] := by
  refine ⟨sharedFiles_absent, savedFiles_shared, ?_⟩
  intro limit root present
  have misled : ∀ request ∈ [(1, "/w"), (0, "/W")], isMisled request.1 request.2 = true := by
    decide +kernel
  have misled := misled _ present
  simp only [isMisled, Bool.and_eq_true, decide_eq_true_eq] at misled
  obtain ⟨⟨⟨calm, fresh⟩, answered⟩, nothing⟩ := misled
  exact ⟨visitOf_calm firstVisit_unchanged calm, visitOf_calm firstVisit_unchanged fresh,
    Reply.eq_found answered, Reply.found_of_repositories? nothing⟩

end RepoFinder.Discovery
