import RepoFinder.Proofs.Discovery.History
import RepoFinder.Proofs.FileSystem.Times
import RepoFinder.Proofs.Scan.Shifting
import RepoFinder.Proofs.Snapshot.Return

namespace RepoFinder.Discovery

structure Engine where
  settings : SearchSettings
  home : Option Path
  file : Path
  remote : FileSystem → Path → Scan.Answer

namespace Engine

def scene (engine : Engine) (sink : Scan.Sink) (files : FileSystem) : Scan.Scene :=
  ⟨files, engine.remote files, engine.settings.depthLimit, sink⟩

def scenes (engine : Engine) (sink : Scan.Sink) (trees : FileSystem → Prop) (scene : Scan.Scene) :
    Prop :=
  ∃ files, trees files ∧ scene = engine.scene sink files

def options (engine : Engine) : Scan.Options := engine.settings.scanOptions

theorem scenes_mono {engine : Engine} {sink : Scan.Sink} {trees more : FileSystem → Prop}
    (within : ∀ files, trees files → more files) :
    ∀ scene, engine.scenes sink trees scene → engine.scenes sink more scene := by
  rintro scene ⟨files, among, same⟩
  exact ⟨files, within files among, same⟩

end Engine

-- A host of an engine. Its scans are scans on the tree that they are given, in any interleaving;
-- a scan in the background may meet another tree each time that it goes on.
structure Host.Serves (host : Host) (engine : Engine) : Prop where
  settings : host.settings = engine.settings
  home : host.home = engine.home
  file : host.file = engine.file
  scans : ∀ {files : FileSystem} {roots : List Path} {sink : Scan.Sink} {outcome : Scan.Outcome},
    (host.scan files roots sink).outcome = .ok outcome → ∃ cancelled,
      Scan.Came (engine.scenes sink (· = files)) roots engine.options cancelled outcome
  launches : ∀ {roots : List Path} {course : Scan.Course}, host.launch roots = .ok course →
    Scan.Going (engine.scenes .absent fun _ => False) roots engine.options course.state ∧
      course.state.cancelled = false
  proceeds : ∀ {trees : FileSystem → Prop} {files : FileSystem} {roots : List Path}
    {course : Scan.Course} (count : Nat), trees files →
      Scan.Going (engine.scenes .absent trees) roots engine.options course.state →
      course.state.cancelled = false →
        Scan.Going (engine.scenes .absent trees) roots engine.options
          (host.proceed files count course).state ∧
        (host.proceed files count course).state.cancelled = false

theorem ends_of_came {engine : Engine} {files : FileSystem} {roots : List Path} {sink : Scan.Sink}
    {trees : FileSystem → Prop} {cancelled : Bool} {outcome : Scan.Outcome}
    (constant : ∀ other, trees other → other = files)
    (came : Scan.Came (engine.scenes sink trees) roots engine.options cancelled outcome) :
    Scan.Ends (engine.scene sink files) roots engine.options cancelled outcome := by
  apply Scan.Came.ends
  apply came.mono
  rintro scene ⟨other, among, rfl⟩
  rw [constant other among]

theorem Host.ofSettings_serves {env : Environment} {settings : SearchSettings}
    {remote : FileSystem → Path → Scan.Answer} {answering background : Scan.Answering}
    {cancelled : Bool} (never : background ≠ .firstCancels) :
    (Host.ofSettings env settings remote answering background cancelled).Serves
      ⟨settings, env.home, settings.snapshotPath env, remote⟩ where
  settings := rfl
  home := rfl
  file := rfl
  scans scanned := by
    obtain ⟨cancelled, ends, _⟩ := Scan.scan_ends scanned
    refine ⟨cancelled, ends.came.mono ?_⟩
    rintro scene rfl
    exact ⟨_, rfl, rfl⟩
  launches launched := by
    simp only [Host.ofSettings] at launched
    split at launched
    · obtain rfl := Except.ok.inj launched
      exact ⟨.start, rfl⟩
    · cases launched
  proceeds := by
    intro trees files roots course count among going uncancelled
    refine ⟨going.run ⟨files, among, rfl⟩ (Scan.Course.runFor_run background _ course), ?_⟩
    exact (Scan.Course.runFor_cancelled never _ course).trans uncancelled

variable {engine : Engine} {host : Host} {pool next : Pool} {trees : FileSystem → Prop}

def Refresh.Fair (engine : Engine) (trees : FileSystem → Prop) : Refresh → Prop
  | scanning roots course =>
    Scan.Going (engine.scenes .absent trees) roots engine.options course.state ∧
      course.state.cancelled = false
  | scanned roots outcome =>
    Scan.Came (engine.scenes .absent trees) roots engine.options false outcome
  | _ => True

theorem Refresh.Fair.mono {more : FileSystem → Prop} {refresh : Refresh}
    (fair : refresh.Fair engine trees) (within : ∀ files, trees files → more files) :
    refresh.Fair engine more := by
  have wider : ∀ scene, engine.scenes .absent trees scene → engine.scenes .absent more scene :=
    Engine.scenes_mono within
  cases refresh with
  | scanning roots course => exact ⟨fair.1.mono wider, fair.2⟩
  | scanned roots outcome => exact Scan.Came.mono wider fair
  | _ => trivial

theorem Refresh.Turn.fair {state next : State} {refresh after : Refresh} {event : Option Event}
    (serves : host.Serves engine) (among : trees state.files) (fair : refresh.Fair engine trees)
    (turn : Refresh.Turn host state refresh event next after) : after.Fair engine trees := by
  cases turn with
  | launch launched =>
    obtain ⟨going, uncancelled⟩ := serves.launches launched
    refine ⟨going.mono ?_, uncancelled⟩
    rintro scene ⟨files, never, _⟩
    exact never.elim
  | goOn => exact serves.proceeds _ among fair.1 fair.2
  | finish ended =>
    -- The scan ended in order, so no worker has fallen, and its outcome is that of its last state.
    obtain ⟨going, uncancelled⟩ := serves.proceeds _ among fair.1 fair.2
    obtain ⟨reason, stopped, outcome⟩ := Option.map_eq_some_iff.mp ended
    split at outcome
    · cases outcome
    · rename_i standing
      obtain rfl := Except.ok.inj outcome
      exact ⟨_, going, uncancelled, by simpa using standing, stopped, rfl⟩
  | _ => trivial

structure Passage.IsTimely (passage : Passage) : Prop where
  clock : passage.pool.state.now.IsShown
  tree : ∀ path, (passage.pool.state.files.modified path).IsMoment

def Passage.isTimely (passage : Passage) : Bool :=
  decide passage.pool.state.now.IsShown &&
    passage.pool.state.files.root.times.all fun time => decide time.IsMoment

theorem Passage.isTimely_sound {passage : Passage} (timely : passage.isTimely = true) :
    passage.IsTimely := by
  simp only [isTimely, Bool.and_eq_true, decide_eq_true_eq, List.all_eq_true] at timely
  refine ⟨timely.1, ?_⟩
  intro path
  rcases passage.pool.state.files.modified_mem path with start | among
  · rw [start]
    decide
  · exact timely.2 _ among

def Seen (passages : List Passage) (files : FileSystem) : Prop :=
  ∃ passage ∈ passages,
    (∃ index, passage.action = .refresh index) ∧ passage.pool.state.files = files

theorem Seen.append {earlier : List Passage} (later : List Passage) {files : FileSystem}
    (seen : Seen earlier files) : Seen (earlier ++ later) files := by
  obtain ⟨passage, present, refreshes⟩ := seen
  exact ⟨passage, List.mem_append_left _ present, refreshes⟩

theorem Step.fair {action : Action} {event : Option Event} (serves : host.Serves engine)
    (among : (∃ index, action = .refresh index) → trees pool.state.files)
    (fair : ∀ refresh ∈ pool.state.refreshes, refresh.Fair engine trees)
    (step : Step host pool action event next) :
    ∀ refresh ∈ next.state.refreshes, refresh.Fair engine trees := by
  cases step with
  | call stands turn =>
    cases turn with
    | spawn =>
      intro refresh present
      rcases List.mem_append.mp present with old | new
      · exact fair refresh old
      · rw [List.mem_singleton.mp new]
        trivial
    | _ => exact fair
  | refresh stands turn =>
    intro refresh present
    rcases List.mem_or_eq_of_mem_set present with old | rfl
    · rw [turn.frame.2.1] at old
      exact fair refresh old
    · exact turn.fair serves (among ⟨_, rfl⟩) (fair _ (List.mem_of_getElem? stands))
  | clear =>
    intro refresh present
    exact fair refresh (List.mem_of_mem_eraseIdx present)
  | _ => exact fair

theorem Run.fair {start : Pool} {passages : List Passage}
    (begun : ∀ refresh ∈ start.state.refreshes, refresh.Fair engine fun _ => False)
    (run : Run (·.Serves engine) start passages pool) :
    ∀ refresh ∈ pool.state.refreshes, refresh.Fair engine (Seen passages) := by
  induction run with
  | start =>
    intro refresh present
    exact (begun refresh present).mono fun _ never => never.elim
  | @step passages pool next host action before serves executed ih =>
    apply (execute_step executed).fair serves
    · intro refreshes
      exact ⟨⟨host, pool, action⟩, by simp, refreshes, rfl⟩
    · intro refresh present
      exact (ih refresh present).mono fun _ seen => seen.append _

end RepoFinder.Discovery
