import RepoFinder.Git.Answer
import RepoFinder.Proofs.Scan.Delivery
import RepoFinder.Proofs.Scan.Unasked

namespace RepoFinder

namespace Git

variable {config : Config} {name : Line} {fs : FileSystem} {home : Option Path} {folder : Path}

def originName : Line := "origin".toList

-- A configuration describes a remote: the name can be one, an address for fetches or for pushes is
-- mentioned, and nothing that is said about the remote besides is malformed.
structure Config.Describes (config : Config) (name : Line) : Prop where
  named : isRemoteName name = true
  mentioned : (config.find? (remoteKey name "url")).isSome = true ∨
    (config.find? (remoteKey name "pushurl")).isSome = true
  fetches : ∀ value ∈ config.valuesOf (remoteKey name "fetch"),
    ∃ text, value = some text ∧ isRefspec true text = true
  pushes : ∀ value ∈ config.valuesOf (remoteKey name "push"),
    ∃ text, value = some text ∧ isRefspec false text = true
  prunes : ∀ value, (config.find? (remoteKey name "prune")).or
    (config.find? "fetch.prune".toList) = some value → (truth? value).isSome = true

def Config.LacksAddress (config : Config) (name : Line) : Prop :=
  ∀ text, config.find? (remoteKey name "url") = some (some text) → text = []

-- The remote whose address is the one of the repository: `origin`, or else the first by name.
inductive Config.Counts (config : Config) : Line → Prop
  | origin : config.Describes originName → config.Counts originName
  | first {name : Line} {text : String} : ¬ config.Describes originName →
      firstRemote? config = some (name, text) → config.Counts name

theorem remote?_eq (config : Config) (name : Line) :
    (config.Describes name ∧ remote? config name =
      match config.find? (remoteKey name "url") with
      | some (some (c :: rest)) => some (some (redirect config (c :: rest)))
      | _ => some none) ∨
    (¬ config.Describes name ∧ remote? config name = none) := by
  by_cases described : config.Describes name
  · refine .inl ⟨described, ?_⟩
    obtain ⟨named, mentioned, fetches, pushes, prunes⟩ := described
    unfold remote?
    dsimp only
    refine (if_pos ?_).trans rfl
    simp only [Bool.and_eq_true, Bool.or_eq_true, List.all_eq_true]
    refine ⟨⟨⟨⟨named, mentioned⟩, ?_⟩, ?_⟩, ?_⟩
    · intro value present
      obtain ⟨text, rfl, written⟩ := fetches value present
      exact written
    · intro value present
      obtain ⟨text, rfl, written⟩ := pushes value present
      exact written
    · cases given : (config.find? (remoteKey name "prune")).or (config.find? "fetch.prune".toList) with
      | none => rfl
      | some value => exact prunes value given
  · refine .inr ⟨described, ?_⟩
    unfold remote?
    dsimp only
    rw [if_neg]
    intro reads
    apply described
    simp only [Bool.and_eq_true, Bool.or_eq_true, List.all_eq_true] at reads
    obtain ⟨⟨⟨⟨named, mentioned⟩, fetches⟩, pushes⟩, prunes⟩ := reads
    refine ⟨named, mentioned, ?_, ?_, ?_⟩
    · intro value present
      have written := fetches value present
      cases value with
      | none => cases written
      | some text => exact ⟨text, rfl, written⟩
    · intro value present
      have written := pushes value present
      cases value with
      | none => cases written
      | some text => exact ⟨text, rfl, written⟩
    · intro value given
      rw [given] at prunes
      exact prunes

theorem remote?_eq_none : remote? config name = none ↔ ¬ config.Describes name := by
  rcases remote?_eq config name with ⟨described, read⟩ | ⟨undescribed, read⟩
  · rw [read]
    refine iff_of_false ?_ (not_not.mpr described)
    split <;> simp
  · exact iff_of_true read undescribed

theorem remote?_eq_some_none :
    remote? config name = some none ↔ config.Describes name ∧ config.LacksAddress name := by
  rcases remote?_eq config name with ⟨described, read⟩ | ⟨undescribed, read⟩
  · rw [read, Config.LacksAddress]
    split
    · rename_i first rest given
      simp [given]
    · rename_i unaddressed
      refine iff_of_true rfl ⟨described, ?_⟩
      intro text given
      cases text with
      | nil => rfl
      | cons first rest => exact absurd given (unaddressed first rest)
  · rw [read]
    exact iff_of_false (by simp) fun both => undescribed both.1

def Addressless (home : Option Path) (fs : FileSystem) (folder : Path) : Prop :=
  ∃ config name, open? fs home folder = some config ∧ config.Counts name ∧
    config.Describes name ∧ config.LacksAddress name

theorem addressText_eq_error {url : Option Line} {problem : Problem} :
    addressText url = .error problem ↔ url = none ∧ problem = .noAddress := by
  cases url <;> simp [addressText, eq_comm]

theorem remoteUrl_eq_noAddress :
    remoteUrl fs home folder = .error .noAddress ↔ Addressless home fs folder := by
  unfold remoteUrl Addressless
  cases opened : open? fs home folder with
  | none => simp
  | some config =>
    have named : "origin".toList = originName := rfl
    dsimp only
    rw [named]
    simp only [Option.some.injEq, exists_and_left, exists_eq_left']
    cases origin : remote? config originName with
    | some url =>
      have described : config.Describes originName := by
        by_contra undescribed
        exact absurd (remote?_eq_none.mpr undescribed) (by simp [origin])
      have only (name : Line) : config.Counts name ↔ name = originName := by
        constructor
        · rintro (_ | ⟨undescribed, _⟩)
          · rfl
          · exact absurd described undescribed
        · rintro rfl
          exact .origin described
      simp [addressText_eq_error, only, ← remote?_eq_some_none, origin]
    | none =>
      have undescribed : ¬ config.Describes originName := remote?_eq_none.mp origin
      have only (name : Line) :
          config.Counts name ↔ ∃ text, firstRemote? config = some (name, text) := by
        constructor
        · rintro (described | ⟨_, first⟩)
          · exact absurd described undescribed
          · exact ⟨_, first⟩
        · rintro ⟨text, first⟩
          exact .first undescribed first
      simp only [only, ← remote?_eq_some_none]
      cases first : firstRemote? config with
      | none => simp
      | some found =>
        obtain ⟨name, text⟩ := found
        simp only [Option.some.injEq, Prod.mk.injEq]
        cases read : remote? config name with
        | none => simp [read]
        | some url => simp [addressText_eq_error, read]

theorem answer_eq_crash : answer home fs folder = .crash ↔ Addressless home fs folder := by
  rw [← remoteUrl_eq_noAddress, answer]
  split <;> simp_all

end Git

namespace Scan

variable {scene : Scene} {roots : List Path} {workers crew capacity room : Nat}
  {state state' : State} {events events' : List Event} {reason : StopReason} {home : Option Path}

theorem Exhaustive.keys_unasked (full : Exhaustive scene roots workers capacity events state)
    (other : Exhaustive scene.unasked roots crew room events' state') (key : Path.Key) :
    (∃ repository ∈ (state'.outcome .idle).repositories, repository.path.key = key) ↔
      ∃ repository ∈ (state.outcome .idle).repositories, repository.path.key = key := by
  have reported (last : State) (repository : Repository) :
      repository ∈ (last.outcome .idle).repositories ↔ repository ∈ last.found := by
    simp [State.outcome]
  simp only [reported]
  constructor
  · rintro ⟨repository, found, rfl⟩
    obtain ⟨target, _⟩ := (other.run.sound (initial_fresh ..)).found repository found
    exact full.found_of_target target
  · rintro ⟨repository, found, rfl⟩
    obtain ⟨target, _⟩ := (full.run.sound (initial_fresh ..)).found repository found
    exact other.found_of_target target

theorem Exhaustive.outcome_unasked (full : Exhaustive scene roots workers capacity events state)
    (other : Exhaustive scene.unasked roots crew room events' state')
    (apart : KeysApart scene roots) :
    state'.outcome .idle = ⟨(state.outcome .idle).repositories.map Repository.unaddressed,
      (state.outcome .idle).stats, .idle⟩ := by
  rw [← state.outcome_unaddressed]
  exact other.outcome_eq full.unasked apart

-- A repository without an address for its remote is the one kind of damage that a scan does not get
-- over: it ends without one of its workers exactly where it is to find such a repository, or one whose
-- time of modification has no place in the calendar. Any other scan goes step by step like one that
-- asks nobody, and differs from it in nothing but the addresses; so one that was run to its end
-- reports the same as any such scan that asks nobody.
theorem damage_contained (asks : ∀ folder, scene.remote folder = Git.answer home scene.files folder)
    (run : Run scene (State.initial roots workers capacity) events state)
    (stopped : state.stopReason? = some reason) :
    (∀ folder, Git.answer home scene.files folder = .crash ↔
      Git.Addressless home scene.files folder) ∧
    (state.hasFallen = true → ∃ path, Target scene roots path ∧
      (Git.Addressless home scene.files path ∨ ¬(scene.files.modified path).IsMoment)) ∧
    (state.hasFallen = false →
      Run scene.unasked (State.initial roots workers capacity) events state.unaddressed ∧
      state.unaddressed.stopReason? = some reason ∧ state.unaddressed.hasFallen = false ∧
      state.unaddressed.outcome reason =
        ⟨(state.outcome reason).repositories.map Repository.unaddressed,
          (state.outcome reason).stats, reason⟩) ∧
    (Fits workers capacity →
      (State.initial roots workers capacity).queue.jobs = roots.map Job.ofRoot →
      (∀ job, Event.refused job ∉ events) → reason = .idle →
        (KeysApart scene roots →
          (∃ path, Target scene roots path ∧
            (Git.Addressless home scene.files path ∨ ¬(scene.files.modified path).IsMoment)) →
              state.hasFallen = true) ∧
        ((∀ path, Target scene roots path → ¬ Git.Addressless home scene.files path ∧
            (scene.files.modified path).IsMoment) →
          ∀ crew room events' state', Exhaustive scene.unasked roots crew room events' state' →
            (state'.outcome .idle).stats = (state.outcome .idle).stats ∧
            (∀ key, (∃ repository ∈ (state'.outcome .idle).repositories,
                repository.path.key = key) ↔
              ∃ repository ∈ (state.outcome .idle).repositories, repository.path.key = key) ∧
            (KeysApart scene roots → (state'.outcome .idle).repositories =
              (state.outcome .idle).repositories.map Repository.unaddressed))) := by
  have recordable_iff (path : Path) : scene.Recordable path ↔
      ¬ Git.Addressless home scene.files path ∧ (scene.files.modified path).IsMoment := by
    rw [← Git.answer_eq_crash, ← asks]
    exact ⟨fun able => ⟨able.answered, able.dated⟩, fun able => ⟨able.1, able.2⟩⟩
  have falls (fallen : state.hasFallen = true) : ∃ path, Target scene roots path ∧
      (Git.Addressless home scene.files path ∨ ¬(scene.files.modified path).IsMoment) := by
    by_contra spared
    have recordable (path : Path) (target : Target scene roots path) : scene.Recordable path := by
      rw [recordable_iff]
      by_contra damaged
      exact spared ⟨path, target, by tauto⟩
    have down := run.stands (initial_fresh ..) recordable .fallen
      (by simpa [State.hasFallen] using fallen)
    cases down
  refine ⟨fun folder => Git.answer_eq_crash, falls, ?_, ?_⟩
  · intro up
    exact ⟨run.unasked (State.standing_of_stopped stopped up),
      state.stopReason?_unaddressed.trans stopped, state.hasFallen_unaddressed.trans up,
      state.outcome_unaddressed reason⟩
  · rintro fits rootsTaken unrefused rfl
    constructor
    · rintro apart ⟨path, target, damaged⟩
      by_contra up
      rw [Bool.not_eq_true] at up
      have full : Exhaustive scene roots workers capacity events state :=
        ⟨fits, run, rootsTaken, unrefused, stopped, up⟩
      obtain ⟨repository, found, same⟩ := full.found_of_target target
      obtain ⟨also, _⟩ := (run.sound (initial_fresh ..)).found repository found
      have able := run.recordable full.up repository found
      rw [apart repository.path path also target same, recordable_iff] at able
      tauto
    · intro spared crew room events' state' other
      have up : state.hasFallen = false := by
        by_contra fallen
        rw [Bool.not_eq_false] at fallen
        obtain ⟨path, target, damaged⟩ := falls fallen
        have able := spared path target
        tauto
      have full : Exhaustive scene roots workers capacity events state :=
        ⟨fits, run, rootsTaken, unrefused, stopped, up⟩
      refine ⟨?_, full.keys_unasked other, ?_⟩
      · rw [other.stats_eq full.unasked, state.outcome_unaddressed]
      · intro apart
        exact congrArg Outcome.repositories (full.outcome_unasked other apart)

def configuredFiles (configs : List (String × String)) : FileSystem :=
  let directory (entries : List (String × FileSystem.Node)) : FileSystem.Node :=
    .directory 0o755 .epoch (entries.map fun entry => (Text.Utf8.ofString entry.1, entry.2))
  let file (content : String) : FileSystem.Node := .file (Text.Utf8.ofString content) 0o644
  let repository (config : String) : FileSystem.Node :=
    directory [(".git", directory [("HEAD", file "ref: refs/heads/main\n"),
      ("objects", directory []), ("refs", directory []), ("config", file config)])]
  ⟨directory [("w", directory (configs.map fun config => (config.1, repository config.2)))], []⟩

def configuredScene (configs : List (String × String)) : Scene where
  files := configuredFiles configs
  remote := Git.answer none (configuredFiles configs)
  depthLimit := 0
  sink := .absent

def configuredCourse (crew : Nat) : Course := ⟨State.initial [Path.ofString "/w"] crew 8, none⟩

def malformedScene : Scene :=
  configuredScene [("a", "[remote \"origin\"]\n\turl = u\n"), ("b", "[remote")]

theorem malformedScene_facts :
    ((configuredCourse 1).runFor malformedScene .promptly 60).state.stopReason? = some .idle ∧
      ((configuredCourse 1).runFor malformedScene .promptly 60).state.hasFallen = false ∧
      ((configuredCourse 1).eventsFor malformedScene .promptly 60).any Event.isRefused = false ∧
      ((configuredCourse 1).runFor malformedScene .promptly 60).state.found.map
        (fun repository => (repository.path, repository.remoteUrl)) =
          [(Path.ofString "/w/a", "u"), (Path.ofString "/w/b", "")] := by
  decide +kernel

theorem malformedScene_whole : Exhaustive malformedScene [Path.ofString "/w"] 1 8
    ((configuredCourse 1).eventsFor malformedScene .promptly 60)
    ((configuredCourse 1).runFor malformedScene .promptly 60).state := by
  obtain ⟨idle, up, unrefused, _⟩ := malformedScene_facts
  exact .ofCourse (by decide) rfl .start unrefused idle up

theorem malformedScene_apart : KeysApart malformedScene [Path.ofString "/w"] :=
  malformedScene_whole.keysApart (by decide +kernel)

theorem damage_contained_malformed :
    let state := ((configuredCourse 1).runFor malformedScene .promptly 60).state
    let crew := ((configuredCourse 3).runFor malformedScene.unasked .promptly 90).state
    state.found.map (fun repository => (repository.path, repository.remoteUrl)) =
        [(Path.ofString "/w/a", "u"), (Path.ofString "/w/b", "")] ∧
      state.unaddressed.outcome .idle =
        ⟨(state.outcome .idle).repositories.map Repository.unaddressed,
          (state.outcome .idle).stats, .idle⟩ ∧
      (crew.outcome .idle).stats = (state.outcome .idle).stats ∧
      (crew.outcome .idle).repositories =
        (state.outcome .idle).repositories.map Repository.unaddressed := by
  intro state crew
  obtain ⟨idle, up, unrefused, found⟩ := malformedScene_facts
  have crewed : Exhaustive malformedScene.unasked [Path.ofString "/w"] 3 8
      ((configuredCourse 3).eventsFor malformedScene.unasked .promptly 90) crew :=
    .ofCourse (by decide) rfl .start (by decide +kernel) (by decide +kernel) (by decide +kernel)
  obtain ⟨_, _, alike, whole⟩ :=
    damage_contained (fun _ => rfl) malformedScene_whole.run malformedScene_whole.idle
  obtain ⟨falls, agrees⟩ := whole malformedScene_whole.fits rfl malformedScene_whole.unrefused rfl
  have spared (path : Path) (target : Target malformedScene [Path.ofString "/w"] path) :
      ¬ Git.Addressless none malformedScene.files path ∧
        (malformedScene.files.modified path).IsMoment := by
    by_contra damaged
    have fallen := falls malformedScene_apart ⟨path, target, by tauto⟩
    exact absurd (up.symm.trans fallen) (by simp)
  obtain ⟨stats, _, repositories⟩ := agrees spared 3 8 _ _ crewed
  exact ⟨found, (alike up).2.2.2, stats, repositories malformedScene_apart⟩

def pushingScene : Scene :=
  configuredScene [("a", "[remote \"origin\"]\n\turl = u\n"),
    ("b", "[remote \"origin\"]\n\tpushurl = p\n")]

def oneWorker : Options := ⟨0, 1, ⟨10, 0⟩, 8⟩

def pushingCourse (scene : Scene) : Course :=
  (Course.start [Path.ofString "/w"] oneWorker false).run scene .promptly 1

theorem pushingScene_facts :
    ((pushingCourse pushingScene).state.stopReason? = some .idle ∧
      (pushingCourse pushingScene).state.hasFallen = true) ∧
    (pushingCourse pushingScene.unasked).state.stopReason? = some .idle ∧
      (pushingCourse pushingScene.unasked).state.hasFallen = false ∧
      ∀ name ∈ ["/w/a", "/w/b"], ∃ repository ∈ (pushingCourse pushingScene.unasked).state.found,
        repository.path = Path.ofString name := by
  decide +kernel

-- Asked for its address, this repository takes the whole scan down, while a scan that asks nobody
-- ends well and reports both.
theorem damage_spreads_from_pushing :
    Git.remoteUrl pushingScene.files none (Path.ofString "/w/b") = .error .noAddress ∧
      (scan pushingScene 0 [Path.ofString "/w"] oneWorker .promptly false).outcome =
        .error .workerFell ∧
      ∃ outcome, (scan pushingScene.unasked 0 [Path.ofString "/w"] oneWorker .promptly
          false).outcome = .ok outcome ∧ outcome.stop = .idle ∧
        ∀ name ∈ ["/w/a", "/w/b"], ∃ repository ∈ outcome.repositories,
          repository.path = Path.ofString name := by
  obtain ⟨⟨ended, fallen⟩, idle, up, found⟩ := pushingScene_facts
  have inTime : clockReaches 0 oneWorker.timeout = true := rfl
  have last : (pushingCourse pushingScene).ending? = some (.error .workerFell) := by
    simp [Course.ending?, ended, fallen]
  have unasked : scan pushingScene.unasked 0 [Path.ofString "/w"] oneWorker .promptly false =
      ⟨.ok ((pushingCourse pushingScene.unasked).state.outcome .idle),
        (pushingCourse pushingScene.unasked).state.kept⟩ := scan_eq inTime idle up
  refine ⟨by decide +kernel, ?_, _, congrArg Result.outcome unasked, rfl, ?_⟩
  · have asked : scan pushingScene 0 [Path.ofString "/w"] oneWorker .promptly false =
        ⟨(pushingCourse pushingScene).ending?.getD (.error .workerFell),
          (pushingCourse pushingScene).state.kept⟩ := if_pos inTime
    rw [asked, last]
    rfl
  · intro name named
    simpa [State.outcome] using found name named

end Scan

end RepoFinder
