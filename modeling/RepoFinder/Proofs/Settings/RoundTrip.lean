import RepoFinder.Proofs.FileSystem.Writing
import RepoFinder.Proofs.Text.Utf8
import RepoFinder.Proofs.Toml.Document
import RepoFinder.Settings.File

namespace RepoFinder

open Toml Time

variable {path : Path} {n : Nat}

theorem Path.ofText_of_text? {text : List Char} (read : path.text? = some text) :
    ofText text = path := by
  unfold ofText
  rw [Text.Utf8.encode_of_decode? read]

namespace SearchSettings

theorem pathsOf?_texts {paths : List Path} {texts : List (List Char)}
    (read : paths.mapM Path.text? = some texts) :
    pathsOf? (.array (texts.map .string)) = some paths := by
  change (texts.map Value.string).mapM pathOf? = some paths
  induction paths generalizing texts with
  | nil =>
    cases read
    rfl
  | cons path paths ih =>
    simp only [List.mapM_cons, Option.bind_eq_bind, Option.bind_eq_some_iff, Option.pure_def,
      Option.some.injEq] at read
    obtain ⟨text, first, more, others, rfl⟩ := read
    have here : pathOf? (.string text) = some path := by
      simp [pathOf?, Value.text?, Path.ofText_of_text? first]
    simp [here, ih others]

theorem numberOf?_eq_some {content : Content} :
    numberOf? n = some content ↔ (n : Int) ≤ Value.greatest ∧ content = .integer n := by
  unfold numberOf?
  split
  · rename_i fits
    simp [fits, eq_comm]
  · rename_i tooGreat
    simp [tooGreat]

theorem natural?_integer {bound : Nat} (below : n < bound) :
    (Value.integer n).natural? bound = some n := by
  simp [Value.natural?, below]

theorem lt_wordBound (fits : (n : Int) ≤ Value.greatest) : n < wordBound := by
  unfold Value.greatest at fits
  unfold wordBound UInt64.size
  omega

variable {search : SearchSettings} {fields : List (Key × Content)}

def numbers (search : SearchSettings) : List Nat :=
  [search.depthLimit, search.timeout.roundToSeconds, search.workers,
    search.snapshotLife.roundToSeconds]

def fieldsWith (search : SearchSettings) (snapshotFile : Option (List Char))
    (extraPaths : List (List Char)) : List (Key × Content) :=
  [("max_depth".toList, .integer search.depthLimit),
    ("timeout_secs".toList, .integer search.timeout.roundToSeconds),
    ("workers".toList, .integer search.workers),
    ("cache_ttl_secs".toList, .integer search.snapshotLife.roundToSeconds)] ++
    (snapshotFile.toList.map fun text => ("cache_file".toList, .text text)) ++
    [("extra_paths".toList, .texts extraPaths)]

theorem entries?_iff : search.entries? = some fields ↔
    (∀ n ∈ search.numbers, (n : Int) ≤ Value.greatest) ∧
      ∃ snapshotFile extraPaths, search.snapshotFile.mapM Path.text? = some snapshotFile ∧
        search.extraPaths.mapM Path.text? = some extraPaths ∧
        fields = search.fieldsWith snapshotFile extraPaths := by
  obtain ⟨depthLimit, timeout, workers, snapshotLife, snapshotFile, extraPaths⟩ := search
  simp only [entries?, Option.bind_eq_bind, Option.pure_def, Option.bind_eq_some_iff,
    numberOf?_eq_some, numbers, fieldsWith, List.forall_mem_cons]
  constructor
  · rintro ⟨_, ⟨one, rfl⟩, _, ⟨two, rfl⟩, _, ⟨three, rfl⟩, _, ⟨four, rfl⟩, wrote⟩
    refine ⟨⟨one, two, three, four, by simp⟩, ?_⟩
    cases snapshotFile with
    | none =>
      rw [Option.bind_some] at wrote
      obtain ⟨texts, read, same⟩ := Option.bind_eq_some_iff.mp wrote
      exact ⟨none, texts, rfl, read, (Option.some.inj same).symm⟩
    | some file =>
      obtain ⟨_, stored, wrote⟩ := Option.bind_eq_some_iff.mp wrote
      obtain ⟨text, found, rfl⟩ := Option.map_eq_some_iff.mp stored
      obtain ⟨texts, read, same⟩ := Option.bind_eq_some_iff.mp wrote
      exact ⟨some text, texts, by simp [found], read, (Option.some.inj same).symm⟩
  · rintro ⟨⟨one, two, three, four, _⟩, stored, texts, found, read, rfl⟩
    refine ⟨_, ⟨one, rfl⟩, _, ⟨two, rfl⟩, _, ⟨three, rfl⟩, _, ⟨four, rfl⟩, ?_⟩
    cases snapshotFile with
    | none =>
      cases found
      rw [Option.bind_some]
      exact Option.bind_eq_some_iff.mpr ⟨texts, read, rfl⟩
    | some file =>
      cases spelled : file.text? with
      | none => simp [spelled] at found
      | some text =>
        rw [Option.mapM_some, spelled] at found
        cases found
        refine Option.bind_eq_some_iff.mpr ⟨_, Option.map_eq_some_iff.mpr ⟨text, spelled, rfl⟩, ?_⟩
        exact Option.bind_eq_some_iff.mpr ⟨texts, read, rfl⟩

theorem writable_of_keys (keys : List Key) (same : fields.map (·.1) = keys)
    (bare : ∀ key ∈ keys, IsBare key) (distinct : keys.Nodup)
    (fits : ∀ field ∈ fields, field.2.Fits) : Writable fields := by
  subst same
  exact ⟨fun field present => bare field.1 (List.mem_map_of_mem present), fits, distinct⟩

theorem fieldsWith_writable (fits : ∀ n ∈ search.numbers, (n : Int) ≤ Value.greatest)
    (snapshotFile : Option (List Char)) (extraPaths : List (List Char)) :
    Writable (search.fieldsWith snapshotFile extraPaths) := by
  have each : ∀ field ∈ search.fieldsWith snapshotFile extraPaths, field.2.Fits := by
    simp only [numbers, List.forall_mem_cons] at fits
    obtain ⟨one, two, three, four, _⟩ := fits
    cases snapshotFile <;>
      simp [fieldsWith, Content.Fits, one, two, three, four]
  cases snapshotFile with
  | none =>
    exact writable_of_keys (fieldNames.eraseIdx 4) rfl (by decide) (by decide) each
  | some text =>
    exact writable_of_keys fieldNames rfl (by decide) (by decide) each

-- Times in whole seconds, which is what the format keeps of them.
structure IsWhole (search : SearchSettings) : Prop where
  timeout : search.timeout.nanos = 0
  snapshotLife : search.snapshotLife.nanos = 0

theorem ofSeconds_roundToSeconds {time : Duration} (whole : time.nanos = 0) :
    .ofSeconds time.roundToSeconds = time := by
  obtain ⟨seconds, nanos⟩ := time
  cases whole
  rfl

theorem fieldOr_some {α : Type} (usual : α) (read : Value → Option α) (value : Value) :
    fieldOr usual read (some value) = read value := rfl

theorem snapshotFile_read {file : Option Path} {snapshotFile : Option (List Char)}
    (found : file.mapM Path.text? = some snapshotFile) :
    fieldOr none (fun value => (pathOf? value).map some) (snapshotFile.map .string) =
      some file := by
  cases file with
  | none =>
    cases found
    rfl
  | some path =>
    cases text : path.text? with
    | none => simp [text] at found
    | some text =>
      simp only [Option.mapM_some, text] at found
      cases found
      simp [fieldOr, pathOf?, Value.text?, Path.ofText_of_text? text]

theorem ofToml?_fieldsWith (whole : search.IsWhole)
    (fits : ∀ n ∈ search.numbers, (n : Int) ≤ Value.greatest)
    {snapshotFile : Option (List Char)} {extraPaths : List (List Char)}
    (found : search.snapshotFile.mapM Path.text? = some snapshotFile)
    (read : search.extraPaths.mapM Path.text? = some extraPaths) :
    ofToml? (.table (valuesOf (search.fieldsWith snapshotFile extraPaths))) = some search := by
  have fields : fieldNames.map (Value.entry? (valuesOf (search.fieldsWith snapshotFile extraPaths))) =
      [some (.integer search.depthLimit), some (.integer search.timeout.roundToSeconds),
        some (.integer search.workers), some (.integer search.snapshotLife.roundToSeconds),
        snapshotFile.map .string, some (.array (extraPaths.map .string))] := by
    cases snapshotFile <;> rfl
  have number : ∀ n ∈ search.numbers, (Value.integer n).natural? wordBound = some n :=
    fun n present => natural?_integer (lt_wordBound (fits n present))
  simp only [numbers, List.forall_mem_cons] at number
  obtain ⟨one, two, three, four, _⟩ := number
  rw [ofToml?, fields, ofFields?]
  simp only [fieldOr_some, secondsOf?, one, two, three, four, snapshotFile_read found,
    pathsOf?_texts read, Option.map_some, Option.bind_eq_bind, Option.bind_some, Option.pure_def,
    ofSeconds_roundToSeconds whole.timeout, ofSeconds_roundToSeconds whole.snapshotLife]

end SearchSettings

namespace Settings

open FileSystem SearchSettings

variable {settings : Settings} {text : List Char} {fs saved : FileSystem} {file : Path}

def numbers (settings : Settings) : List Nat := settings.version :: settings.search.numbers

def paths (settings : Settings) : List Path :=
  settings.workspaces ++ settings.search.snapshotFile.toList ++ settings.search.extraPaths

theorem render?_iff : settings.render? = some text ↔
    (∀ n ∈ settings.numbers, (n : Int) ≤ Value.greatest) ∧
      ∃ workspaces snapshotFile extraPaths,
        settings.workspaces.mapM Path.text? = some workspaces ∧
        settings.search.snapshotFile.mapM Path.text? = some snapshotFile ∧
        settings.search.extraPaths.mapM Path.text? = some extraPaths ∧
        text = renderEntries [("version".toList, .integer settings.version),
            ("workspaces".toList, .texts workspaces)] ++
          '\n' :: renderHeader "discovery".toList ++
          renderEntries (settings.search.fieldsWith snapshotFile extraPaths) := by
  simp only [render?, Option.bind_eq_bind, Option.pure_def, Option.bind_eq_some_iff,
    numberOf?_eq_some, entries?_iff, numbers, List.forall_mem_cons, Option.some.injEq]
  constructor
  · rintro ⟨_, ⟨version, rfl⟩, workspaces, listed, _, ⟨others, snapshotFile, extraPaths, found, read,
      rfl⟩, rfl⟩
    refine ⟨⟨version, others⟩, workspaces, snapshotFile, extraPaths, listed, found, read, ?_⟩
    simp [renderEntries]
  · rintro ⟨⟨version, others⟩, workspaces, snapshotFile, extraPaths, listed, found, read, rfl⟩
    refine ⟨_, ⟨version, rfl⟩, workspaces, listed, _, ⟨others, snapshotFile, extraPaths, found, read,
      rfl⟩, ?_⟩
    simp [renderEntries]

structure IsWhole (settings : Settings) : Prop where
  version : settings.version < versionBound
  search : settings.search.IsWhole

theorem parse?_of_render? (whole : settings.IsWhole) (wrote : settings.render? = some text) :
    parse? text = some settings := by
  obtain ⟨fits, workspaces, snapshotFile, extraPaths, listed, found, read, rfl⟩ :=
    render?_iff.mp wrote
  obtain ⟨version, others⟩ := List.forall_mem_cons.mp fits
  have above : Writable [("version".toList, .integer settings.version),
      ("workspaces".toList, .texts workspaces)] := by
    apply writable_of_keys ["version".toList, "workspaces".toList] rfl (by decide)
      (by decide)
    simp [Content.Fits, version]
  have document := parse?_document above (fieldsWith_writable others snapshotFile extraPaths)
    (by decide : IsBare "discovery".toList) (by simp)
  have table := ofToml?_fieldsWith whole.search others found read
  unfold parse?
  rw [document, Option.bind_some]
  generalize valuesOf (settings.search.fieldsWith snapshotFile extraPaths) = fields at table
  let entries : List (Key × Value) := [("version".toList, .integer settings.version),
    ("workspaces".toList, .array (workspaces.map .string)), ("discovery".toList, .table fields)]
  change ofToml? entries = some settings
  have versioned : Value.entry? entries "version".toList = some (.integer settings.version) := rfl
  have placed : Value.entry? entries "workspaces".toList =
      some (.array (workspaces.map .string)) := rfl
  have searched : Value.entry? entries "discovery".toList = some (.table fields) := rfl
  have number : (Value.integer settings.version).natural? versionBound = some settings.version :=
    natural?_integer whole.version
  simp only [ofToml?, versioned, placed, searched, number, pathsOf?_texts listed, table,
    Option.bind_eq_bind, Option.bind_some, Option.pure_def]

structure IsPrintable (settings : Settings) : Prop where
  texts : ∀ path ∈ settings.paths, path.text?.isSome
  fits : ∀ n ∈ settings.numbers, (n : Int) ≤ Value.greatest

theorem exists_texts_iff {paths : List Path} :
    (∃ texts, paths.mapM Path.text? = some texts) ↔ ∀ path ∈ paths, path.text?.isSome := by
  induction paths with
  | nil => simp
  | cons path paths ih =>
    rw [List.forall_mem_cons, ← ih]
    cases here : path.text? with
    | none => simp [List.mapM_cons, here]
    | some text =>
      cases there : paths.mapM Path.text? <;> simp [List.mapM_cons, here, there]

theorem exists_text_iff {stored : Option Path} :
    (∃ text, stored.mapM Path.text? = some text) ↔ ∀ path ∈ stored.toList, path.text?.isSome := by
  cases stored with
  | none => simp
  | some path => cases text : path.text? <;> simp [text]

theorem render?_isSome_iff : settings.render?.isSome ↔ settings.IsPrintable := by
  have parts : settings.IsPrintable ↔ (∀ n ∈ settings.numbers, (n : Int) ≤ Value.greatest) ∧
      (∃ workspaces, settings.workspaces.mapM Path.text? = some workspaces) ∧
      (∃ snapshotFile, settings.search.snapshotFile.mapM Path.text? = some snapshotFile) ∧
      ∃ extraPaths, settings.search.extraPaths.mapM Path.text? = some extraPaths := by
    rw [exists_texts_iff, exists_text_iff, exists_texts_iff]
    constructor
    · rintro ⟨texts, fits⟩
      simp only [paths, List.forall_mem_append] at texts
      exact ⟨fits, texts.1.1, texts.1.2, texts.2⟩
    · rintro ⟨fits, listed, found, read⟩
      refine ⟨?_, fits⟩
      simp only [paths, List.forall_mem_append]
      exact ⟨⟨listed, found⟩, read⟩
  rw [Option.isSome_iff_exists, parts]
  simp only [render?_iff]
  constructor
  · rintro ⟨_, fits, workspaces, snapshotFile, extraPaths, listed, found, read, _⟩
    exact ⟨fits, ⟨workspaces, listed⟩, ⟨snapshotFile, found⟩, ⟨extraPaths, read⟩⟩
  · rintro ⟨fits, ⟨workspaces, listed⟩, ⟨snapshotFile, found⟩, ⟨extraPaths, read⟩⟩
    exact ⟨_, fits, workspaces, snapshotFile, extraPaths, listed, found, read, rfl⟩

theorem load_present (env : Environment) {content : List UInt8}
    (held : fs.contentOf file = .ok content) :
    load fs env (some file) = (fs, Settings.read fs file) := by
  have present : fs.isPresent file = true := by
    unfold contentOf at held
    unfold isPresent
    cases stands : fs.status file with
    | ok node => rfl
    | error failure => simp [stands] at held
  simp [load, present]

theorem read_of_content {content : List UInt8} (held : fs.contentOf file = .ok content)
    (decoded : Text.Utf8.decode? content = some text) (parsed : parse? text = some settings) :
    Settings.read fs file = .ok settings := by
  simp [Settings.read, held, decoded, parsed]

theorem save_ok (wrote : save fs file settings = (saved, .ok ())) :
    ∃ text, settings.render? = some text ∧
      fs.writeFile file (Text.Utf8.encode text) = .ok saved := by
  unfold save at wrote
  split at wrote
  · cases wrote
  · rename_i text rendered
    split at wrote <;> cases wrote
    exact ⟨text, rendered, ‹_›⟩

theorem save_unprintable_iff : (save fs file settings).2 = .error .unprintable ↔
    ¬settings.IsPrintable := by
  rw [← render?_isSome_iff]
  unfold save
  cases rendered : settings.render? with
  | none => simp
  | some text =>
    cases wrote : fs.writeFile file (Text.Utf8.encode text) <;> simp [wrote]

theorem not_isPrintable_iff : ¬settings.IsPrintable ↔
    (∃ path ∈ settings.paths, path.text? = none) ∨
      ∃ n ∈ settings.numbers, Value.greatest < n := by
  constructor
  · intro unprintable
    by_cases fits : ∀ n ∈ settings.numbers, (n : Int) ≤ Value.greatest
    · left
      have texts : ¬∀ path ∈ settings.paths, path.text?.isSome :=
        fun texts => unprintable ⟨texts, fits⟩
      simpa using texts
    · right
      simpa using fits
  · rintro (⟨path, present, none⟩ | ⟨n, present, tooGreat⟩) printable
    · simpa [none] using printable.texts path present
    · exact absurd (printable.fits n present) (Int.not_le.mpr tooGreat)

theorem save_unprintable (unprintable : (save fs file settings).2 = .error .unprintable) :
    (save fs file settings).1 = fs := by
  unfold save at unprintable ⊢
  split at unprintable
  · rfl
  · split at unprintable <;> cases unprintable

-- Settings that were saved are loaded as they were, and loading leaves the tree as it is. What
-- cannot be printed is told, and the tree is left as it was then.
theorem load_saved (whole : settings.IsWhole) (fs : FileSystem) (file : Path) :
    (∀ saved, save fs file settings = (saved, .ok ()) →
      ∀ env, load saved env (some file) = (saved, .ok settings)) ∧
    ((save fs file settings).2 = .error .unprintable ↔
      (∃ path ∈ settings.paths, path.text? = none) ∨
        ∃ n ∈ settings.numbers, Value.greatest < n) ∧
    ((save fs file settings).2 = .error .unprintable → (save fs file settings).1 = fs) := by
  refine ⟨?_, save_unprintable_iff.trans not_isPrintable_iff, save_unprintable⟩
  intro saved wrote env
  obtain ⟨text, rendered, written⟩ := save_ok wrote
  have held := contentOf_writeFile written
  have decoded := Text.Utf8.decode?_encode text
  rw [load_present env held, read_of_content held decoded (parse?_of_render? whole rendered)]

def oddSettings : Settings where
  version := 3
  workspaces := ["/a", "/a\"b", "it's \"\"", "/'''\"\"\"\x01\\", ""].map Path.ofString
  search := {
    depthLimit := 7
    timeout := .ofSeconds 0
    workers := 2
    snapshotLife := .ofSeconds 86400
    snapshotFile := some (Path.ofString "/\"\"\"\"\"\n\r''")
    extraPaths := [Path.ofString "\n'\\'"] }

theorem load_saved_odd :
    oddSettings.IsWhole ∧
      (save .empty (Path.ofString "/s") oddSettings).2 = .ok () ∧
      ∀ env, (load (save .empty (Path.ofString "/s") oddSettings).1 env
        (some (Path.ofString "/s"))).2 = .ok oddSettings := by
  have whole : oddSettings.IsWhole := ⟨by decide, by decide, by decide⟩
  have fine : (save .empty (Path.ofString "/s") oddSettings).2 = .ok () := by rfl
  have saved : save .empty (Path.ofString "/s") oddSettings =
      ((save .empty (Path.ofString "/s") oddSettings).1, .ok ()) := Prod.ext rfl fine
  obtain ⟨loads, _⟩ := load_saved whole .empty (Path.ofString "/s")
  exact ⟨whole, fine, fun env => congrArg Prod.snd (loads _ saved env)⟩

end Settings

end RepoFinder
