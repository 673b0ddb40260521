import RepoFinder.Proofs.FileSystem.Faces
import RepoFinder.Proofs.Snapshot.Aftermath
import RepoFinder.Proofs.Snapshot.Return

namespace RepoFinder.Snapshot

open FileSystem

variable {fs after : FileSystem} {file : Path} {snapshot : Snapshot} {place : Location}
  {result : Except Problem Unit} {now : Time.Timestamp} {repositories : List Repository}
  {searchPaths : List Path}

-- Outside of some places everything is as it was, and what is new are private folders to which
-- beginnings of the file's path led, in the tree with these folders.
structure Spared (touched : List Location) (file : Path) (fs made after : FileSystem) : Prop where
  current : after.current = fs.current
  kept : ∀ place, place ∉ touched → ∀ face, fs.faceAt? place = some face →
    after.faceAt? place = some face
  fresh : ∀ place, place ∉ touched → ∀ face, fs.faceAt? place = none →
    after.faceAt? place = some face → face = .directory folderPermissions ∧
      ∃ above ∈ ancestors (folderOf file), made.locate above = .ok place

theorem makeAlong_spared {folders : List Path} (among : folders ⊆ ancestors (folderOf file)) :
    let made := (fs.makeAlong folderPermissions folders).1
    Spared [] file fs made made := by
  have furnished := makeAlong_furnished among fs folderPermissions
  exact ⟨furnished.grown.current, fun place _ => furnished.kept place,
    fun place _ => furnished.fresh place⟩

theorem withFolder_spared (fs : FileSystem) (file : Path) :
    Spared [] file fs (withFolder fs file) (withFolder fs file) :=
  makeAlong_spared (List.Subset.refl _)

theorem Spared.change {made : FileSystem} (spared : Spared [] file fs made made)
    (current : after.current = made.current)
    (elsewhere : ∀ other, other ≠ place → after.faceAt? other = made.faceAt? other) :
    Spared [place] file fs made after where
  current := current.trans spared.current
  kept other outside face shown := by
    rw [elsewhere other (by simpa using outside)]
    exact spared.kept other (by simp) face shown
  fresh other outside face absent shown := by
    rw [elsewhere other (by simpa using outside)] at shown
    exact spared.fresh other (by simp) face absent shown

-- A save of a snapshot comes to an answer, by whatever name its temporary file has and whatever the
-- system does with its stages.
def Returns (fs : FileSystem) (file : Path) (snapshot : Snapshot) (after : FileSystem)
    (result : Except Problem Unit) : Prop :=
  ∃ temporary turnouts ended,
    (Save.begun file snapshot temporary).through turnouts fs = (after, ended) ∧
      ended.result? = some result

theorem Returns.stands (returns : Returns fs file snapshot after result) :
    ∃ temporary last, ((Save.begun file snapshot temporary).inStage last).result? = some result ∧
      (Save.Stands fs (.begun file snapshot temporary) after last ∨
        Save.BrokenOff fs (.begun file snapshot temporary) after last) := by
  obtain ⟨temporary, turnouts, ended, went, answered⟩ := returns
  have begins : Save.Stands fs (.begun file snapshot temporary) fs .starting := .starting
  obtain ⟨_, last, also, stands⟩ := Save.Stands.through turnouts (.inl begins)
  obtain ⟨rfl, rfl⟩ := Prod.mk.inj (also.symm.trans went)
  exact ⟨temporary, last, answered, stands⟩

theorem result?_drafted {save : Save} {draft : Slot × Option (List UInt8)}
    (drafted : save.draft? = some draft) : save.result? = none := by
  obtain ⟨target, text, temporary, stage⟩ := save
  cases stage <;> first | rfl | cases drafted

-- A save that fails, at whatever stage and for whatever reason, leaves everything as it was, but for
-- the folders that it made. One that succeeds has put the whole text, readable for its owner alone,
-- into the one entry that the path names, in place of a file, a link or nothing; and the path leads to
-- this file from then on, unless the way to it led through what it has replaced.
theorem save_spares (returns : Returns fs file (take now repositories searchPaths) after result) :
    (∀ problem, result = .error problem → Spared [] file fs after after) ∧
    (result = .ok () → ∃ slot text, (withFolder fs file).Names file slot ∧
      (take now repositories searchPaths).render? = some text ∧
      (∀ mode, fs.faceAt? (slot.directory ++ [slot.name]) ≠ some (.directory mode)) ∧
      after.faceAt? (slot.directory ++ [slot.name]) = some (.file text filePermissions) ∧
      Spared [slot.directory ++ [slot.name]] file fs (withFolder fs file) after ∧
      (after.status file = .ok (.file text filePermissions) ↔
        WayIsFree (withFolder fs file) file)) := by
  generalize take now repositories searchPaths = snapshot at *
  have folders := withFolder_spared fs file
  obtain ⟨temporary, last, answered, stands | broken⟩ := returns.stands
  · cases stands with
    | starting | creating => cases answered
    | drafted _ _ _ _ draft => cases (result?_drafted draft).symm.trans answered
    | failed problem =>
      obtain rfl := Option.some.inj answered
      exact ⟨fun _ _ => folders, by simp⟩
    | @saved made slot text making rendered names plain =>
      obtain rfl := Option.some.inj answered
      have same := Save.withFolder_of_making making
      obtain rfl : withFolder fs file = made := same
      have names : (withFolder fs file).Names file slot := names
      have filled := get?_fill names.there (.file text filePermissions)
      refine ⟨by simp, fun _ => ⟨slot, text, names, rendered, ?_, faceAt?_of_get? filled, ?_, ?_⟩⟩
      · intro mode shown
        exact plain (landmarkAt?_directory_iff.mpr ⟨mode, folders.kept _ (by simp) _ shown⟩)
      · exact folders.change rfl fun other differ =>
          fill_faceAt? names.there plain (fun _ _ => rfl) differ
      · exact status_iff_wayIsFree names text
  · obtain ⟨problem, missing⟩ := broken
    obtain rfl := Option.some.inj answered
    exact ⟨fun _ _ => makeAlong_spared (List.drop_subset _ _), by simp⟩

theorem save_returns (fs : FileSystem) (file : Path) (snapshot : Snapshot) :
    Returns fs file snapshot (save fs file snapshot).1 (save fs file snapshot).2 := by
  obtain ⟨temporary, turnouts, last, after, went, _, ⟨rfl, same⟩ | ⟨problem, rfl, same⟩⟩ :=
    save_stands fs file snapshot
  · rw [same]
    exact ⟨temporary, turnouts, _, went, rfl⟩
  · rw [same]
    exact ⟨temporary, turnouts, _, went, rfl⟩

-- The save to `/d/x` whose text the system refuses to bring onto the disk.
def unsynced : FileSystem × Save :=
  (Save.begun (Path.ofString "/d/x") (take .epoch [] []) (temporaryName 0)).through
    (List.replicate 5 (.granted 4096) ++ [.refused .busy 0]) linkedFiles

theorem save_spares_linked :
    (∃ after text, save linkedFiles (Path.ofString "/d/x") (take .epoch [] []) = (after, .ok ()) ∧
      after.status (Path.ofString "/d/x") = .ok (.file text filePermissions) ∧
      after.faceAt? [[0x64], [0x65]] = some (.directory 0o755)) ∧
    (∃ after problem, save linkedFiles (Path.ofString "/d/e") (take .epoch [] []) =
        (after, .error problem) ∧
      after.faceAt? [[0x64], [0x78]] = some (.link (Path.ofString "e"))) ∧
    ∃ problem, unsynced.2.result? = some (.error problem) ∧
      unsynced.1.faceAt? [[0x64], [0x78]] = some (.link (Path.ofString "e")) := by
  refine ⟨?_, ?_, ?_⟩
  · obtain ⟨after, saved⟩ := exists_saved linkedFiles (Path.ofString "/d/x")
      (take .epoch [] []) (by decide +kernel)
    have returns := save_returns linkedFiles (Path.ofString "/d/x") (take .epoch [] [])
    rw [saved] at returns
    obtain ⟨slot, text, names, _, _, _, spared, reached⟩ := (save_spares returns).2 rfl
    have named : (withFolder linkedFiles (Path.ofString "/d/x")).slot (Path.ofString "/d/x") =
        .ok ⟨[[0x64]], [0x78], false⟩ := by rfl
    obtain rfl := Except.ok.inj ((names_iff.mp names).1.symm.trans named)
    have free : WayIsFree (withFolder linkedFiles (Path.ofString "/d/x")) (Path.ofString "/d/x") := by
      intro slot also
      obtain rfl := Except.ok.inj (named.symm.trans also)
      rfl
    exact ⟨after, text, saved, reached.mpr free, spared.kept _ (by simp) _ (by rfl)⟩
  · have refused : (save linkedFiles (Path.ofString "/d/e") (take .epoch [] [])).2.isOk = false := by
      decide +kernel
    have returns := save_returns linkedFiles (Path.ofString "/d/e") (take .epoch [] [])
    cases saved : save linkedFiles (Path.ofString "/d/e") (take .epoch [] []) with
    | mk after result =>
      rw [saved] at returns refused
      cases result with
      | ok _ => cases refused
      | error problem =>
        have spared := (save_spares returns).1 problem rfl
        exact ⟨after, problem, rfl, spared.kept _ (by simp) _ (by rfl)⟩
  · have refused : unsynced.2.result?.map Except.isOk = some false := by decide +kernel
    obtain ⟨result, answered, failed⟩ := Option.map_eq_some_iff.mp refused
    have returns : Returns linkedFiles (Path.ofString "/d/x") (take .epoch [] []) unsynced.1 result :=
      ⟨_, _, unsynced.2, rfl, answered⟩
    cases result with
    | ok _ => cases failed
    | error problem =>
      have spared := (save_spares returns).1 problem rfl
      exact ⟨problem, answered, spared.kept _ (by simp) _ (by rfl)⟩

-- Where the way to the file leads through a link that the save replaces, the file is there, but the
-- path leads nowhere.
theorem nowhere_behind_own_link :
    ∃ after, save linkedFiles (Path.ofString "/d/x/../x") (take .epoch [] []) = (after, .ok ()) ∧
      ∀ node, after.status (Path.ofString "/d/x/../x") ≠ .ok node := by
  have nowhere : ((save linkedFiles (Path.ofString "/d/x/../x") (take .epoch [] [])).1.status
      (Path.ofString "/d/x/../x")).isOk = false := by
    decide +kernel
  obtain ⟨after, saved⟩ := exists_saved linkedFiles (Path.ofString "/d/x/../x")
    (take .epoch [] []) (by decide +kernel)
  rw [saved] at nowhere
  exact ⟨after, saved, ne_ok_of_isOk nowhere⟩

end RepoFinder.Snapshot
