import RepoFinder.Proofs.Json.Record
import RepoFinder.Proofs.Text.Utf8
import RepoFinder.Proofs.Time.Rfc3339
import RepoFinder.Snapshot.Format

namespace RepoFinder

open Json Time

theorem Path.isPlain_of_toJson? {p : Path} {json : Json} (wrote : p.toJson? = some json) :
    IsPlain json := by
  obtain ⟨text, _, rfl⟩ := Option.map_eq_some_iff.mp wrote
  rfl

theorem Path.ofJson?_of_toJson? {p : Path} {json : Json} (wrote : p.toJson? = some json) :
    Path.ofJson? json = some p := by
  obtain ⟨text, spelled, rfl⟩ := Option.map_eq_some_iff.mp wrote
  simp [Path.ofJson?, Json.ofText, Json.text?, Path.ofText, Text.Utf8.encode_of_decode? spelled]

theorem Time.Timestamp.ofJson?_toJson {t : Timestamp} (moment : t.IsMoment) :
    Timestamp.ofJson? t.toJson = some t := by
  simp [Timestamp.ofJson?, Timestamp.toJson, Json.ofText, Json.text?,
    Rfc3339.parse?_render moment]

def Repository.fields (repository : Repository) (path : Json) : List (String × Json) := [
  ("path", path),
  ("name", Json.ofString repository.name),
  ("remote_url", Json.ofString repository.remoteUrl),
  ("last_modified", repository.modified.toJson),
  ("is_configured", .bool repository.isConfigured)]

theorem Repository.isPlain_of_toJson? {repository : Repository} {json : Json}
    (wrote : repository.toJson? = some json) : IsPlain json := by
  obtain ⟨path, wrotePath, rfl⟩ := Option.map_eq_some_iff.mp wrote
  apply isPlain_ofFields
  intro field present
  simp only [List.mem_cons, List.not_mem_nil, or_false] at present
  rcases present with rfl | rfl | rfl | rfl | rfl
  · exact Path.isPlain_of_toJson? wrotePath
  all_goals trivial

theorem Repository.ofJson?_of_toJson? {repository : Repository} {json : Json}
    (moment : repository.modified.IsMoment) (wrote : repository.toJson? = some json) :
    Repository.ofJson? json = some repository := by
  obtain ⟨path, wrotePath, rfl⟩ := Option.map_eq_some_iff.mp wrote
  have readPath := Path.ofJson?_of_toJson? wrotePath
  have distinct : ((repository.fields path).map (·.1)).Nodup := by
    simp [Repository.fields]
  have record := record?_ofFields distinct (List.Subset.refl _)
  have names : ((repository.fields path).map fun field => field.1.toList) =
      Repository.fieldNames := rfl
  rw [names] at record
  change Repository.ofJson? (ofFields (repository.fields path)) = some repository
  rw [Repository.ofJson?, record]
  simp [Repository.fields, readPath, Timestamp.ofJson?_toJson moment, Json.ofString,
    Json.ofText, Json.text?, Json.bool?]

namespace Snapshot

structure Dated (snapshot : Snapshot) : Prop where
  taken : snapshot.timestamp.IsMoment
  modified : ∀ repository ∈ snapshot.repositories, repository.modified.IsMoment

def fields (snapshot : Snapshot) (repositories searchPaths : List Json) : List (String × Json) := [
  ("repositories", .array repositories),
  ("search_paths", .array searchPaths),
  ("timestamp", snapshot.timestamp.toJson),
  ("version", Json.ofNat snapshot.version)]

theorem fields_of_toJson? {snapshot : Snapshot} {json : Json}
    (wrote : snapshot.toJson? = some json) :
    ∃ repositories searchPaths, snapshot.repositories.mapM Repository.toJson? = some repositories ∧
      snapshot.searchPaths.mapM Path.toJson? = some searchPaths ∧
      json = ofFields (snapshot.fields repositories searchPaths) := by
  simp only [toJson?, Option.bind_eq_bind, Option.bind_eq_some_iff] at wrote
  obtain ⟨repositories, wroteRepositories, searchPaths, wrotePaths, wrote⟩ := wrote
  exact ⟨repositories, searchPaths, wroteRepositories, wrotePaths, (Option.some.inj wrote).symm⟩

theorem isPlain_of_toJson? {snapshot : Snapshot} {json : Json}
    (wrote : snapshot.toJson? = some json) : IsPlain json := by
  obtain ⟨repositories, searchPaths, wroteRepositories, wrotePaths, rfl⟩ := fields_of_toJson? wrote
  apply isPlain_ofFields
  intro field present
  simp only [fields, List.mem_cons, List.not_mem_nil, or_false] at present
  rcases present with rfl | rfl | rfl | rfl
  · apply itemsPlain_iff.mpr
    intro item among
    obtain ⟨repository, _, wrote⟩ := mem_of_mapM wroteRepositories among
    exact Repository.isPlain_of_toJson? wrote
  · apply itemsPlain_iff.mpr
    intro item among
    obtain ⟨path, _, wrote⟩ := mem_of_mapM wrotePaths among
    exact Path.isPlain_of_toJson? wrote
  · trivial
  · exact isPlain_ofNat snapshot.version

theorem ofJson?_of_toJson? {snapshot : Snapshot} {json : Json} (dated : snapshot.Dated)
    (current : snapshot.version = currentVersion) (wrote : snapshot.toJson? = some json) :
    version? json = some currentVersion ∧ ofJson? json = some snapshot := by
  obtain ⟨repositories, searchPaths, wroteRepositories, wrotePaths, rfl⟩ := fields_of_toJson? wrote
  have readRepositories : repositories.mapM Repository.ofJson? = some snapshot.repositories := by
    refine mapM_read ?_ wroteRepositories
    intro repository present _ wrote
    exact Repository.ofJson?_of_toJson? (dated.modified repository present) wrote
  have readPaths : searchPaths.mapM Path.ofJson? = some snapshot.searchPaths := by
    refine mapM_read ?_ wrotePaths
    intro _ _ _ wrote
    exact Path.ofJson?_of_toJson? wrote
  have small : snapshot.version < versionBound := by
    rw [current]
    decide
  have readVersion : (Json.ofNat snapshot.version).natural? versionBound =
      some currentVersion := by
    rw [natural?_ofNat small, current]
  have distinct : ((snapshot.fields repositories searchPaths).map (·.1)).Nodup := by
    simp [fields]
  have record := record?_ofFields distinct (List.Subset.refl _)
  have names : ((snapshot.fields repositories searchPaths).map fun field => field.1.toList) =
      fieldNames := rfl
  rw [names] at record
  constructor
  · -- The version is asked for by itself first, and as one of the four fields after that.
    have single : [("version", Json.ofNat snapshot.version)] ⊆
        snapshot.fields repositories searchPaths := by simp [fields]
    have record := record?_ofFields distinct single
    simp only [List.map_cons, List.map_nil] at record
    rw [version?, record]
    simp [readVersion]
  · rw [ofJson?, record]
    simp [fields, Json.items?, readRepositories, readPaths,
      Timestamp.ofJson?_toJson dated.taken, natural?_ofNat small]

theorem parse?_of_render? {snapshot : Snapshot} {bytes : List UInt8} (dated : snapshot.Dated)
    (current : snapshot.version = currentVersion) (wrote : snapshot.render? = some bytes) :
    parse? bytes = some snapshot := by
  obtain ⟨json, wroteJson, rfl⟩ := Option.map_eq_some_iff.mp wrote
  obtain ⟨version, read⟩ := ofJson?_of_toJson? dated current wroteJson
  simp [parse?, Text.Utf8.decode?_encode, parse?_compact (isPlain_of_toJson? wroteJson), version,
    read]

theorem record?_of_ofJson? {json : Json} {snapshot : Snapshot}
    (read : ofJson? json = some snapshot) : ∃ repositories searchPaths timestamp version,
      json.record? fieldNames =
        some [some repositories, some searchPaths, some timestamp, some version] ∧
      version.natural? versionBound = some snapshot.version := by
  simp only [ofJson?, Option.bind_eq_bind, Option.bind_eq_some_iff] at read
  obtain ⟨values, record, read⟩ := read
  split at read
  · rename_i repositories searchPaths timestamp version
    simp only [Option.bind_eq_some_iff] at read
    obtain ⟨_, _, _, _, _, _, _, _, _, _, number, known, made⟩ := read
    obtain rfl := Option.some.inj made
    exact ⟨repositories, searchPaths, timestamp, version, record, known⟩
  · cases read

theorem record?_of_version? {json : Json} {number : Nat} (claimed : version? json = some number) :
    ∃ version, json.record? ["version".toList] = some [some version] ∧
      version.natural? versionBound = some number := by
  simp only [version?, Option.bind_eq_bind, Option.bind_eq_some_iff] at claimed
  obtain ⟨values, record, known⟩ := claimed
  split at known
  · rename_i version
    exact ⟨version, record, known⟩
  · cases known

-- The version that a value claims is the version of the snapshot that it spells: an object has
-- one field of that name, and an array that is short enough to claim a version spells no
-- snapshot.
theorem version_of_ofJson? {json : Json} {number : Nat} {snapshot : Snapshot}
    (claimed : version? json = some number) (read : ofJson? json = some snapshot) :
    snapshot.version = number := by
  obtain ⟨repositories, searchPaths, timestamp, version, whole, known⟩ := record?_of_ofJson? read
  obtain ⟨other, single, claims⟩ := record?_of_version? claimed
  suffices same : version = other by
    rw [same] at known
    exact Option.some.inj (known.symm.trans claims)
  cases json with
  | object fields =>
    simp only [record?] at whole single
    split at single
    · rename_i named
      simp only [named, if_true, fieldNames, List.map_cons, List.map_nil, List.mapM_cons,
        List.mapM_nil, Option.bind_eq_bind, Option.bind_eq_some_iff, Option.pure_def,
        Option.some.injEq] at whole single
      obtain ⟨_, _, _, ⟨_, _, _, ⟨_, _, _, ⟨_, inWhole, _, rfl, rfl⟩, rfl⟩, rfl⟩, listed⟩ := whole
      obtain ⟨_, inSingle, _, rfl, alone⟩ := single
      simp only [List.cons.injEq] at listed alone
      have both := inWhole.symm.trans inSingle
      rw [listed.2.2.2.1, alone.1] at both
      exact Option.some.inj (Option.some.inj both)
    · cases single
  | array items =>
    cases items with
    | nil => cases whole
    | cons first rest =>
      cases rest with
      | nil => cases whole
      | cons second rest => simp [record?] at single
  | _ => cases whole

theorem version_of_parse? {bytes : List UInt8} {snapshot : Snapshot}
    (read : parse? bytes = some snapshot) : snapshot.version = currentVersion := by
  simp only [parse?, Option.bind_eq_bind, Option.bind_eq_some_iff] at read
  obtain ⟨text, _, json, _, version, claimed, read⟩ := read
  split at read
  · rename_i current
    rw [version_of_ofJson? claimed read, current]
  · cases read

end Snapshot

end RepoFinder
