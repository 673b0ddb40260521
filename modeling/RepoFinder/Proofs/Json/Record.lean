import RepoFinder.Proofs.Json.RoundTrip

namespace RepoFinder.Json

variable {α β : Type}

theorem mapM_read {write : α → Option β} {read : β → Option α} {values : List α}
    {written : List β} (each : ∀ value ∈ values, ∀ item, write value = some item →
      read item = some value) (wrote : values.mapM write = some written) :
    written.mapM read = some values := by
  induction values generalizing written with
  | nil =>
    cases wrote
    rfl
  | cons value rest ih =>
    rw [List.mapM_cons] at wrote
    obtain ⟨item, first, wrote⟩ := Option.bind_eq_some_iff.mp wrote
    obtain ⟨items, others, wrote⟩ := Option.bind_eq_some_iff.mp wrote
    obtain rfl := Option.some.inj wrote
    have eachOther : ∀ other ∈ rest, ∀ item, write other = some item → read item = some other := by
      intro other present
      exact each other (List.mem_cons_of_mem _ present)
    have back := ih eachOther others
    simp [List.mapM_cons, each value (List.mem_cons_self ..) item first, back]

theorem mem_of_mapM {write : α → Option β} {values : List α} {written : List β}
    (wrote : values.mapM write = some written) {item : β} (present : item ∈ written) :
    ∃ value ∈ values, write value = some item := by
  induction values generalizing written with
  | nil =>
    cases wrote
    cases present
  | cons value rest ih =>
    rw [List.mapM_cons] at wrote
    obtain ⟨first, firstWrote, wrote⟩ := Option.bind_eq_some_iff.mp wrote
    obtain ⟨items, others, wrote⟩ := Option.bind_eq_some_iff.mp wrote
    obtain rfl := Option.some.inj wrote
    rcases List.mem_cons.mp present with rfl | later
    · exact ⟨value, List.mem_cons_self .., firstWrote⟩
    · obtain ⟨value, among, wrote⟩ := ih others later
      exact ⟨value, List.mem_cons_of_mem _ among, wrote⟩

-- Without distinct names the reader would be right to refuse: it takes no field that is there twice.
theorem valuesOf_ofFields {fields : List (String × Json)} (distinct : (fields.map (·.1)).Nodup)
    {name : String} {value : Json} (present : (name, value) ∈ fields) :
    valuesOf (fields.map fun field => (some field.1.toList, field.2)) name.toList = [value] := by
  have absent {others : List (String × Json)} (missing : name ∉ others.map (·.1)) :
      valuesOf (others.map fun field => (some field.1.toList, field.2)) name.toList = [] := by
    simp only [valuesOf, List.map_eq_nil_iff, List.filter_eq_nil_iff, List.mem_map,
      decide_eq_true_eq]
    rintro _ ⟨field, among, rfl⟩ same
    apply missing
    exact List.mem_map.mpr ⟨field, among, String.toList_inj.mp (Option.some.inj same)⟩
  induction fields with
  | nil => cases present
  | cons field rest ih =>
    obtain ⟨fresh, distinct⟩ := List.nodup_cons.mp distinct
    rcases List.mem_cons.mp present with rfl | later
    · have others := absent fresh
      simp only [valuesOf] at others
      simp [valuesOf, others]
    · have other : field.1 ≠ name := by
        intro same
        subst same
        apply fresh
        exact List.mem_map.mpr ⟨_, later, rfl⟩
      have back := ih distinct later
      simp only [valuesOf] at back ⊢
      simp [other, String.toList_inj, back]

theorem record?_ofFields {fields chosen : List (String × Json)}
    (distinct : (fields.map (·.1)).Nodup) (among : chosen ⊆ fields) :
    (ofFields fields).record? (chosen.map fun field => field.1.toList) =
      some (chosen.map fun field => some field.2) := by
  have named : (fields.map fun field => (some field.1.toList, field.2)).all (·.1.isSome) = true := by
    simp
  simp only [ofFields, record?, named, if_true]
  induction chosen with
  | nil => rfl
  | cons field rest ih =>
    have first := valuesOf_ofFields distinct (among (List.mem_cons_self ..) : (field.1, field.2) ∈ _)
    have others := ih fun other present => among (List.mem_cons_of_mem _ present)
    simp [List.mapM_cons, fieldOf, first, others]

theorem isPlain_ofFields {fields : List (String × Json)}
    (plain : ∀ field ∈ fields, IsPlain field.2) : IsPlain (ofFields fields) := by
  apply fieldsPlain_iff.mpr
  intro field present
  obtain ⟨source, among, rfl⟩ := List.mem_map.mp present
  exact ⟨rfl, plain source among⟩

end RepoFinder.Json
