import Mathlib.Data.List.Induction
import RepoFinder.Proofs.Path.NormalForm
import RepoFinder.SearchRoots

namespace RepoFinder.SearchRoots

open FileSystem

variable {fs : FileSystem} {paths : List Path} {seen : List Path.Key} {p : Path}

theorem firstOfEachKey_concat (seen : List Path.Key) (paths : List Path) (last : Path) :
    firstOfEachKey seen (paths ++ [last]) = firstOfEachKey seen paths ++
      if last.key ∈ seen ∨ last.key ∈ paths.map Path.key then [] else [last] := by
  induction paths generalizing seen with
  | nil => by_cases known : last.key ∈ seen <;> simp [firstOfEachKey, known]
  | cons first rest ih =>
    rw [List.cons_append, firstOfEachKey, firstOfEachKey, ih, ih]
    by_cases known : first.key ∈ seen
    · have same : (last.key ∈ seen ∨ last.key ∈ (first :: rest).map Path.key) ↔
          (last.key ∈ seen ∨ last.key ∈ rest.map Path.key) := by
        rw [List.map_cons, List.mem_cons]
        grind
      simp only [List.contains_iff_mem.mpr known, if_true, same]
    · have same : (last.key ∈ seen ∨ last.key ∈ (first :: rest).map Path.key) ↔
          (last.key ∈ first.key :: seen ∨ last.key ∈ rest.map Path.key) := by
        rw [List.map_cons, List.mem_cons, List.mem_cons]
        grind
      have unknown : seen.contains first.key = false := by simpa using known
      simp only [unknown, Bool.false_eq_true, if_false, same, List.cons_append]

theorem firstOfEachKey_sublist (seen : List Path.Key) (paths : List Path) :
    (firstOfEachKey seen paths).Sublist paths := by
  induction paths generalizing seen with
  | nil => exact .slnil
  | cons first rest ih =>
    unfold firstOfEachKey
    split
    · exact (ih seen).cons first
    · exact (ih (first.key :: seen)).cons_cons first

theorem firstOfEachKey_nodup (seen : List Path.Key) (paths : List Path) :
    ((firstOfEachKey seen paths).map Path.key).Nodup ∧
      ∀ key ∈ (firstOfEachKey seen paths).map Path.key, key ∉ seen := by
  induction paths generalizing seen with
  | nil => simp [firstOfEachKey]
  | cons first rest ih =>
    unfold firstOfEachKey
    split
    · exact ih seen
    · rename_i unknown
      obtain ⟨apart, fresh⟩ := ih (first.key :: seen)
      rw [List.map_cons, List.nodup_cons]
      refine ⟨⟨fun again => fresh _ again (List.mem_cons_self ..), apart⟩, ?_⟩
      intro key present
      rcases List.mem_cons.mp present with rfl | later
      · simpa using unknown
      · exact fun known => fresh key later (List.mem_cons_of_mem _ known)

theorem key_mem_firstOfEachKey (present : p ∈ paths) (unseen : p.key ∉ seen) :
    p.key ∈ (firstOfEachKey seen paths).map Path.key := by
  induction paths generalizing seen with
  | nil => cases present
  | cons first rest ih =>
    unfold firstOfEachKey
    rcases List.mem_cons.mp present with rfl | later
    · rw [if_neg (by simpa using unseen)]
      exact List.mem_cons_self ..
    · split
      · exact ih later unseen
      · by_cases same : p.key = first.key
        · rw [same]
          exact List.mem_cons_self ..
        · apply List.mem_cons_of_mem
          apply ih later
          rw [List.mem_cons, not_or]
          exact ⟨same, unseen⟩

theorem mem_firstOfEachKey_of_first {before : List Path} (after : List Path)
    (unseen : p.key ∉ seen) (first : ∀ other ∈ before, other.key ≠ p.key) :
    p ∈ firstOfEachKey seen (before ++ p :: after) := by
  induction before generalizing seen with
  | nil =>
    rw [List.nil_append, firstOfEachKey, if_neg (by simpa using unseen)]
    exact List.mem_cons_self ..
  | cons other rest ih =>
    obtain ⟨differs, later⟩ := List.forall_mem_cons.mp first
    rw [List.cons_append, firstOfEachKey]
    split
    · exact ih unseen later
    · apply List.mem_cons_of_mem
      apply ih _ later
      rw [List.mem_cons, not_or]
      exact ⟨differs.symm, unseen⟩

theorem firstOfEachKey_eq_self (apart : (paths.map Path.key).Nodup)
    (unseen : ∀ p ∈ paths, p.key ∉ seen) : firstOfEachKey seen paths = paths := by
  induction paths generalizing seen with
  | nil => rfl
  | cons first rest ih =>
    rw [List.map_cons, List.nodup_cons] at apart
    obtain ⟨here, later⟩ := List.forall_mem_cons.mp unseen
    rw [firstOfEachKey, if_neg (by simpa using here), ih apart.2]
    intro p present
    rw [List.mem_cons, not_or]
    refine ⟨?_, later p present⟩
    intro same
    exact apart.1 (same ▸ List.mem_map_of_mem present)

def leads (fs : FileSystem) (before : List Path) (p : Path) : Bool :=
  fs.isDirectory p && before.all fun other => !(fs.isDirectory other && other.key == p.key)

def leaders (fs : FileSystem) (paths : List Path) : List Path :=
  (paths.zipIdx.filter fun place => leads fs (paths.take place.2) place.1).map Prod.fst

theorem leaders_concat (fs : FileSystem) (paths : List Path) (last : Path) :
    leaders fs (paths ++ [last]) =
      leaders fs paths ++ if leads fs paths last then [last] else [] := by
  have before : paths.zipIdx.filter
      (fun place => leads fs ((paths ++ [last]).take place.2) place.1) =
        paths.zipIdx.filter fun place => leads fs (paths.take place.2) place.1 := by
    apply List.filter_congr
    rintro ⟨p, index⟩ present
    have less := (List.mem_zipIdx' present).1
    rw [List.take_append_of_le_length (Nat.le_of_lt less)]
  unfold leaders
  rw [List.zipIdx_append, List.filter_append, List.map_append, before]
  congr 1
  have whole : (paths ++ [last]).take paths.length = paths := List.take_left
  cases keeps : leads fs paths last <;> simp [whole, keeps]

theorem leaders_eq (fs : FileSystem) (paths : List Path) :
    leaders fs paths = firstOfEachKey [] (paths.filter fs.isDirectory) := by
  induction paths using List.reverseRecOn with
  | nil => rfl
  | append_singleton paths last ih =>
    rw [leaders_concat, List.filter_append, ih]
    cases directory : fs.isDirectory last with
    | false => simp [leads, directory]
    | true =>
      have known : leads fs paths last = true ↔
          last.key ∉ (paths.filter fs.isDirectory).map Path.key := by
        simp only [leads, directory, Bool.true_and, List.all_eq_true, Bool.not_eq_true',
          Bool.and_eq_false_imp, beq_eq_false_iff_ne, List.mem_map, List.mem_filter, not_exists,
          not_and, and_imp]
      rw [List.filter_singleton, directory, cond_true, firstOfEachKey_concat]
      congr 1
      by_cases again : last.key ∈ (paths.filter fs.isDirectory).map Path.key
      · have hidden : leads fs paths last = false := by
          rw [← Bool.not_eq_true, known]
          exact not_not_intro again
        simp [hidden, again]
      · simp [known.mpr again, again]

theorem isAbsolute_toPath (location : Location) : location.toPath.isAbsolute = true := by
  cases location <;> rfl

theorem absolute_spelled (location : Location) (p : Path) :
    (absolute location.toPath p).isAbsolute = true ∧
      (absolute location.toPath p).clean = absolute location.toPath p := by
  unfold absolute
  rw [Path.isAbsolute_clean, Path.clean_clean]
  exact ⟨Path.isAbsolute_join (isAbsolute_toPath location) p, rfl⟩

theorem absolute_of_spelled (rooted : p.isAbsolute = true) (cleaned : p.clean = p)
    (home : Option Path) (current : Path) : absolute current (p.expandTilde home) = p := by
  have untouched : p.expandTilde home = p := by
    obtain ⟨others, segments, _⟩ := p.segmentsOf_head rooted
    cases home with
    | none => rfl
    | some home => simp [Path.expandTilde, Path.dropFirst?, segments, Path.tilde]
  rw [untouched, absolute, Path.join_absolute rooted, cleaned]

theorem mem_resolve {home : Option Path} {asked extra : List Path}
    (present : p ∈ resolve fs home asked extra) :
    p.isAbsolute = true ∧ p.clean = p ∧ fs.isDirectory p = true := by
  obtain ⟨candidate, directory⟩ :=
    List.mem_filter.mp ((firstOfEachKey_sublist ..).subset present)
  obtain ⟨written, _, rfl⟩ := List.mem_map.mp candidate
  obtain ⟨rooted, cleaned⟩ := absolute_spelled fs.current written
  exact ⟨rooted, cleaned, directory⟩

theorem resolve_eq_self (filled : paths ≠ [])
    (spelled : ∀ p ∈ paths, p.isAbsolute = true ∧ p.clean = p ∧ fs.isDirectory p = true)
    (apart : (paths.map Path.key).Nodup) (home : Option Path) (extra : List Path) :
    resolve fs home paths extra = paths := by
  have unmoved : ∀ p ∈ paths, absolute fs.current.toPath (p.expandTilde home) = p := by
    intro p present
    obtain ⟨rooted, cleaned, _⟩ := spelled p present
    exact absolute_of_spelled rooted cleaned home _
  have again : (candidates home paths extra).map (absolute fs.current.toPath) = paths := by
    unfold candidates
    rw [if_neg (by simpa using filled), List.map_map]
    exact (List.map_congr_left unmoved).trans (List.map_id' _)
  have folders : paths.filter fs.isDirectory = paths :=
    List.filter_eq_self.mpr fun p present => (spelled p present).2.2
  unfold resolve
  dsimp only
  rw [again, folders]
  exact firstOfEachKey_eq_self apart fun _ _ => List.not_mem_nil

-- The resolved folders are the leaders of the candidates. So they are directories, spelled out and
-- apart by their keys; no directory among the candidates goes without one of its key, and what is
-- missing or no directory hides none. Asked for again, they are resolved to themselves.
theorem resolve_keeps_leaders (fs : FileSystem) (home : Option Path) (asked extra : List Path) :
    let spelled := (candidates home asked extra).map (absolute fs.current.toPath)
    let resolved := resolve fs home asked extra
    resolved = leaders fs spelled ∧
    (∀ p ∈ resolved, p.isAbsolute = true ∧ p.clean = p ∧ fs.isDirectory p = true) ∧
    (resolved.map Path.key).Nodup ∧
    (∀ p ∈ spelled, fs.isDirectory p = true → p.key ∈ resolved.map Path.key) ∧
    (∀ before p after, spelled = before ++ p :: after → fs.isDirectory p = true →
      (∀ other ∈ before, fs.isDirectory other = true → other.key ≠ p.key) → p ∈ resolved) ∧
    (resolved ≠ [] → ∀ home extra, resolve fs home resolved extra = resolved) := by
  intro spelled resolved
  have kept : resolved = firstOfEachKey [] (spelled.filter fs.isDirectory) := rfl
  have apart : (resolved.map Path.key).Nodup := (firstOfEachKey_nodup ..).1
  refine ⟨(leaders_eq fs spelled).symm, fun _ => mem_resolve, apart, ?_, ?_, ?_⟩
  case refine_1 =>
    intro p present directory
    exact key_mem_firstOfEachKey (List.mem_filter.mpr ⟨present, directory⟩) List.not_mem_nil
  case refine_2 =>
    intro before p after split directory first
    rw [kept, split, List.filter_append, List.filter_cons_of_pos directory]
    apply mem_firstOfEachKey_of_first _ List.not_mem_nil
    intro other present
    obtain ⟨earlier, folder⟩ := List.mem_filter.mp present
    exact first other earlier folder
  case refine_3 =>
    intro filled
    exact resolve_eq_self filled (fun _ => mem_resolve) apart

def variedFiles : FileSystem :=
  let folder (name : String) (entries : Entries) : Name × Node :=
    (Text.Utf8.ofString name, .directory 0o755 .epoch entries)
  ⟨.directory 0o755 .epoch [
      folder "w" [folder "sub" []],
      folder "W" [],
      (Text.Utf8.ofString "SRC", .file [] 0o644),
      folder "src" [],
      (Text.Utf8.ofString "l", .link (Path.ofString "w/sub"))],
    [Text.Utf8.ofString "w"]⟩

def variedRequest : List Path :=
  ["gone", "/SRC", "~//", "../src/./", "/W", "sub/..", "../l"].map Path.ofString

theorem resolve_keeps_leaders_varied :
    let resolved := ["/w", "/src", "/l"].map Path.ofString
    resolve variedFiles (some (Path.ofString "/w")) variedRequest [] = resolved ∧
      resolve variedFiles none resolved [Path.ofString "/W"] = resolved := by
  have found : resolve variedFiles (some (Path.ofString "/w")) variedRequest [] =
      ["/w", "/src", "/l"].map Path.ofString := by decide +kernel
  obtain ⟨_, _, _, _, _, again⟩ :=
    resolve_keeps_leaders variedFiles (some (Path.ofString "/w")) variedRequest []
  refine ⟨found, ?_⟩
  rw [found] at again
  exact again (by simp) none _

end RepoFinder.SearchRoots
