import RepoFinder.Proofs.Json.Extent
import RepoFinder.Proofs.Snapshot.Saved

namespace RepoFinder.Snapshot

open FileSystem Text

variable {snapshot : Snapshot} {text content kept lost more : List UInt8}

def blankBytes : List UInt8 := [0x20, 0x0A, 0x09, 0x0D]

-- Bytes that are left of a text when its end is lost, in the middle of a character it may be, or
-- that have come to stand behind it.
inductive Damaged (text : List UInt8) : List UInt8 → Prop where
  | cut {kept lost : List UInt8} (whole : text = kept ++ lost) (short : lost ≠ []) :
      Damaged text kept
  | continued {more : List UInt8} {byte : UInt8} (behind : byte ∈ more)
      (foreign : byte ∉ blankBytes) : Damaged text (text ++ more)

theorem blank_of_isSpace {c : Char} (space : Json.isSpace c = true) :
    ∀ byte ∈ String.utf8EncodeChar c, byte ∈ blankBytes := by
  simp only [Json.isSpace, Bool.or_eq_true, decide_eq_true_eq] at space
  rcases space with ((rfl | rfl) | rfl) | rfl <;> simp [String.utf8EncodeChar, blankBytes]

theorem exists_foreign {rest : List Char} {byte : UInt8} (behind : byte ∈ Utf8.encode rest)
    (foreign : byte ∉ blankBytes) : ∃ c ∈ rest, Json.isSpace c = false := by
  obtain ⟨c, present, among⟩ := List.mem_flatMap.mp behind
  refine ⟨c, present, ?_⟩
  cases space : Json.isSpace c with
  | false => rfl
  | true => exact absurd (blank_of_isSpace space byte among) foreign

theorem object_of_render? (rendered : snapshot.render? = some text) :
    ∃ fields, fields ≠ [] ∧ Json.IsPlain (.object fields) ∧
      text = Utf8.encode (Json.compact (.object fields)) := by
  obtain ⟨json, wrote, rfl⟩ := Option.map_eq_some_iff.mp rendered
  have plain := isPlain_of_toJson? wrote
  obtain ⟨repositories, searchPaths, _, _, rfl⟩ := fields_of_toJson? wrote
  exact ⟨_, by simp [fields], plain, rfl⟩

theorem parse?_of_undecoded (read : ∀ characters, Utf8.decode? content = some characters →
    Json.parse? characters = none) : parse? content = none := by
  cases decoded : Utf8.decode? content with
  | none => simp [parse?, decoded]
  | some characters => simp [parse?, decoded, read characters decoded]

-- A cut inside a character leaves bytes that are no text, and any other cut leaves the beginning of
-- the text.
theorem parse?_cut (rendered : snapshot.render? = some text) (whole : text = kept ++ lost)
    (short : lost ≠ []) : parse? kept = none := by
  obtain ⟨fields, some, plain, rfl⟩ := object_of_render? rendered
  apply parse?_of_undecoded
  intro front decoded
  have spelled := Utf8.encode_of_decode? decoded
  have all := Utf8.decode?_encode (Json.compact (.object fields))
  rw [whole, ← spelled] at all
  obtain ⟨back, behind, parts⟩ := Utf8.decode?_encode_append all
  apply Json.parse?_cut some plain parts
  rintro rfl
  exact short (Utf8.encode_of_decode? behind).symm

theorem parse?_continued (rendered : snapshot.render? = some text) {byte : UInt8}
    (behind : byte ∈ more) (foreign : byte ∉ blankBytes) : parse? (text ++ more) = none := by
  obtain ⟨fields, _, plain, rfl⟩ := object_of_render? rendered
  apply parse?_of_undecoded
  intro characters decoded
  obtain ⟨rest, read, rfl⟩ := Utf8.decode?_encode_append decoded
  obtain rfl := Utf8.encode_of_decode? read
  obtain ⟨c, present, noSpace⟩ := exists_foreign behind foreign
  exact Json.parse?_behind plain present noSpace

-- A file that holds a damaged text of a snapshot, of any times and any version, is as good as none.
theorem damaged_never_loads {fs : FileSystem} {file : Path}
    (rendered : snapshot.render? = some text) (damaged : Damaged text content)
    (held : fs.contentOf file = .ok content) : load? fs file = none := by
  have unread : parse? content = none := by
    cases damaged with
    | cut whole short => exact parse?_cut rendered whole short
    | continued behind foreign => exact parse?_continued rendered behind foreign
  simp only [load?, held, unread]

def holding (content : List UInt8) : FileSystem :=
  ⟨.directory 0o755 .epoch [(Utf8.ofString "s", .file content filePermissions)], []⟩

theorem holding_contentOf (content : List UInt8) :
    (holding content).contentOf (Path.ofString "/s") = .ok content := by
  rfl

def accentedText : List UInt8 := ((take .epoch [] [Path.ofString "/é"]).render?).getD []

theorem accentedText_facts : (take .epoch [] [Path.ofString "/é"]).render? = some accentedText ∧
    Utf8.decode? (accentedText.take 38) = none ∧ accentedText.drop 38 ≠ [] ∧
      parse? accentedText = some (take .epoch [] [Path.ofString "/é"]) := by
  decide +kernel

theorem damaged_never_loads_accented :
    load? (holding accentedText) (Path.ofString "/s") =
        some (take .epoch [] [Path.ofString "/é"]) ∧
      Utf8.decode? (accentedText.take 38) = none ∧
      load? (holding (accentedText.take 38)) (Path.ofString "/s") = none ∧
      load? (holding (accentedText ++ Utf8.ofString "\n\x7b\x7d")) (Path.ofString "/s") = none := by
  obtain ⟨rendered, undecoded, short, parsed⟩ := accentedText_facts
  have cut : Damaged accentedText (accentedText.take 38) :=
    .cut (List.take_append_drop 38 accentedText).symm short
  have continued : Damaged accentedText (accentedText ++ Utf8.ofString "\n\x7b\x7d") :=
    .continued (show (0x7B : UInt8) ∈ _ by decide) (by decide)
  refine ⟨?_, undecoded, ?_, ?_⟩
  · simp only [load?, holding_contentOf, parsed]
  · exact damaged_never_loads rendered cut (holding_contentOf _)
  · exact damaged_never_loads rendered continued (holding_contentOf _)

end RepoFinder.Snapshot
