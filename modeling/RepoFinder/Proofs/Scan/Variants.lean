import RepoFinder.Proofs.FileSystem.Census
import RepoFinder.Proofs.FileSystem.Grounds
import RepoFinder.Proofs.Path.Key
import RepoFinder.Proofs.Scan.Exhaustion

namespace RepoFinder

open FileSystem RepoFinder.Path

namespace Name

variable {name other : Name}

def CaseVariant (name other : Name) : Prop :=
  name = other ∨ ∃ text more, Text.Utf8.decode? name = some text ∧
    Text.Utf8.decode? other = some more ∧ Text.lower text = Text.lower more

def Broken (name : Name) : Prop := Text.Utf8.decode? name = none

instance (name : Name) : Decidable name.Broken :=
  inferInstanceAs (Decidable (Text.Utf8.decode? name = none))

-- What a key does not tell apart: case variants, and names of which one is no text, with what is
-- ill-formed replaced.
def Alike (name other : Name) : Prop :=
  name.CaseVariant other ∨ (name.Broken ∨ other.Broken) ∧
    Text.lower (Text.Utf8.decodeLossy name) = Text.lower (Text.Utf8.decodeLossy other)

theorem folded_eq_iff : name.folded = other.folded ↔
    Text.lower (Text.Utf8.decodeLossy name) = Text.lower (Text.Utf8.decodeLossy other) :=
  ⟨Text.Utf8.encode_injective, congrArg Text.Utf8.encode⟩

theorem decodeLossy_of_text {text : List Char} (read : Text.Utf8.decode? name = some text) :
    Text.Utf8.decodeLossy name = text := by
  rw [← Text.Utf8.encode_of_decode? read, Text.Utf8.decodeLossy_encode]

theorem caseVariant_iff (whole : ¬ name.Broken) (also : ¬ other.Broken) :
    name.CaseVariant other ↔ name.folded = other.folded := by
  obtain ⟨text, read⟩ := Option.ne_none_iff_exists'.mp whole
  obtain ⟨more, reads⟩ := Option.ne_none_iff_exists'.mp also
  rw [folded_eq_iff, decodeLossy_of_text read, decodeLossy_of_text reads]
  constructor
  · rintro (rfl | ⟨_, _, here, there, lowered⟩)
    · rw [Option.some.inj (read.symm.trans reads)]
    · rw [Option.some.inj (read.symm.trans here), Option.some.inj (reads.symm.trans there), lowered]
  · intro lowered
    exact .inr ⟨text, more, read, reads, lowered⟩

instance (name other : Name) : Decidable (name.CaseVariant other) :=
  decidable_of_iff (name = other ∨ ¬ name.Broken ∧ ¬ other.Broken ∧ name.folded = other.folded) <| by
    constructor
    · rintro (same | ⟨whole, also, folded⟩)
      · exact .inl same
      · exact (caseVariant_iff whole also).mpr folded
    · rintro (same | ⟨text, more, read, reads, lowered⟩)
      · exact .inl same
      · have whole : ¬ name.Broken := by simp [Broken, read]
        have also : ¬ other.Broken := by simp [Broken, reads]
        exact .inr ⟨whole, also,
          (caseVariant_iff whole also).mp (.inr ⟨text, more, read, reads, lowered⟩)⟩

theorem alike_iff : name.Alike other ↔ name.folded = other.folded := by
  by_cases broken : name.Broken ∨ other.Broken
  · unfold Alike
    rw [← folded_eq_iff]
    constructor
    · rintro ((rfl | ⟨text, more, read, reads, _⟩) | ⟨_, same⟩)
      · rfl
      · rcases broken with none | none
        · cases none.symm.trans read
        · cases none.symm.trans reads
      · exact same
    · intro same
      exact .inr ⟨broken, same⟩
  · obtain ⟨whole, also⟩ := not_or.mp broken
    rw [← caseVariant_iff whole also, Alike, or_iff_left fun never => broken never.1]

instance (name other : Name) : Decidable (name.Alike other) := decidable_of_iff _ alike_iff.symm

end Name

inductive Component.Agrees (alike : Name → Name → Prop) : Component → Component → Prop where
  | same (component : Component) : Agrees alike component component
  | names {name other : Name} (related : alike name other) :
      Agrees alike (.name name) (.name other)

theorem Component.agrees_iff {component other : Component} :
    Agrees Name.Alike component other ↔ component.folded = other.folded := by
  constructor
  · rintro (_ | related)
    · rfl
    · exact congrArg Component.name (Name.alike_iff.mp related)
  · intro same
    cases component with
    | name name =>
      cases other with
      | name other => exact .names (Name.alike_iff.mpr (Component.name.inj same))
      | _ => cases same
    | _ => cases other <;> first | exact .same _ | cases same

theorem Component.Agrees.mono {few many : Name → Name → Prop}
    (weaker : ∀ name other, few name other → many name other) {component other : Component}
    (agrees : Agrees few component other) : Agrees many component other := by
  cases agrees with
  | same => exact .same _
  | names related => exact .names (weaker _ _ related)

namespace Path

variable {a b : Path} {alike : Name → Name → Prop}

-- The cleaned paths have so many components each, and agree in every place.
def Agree (alike : Name → Name → Prop) (a b : Path) : Prop :=
  List.Forall₂ (Component.Agrees alike) (cleanComponents a.components)
    (cleanComponents b.components)

theorem key_eq_iff_agree : a.key = b.key ↔ Agree Name.Alike a b := by
  rw [key_eq_iff, foldedComponents, foldedComponents, ← List.forall₂_eq_eq_eq,
    List.forall₂_map_left_iff, List.forall₂_map_right_iff, Agree]
  have same : (Component.Agrees Name.Alike) = fun component other =>
      component.folded = other.folded := by
    funext component other
    exact propext Component.agrees_iff
  rw [same]

theorem agree_caseVariant_iff
    (texts : ∀ name, .name name ∈ cleanComponents a.components ++ cleanComponents b.components →
      ¬ name.Broken) : Agree Name.CaseVariant a b ↔ Agree Name.Alike a b := by
  have half {list others : List Component}
      (texts : ∀ name, .name name ∈ list ++ others → ¬ name.Broken)
      (agree : List.Forall₂ (Component.Agrees Name.Alike) list others) :
      List.Forall₂ (Component.Agrees Name.CaseVariant) list others := by
    induction agree with
    | nil => exact .nil
    | cons agrees _ ih =>
      refine .cons ?_ (ih fun name present => texts name (by simp at present ⊢; tauto))
      cases agrees with
      | same => exact .same _
      | names alike =>
        have whole := texts _ (List.mem_append_left _ (List.mem_cons_self ..))
        have also := texts _ (List.mem_append_right _ (List.mem_cons_self ..))
        exact .names ((Name.caseVariant_iff whole also).mpr (Name.alike_iff.mp alike))
  exact ⟨fun agree => agree.imp fun _ _ => Component.Agrees.mono fun _ _ => .inl, half texts⟩

end Path

namespace FileSystem

variable {files : FileSystem} {p root : Path} {name : Name} {goal : Location}

def HoldsDirectory (files : FileSystem) (place : Location) : Prop :=
  ∃ node, files.get? place = some node ∧ node.isDirectory = true

def DirectoriesApart (files : FileSystem) (alike : Name → Name → Prop) : Prop :=
  ∀ place other, files.HoldsDirectory place → files.HoldsDirectory other →
    List.Forall₂ alike place other → place = other

theorem Node.mem_descendantsIn {entries : Entries} {node : Node}
    (stands : entries.find? name = some node) (base : Location) :
    (base ++ [name], node) ∈ descendantsIn base entries ∧
      node.descendants (base ++ [name]) ⊆ descendantsIn base entries := by
  induction entries with
  | nil => cases stands
  | cons entry rest ih =>
    unfold Entries.find? at stands
    rw [descendantsIn]
    split at stands
    · rename_i same
      cases stands
      obtain rfl := same
      exact ⟨by simp, fun _ present => by simp [present]⟩
    · obtain ⟨here, below⟩ := ih stands
      exact ⟨List.mem_append_right _ here, List.subset_append_of_subset_right _ below⟩

theorem Node.mem_descendants {node found : Node} {place : Location}
    (there : node.get? place = some found) (some : place ≠ []) (base : Location) :
    (base ++ place, found) ∈ node.descendants base := by
  induction place generalizing node base with
  | nil => exact absurd rfl some
  | cons name place ih =>
    cases node with
    | directory mode modified entries =>
      simp only [get?] at there
      split at there
      · rename_i child stands
        obtain ⟨here, below⟩ := mem_descendantsIn stands base
        rw [descendants]
        by_cases none : place = []
        · subst none
          cases there
          exact here
        · have deeper := below (ih there none (base ++ [name]))
          rwa [List.append_assoc] at deeper
      · cases there
    | _ => cases there

theorem directoriesApart_of_descendants {alike : Name → Name → Prop}
    (apart : ∀ place ∈ [] :: (files.root.descendants []).map Prod.fst,
      ∀ other ∈ [] :: (files.root.descendants []).map Prod.fst,
        List.Forall₂ alike place other → place = other) : files.DirectoriesApart alike := by
  have listed (place : Location) (stands : files.HoldsDirectory place) :
      place ∈ [] :: (files.root.descendants []).map Prod.fst := by
    obtain ⟨node, there, _⟩ := stands
    by_cases atRoot : place = []
    · simp [atRoot]
    · have below := Node.mem_descendants there atRoot []
      exact List.mem_cons_of_mem _ (List.mem_map.mpr ⟨_, below, rfl⟩)
  intro place other stands also
  exact apart place (listed place stands) other (listed other also)

structure IsStraight (files : FileSystem) (root : Path) : Prop where
  cleaned : root.clean = root
  unlinked : ∀ base, files.locate root = .ok base → files.LeadsPlainly root base

theorem holdsDirectory_of_lists {entry : Name × Kind} (lists : files.Lists p entry) :
    ∃ place, files.locate p = .ok place ∧ files.HoldsDirectory place := by
  obtain ⟨_, read, _⟩ := lists
  obtain ⟨_, _, _, stands, _⟩ := readDirectory_iff.mp read
  obtain ⟨place, located, there⟩ := status_iff.mp stands
  exact ⟨place, located, _, there, rfl⟩

theorem locate_listed (tidy : files.root.isTidy = true) (lists : files.Lists p (name, .directory))
    (led : files.locate (p.child name) = .ok goal) :
    ∃ place, files.locate p = .ok place ∧ goal = place ++ [name] := by
  obtain ⟨listed, read, among⟩ := lists
  have proper := (names_of_readDirectory tidy read).2 _ among
  obtain ⟨mode, modified, entries, stands, rfl⟩ := readDirectory_iff.mp read
  obtain ⟨place, located, there⟩ := status_iff.mp stands
  obtain ⟨⟨other, node⟩, present, same⟩ := List.mem_map.mp among
  obtain ⟨rfl, kind⟩ := Prod.mk.inj same
  refine ⟨place, located, locate_child located proper ?_ led⟩
  intro target
  rw [get?_listed tidy there present]
  rintro ⟨⟩
  cases kind

end FileSystem

namespace Scan

variable {scene : Scene} {roots : List Path} {workers capacity : Nat} {state : State}
  {events : List Event} {files : FileSystem} {root path : Path} {depth : Nat}

theorem Below.exists_along (tidy : files.root.isTidy = true) (below : Below files root depth path) :
    ∃ names, (∀ name ∈ names, name.Proper) ∧ path = root.along names ∧
      ∀ goal, files.locate path = .ok goal →
        ∃ base, files.locate root = .ok base ∧ goal = base ++ names := by
  induction below with
  | root => exact ⟨[], by simp, rfl, fun goal located => ⟨goal, located, by simp⟩⟩
  | @child depth path name _ lists _ ih =>
    obtain ⟨names, proper, rfl, above⟩ := ih
    obtain ⟨entries, read, among⟩ := lists
    have also := (names_of_readDirectory tidy read).2 _ among
    refine ⟨names ++ [name], ?_, (along_concat ..).symm, ?_⟩
    · exact List.forall_mem_append.mpr ⟨proper, List.forall_mem_singleton.mpr also⟩
    · intro goal led
      obtain ⟨place, located, rfl⟩ := locate_listed tidy ⟨entries, read, among⟩ led
      obtain ⟨base, start, rfl⟩ := above place located
      exact ⟨base, start, List.append_assoc ..⟩

theorem Below.grounded (tidy : files.root.isTidy = true) (straight : files.IsStraight root)
    (below : Below files root depth path) {place : Location}
    (located : files.locate path = .ok place) :
    ∃ ground names, Grounded (cleanComponents path.components) ground names ∧
      place = originOf files.current ground ++ names := by
  obtain ⟨others, proper, rfl, led⟩ := below.exists_along tidy
  obtain ⟨base, start, rfl⟩ := led place located
  obtain ⟨ground, names, grounded, _⟩ := root.clean_grounded
  refine ⟨ground, names ++ others, grounded.along straight.cleaned proper, ?_⟩
  rw [(straight.unlinked base start).goal_eq grounded, List.append_assoc]

theorem Target.eq_of_key (tidy : scene.files.root.isTidy = true)
    (straight : ∀ root ∈ roots, scene.files.IsStraight root)
    (apart : scene.files.DirectoriesApart Name.Alike) {other : Path}
    (target : Target scene roots path) (also : Target scene roots other)
    (same : path.key = other.key) :
    path.clean = other.clean ∧ scene.files.locate path = scene.files.locate other := by
  obtain ⟨root, listed, depth, _, below, marked⟩ := target
  obtain ⟨root', listed', depth', _, below', marked'⟩ := also
  obtain ⟨place, located, stands⟩ := holdsDirectory_of_lists marked
  obtain ⟨place', located', stands'⟩ := holdsDirectory_of_lists marked'
  obtain ⟨ground, names, grounded, rfl⟩ := below.grounded tidy (straight root listed) located
  obtain ⟨ground', names', grounded', rfl⟩ := below'.grounded tidy (straight root' listed') located'
  have folded := grounded'.folded
  rw [← foldedComponents, ← key_eq_iff.mp same] at folded
  obtain ⟨rfl, equal⟩ := grounded.folded.unique folded
  have related : List.Forall₂ Name.Alike names names' := by
    have forms : List.Forall₂ (fun name other => name.folded = Name.folded other) names names' := by
      rw [← List.forall₂_eq_eq_eq, List.forall₂_map_left_iff, List.forall₂_map_right_iff] at equal
      exact equal
    exact forms.imp fun _ _ => Name.alike_iff.mpr
  have unmoved : List.Forall₂ Name.Alike (originOf scene.files.current ground)
      (originOf scene.files.current ground) :=
    List.forall₂_same.mpr fun _ _ => .inl (.inl rfl)
  have places := apart _ _ stands stands' (List.rel_append unmoved related)
  obtain rfl := List.append_cancel_left places
  refine ⟨?_, located.trans located'.symm⟩
  apply clean_congr
  rw [← cleanComponents_steps, ← cleanComponents_steps, grounded.spelled, grounded'.spelled]

-- Two paths have one key exactly if their cleaned forms have so many components each and agree in
-- every place, up to names that are alike; and where all names are text these are the case variants.
-- So where no two directories of a tree lie apart in alike names alone, a scan that was run to its
-- end from straight roots reports each directory that it is to find.
theorem keys_merge_alike (a b : Path) :
    (a.key = b.key ↔ Agree Name.Alike a b) ∧
    ((∀ name, .name name ∈ cleanComponents a.components ++ cleanComponents b.components →
      ¬ name.Broken) → (a.key = b.key ↔ Agree Name.CaseVariant a b)) ∧
    ∀ (scene : Scene) (roots : List Path) (workers capacity : Nat) (events : List Event)
      (state : State), Exhaustive scene roots workers capacity events state →
        scene.files.root.isTidy = true → (∀ root ∈ roots, scene.files.IsStraight root) →
          scene.files.DirectoriesApart Name.Alike → ∀ path, Target scene roots path →
            ∃ repository ∈ (state.outcome .idle).repositories,
              repository = repositoryAt scene repository.path ∧
                repository.path.clean = path.clean ∧
                  scene.files.locate repository.path = scene.files.locate path := by
  refine ⟨key_eq_iff_agree, ?_, ?_⟩
  case refine_1 =>
    intro texts
    rw [key_eq_iff_agree, agree_caseVariant_iff texts]
  case refine_2 =>
    intro scene roots workers capacity events state full tidy straight apart path target
    obtain ⟨repository, found, same⟩ := full.found_of_target target
    obtain ⟨also, whole⟩ := (full.run.sound (initial_fresh roots workers capacity)).found _ found
    exact ⟨repository, by simpa [State.outcome] using found, whole,
      also.eq_of_key tidy straight apart target same⟩

def pairedScene (first second : Name) : Scene where
  files :=
    let mark : Name × Node := (EntryClass.sentinelBytes, .directory 0o755 .epoch [])
    let holding (name : Name) : Name × Node := (name, .directory 0o755 .epoch [mark])
    ⟨.directory 0o755 .epoch
      [(Text.Utf8.ofString "w", .directory 0o755 .epoch [holding first, holding second])], []⟩
  remote _ := .failure
  depthLimit := 0
  sink := .absent

def pairedCourse : Course := ⟨State.initial [Path.ofString "/w"] 1 8, none⟩

theorem pairedScene_straight (first second : Name) :
    ∀ root ∈ [Path.ofString "/w"], (pairedScene first second).files.IsStraight root := by
  intro root listed
  obtain rfl := List.mem_singleton.mp listed
  refine ⟨by decide, ?_⟩
  intro base located
  obtain rfl : [Text.Utf8.ofString "w"] = base := Except.ok.inj located
  exact ⟨rfl, rfl⟩

theorem pairedScene_target {first second name : Name}
    (listed : (name, Kind.directory) ∈ [(first, Kind.directory), (second, .directory)])
    (descends : EntryClass.ofEntry name.display .directory = .descend)
    (holds : (pairedScene first second).files.Lists ((Path.ofString "/w").child name) sentinel) :
    Target (pairedScene first second) [Path.ofString "/w"] ((Path.ofString "/w").child name) :=
  ⟨_, List.mem_singleton_self _, 1, .inl rfl, .child .root ⟨_, rfl, listed⟩ descends, holds⟩

theorem keys_merge_alike_paired :
    let scene := pairedScene [0xFF] (Text.Utf8.ofString "A")
    let state := (pairedCourse.runFor scene .promptly 130).state
    Agree Name.CaseVariant (Path.ofString "/W/ΟΔΟΣ") (Path.ofString "/w/x/../οδος/.") ∧
    ∃ repository ∈ (state.outcome .idle).repositories,
      repository.path.clean = (Path.ofString "/w").child [0xFF] := by
  intro scene state
  obtain ⟨_, texts, scans⟩ :=
    keys_merge_alike (Path.ofString "/W/ΟΔΟΣ") (Path.ofString "/w/x/../οδος/.")
  constructor
  · apply (texts ?_).mp
    · decide +kernel
    · have spelled : cleanComponents (Path.ofString "/W/ΟΔΟΣ").components ++
          cleanComponents (Path.ofString "/w/x/../οδος/.").components =
            .root :: .name (Text.Utf8.ofString "W") :: .name (Text.Utf8.ofString "ΟΔΟΣ") ::
              .root :: ["w", "οδος"].map fun name => .name (Text.Utf8.ofString name) := by
        decide +kernel
      have whole : ∀ name ∈ ["W", "ΟΔΟΣ", "w", "οδος"].map Text.Utf8.ofString,
          ¬ Name.Broken name := by decide +kernel
      intro name present
      rw [spelled] at present
      exact whole name (by simpa using present)
  · have full : Exhaustive scene [Path.ofString "/w"] 1 8
        (pairedCourse.eventsFor scene .promptly 130) state :=
      .ofCourse (by decide) rfl .start (by decide +kernel) (by decide +kernel) (by decide +kernel)
    have apart : scene.files.DirectoriesApart Name.Alike :=
      directoriesApart_of_descendants (by decide +kernel)
    have target : Target scene [Path.ofString "/w"] ((Path.ofString "/w").child [0xFF]) :=
      pairedScene_target (by simp) (by decide +kernel) ⟨_, rfl, List.mem_singleton_self _⟩
    obtain ⟨repository, reported, _, cleaned, _⟩ := scans scene _ _ _ _ _ full (by decide)
      (pairedScene_straight _ _) apart _ target
    have spelled : ((Path.ofString "/w").child [0xFF]).clean = (Path.ofString "/w").child [0xFF] := by
      decide
    exact ⟨repository, reported, cleaned.trans spelled⟩

-- Two names that are no text are read alike, and one of two repositories in them goes unreported.
theorem keys_merge_broken_names :
    let one := (Path.ofString "/w").child [0xFF]
    let other := (Path.ofString "/w").child [0xFE]
    let scene := pairedScene [0xFF] [0xFE]
    let state := (pairedCourse.runFor scene .promptly 130).state
    (one.key = other.key ∧ ¬ Agree Name.CaseVariant one other) ∧
    Exhaustive scene [Path.ofString "/w"] 1 8 (pairedCourse.eventsFor scene .promptly 130) state ∧
    scene.files.root.isTidy = true ∧
    (∀ root ∈ [Path.ofString "/w"], scene.files.IsStraight root) ∧
    scene.files.DirectoriesApart Name.CaseVariant ∧
    Target scene [Path.ofString "/w"] other ∧
    ∀ repository ∈ (state.outcome .idle).repositories,
      scene.files.locate repository.path ≠ scene.files.locate other := by
  intro one other scene state
  have differ : ¬ Agree Name.CaseVariant one other := by
    have spelled : cleanComponents one.components =
        [.root, .name (Text.Utf8.ofString "w"), .name [0xFF]] := by decide
    have spells : cleanComponents other.components =
        [.root, .name (Text.Utf8.ofString "w"), .name [0xFE]] := by decide
    rw [Agree, spelled, spells]
    rintro (_ | ⟨_, _ | ⟨_, _ | ⟨_ | related, _⟩⟩⟩)
    exact absurd related (by decide +kernel)
  refine ⟨⟨by decide +kernel, differ⟩, ?_, by decide, pairedScene_straight _ _, ?_, ?_, ?_⟩
  · exact .ofCourse (by decide) rfl .start (by decide +kernel) (by decide +kernel)
      (by decide +kernel)
  · exact directoriesApart_of_descendants (by decide +kernel)
  · exact pairedScene_target (by simp) (by decide +kernel) ⟨_, rfl, List.mem_singleton_self _⟩
  · decide +kernel

end Scan

end RepoFinder
