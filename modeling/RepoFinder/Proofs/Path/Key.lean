import RepoFinder.Proofs.Path.NormalForm
import RepoFinder.Proofs.Text.Lowercase
import RepoFinder.Proofs.Text.Plain

namespace RepoFinder

variable {name : Name} {names : List Name}

namespace Name

open Text.Utf8

def folded (name : Name) : Name := encode (Text.lower (decodeLossy name))

theorem folded_cut (front back : Name) :
    folded (front ++ Path.separator :: back) = front.folded ++ Path.separator :: back.folded := by
  have slash : Char.ofNat Path.separator.toNat = '/' := by decide
  have spelled : encode ['/'] = [Path.separator] := by decide
  rw [folded, decodeLossy_cut (by decide), slash, Text.lower_cut Text.isBarrier_slash,
    ← List.singleton_append, encode_append, encode_append, spelled]
  rfl

theorem folded_joinSegments (segments : List Name) :
    folded (Path.joinSegments segments) = Path.joinSegments (segments.map folded) := by
  induction segments with
  | nil => rfl
  | cons first others ih =>
    cases others with
    | nil => rfl
    | cons second more =>
      rw [Path.joinSegments_cons (by simp), folded_cut, ih, List.map_cons (l := second :: more),
        Path.joinSegments_cons (by simp)]

theorem folded_folded (name : Name) : name.folded.folded = name.folded := by
  rw [folded, folded, decodeLossy_encode, Text.lower_lower]

-- What is spelled before the small letters is folded from itself alone.
theorem eq_encode_of_folded (text : List Char) (same : name.folded = encode text)
    (less : ∀ c ∈ text, c.toNat < 0x61) : name = encode text := by
  have lowered : decodeLossy name = text := Text.eq_of_lower_eq (encode_injective same) less
  refine (encode_of_decodeLossy lowered ?_).symm
  intro present
  exact absurd (less _ present) (by decide)

theorem Proper.folded (proper : name.Proper) : name.folded.Proper where
  filled := fun none => proper.filled (eq_encode_of_folded [] none (List.forall_mem_nil _))
  noDot := fun dot => proper.noDot (eq_encode_of_folded ['.'] dot (by simp))
  noDots := fun dots => proper.noDots (eq_encode_of_folded ['.', '.'] dots (by simp))
  whole := by
    intro present
    have slash : '/' ∈ Text.lower (decodeLossy name) := mem_of_mem_encode present (by decide)
    have before := Text.mem_of_mem_lower slash (by decide)
    exact proper.whole (mem_of_mem_decodeLossy before (by decide))

end Name

namespace Component

def folded : Component → Component
  | .name name => .name name.folded
  | component => component

theorem folded_folded (component : Component) : component.folded.folded = component.folded := by
  cases component with
  | name name => exact congrArg Component.name name.folded_folded
  | _ => rfl

theorem folded_eq_root {component : Component} : component.folded = .root ↔ component = .root := by
  cases component <;> simp [folded]

end Component

namespace Path

variable {a b : Path} {list : List Component} {ground : Ground}

theorem segmentOf_folded (component : Component) :
    segmentOf component.folded = (segmentOf component).folded := by
  cases component <;> rfl

theorem Grounded.folded (grounded : Grounded list ground names) :
    Grounded (list.map Component.folded) ground (names.map Name.folded) where
  spelled := by
    have kept : ground.components.map Component.folded = ground.components := by
      cases ground with
      | root => rfl
      | above steps => exact List.map_replicate
    rw [grounded.spelled, List.map_append, kept, List.map_map, List.map_map]
    rfl
  proper := by
    intro name present
    obtain ⟨whole, listed, rfl⟩ := List.mem_map.mp present
    exact (grounded.proper whole listed).folded

theorem folded_ofComponents (list : List Component) :
    Name.folded (ofComponents list).bytes = (ofComponents (list.map Component.folded)).bytes := by
  by_cases atRoot : list = [.root]
  · rw [atRoot]
    rfl
  · have other : list.map Component.folded ≠ [.root] := by
      intro same
      obtain ⟨component, rfl, folds⟩ := List.map_eq_singleton_iff.mp same
      exact atRoot (by rw [Component.folded_eq_root.mp folds])
    rw [ofComponents_of_ne atRoot, ofComponents_of_ne other, Name.folded_joinSegments, List.map_map,
      List.map_map]
    exact congrArg joinSegments (List.map_congr_left fun component _ =>
      (segmentOf_folded component).symm)

def foldedComponents (p : Path) : List Component :=
  (cleanComponents p.components).map Component.folded

theorem ofText_key (p : Path) :
    ofText p.key =
      if p.foldedComponents = [] then ⟨Name.here⟩ else ofComponents p.foldedComponents := by
  have whole : ofText p.key = ⟨Name.folded p.clean.bytes⟩ := rfl
  rw [whole, clean_eq, foldedComponents]
  by_cases none : cleanComponents p.components = []
  · simp only [none, List.map_nil, if_true]
    rfl
  · rw [if_neg none, if_neg (by simpa using none), folded_ofComponents]

theorem cleanComponents_ofText_key (p : Path) :
    cleanComponents (ofText p.key).components = p.foldedComponents := by
  obtain ⟨ground, names, grounded, _⟩ := p.clean_grounded
  have folded : Grounded p.foldedComponents ground _ := grounded.folded
  rw [ofText_key]
  split
  · rename_i none
    rw [none]
    rfl
  · rename_i some
    rw [folded.components_eq some]
    exact folded.cleanComponents_eq

theorem key_eq_iff : a.key = b.key ↔ a.foldedComponents = b.foldedComponents := by
  constructor
  · intro same
    rw [← cleanComponents_ofText_key, same, cleanComponents_ofText_key]
  · intro same
    have spelled : ofText a.key = ofText b.key := by rw [ofText_key, ofText_key, same]
    exact Text.Utf8.encode_injective (Path.mk.inj spelled)

theorem key_ofText_key (p : Path) : (ofText p.key).key = p.key := by
  rw [key_eq_iff, foldedComponents, cleanComponents_ofText_key, foldedComponents, List.map_map]
  exact List.map_congr_left fun component _ => component.folded_folded

-- Cleaning looks at no name, so it does not matter when names are folded.
theorem cleanStep_folded (kept : List Component) (component : Component) :
    cleanStep (kept.map Component.folded) component.folded =
      (cleanStep kept component).map Component.folded := by
  cases component with
  | parent =>
    cases kept with
    | nil => rfl
    | cons last below => cases last <;> rfl
  | _ => rfl

theorem foldl_cleanStep_folded (list kept : List Component) :
    (list.map Component.folded).foldl cleanStep (kept.map Component.folded) =
      (list.foldl cleanStep kept).map Component.folded := by
  induction list generalizing kept with
  | nil => rfl
  | cons component rest ih =>
    rw [List.map_cons, List.foldl_cons, cleanStep_folded, ih, List.foldl_cons]

theorem key_join (same : a.key = b.key) (rest : Path) : (a.join rest).key = (b.join rest).key := by
  cases relative : rest.isAbsolute with
  | true => rw [join_absolute relative, join_absolute relative]
  | false =>
    have split (p : Path) : (p.join rest).foldedComponents =
        ((rest.steps.map Component.folded).foldl cleanStep p.foldedComponents.reverse).reverse := by
      rw [foldedComponents, foldedComponents, cleanComponents_steps, steps_join relative,
        cleanComponents_steps p, cleanComponents, cleanComponents, List.foldl_append,
        List.map_reverse, List.map_reverse, List.reverse_reverse, foldl_cleanStep_folded]
    rw [key_eq_iff] at same ⊢
    rw [split, split, same]

theorem key_along (same : a.key = b.key) (names : List Name) :
    (a.along names).key = (b.along names).key := by
  induction names generalizing a b with
  | nil => exact same
  | cons name rest ih => exact ih (key_join same ⟨name⟩)

end Path

end RepoFinder
