import Mathlib.Logic.Relation
import RepoFinder.Path.Clean
import RepoFinder.Proofs.Path.Written

namespace RepoFinder.Path

variable {p : Path} {list next kept : List Component} {ground : Ground} {names : List Name}
  {component : Component}

-- One rule, applied once: a dot is dropped, a name falls away with the parent step behind it, and
-- so does a parent step directly below the root.
inductive Shortens : List Component → List Component → Prop where
  | dot (front back : List Component) : Shortens (front ++ .here :: back) (front ++ back)
  | cancel (front : List Component) (name : Name) (back : List Component) :
      Shortens (front ++ .name name :: .parent :: back) (front ++ back)
  | atRoot (front back : List Component) :
      Shortens (front ++ .root :: .parent :: back) (front ++ .root :: back)

abbrev Reduces : List Component → List Component → Prop := Relation.ReflTransGen Shortens

def IsNormal (list : List Component) : Prop := ∀ next, ¬ Shortens list next

theorem Shortens.sublist (shortens : Shortens list next) : next.Sublist list := by
  cases shortens with
  | dot front back => exact (List.sublist_cons_self ..).append_left front
  | cancel front name back =>
    exact ((List.sublist_cons_self ..).trans (List.sublist_cons_self ..)).append_left front
  | atRoot front back => exact ((List.sublist_cons_self ..).cons_cons _).append_left front

theorem Shortens.length_lt (shortens : Shortens list next) : next.length < list.length := by
  cases shortens <;> simp only [List.length_append, List.length_cons] <;> omega

theorem shortens_wellFounded : WellFounded fun next list => Shortens list next :=
  Subrelation.wf Shortens.length_lt (measure List.length).wf

theorem Reduces.sublist (reduces : Reduces list next) : next.Sublist list := by
  induction reduces with
  | refl => exact List.Sublist.refl _
  | tail _ shortens ih => exact shortens.sublist.trans ih

theorem Reduces.eq_of_isNormal (reduces : Reduces list next) (normal : IsNormal list) :
    next = list := by
  rcases reduces.cases_head with rfl | ⟨middle, shortens, _⟩
  · rfl
  · exact absurd shortens (normal middle)

-- No rule changes what the components come to, on top of whatever was kept before.
theorem Shortens.foldl_eq (shortens : Shortens list next) (kept : List Component) :
    list.foldl cleanStep kept = next.foldl cleanStep kept := by
  cases shortens <;> simp [cleanStep]

theorem Reduces.cleanComponents_eq (reduces : Reduces list next) :
    cleanComponents list = cleanComponents next := by
  induction reduces with
  | refl => rfl
  | tail _ shortens ih => rw [ih, cleanComponents, cleanComponents, shortens.foldl_eq]

theorem reduces_cleanStep (kept rest : List Component) (component : Component) :
    Reduces (kept.reverse ++ component :: rest) ((cleanStep kept component).reverse ++ rest) := by
  have pushed : Reduces (kept.reverse ++ component :: rest)
      ((component :: kept).reverse ++ rest) := by
    rw [List.reverse_cons, List.append_assoc]
    exact .refl
  cases component with
  | root => exact pushed
  | here => exact .single (.dot _ _)
  | name name => exact pushed
  | parent =>
    cases kept with
    | nil => exact pushed
    | cons last below =>
      cases last with
      | here => exact pushed
      | parent => exact pushed
      | root =>
        have rule : Reduces _ _ := .single (.atRoot below.reverse rest)
        simpa [cleanStep] using rule
      | name name =>
        have rule : Reduces _ _ := .single (.cancel below.reverse name rest)
        simpa [cleanStep] using rule

theorem reduces_clean (list : List Component) : Reduces list (cleanComponents list) := by
  have folded (rest kept : List Component) :
      Reduces (kept.reverse ++ rest) (rest.foldl cleanStep kept).reverse := by
    induction rest generalizing kept with
    | nil =>
      rw [List.append_nil]
      exact .refl
    | cons component rest ih => exact (reduces_cleanStep kept rest component).trans (ih _)
  exact folded list []

theorem Grounded.ordered (grounded : Grounded list ground names) :
    list.Pairwise fun early late => late = .parent → early = .parent := by
  have named : (names.map Component.name).Pairwise fun early late =>
      late = .parent → early = .parent := by
    rw [List.pairwise_map]
    exact List.pairwise_of_forall fun _ _ up => by cases up
  rw [grounded.spelled, List.pairwise_append]
  refine ⟨?_, named, ?_⟩
  · cases ground with
    | root => exact List.pairwise_singleton ..
    | above steps => exact List.pairwise_replicate.mpr (.inr id)
  · intro early _ late present up
    obtain ⟨_, _, rfl⟩ := List.mem_map.mp present
    cases up

theorem Grounded.isNormal (grounded : Grounded list ground names) : IsNormal list := by
  intro next shortens
  have ordered := grounded.ordered
  cases shortens with
  | dot front back =>
    rcases grounded.mem (List.mem_append_right _ (List.mem_cons_self ..)) with
      ⟨never, _⟩ | never | ⟨_, _, never⟩ <;> cases never
  | cancel front name back =>
    have pair := (List.pairwise_append.mp ordered).2.1
    cases (List.rel_of_pairwise_cons pair (List.mem_cons_self ..)) rfl
  | atRoot front back =>
    have pair := (List.pairwise_append.mp ordered).2.1
    cases (List.rel_of_pairwise_cons pair (List.mem_cons_self ..)) rfl

theorem Grounded.cleanComponents_eq (grounded : Grounded list ground names) :
    cleanComponents list = list :=
  (reduces_clean list).eq_of_isNormal grounded.isNormal

theorem Grounded.push (grounded : Grounded list ground names) {name : Name}
    (proper : name.Proper) : Grounded (list ++ [.name name]) ground (names ++ [name]) where
  spelled := by simp [grounded.spelled]
  proper := by simpa [or_imp, forall_and] using ⟨grounded.proper, proper⟩

theorem Grounded.pop {name : Name} (grounded : Grounded (list ++ [.name name]) ground names) :
    ∃ before, Grounded list ground before := by
  have spelled := grounded.spelled
  rcases List.eq_nil_or_concat names with rfl | ⟨before, last, rfl⟩
  · rw [List.map_nil, List.append_nil] at spelled
    have present : Component.name name ∈ ground.components := by simp [← spelled]
    cases ground with
    | root => cases List.mem_singleton.mp present
    | above steps => cases List.eq_of_mem_replicate present
  · rw [List.concat_eq_append, List.map_append, ← List.append_assoc] at spelled
    refine ⟨before, (List.append_inj' spelled rfl).1, ?_⟩
    intro other listed
    exact grounded.proper other (by simp [listed])

theorem Grounded.of_parent (grounded : Grounded (list ++ [.parent]) ground names) :
    ∃ steps, ground = .above steps ∧ list ++ [.parent] = List.replicate steps .parent := by
  have spelled := grounded.spelled
  rcases List.eq_nil_or_concat names with rfl | ⟨before, last, rfl⟩
  · rw [List.map_nil, List.append_nil] at spelled
    cases ground with
    | root =>
      rcases List.append_eq_singleton_iff.mp spelled with ⟨_, last⟩ | ⟨_, last⟩ <;> cases last
    | above steps => exact ⟨steps, rfl, spelled⟩
  · rw [List.concat_eq_append, List.map_append, ← List.append_assoc] at spelled
    cases (List.append_inj' spelled rfl).2

theorem Grounded.here_not_mem (grounded : Grounded list ground names) : .here ∉ list := by
  intro present
  rcases grounded.mem present with ⟨never, _⟩ | never | ⟨_, _, never⟩ <;> cases never

theorem Grounded.cleanStep (grounded : Grounded kept.reverse ground names)
    (noRoot : component ≠ .root) (proper : ∀ name, component = .name name → name.Proper) :
    ∃ base others, Grounded (Path.cleanStep kept component).reverse base others ∧
      (base = .root ↔ ground = .root) := by
  cases component with
  | root => exact absurd rfl noRoot
  | here => exact ⟨ground, names, grounded, Iff.rfl⟩
  | name name =>
    have pushed := grounded.push (proper name rfl)
    rw [← List.reverse_cons] at pushed
    exact ⟨ground, names ++ [name], pushed, Iff.rfl⟩
  | parent =>
    cases kept with
    | nil =>
      refine ⟨.above 1, [], ⟨rfl, by simp⟩, by simp, ?_⟩
      rintro rfl
      cases grounded.spelled
    | cons last below =>
      cases last with
      | here => exact absurd (by simp) grounded.here_not_mem
      | root => exact ⟨ground, names, grounded, Iff.rfl⟩
      | parent =>
        have spelled := grounded
        rw [List.reverse_cons] at spelled
        obtain ⟨steps, rfl, parents⟩ := spelled.of_parent
        have pushed : Path.cleanStep (.parent :: below) .parent = .parent :: .parent :: below := rfl
        refine ⟨.above (steps + 1), [], ⟨?_, by simp⟩, by simp⟩
        rw [pushed, List.reverse_cons, List.reverse_cons, parents, Ground.components,
          List.replicate_succ', List.map_nil, List.append_nil]
      | name name =>
        rw [List.reverse_cons] at grounded
        obtain ⟨before, popped⟩ := grounded.pop
        exact ⟨ground, before, popped, Iff.rfl⟩

def grow (kept : Path) : Component → Path
  | .here => kept
  | .parent => match kept.components.getLast?, kept.parent? with
    | some (.name _), some shorter => shorter
    | _, _ => if kept.isAbsolute then kept else kept.join ⟨Name.parent⟩
  | .root => kept.join ⟨[separator]⟩
  | .name name => kept.join ⟨name⟩

def grown (p : Path) : Path :=
  let kept := p.components.foldl grow empty
  if kept.bytes = [] then kept.join ⟨Name.here⟩ else kept

theorem Grounded.grow_eq (grounded : Grounded kept.reverse ground names)
    (noRoot : component ≠ .root) (proper : ∀ name, component = .name name → name.Proper) :
    grow (ofComponents kept.reverse) component =
      ofComponents (Path.cleanStep kept component).reverse := by
  cases component with
  | root => exact absurd rfl noRoot
  | here => rfl
  | name name =>
    have whole : separator ∉ segmentOf (.name name) := (proper name rfl).whole
    have joined := grounded.join_eq whole noRoot
    rw [← List.reverse_cons] at joined
    exact joined
  | parent =>
    have whole : separator ∉ segmentOf .parent := by decide
    have joined := grounded.join_eq whole noRoot
    rw [← List.reverse_cons] at joined
    cases kept with
    | nil => rfl
    | cons last below =>
      have components := grounded.components_eq (by simp)
      have ends : (ofComponents (last :: below).reverse).components.getLast? = some last := by
        rw [components, List.reverse_cons, List.getLast?_concat]
      cases last with
      | here => exact absurd (by simp) grounded.here_not_mem
      | root =>
        have first := grounded.root_not_mem_tail
        rw [List.reverse_cons] at first
        cases backwards : below.reverse with
        | nil =>
          obtain rfl := List.reverse_eq_nil_iff.mp backwards
          rfl
        | cons => simp [backwards] at first
      | parent =>
        have spelled := grounded
        rw [List.reverse_cons] at spelled
        obtain ⟨steps, rfl, _⟩ := spelled.of_parent
        have relative := grounded.isAbsolute_eq
        simp only [grow, ends, relative]
        exact joined
      | name name =>
        rw [List.reverse_cons] at grounded ends
        have popped := grounded.parent?_push
        rw [List.reverse_cons]
        simp only [grow, ends, popped]
        rfl

theorem Grounded.foldl_eq (rest : List Component) (noRoot : .root ∉ rest)
    (proper : ∀ name, .name name ∈ rest → name.Proper)
    (grounded : Grounded kept.reverse ground names) :
    ∃ base others, Grounded (rest.foldl Path.cleanStep kept).reverse base others ∧
      (base = .root ↔ ground = .root) ∧
      rest.foldl grow (ofComponents kept.reverse) =
        ofComponents (rest.foldl Path.cleanStep kept).reverse := by
  induction rest generalizing kept ground names with
  | nil => exact ⟨ground, names, grounded, Iff.rfl, rfl⟩
  | cons component rest ih =>
    rw [List.mem_cons, not_or] at noRoot
    have named (name : Name) (same : component = .name name) : name.Proper :=
      proper name (by simp [same])
    obtain ⟨base, others, next, rooted⟩ := grounded.cleanStep (Ne.symm noRoot.1) named
    obtain ⟨last, more, whole, also, same⟩ :=
      ih noRoot.2 (fun name later => proper name (List.mem_cons_of_mem _ later)) next
    refine ⟨last, more, whole, also.trans rooted, ?_⟩
    rw [List.foldl_cons, List.foldl_cons, grounded.grow_eq (Ne.symm noRoot.1) named]
    exact same

theorem cleanComponents_steps (p : Path) :
    cleanComponents p.components = cleanComponents p.steps := by
  rcases p.components_cases with same | ⟨_, dot⟩
  · rw [same]
  · rw [dot]
    rfl

theorem foldl_grow_steps (p : Path) :
    p.components.foldl grow empty = p.steps.foldl grow empty := by
  rcases p.components_cases with same | ⟨_, dot⟩
  · rw [same]
  · rw [dot]
    rfl

theorem clean_grounded (p : Path) : ∃ ground names,
    Grounded (cleanComponents p.components) ground names ∧
      (ground = .root ↔ p.isAbsolute = true) ∧
      p.components.foldl grow empty = ofComponents (cleanComponents p.components) := by
  have noRoot : .root ∉ p.segments.filterMap component? := by
    intro present
    rcases mem_filterMap_component? present with never | ⟨_, _, never, _⟩ <;> cases never
  have proper (name : Name) (present : .name name ∈ p.segments.filterMap component?) :
      name.Proper := by
    apply proper_of_mem_steps (p := p)
    rw [steps_eq]
    exact List.mem_append_right _ present
  rw [cleanComponents_steps, foldl_grow_steps, steps_eq, cleanComponents]
  cases absolute : p.isAbsolute with
  | true =>
    have atRoot : Grounded [Component.root].reverse .root [] := ⟨rfl, by simp⟩
    obtain ⟨base, names, grounded, rooted, grew⟩ := atRoot.foldl_eq _ noRoot proper
    exact ⟨base, names, grounded, by simp [rooted], grew⟩
  | false =>
    have nowhere : Grounded ([] : List Component).reverse (.above 0) [] := ⟨rfl, by simp⟩
    obtain ⟨base, names, grounded, rooted, grew⟩ := nowhere.foldl_eq _ noRoot proper
    exact ⟨base, names, grounded, by simp [rooted], grew⟩

theorem clean_eq (p : Path) :
    p.clean = if cleanComponents p.components = [] then ⟨Name.here⟩
      else ofComponents (cleanComponents p.components) := by
  unfold clean
  split
  · rename_i none
    rw [if_pos none]
  · rename_i some
    rw [if_neg some]

theorem components_clean (p : Path) :
    p.clean.components =
      if cleanComponents p.components = [] then [.here] else cleanComponents p.components := by
  obtain ⟨ground, names, grounded, _⟩ := p.clean_grounded
  rw [clean_eq]
  split
  · rfl
  · rename_i some
    exact grounded.components_eq some

theorem steps_clean (p : Path) : p.clean.steps = cleanComponents p.components := by
  obtain ⟨ground, names, grounded, _⟩ := p.clean_grounded
  rw [steps, components_clean]
  split
  · rename_i none
    rw [none]
    rfl
  · apply List.filter_eq_self.mpr
    intro component present
    rw [decide_eq_true_eq]
    rintro rfl
    exact grounded.here_not_mem present

theorem clean_congr {p other : Path} (same : cleanComponents p.steps = cleanComponents other.steps) :
    p.clean = other.clean := by
  rw [clean_eq, clean_eq, cleanComponents_steps, cleanComponents_steps, same]

theorem clean_clean (p : Path) : p.clean.clean = p.clean := by
  obtain ⟨ground, names, grounded, _⟩ := p.clean_grounded
  apply clean_congr
  rw [steps_clean, grounded.cleanComponents_eq, cleanComponents_steps]

theorem clean_join (p rest : Path) : (p.join rest).clean = (p.clean.join rest).clean := by
  cases relative : rest.isAbsolute with
  | true => rw [join_absolute relative, join_absolute relative]
  | false =>
    apply clean_congr
    obtain ⟨ground, names, grounded, _⟩ := p.clean_grounded
    have kept : p.steps.foldl cleanStep [] = (cleanComponents p.components).foldl cleanStep [] := by
      have again := grounded.cleanComponents_eq
      rw [cleanComponents_steps] at again ⊢
      exact (List.reverse_inj.mp again).symm
    rw [steps_join relative, steps_join relative, steps_clean, cleanComponents, cleanComponents,
      List.foldl_append, List.foldl_append, kept]

theorem isAbsolute_clean (p : Path) : p.clean.isAbsolute = p.isAbsolute := by
  obtain ⟨ground, names, grounded, rooted, _⟩ := p.clean_grounded
  rw [clean_eq]
  split
  · rename_i none
    have relative : ground ≠ .root := by
      rintro rfl
      rw [none] at grounded
      cases grounded.spelled
    rw [Ne, rooted, Bool.not_eq_true] at relative
    rw [relative]
    rfl
  · rw [grounded.isAbsolute_eq, Bool.eq_iff_iff, decide_eq_true_eq, rooted]

theorem grown_eq_clean (p : Path) : p.grown = p.clean := by
  obtain ⟨ground, names, grounded, _, grew⟩ := p.clean_grounded
  rw [grown, grew, clean_eq]
  by_cases none : cleanComponents p.components = []
  · rw [if_pos none, none]
    rfl
  · rw [if_neg none, if_neg (grounded.bytes_ne_nil none)]

theorem clean_sublist (p : Path) :
    ((cleanComponents p.components).map segmentOf).Sublist p.segments := by
  have fewer := (reduces_clean p.steps).sublist.map segmentOf
  rw [cleanComponents_steps]
  apply fewer.trans
  rw [steps_eq, List.map_append]
  cases absolute : p.isAbsolute with
  | true =>
    obtain ⟨others, segments, _⟩ := p.segmentsOf_head absolute
    rw [segments, List.filterMap_cons_none component?_nil]
    exact (filterMap_component?_sublist others).cons_cons []
  | false => exact filterMap_component?_sublist p.segments

-- What is left of the components of a path when no rule applies any more does not depend on the
-- rules' order. It is what the cleaned path is written from, with single separators and none at the
-- end, or a dot if nothing is left. So to clean a path twice, or to clean what another path is put
-- behind, makes no difference.
theorem clean_is_normal_form (p : Path) :
    (WellFounded fun next list => Shortens list next) ∧
    (∃ normal, Reduces p.components normal ∧ IsNormal normal ∧
      (∀ other, Reduces p.components other →
        Reduces other normal ∧ (IsNormal other → other = normal)) ∧
      p.clean.components = (if normal = [] then [.here] else normal) ∧
      ((p.isAbsolute = true ∧ ∃ names : List Name, normal = .root :: names.map .name) ∨
        p.isAbsolute = false ∧ ∃ (steps : Nat) (names : List Name),
          normal = List.replicate steps .parent ++ names.map .name)) ∧
    ¬ [separator, separator] <:+: p.clean.bytes ∧
    (p.clean.bytes.getLast? = some separator → p.clean.bytes = [separator]) ∧
    p.clean.bytes ≠ [] ∧ p.clean.isAbsolute = p.isAbsolute ∧
    p.grown = p.clean ∧ p.clean.clean = p.clean ∧
    ∀ rest, (p.join rest).clean = (p.clean.join rest).clean := by
  obtain ⟨ground, names, grounded, rooted, _⟩ := p.clean_grounded
  refine ⟨shortens_wellFounded, ⟨cleanComponents p.components, reduces_clean _, grounded.isNormal, ?_,
    p.components_clean, ?_⟩, ?_, ?_, ?_, p.isAbsolute_clean, p.grown_eq_clean, p.clean_clean,
    p.clean_join⟩
  · intro other reduces
    have same := reduces.cleanComponents_eq
    have on := reduces_clean other
    rw [← same] at on
    exact ⟨on, fun normal => (on.eq_of_isNormal normal).symm⟩
  · have spelled := grounded.spelled
    cases ground with
    | root => exact .inl ⟨rooted.mp rfl, names, spelled⟩
    | above steps =>
      have relative : p.isAbsolute = false := by simpa using rooted
      exact .inr ⟨relative, steps, names, spelled⟩
  all_goals rw [clean_eq]
  · split
    · decide
    · exact grounded.undoubled
  · split
    · decide
    · intro ends
      by_cases atRoot : cleanComponents p.components = [.root]
      · rw [atRoot]
        rfl
      · exact absurd ends (grounded.unended atRoot)
  · split
    · decide
    · rename_i some
      exact grounded.bytes_ne_nil some

end RepoFinder.Path
