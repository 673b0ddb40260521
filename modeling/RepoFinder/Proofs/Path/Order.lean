import RepoFinder.Path.Clean

namespace RepoFinder.Path

theorem nameLe_cons {a b : UInt8} {as bs : Name} :
    nameLe (a :: as) (b :: bs) = true ↔ a < b ∨ a = b ∧ nameLe as bs = true := by
  simp [nameLe]

theorem nameLe_total (a b : Name) : nameLe a b = true ∨ nameLe b a = true := by
  induction a generalizing b with
  | nil => exact .inl rfl
  | cons a as ih =>
    cases b with
    | nil => exact .inr rfl
    | cons b bs =>
      rw [nameLe_cons, nameLe_cons]
      by_cases same : a = b
      · rcases ih bs with first | second
        · exact .inl (.inr ⟨same, first⟩)
        · exact .inr (.inr ⟨same.symm, second⟩)
      · rcases UInt8.lt_or_lt_of_ne same with less | more
        · exact .inl (.inl less)
        · exact .inr (.inl more)

theorem nameLe_trans {a b c : Name} (first : nameLe a b = true) (second : nameLe b c = true) :
    nameLe a c = true := by
  induction a generalizing b c with
  | nil => rfl
  | cons a as ih =>
    cases b with
    | nil => cases first
    | cons b bs =>
      cases c with
      | nil => cases second
      | cons c cs =>
        rw [nameLe_cons] at first second ⊢
        rcases first with less | ⟨rfl, first⟩
        · rcases second with also | ⟨rfl, _⟩
          · exact .inl (UInt8.lt_trans less also)
          · exact .inl less
        · rcases second with also | ⟨rfl, second⟩
          · exact .inl also
          · exact .inr ⟨rfl, ih first second⟩

theorem nameLe_antisymm {a b : Name} (first : nameLe a b = true) (second : nameLe b a = true) :
    a = b := by
  induction a generalizing b with
  | nil =>
    cases b with
    | nil => rfl
    | cons b bs => cases second
  | cons a as ih =>
    cases b with
    | nil => cases first
    | cons b bs =>
      rw [nameLe_cons] at first second
      rcases first with less | ⟨rfl, first⟩
      · rcases second with more | ⟨rfl, _⟩
        · exact absurd (UInt8.lt_trans less more) (UInt8.lt_irrefl a)
        · exact absurd less (UInt8.lt_irrefl _)
      · rcases second with more | ⟨_, second⟩
        · exact absurd more (UInt8.lt_irrefl a)
        · rw [ih first second]

theorem componentLe_total (a b : Component) : componentLe a b = true ∨ componentLe b a = true := by
  cases a with
  | name a =>
    cases b with
    | name b => exact nameLe_total a b
    | _ => exact .inr rfl
  | _ => cases b <;> simp [componentLe, rank]

theorem componentLe_trans {a b c : Component} (first : componentLe a b = true)
    (second : componentLe b c = true) : componentLe a c = true := by
  -- Names stand behind everything else, and only among names does more than the rank count.
  cases b with
  | name b =>
    cases c with
    | name c =>
      cases a with
      | name a => exact nameLe_trans first second
      | _ => rfl
    | _ => simp [componentLe, rank] at second
  | _ =>
    cases a with
    | name a => simp [componentLe, rank] at first
    | _ =>
      cases c <;> simp_all [componentLe, rank]

theorem componentLe_antisymm {a b : Component} (first : componentLe a b = true)
    (second : componentLe b a = true) : a = b := by
  cases a with
  | name a =>
    cases b with
    | name b => rw [nameLe_antisymm first second]
    | _ => simp [componentLe, rank] at first
  | _ => cases b <;> simp_all [componentLe, rank]

theorem componentsLe_cons {a b : Component} {as bs : List Component} :
    componentsLe (a :: as) (b :: bs) = true ↔
      a = b ∧ componentsLe as bs = true ∨ a ≠ b ∧ componentLe a b = true := by
  by_cases same : a = b <;> simp [componentsLe, same]

theorem componentsLe_total (a b : List Component) :
    componentsLe a b = true ∨ componentsLe b a = true := by
  induction a generalizing b with
  | nil => exact .inl rfl
  | cons a as ih =>
    cases b with
    | nil => exact .inr rfl
    | cons b bs =>
      rw [componentsLe_cons, componentsLe_cons]
      by_cases same : a = b
      · rcases ih bs with first | second
        · exact .inl (.inl ⟨same, first⟩)
        · exact .inr (.inl ⟨same.symm, second⟩)
      · rcases componentLe_total a b with first | second
        · exact .inl (.inr ⟨same, first⟩)
        · exact .inr (.inr ⟨Ne.symm same, second⟩)

theorem componentsLe_trans {a b c : List Component} (first : componentsLe a b = true)
    (second : componentsLe b c = true) : componentsLe a c = true := by
  induction a generalizing b c with
  | nil => rfl
  | cons a as ih =>
    cases b with
    | nil => cases first
    | cons b bs =>
      cases c with
      | nil => cases second
      | cons c cs =>
        rw [componentsLe_cons] at first second ⊢
        rcases first with ⟨rfl, first⟩ | ⟨differ, first⟩
        · rcases second with ⟨rfl, second⟩ | second
          · exact .inl ⟨rfl, ih first second⟩
          · exact .inr second
        · rcases second with ⟨rfl, _⟩ | ⟨_, second⟩
          · exact .inr ⟨differ, first⟩
          · refine .inr ⟨?_, componentLe_trans first second⟩
            rintro rfl
            exact differ (componentLe_antisymm first second)

theorem componentsLe_antisymm {a b : List Component} (first : componentsLe a b = true)
    (second : componentsLe b a = true) : a = b := by
  induction a generalizing b with
  | nil =>
    cases b with
    | nil => rfl
    | cons b bs => cases second
  | cons a as ih =>
    cases b with
    | nil => cases first
    | cons b bs =>
      rw [componentsLe_cons] at first second
      rcases first with ⟨rfl, first⟩ | ⟨differ, first⟩
      · rcases second with ⟨_, second⟩ | ⟨other, _⟩
        · rw [ih first second]
        · exact absurd rfl other
      · rcases second with ⟨same, _⟩ | ⟨_, second⟩
        · exact absurd same.symm differ
        · exact absurd (componentLe_antisymm first second) differ

theorem le_total (a b : Path) : a.le b = true ∨ b.le a = true :=
  componentsLe_total a.components b.components

theorem le_trans {a b c : Path} (first : a.le b = true) (second : b.le c = true) :
    a.le c = true := componentsLe_trans first second

theorem key_of_components {a b : Path} (same : a.components = b.components) : a.key = b.key := by
  simp only [key, clean, same]

theorem key_of_le {a b : Path} (first : a.le b = true) (second : b.le a = true) : a.key = b.key :=
  key_of_components (componentsLe_antisymm first second)

end RepoFinder.Path
