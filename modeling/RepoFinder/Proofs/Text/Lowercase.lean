import RepoFinder.Text.Lowercase

namespace RepoFinder.Text

variable {text before front back : List Char} {c d : Char}

namespace CaseRun

variable {run other : CaseRun} {n : Nat}

-- No letter of the other run is what a letter of this run is lowered to: the two ranges lie apart,
-- or both skip every second value and are out of step, or there is but one letter to look at.
def isApart (run other : CaseRun) : Bool :=
  let low := run.apply run.first
  let high := run.apply run.last
  Nat.blt high other.first || (Nat.blt other.last low ||
    ((run.step == 2 && other.step == 2 && (low + other.first) % 2 == 1) ||
      (run.first == run.last && !other.covers low)))

def isProper (run : CaseRun) : Bool :=
  decide ((0x61 : Int) ≤ run.first + run.shift) &&
    (decide (run.last + run.shift < (0xD800 : Int)) ||
      decide ((0xDFFF : Int) < run.first + run.shift) &&
        decide (run.last + run.shift < (0x110000 : Int)))

theorem covers_iff : run.covers n = true ↔
    run.first ≤ n ∧ n ≤ run.last ∧ (n - run.first) % run.step = 0 := by
  simp [covers, and_assoc]

theorem proper_sound (proper : run.isProper = true) (covers : run.covers n = true) :
    0x61 ≤ run.apply n ∧ (run.apply n).isValidChar := by
  obtain ⟨above, below, _⟩ := covers_iff.mp covers
  simp only [isProper, Bool.and_eq_true, Bool.or_eq_true, decide_eq_true_eq] at proper
  simp only [apply, Nat.isValidChar]
  omega

theorem apart_sound (apart : run.isApart other = true) (proper : run.isProper = true)
    (covers : run.covers n = true) : other.covers (run.apply n) = false := by
  obtain ⟨above, below, onStep⟩ := covers_iff.mp covers
  simp only [isProper, Bool.and_eq_true, decide_eq_true_eq] at proper
  simp only [isApart, Bool.or_eq_true, Bool.and_eq_true, beq_iff_eq, Nat.blt_eq] at apart
  rw [← Bool.not_eq_true, covers_iff]
  rintro ⟨from_, until_, inStep⟩
  rcases apart with before | behind | ⟨⟨two, also⟩, odd⟩ | ⟨one, missed⟩
  · simp only [apply] at before from_
    omega
  · simp only [apply] at behind until_
    omega
  · rw [two] at onStep
    rw [also] at inStep
    simp only [apply] at odd from_ inStep
    omega
  · obtain rfl : n = run.first := by omega
    have hit := covers_iff.mpr ⟨from_, until_, inStep⟩
    simp [hit] at missed

def dotted : CaseRun := ⟨0x130, 0x130, 1, 0⟩

theorem lowerRuns_apart :
    (lowerRuns.all fun run => run.isApart dotted && lowerRuns.all run.isApart) = true := by
  decide +kernel

theorem lowerRuns_proper : lowerRuns.all isProper = true := by decide +kernel

end CaseRun

structure IsLow (c : Char) : Prop where
  same : lowerChar c = [c]
  noSigma : c ≠ capitalSigma

instance (c : Char) : Decidable (IsLow c) :=
  decidable_of_iff (lowerChar c = [c] ∧ c ≠ capitalSigma)
    ⟨fun both => ⟨both.1, both.2⟩, fun low => ⟨low.same, low.noSigma⟩⟩

theorem isLow_of_uncovered (uncovered : ∀ run ∈ lowerRuns, run.covers c.toNat = false)
    (noDot : c.toNat ≠ 0x130) (plain : c.toNat < 0x80 → c.toLower = c) : IsLow c where
  same := by
    unfold lowerChar
    split
    · rename_i small
      rw [plain small]
    · rw [List.find?_eq_none.mpr (by simpa using uncovered)]
  noSigma := by
    have covered : (lowerRuns.any fun run => run.covers capitalSigma.toNat) = true := by
      decide +kernel
    rintro rfl
    obtain ⟨run, listed, covers⟩ := List.any_eq_true.mp covered
    exact Bool.false_ne_true ((uncovered run listed).symm.trans covers)

theorem isLow_toLower : ∀ n < 0x80, IsLow (Char.ofNat n).toLower ∧
    ((Char.ofNat n).toLower = Char.ofNat n ∨ 0x61 ≤ (Char.ofNat n).toLower.toNat) ∧
    (0x61 ≤ n → (Char.ofNat n).toLower = Char.ofNat n) := by
  decide

theorem isLow_apply {run : CaseRun} {n : Nat} (listed : run ∈ lowerRuns)
    (covers : run.covers n = true) :
    IsLow (Char.ofNat (run.apply n)) ∧ 0x61 ≤ (Char.ofNat (run.apply n)).toNat := by
  have proper := List.all_eq_true.mp CaseRun.lowerRuns_proper run listed
  obtain ⟨noDot, apart⟩ :=
    (Bool.and_eq_true ..).mp (List.all_eq_true.mp CaseRun.lowerRuns_apart run listed)
  obtain ⟨large, valid⟩ := CaseRun.proper_sound proper covers
  have value : (Char.ofNat (run.apply n)).toNat = run.apply n := by
    rw [Char.ofNat, dif_pos valid]
    rfl
  refine ⟨isLow_of_uncovered ?_ ?_ ?_, by rwa [value]⟩
  · intro other among
    rw [value]
    exact CaseRun.apart_sound (List.all_eq_true.mp apart other among) proper covers
  · rw [value]
    intro dot
    have missed := CaseRun.apart_sound noDot proper covers
    rw [dot] at missed
    exact absurd missed (by decide)
  · rw [value]
    intro small
    exact (isLow_toLower _ small).2.2 large

theorem lowerChar_cases (c : Char) :
    IsLow c ∨ ∀ d ∈ lowerChar c, IsLow d ∧ 0x61 ≤ d.toNat := by
  unfold lowerChar
  split
  · rename_i small
    obtain ⟨low, kept, _⟩ := isLow_toLower c.toNat small
    rw [Char.ofNat_toNat] at low kept
    rcases kept with same | large
    · exact .inl (same ▸ low)
    · exact .inr (List.forall_mem_singleton.mpr ⟨low, large⟩)
  · rename_i large
    split
    · have letter : IsLow 'i' := by decide
      have dot : IsLow (Char.ofNat 0x307) := by decide +kernel
      refine .inr ?_
      simp only [List.forall_mem_cons, List.not_mem_nil, false_imp_iff, implies_true, and_true]
      exact ⟨⟨letter, by decide⟩, dot, by decide⟩
    · rename_i noDot
      split
      · rename_i run found
        have covers : run.covers c.toNat = true := by simpa using List.find?_some found
        exact .inr (List.forall_mem_singleton.mpr
          (isLow_apply (List.mem_of_find?_eq_some found) covers))
      · rename_i missed
        refine .inl (isLow_of_uncovered ?_ noDot fun small => absurd small large)
        simpa using List.find?_eq_none.mp missed

theorem lowerChar_ne_nil (c : Char) : lowerChar c ≠ [] := by
  unfold lowerChar
  repeat' split
  all_goals simp

theorem isLow_sigma : IsLow smallSigma ∧ IsLow finalSigma := by decide +kernel

theorem mem_lowerAfter (present : d ∈ lowerAfter before text) :
    IsLow d ∧ (d ∈ text ∨ 0x61 ≤ d.toNat) := by
  induction text generalizing before with
  | nil => cases present
  | cons c rest ih =>
    rcases List.mem_append.mp present with here | later
    · split at here
      · obtain rfl := List.mem_singleton.mp here
        split
        · exact ⟨isLow_sigma.2, .inr (by decide)⟩
        · exact ⟨isLow_sigma.1, .inr (by decide)⟩
      · rcases lowerChar_cases c with low | lowered
        · rw [low.same] at here
          obtain rfl := List.mem_singleton.mp here
          exact ⟨low, .inl (List.mem_cons_self ..)⟩
        · exact (lowered d here).imp_right .inr
    · exact (ih later).imp_right fun source => source.imp_left (List.mem_cons_of_mem _)

theorem isLow_of_mem_lower (present : d ∈ lower text) : IsLow d := (mem_lowerAfter present).1

-- What comes before the small letters is there from the start.
theorem mem_of_mem_lower (present : d ∈ lower text) (less : d.toNat < 0x61) : d ∈ text :=
  (mem_lowerAfter present).2.resolve_right (Nat.not_le.mpr less)

theorem lowerAfter_eq_self (low : ∀ c ∈ text, IsLow c) : lowerAfter before text = text := by
  induction text generalizing before with
  | nil => rfl
  | cons c rest ih =>
    obtain ⟨here, later⟩ := List.forall_mem_cons.mp low
    rw [lowerAfter, if_neg here.noSigma, here.same, ih later]
    rfl

theorem lower_lower (text : List Char) : lower (lower text) = lower text :=
  lowerAfter_eq_self fun _ present => isLow_of_mem_lower present

theorem lowerAfter_eq_of_less (less : ∀ d ∈ lowerAfter before text, d.toNat < 0x61) :
    lowerAfter before text = text := by
  induction text generalizing before with
  | nil => rfl
  | cons c rest ih =>
    obtain ⟨here, later⟩ := List.forall_mem_append.mp less
    rw [lowerAfter, ih later]
    have single : lowerChar c = [c] ∧ c ≠ capitalSigma := by
      split at here
      · have small := List.forall_mem_singleton.mp here
        split at small <;> exact absurd small (by decide)
      · rename_i noSigma
        rcases lowerChar_cases c with low | lowered
        · exact ⟨low.same, noSigma⟩
        · obtain ⟨d, present⟩ := List.exists_mem_of_ne_nil _ (lowerChar_ne_nil c)
          exact absurd (here d present) (Nat.not_lt.mpr (lowered d present).2)
    rw [if_neg single.2, single.1]
    rfl

theorem eq_of_lower_eq {other : List Char} (same : lower text = other)
    (less : ∀ d ∈ other, d.toNat < 0x61) : text = other := by
  subst same
  exact (lowerAfter_eq_of_less less).symm

-- A scalar value that is no letter and is not skipped beside letters either.
structure IsBarrier (c : Char) : Prop where
  low : IsLow c
  uncased : isCased c = false
  unskipped : isCaseIgnorable c = false

theorem startsCased_cut (barrier : IsBarrier c) (front : List Char) :
    startsCased (front ++ c :: back) = startsCased front := by
  induction front with
  | nil => simp [startsCased, barrier.unskipped, barrier.uncased]
  | cons d rest ih =>
    by_cases skipped : isCaseIgnorable d = true
    · simpa [startsCased, skipped] using ih
    · simp [startsCased, skipped]

-- What is written behind such a value is lowered as if nothing came before it.
theorem lowerAfter_barrier (barrier : IsBarrier c) (near : List Char) :
    lowerAfter (near ++ c :: before) text = lowerAfter near text := by
  induction text generalizing near with
  | nil => rfl
  | cons d rest ih =>
    rw [lowerAfter, lowerAfter, startsCased_cut barrier, ← List.cons_append, ih]

theorem lowerAfter_cut (barrier : IsBarrier c) :
    lowerAfter before (front ++ c :: back) = lowerAfter before front ++ c :: lower back := by
  induction front generalizing before with
  | nil =>
    have behind : lowerAfter ([] ++ c :: before) back = lower back := lowerAfter_barrier barrier []
    rw [List.nil_append] at behind
    simp only [List.nil_append, lowerAfter, if_neg barrier.low.noSigma, barrier.low.same]
    exact congrArg (c :: ·) behind
  | cons d rest ih =>
    rw [List.cons_append, lowerAfter, lowerAfter, startsCased_cut barrier, ih, List.append_assoc]

theorem lower_cut (barrier : IsBarrier c) :
    lower (front ++ c :: back) = lower front ++ c :: lower back := lowerAfter_cut barrier

theorem isBarrier_slash : IsBarrier '/' where
  low := by decide
  uncased := by decide +kernel
  unskipped := by decide +kernel

end RepoFinder.Text
