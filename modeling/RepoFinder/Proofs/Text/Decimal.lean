import Mathlib.Algebra.Group.Nat.Defs
import RepoFinder.Text.Decimal

namespace RepoFinder.Text

theorem isDigit_digitChar (n : Nat) : isDigit (digitChar n) = true := by
  have every : ∀ d < 10, isDigit (Char.ofNat (48 + d)) = true := by decide
  exact every _ (Nat.mod_lt _ (by decide))

theorem digitValue_digitChar {n : Nat} (small : n < 10) : digitValue (digitChar n) = n := by
  have every : ∀ d < 10, digitValue (digitChar d) = d := by decide
  exact every n small

theorem digitsOnto_append (fuel n : Nat) (digits tail : List Char) :
    digitsOnto fuel n (digits ++ tail) = digitsOnto fuel n digits ++ tail := by
  induction fuel generalizing n digits with
  | zero => rfl
  | succ fuel ih =>
    simp only [digitsOnto]
    split
    · rfl
    · exact ih (n / 10) (digitChar n :: digits)

-- Any fuel above the number gives the same digits, so the fuel can be forgotten from here on.
theorem digitsOnto_fuel {fuel more n : Nat} (enough : n < fuel) (also : n < more)
    (tail : List Char) : digitsOnto fuel n tail = digitsOnto more n tail := by
  induction fuel generalizing more n tail with
  | zero => omega
  | succ fuel ih =>
    obtain ⟨more, rfl⟩ : ∃ less, more = less + 1 := ⟨more - 1, by omega⟩
    simp only [digitsOnto]
    split
    · rfl
    · exact ih (by omega) (by omega) _

theorem decimal_eq (n : Nat) :
    decimal n = if n < 10 then [digitChar n] else decimal (n / 10) ++ [digitChar n] := by
  rw [decimal, digitsOnto]
  split
  · rfl
  · have enough : n / 10 < n := by omega
    rw [digitsOnto_fuel enough (Nat.lt_succ_self (n / 10))]
    exact digitsOnto_append (n / 10 + 1) (n / 10) [] [digitChar n]

theorem ofDigits_snoc (digits : List Char) (c : Char) :
    ofDigits (digits ++ [c]) = ofDigits digits * 10 + digitValue c := by
  simp [ofDigits, List.foldl_append]

theorem ofDigits_decimal (n : Nat) : ofDigits (decimal n) = n := by
  induction n using Nat.strongRecOn with
  | ind n ih =>
    rw [decimal_eq]
    split
    · rename_i small
      simp [ofDigits, digitValue_digitChar small]
    · rw [ofDigits_snoc, ih (n / 10) (by omega)]
      have last : digitChar n = digitChar (n % 10) := by simp [digitChar]
      rw [last, digitValue_digitChar (Nat.mod_lt _ (by decide))]
      omega

theorem decimal_isDigit (n : Nat) : ∀ c ∈ decimal n, isDigit c = true := by
  induction n using Nat.strongRecOn with
  | ind n ih =>
    intro c present
    rw [decimal_eq] at present
    split at present
    · rw [List.mem_singleton.mp present]
      exact isDigit_digitChar n
    · rcases List.mem_append.mp present with front | last
      · exact ih (n / 10) (by omega) c front
      · rw [List.mem_singleton.mp last]
        exact isDigit_digitChar n

theorem decimal_ne_nil (n : Nat) : decimal n ≠ [] := by
  rw [decimal_eq]
  split <;> simp

-- Only zero starts with a zero, which is what makes a number in JSON one.
theorem decimal_head {n : Nat} (positive : 0 < n) :
    ∃ digit rest, decimal n = digitChar digit :: rest ∧ 0 < digit ∧ digit < 10 := by
  induction n using Nat.strongRecOn with
  | ind n ih =>
    rw [decimal_eq]
    split
    · rename_i small
      exact ⟨n, [], rfl, positive, small⟩
    · obtain ⟨digit, rest, front, nonzero, small⟩ := ih (n / 10) (by omega) (by omega)
      exact ⟨digit, rest ++ [digitChar n], by rw [front]; rfl, nonzero, small⟩

theorem length_decimal_le {width n : Nat} (small : n < 10 ^ (width + 1)) :
    (decimal n).length ≤ width + 1 := by
  induction width generalizing n with
  | zero =>
    rw [decimal_eq, if_pos (by simpa using small)]
    exact Nat.le_refl 1
  | succ width ih =>
    rw [decimal_eq]
    split
    · simp
    · have shorter := ih (n := n / 10) (by
        rw [Nat.pow_succ] at small
        exact Nat.div_lt_of_lt_mul (by omega))
      simpa using shorter

theorem ofDigits_zeros (zeros : Nat) (digits : List Char) :
    ofDigits (List.replicate zeros '0' ++ digits) = ofDigits digits := by
  induction zeros with
  | zero => rfl
  | succ zeros ih => simpa [List.replicate_succ, ofDigits, digitValue] using ih

theorem ofDigits_append_zeros (digits : List Char) (zeros : Nat) :
    ofDigits (digits ++ List.replicate zeros '0') = ofDigits digits * 10 ^ zeros := by
  induction zeros generalizing digits with
  | zero => simp
  | succ zeros ih =>
    rw [List.replicate_succ, ← List.singleton_append, ← List.append_assoc, ih, ofDigits_snoc,
      Nat.pow_succ]
    simp [digitValue, Nat.mul_comm, Nat.mul_assoc, Nat.mul_left_comm]

theorem ofDigits_padded (width n : Nat) : ofDigits (padded width n) = n := by
  rw [padded, ofDigits_zeros, ofDigits_decimal]

theorem padded_isDigit (width n : Nat) : ∀ c ∈ padded width n, isDigit c = true := by
  intro c present
  rcases List.mem_append.mp present with zero | digit
  · rw [List.eq_of_mem_replicate zero]
    rfl
  · exact decimal_isDigit n c digit

theorem length_padded {width n : Nat} (small : n < 10 ^ (width + 1)) :
    (padded (width + 1) n).length = width + 1 := by
  have fits := length_decimal_le small
  simp only [padded, List.length_append, List.length_replicate]
  omega

end RepoFinder.Text
