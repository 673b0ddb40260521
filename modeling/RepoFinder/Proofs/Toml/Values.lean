import RepoFinder.Proofs.Toml.Text
import RepoFinder.Toml.Reader

namespace RepoFinder.Toml

open Text

variable {numeral rest after : List Char} {n : Nat}

theorem isDigit_feed : isDigit '\n' = false := by decide

theorem ne_of_isDigit {first other : Char} (digit : isDigit first = true)
    (noDigit : isDigit other = false) : first ≠ other := by
  rintro rfl
  cases noDigit.symm.trans digit

theorem digits_all (more : Bool) (nonempty : numeral ≠ [])
    (every : ∀ c ∈ numeral, isDigit c = true) (rest : List Char) :
    digits isDigit more (numeral ++ '\n' :: rest) = some (numeral, '\n' :: rest) := by
  induction numeral generalizing more with
  | nil => exact absurd rfl nonempty
  | cons c numeral ih =>
    obtain ⟨here, others⟩ := List.forall_mem_cons.mp every
    have noScore : c ≠ '_' := ne_of_isDigit here (by decide)
    cases numeral with
    | nil => cases more <;> simp [digits, here, noScore, isDigit_feed]
    | cons next numeral =>
      have nextDigit := others next List.mem_cons_self
      have further := ih true (by simp) others
      rw [List.cons_append] at further
      cases more <;> simp [digits, here, noScore, nextDigit, further]

theorem digits_of_fixed {width least greatest : Nat} (every : ∀ c ∈ numeral, isDigit c = true)
    (read : fixed width least greatest (numeral ++ '\n' :: rest) = some (n, after)) :
    ∃ left, (∀ c ∈ left, isDigit c = true) ∧ after = left ++ '\n' :: rest := by
  unfold fixed at read
  dsimp only at read
  split at read
  · rename_i taken
    split at read <;> cases read
    have enough : width ≤ numeral.length := by
      rcases Nat.lt_or_ge numeral.length width with few | enough
      · exfalso
        have stops :
            ((numeral ++ '\n' :: rest).take width).takeWhile isDigit = numeral := by
          obtain ⟨more, rfl⟩ : ∃ more, width = numeral.length + (more + 1) :=
            ⟨width - numeral.length - 1, by omega⟩
          simp [List.take_length_add_append, List.takeWhile_append_of_pos every, isDigit_feed]
        rw [stops] at taken
        omega
      · exact enough
    refine ⟨numeral.drop width, fun c present => every c (List.mem_of_mem_drop present), ?_⟩
    rw [List.drop_append_of_le_length enough]
  · cases read

theorem char?_digits {c : Char} (noDigit : isDigit c = false) (noFeed : c ≠ '\n')
    (every : ∀ c ∈ numeral, isDigit c = true) : char? c (numeral ++ '\n' :: rest) = none := by
  cases numeral with
  | nil => simp [char?, Ne.symm noFeed]
  | cons first numeral =>
    have other : first ≠ c := ne_of_isDigit (every first List.mem_cons_self) noDigit
    simp [char?, other]

-- A date and a time need a sign that stands behind digits, so neither is there.
theorem date_digits (every : ∀ c ∈ numeral, isDigit c = true) :
    date (numeral ++ '\n' :: rest) = none := by
  have noSign {c : Char} (noDigit : isDigit c = false) (noFeed : c ≠ '\n')
      {width least greatest : Nat} {read : Nat × List Char}
      (found : fixed width least greatest (numeral ++ '\n' :: rest) = some read) :
      char? c read.2 = none := by
    obtain ⟨left, digits, same⟩ := digits_of_fixed every found
    rw [same]
    exact char?_digits noDigit noFeed digits
  have noDate : skipDate? (numeral ++ '\n' :: rest) = none := by
    unfold skipDate?
    cases found : fixed 4 0 9999 (numeral ++ '\n' :: rest) with
    | none => rfl
    | some read => simp [noSign (by decide : isDigit '-' = false) (by decide) found]
  have noTime : skipTime? (numeral ++ '\n' :: rest) = none := by
    unfold skipTime?
    cases found : fixed 2 0 23 (numeral ++ '\n' :: rest) with
    | none => rfl
    | some read => simp [noSign (by decide : isDigit ':' = false) (by decide) found]
  simp [date, noDate, noTime]

theorem decimalDigits_decimal (n : Nat) (rest : List Char) :
    decimalDigits (decimal n ++ '\n' :: rest) = some (decimal n, '\n' :: rest) := by
  have all := digits_all false (decimal_ne_nil n) (decimal_isDigit n) rest
  rcases Nat.eq_zero_or_pos n with rfl | positive
  · rfl
  · obtain ⟨digit, more, front, nonzero, small⟩ := decimal_head positive
    rw [front] at all ⊢
    have noZero : digitChar digit ≠ '0' := by
      intro same
      have value := digitValue_digitChar small
      rw [same] at value
      simp only [show digitValue '0' = 0 from rfl] at value
      omega
    rw [List.cons_append] at all ⊢
    unfold decimalDigits
    split
    · rename_i same
      exact absurd (List.cons.inj same).1 noZero
    · exact all

-- A numeral starts with a digit, and a digit starts nothing but a number.
theorem decimal_cons (n : Nat) :
    ∃ first more, decimal n = first :: more ∧ isDigit first = true := by
  obtain ⟨first, more, same⟩ := List.exists_cons_of_ne_nil (decimal_ne_nil n)
  exact ⟨first, more, same, decimal_isDigit n first (same ▸ List.mem_cons_self)⟩

theorem sign_digit {first : Char} (digit : isDigit first = true) (more : List Char) :
    sign (first :: more) = (false, first :: more) := by
  have noMinus : first ≠ '-' := ne_of_isDigit digit (by decide)
  have noPlus : first ≠ '+' := ne_of_isDigit digit (by decide)
  simp [sign, noMinus, noPlus]

theorem float_decimal (n : Nat) (rest : List Char) : float (decimal n ++ '\n' :: rest) = none := by
  have read := decimalDigits_decimal n rest
  obtain ⟨first, more, same, digit⟩ := decimal_cons n
  rw [same, List.cons_append] at read ⊢
  have noInfinity : 'i' ≠ first := (ne_of_isDigit digit (by decide)).symm
  have noNumber : 'n' ≠ first := (ne_of_isDigit digit (by decide)).symm
  simp [float, sign_digit digit, word?, noInfinity, noNumber, read, exponent?]

theorem ne_second_decimal {first second : Char} {more : List Char}
    (noDigit : isDigit second = false) (noFeed : second ≠ '\n') :
    decimal n ++ '\n' :: rest ≠ first :: second :: more := by
  intro same
  obtain ⟨digit, others, front, _⟩ := decimal_cons n
  rw [front] at same
  cases others with
  | nil => exact noFeed (List.cons.inj (List.cons.inj same).2).1.symm
  | cons next others =>
    have isDigit := decimal_isDigit n next (by simp [front])
    exact ne_of_isDigit isDigit noDigit (List.cons.inj (List.cons.inj same).2).1

theorem integer_decimal (fits : (n : Int) ≤ Value.greatest) (rest : List Char) :
    integer (decimal n ++ '\n' :: rest) = some (.integer n, '\n' :: rest) := by
  have whole : decimalInteger (decimal n ++ '\n' :: rest) = some ((n : Int), '\n' :: rest) := by
    have read := decimalDigits_decimal n rest
    have value := ofDigits_decimal n
    obtain ⟨first, more, same, digit⟩ := decimal_cons n
    rw [same, List.cons_append] at read ⊢
    rw [same] at value
    simp [decimalInteger, sign_digit digit, read, value]
  have inRange : Value.least ≤ (n : Int) ∧ (n : Int) ≤ Value.greatest := by
    refine ⟨?_, fits⟩
    unfold Value.least
    omega
  unfold integer
  split
  · rename_i same
    exact absurd same (ne_second_decimal (by decide) (by decide))
  · rename_i same
    exact absurd same (ne_second_decimal (by decide) (by decide))
  · rename_i same
    exact absurd same (ne_second_decimal (by decide) (by decide))
  · simp [whole, inRange]

theorem number_decimal (fits : (n : Int) ≤ Value.greatest) (rest : List Char) :
    number (decimal n ++ '\n' :: rest) = some (.integer n, '\n' :: rest) := by
  rw [number, date_digits (decimal_isDigit n), float_decimal, integer_decimal fits]
  rfl

theorem value_decimal (depth : Nat) (fits : (n : Int) ≤ Value.greatest) (rest : List Char) :
    value depth (decimal n ++ '\n' :: rest) = some (.integer n, '\n' :: rest) := by
  have read := number_decimal fits rest
  obtain ⟨first, more, same, digit⟩ := decimal_cons n
  rw [same, List.cons_append] at read ⊢
  unfold value
  split
  all_goals first
    | exact read
    | (rename_i front; rw [(List.cons.inj front).1] at digit; cases digit)

theorem renderText_cons (text : List Char) :
    ∃ quote more, renderText text = quote :: more ∧ (quote = '"' ∨ quote = '\'') := by
  unfold renderText
  dsimp only
  split
  · exact ⟨_, _, rfl, .inl rfl⟩
  · exact ⟨_, _, rfl, .inr rfl⟩
  · exact ⟨_, _, rfl, .inl rfl⟩
  · exact ⟨_, _, rfl, .inr rfl⟩

theorem value_renderText (depth : Nat) (text : List Char)
    (apart : ∀ c ∈ rest.head?, c ≠ '"' ∧ c ≠ '\'') :
    value depth (renderText text ++ rest) = some (.string text, rest) := by
  have read := quotedText_renderText text apart
  obtain ⟨quote, more, same, rfl | rfl⟩ := renderText_cons text <;>
  · rw [same, List.cons_append] at read ⊢
    rw [value, read]
    rfl

def IsToken (text : List Char) : Prop :=
  ∃ c more, text = c :: more ∧ isBlank c = false ∧ c ≠ '#' ∧ c ≠ '\n' ∧ c ≠ '\r'

theorem skipLines_token {blanks text : List Char} (token : IsToken text)
    (blank : blanks.all isBlank = true) (lines : Nat) :
    skipLines lines (blanks ++ text) = some text := by
  obtain ⟨c, more, rfl, noBlank, noComment, noFeed, noReturn⟩ := token
  have skipped : skipBlanks (blanks ++ c :: more) = c :: more := by
    simp [skipBlanks, List.dropWhile_append_of_pos (List.all_eq_true.mp blank), noBlank]
  cases lines with
  | zero => rw [skipLines, skipped]
  | succ lines =>
    rw [skipLines, skipped]
    split
    all_goals first
      | rfl
      | (rename_i front; cases front; contradiction)

theorem skipAll_token {text : List Char} (token : IsToken text) : skipAll text = some text :=
  skipLines_token token (rfl : [].all isBlank = true) text.length

theorem skipAll_next {blanks text : List Char} (token : IsToken text)
    (blank : blanks.all isBlank = true) : skipAll ('\n' :: (blanks ++ text)) = some text := by
  rw [skipAll, List.length_cons, skipLines]
  exact skipLines_token token blank _

theorem isToken_renderText (text rest : List Char) : IsToken (renderText text ++ rest) := by
  obtain ⟨quote, more, same, rfl | rfl⟩ := renderText_cons text <;>
  · refine ⟨_, more ++ rest, by rw [same]; rfl, ?_⟩
    decide

theorem isToken_cons {c : Char} (token : isBlank c = false ∧ c ≠ '#' ∧ c ≠ '\n' ∧ c ≠ '\r')
    (rest : List Char) : IsToken (c :: rest) := ⟨c, rest, rfl, token⟩

theorem arrayRest_end {text : List Char} (read : Reader Value) (most : Nat)
    (skipped : skipAll text = some (']' :: rest)) :
    arrayRest read (most + 1) text = some ([], rest) := by
  rw [arrayRest, skipped]
  rfl

theorem arrayRest_first {before text : List Char} {separator : Char} (depth most : Nat)
    (skipped : skipAll before = some (renderText text ++ separator :: rest))
    (separates : separator = ',' ∨ separator = ']') :
    arrayRest (value depth) (most + 1) before =
      if separator = ',' then (arrayRest (value depth) most rest).map fun (items, rest) =>
        (.string text :: items, rest)
      else some ([.string text], rest) := by
  have apart : ∀ c ∈ (separator :: rest).head?, c ≠ '"' ∧ c ≠ '\'' := by
    rintro c ⟨⟩
    rcases separates with rfl | rfl <;> decide
  have found := value_renderText depth text apart
  have ends : skipAll (separator :: rest) = some (separator :: rest) :=
    skipAll_token (isToken_cons (by rcases separates with rfl | rfl <;> decide) rest)
  obtain ⟨quote, more, same, double⟩ := renderText_cons text
  rw [same, List.cons_append] at skipped found
  have noBracket : quote ≠ ']' := by rcases double with rfl | rfl <;> decide
  rw [arrayRest, skipped]
  split
  · rename_i none
    cases none
  · rename_i bracket
    cases bracket
    exact absurd rfl noBracket
  · rename_i token
    cases token
    simp only [found, ends]
    rcases separates with rfl | rfl <;> rfl

-- The induction is on the texts, each of which takes a line of its own.
theorem arrayRest_lines (depth : Nat) {most : Nat} {texts : List (List Char)}
    (enough : texts.length < most) (rest : List Char) :
    arrayRest (value depth) most ('\n' :: (texts.flatMap (fun text =>
        "    ".toList ++ renderText text ++ [',', '\n']) ++ ']' :: rest)) =
      some (texts.map .string, rest) := by
  induction texts generalizing most with
  | nil =>
    obtain ⟨most, rfl⟩ : ∃ less, most = less + 1 := ⟨most - 1, by simp at enough; omega⟩
    apply arrayRest_end
    exact skipAll_next (isToken_cons (by decide) rest) (rfl : [].all isBlank = true)
  | cons text texts ih =>
    rw [List.length_cons] at enough
    obtain ⟨most, rfl⟩ : ∃ less, most = less + 1 := ⟨most - 1, by omega⟩
    have further := ih (by omega : texts.length < most)
    rw [List.flatMap_cons]
    generalize texts.flatMap (fun text => "    ".toList ++ renderText text ++ [',', '\n']) = lines
      at further ⊢
    have skipped : skipAll ('\n' :: ("    ".toList ++ renderText text ++ [',', '\n'] ++ lines ++
        ']' :: rest)) = some (renderText text ++ ',' :: '\n' :: (lines ++ ']' :: rest)) := by
      have shape : "    ".toList ++ renderText text ++ [',', '\n'] ++ lines ++ ']' :: rest =
          "    ".toList ++ (renderText text ++ ',' :: '\n' :: (lines ++ ']' :: rest)) := by simp
      rw [shape]
      exact skipAll_next (isToken_renderText ..) (by decide)
    rw [arrayRest_first depth most skipped (.inl rfl), if_pos rfl, further]
    rfl

theorem length_le_lines (texts : List (List Char)) : texts.length ≤ (texts.flatMap fun text =>
    "    ".toList ++ renderText text ++ [',', '\n']).length := by
  induction texts with
  | nil => exact Nat.le_refl 0
  | cons text texts ih =>
    rw [List.flatMap_cons, List.length_append, List.length_cons]
    simp only [List.length_append, List.length_cons] at ih ⊢
    omega

-- A list is read in each of its three layouts: empty, on one line, and with a line for each text.
theorem value_renderTexts (depth : Nat) (texts : List (List Char)) (rest : List Char) :
    value (depth + 1) (renderTexts texts ++ '\n' :: rest) =
      some (.array (texts.map .string), '\n' :: rest) := by
  have opened (inner : List Char) (read : arrayRest (value depth) (inner.length + 1) inner =
      some (texts.map .string, '\n' :: rest)) :
      value (depth + 1) ('[' :: inner) = some (.array (texts.map .string), '\n' :: rest) := by
    rw [value, read]
    rfl
  match texts, opened with
  | [], opened =>
    exact opened _ (arrayRest_end _ _ (skipAll_token (isToken_cons (by decide) _)))
  | [text], opened =>
    have shape : renderTexts [text] ++ '\n' :: rest =
        '[' :: (renderText text ++ ']' :: '\n' :: rest) := by simp [renderTexts]
    rw [shape]
    apply opened
    rw [arrayRest_first depth _ (skipAll_token (isToken_renderText ..)) (.inr rfl)]
    rfl
  | text :: next :: texts, opened =>
    have shape : renderTexts (text :: next :: texts) ++ '\n' :: rest =
        '[' :: ('\n' :: ((text :: next :: texts).flatMap (fun text =>
          "    ".toList ++ renderText text ++ [',', '\n']) ++ ']' :: '\n' :: rest)) := by
      simp [renderTexts]
    have enough := length_le_lines (text :: next :: texts)
    rw [shape]
    refine opened _ (arrayRest_lines depth (Nat.lt_succ_of_le (Nat.le_trans enough ?_)) _)
    rw [List.length_cons, List.length_append]
    omega

namespace Content

def toValue : Content → Value
  | integer n => .integer n
  | text content => .string content
  | texts contents => .array (contents.map .string)

def Fits : Content → Prop
  | integer n => (n : Int) ≤ Value.greatest
  | _ => True

end Content

theorem value_render {content : Content} (fits : content.Fits) (depth : Nat) (rest : List Char) :
    value (depth + 1) (content.render ++ '\n' :: rest) = some (content.toValue, '\n' :: rest) := by
  cases content with
  | integer n => exact value_decimal _ fits rest
  | text content =>
    refine value_renderText _ content ?_
    rintro c ⟨⟩
    decide
  | texts contents => exact value_renderTexts depth contents rest

end RepoFinder.Toml
