import RepoFinder.Proofs.Text.Decimal
import RepoFinder.Toml.Printer
import RepoFinder.Toml.Text

namespace RepoFinder

open Text

theorem Text.hexValue?_capitalHexDigit {n : Nat} (small : n < 16) :
    hexValue? (capitalHexDigit n) = some n := by
  have every : ∀ d < 16, hexValue? (capitalHexDigit d) = some d := by decide
  exact every n small

namespace Toml

variable {isLong : Bool} {quote c : Char} {read text escape rest : List Char} {run : Nat}

-- What stands for a character behind a backslash: one letter, or a code of four digits.
inductive Escapes (c : Char) : List Char → Prop where
  | letter {letter : Char} (names : escapeOf? letter = some c) : Escapes c ['\\', letter]
  | code (small : c.toNat < 0x80) : Escapes c
      ['\\', 'u', '0', '0', capitalHexDigit (c.toNat / 16), capitalHexDigit (c.toNat % 16)]

theorem escapes_of_escapeOf (found : escapeOf isLong c = some escape) : Escapes c escape := by
  have named (letter : Char) {escape : List Char} (is : escapeOf? letter = some c)
      (found : some ['\\', letter] = some escape) : Escapes c escape := by
    cases found
    exact .letter is
  have character {n : Nat} (is : c.toNat = n) : c = Char.ofNat n := by
    rw [← is, Char.ofNat_toNat]
  unfold escapeOf at found
  dsimp only at found
  split at found
  · rename_i is
    exact named 'b' (by rw [character is]; rfl) found
  split at found
  · rename_i is
    exact named 't' (by rw [is]; rfl) found
  split at found
  · rename_i is
    split at found
    · cases found
    · exact named 'n' (by rw [is]; rfl) found
  split at found
  · rename_i is
    exact named 'f' (by rw [character is]; rfl) found
  split at found
  · rename_i is
    exact named 'r' (by rw [is]; rfl) found
  split at found
  · rename_i is
    exact named '\\' (by rw [is]; rfl) found
  split at found
  · rename_i control
    cases found
    refine .code ?_
    simp only [Bool.or_eq_true, decide_eq_true_eq] at control
    omega
  · cases found

-- A character without an escape stands for itself, a line feed only in a long text.
theorem plain_of_escapeOf (none : escapeOf isLong c = none) :
    c ≠ '\\' ∧ c ≠ '\r' ∧ (isPlain c = true ∨ isLong = true ∧ c = '\n') := by
  unfold escapeOf at none
  dsimp only at none
  split at none
  · cases none
  split at none
  · cases none
  split at none
  · rename_i is
    cases isLong with
    | true => simp [is]
    | false => cases none
  split at none
  · cases none
  split at none
  · cases none
  rename_i noReturn
  split at none
  · cases none
  rename_i noSlash
  split at none
  · cases none
  rename_i noControl
  simp only [Bool.or_eq_true, decide_eq_true_eq, not_or] at noControl
  refine ⟨noSlash, noReturn, .inl ?_⟩
  simp only [isPlain, Bool.or_eq_true, Bool.and_eq_true, decide_eq_true_eq]
  exact .inr ⟨by omega, noControl.2⟩

theorem stepEscape_letter {letter : Char} (manyLines : Bool) (names : escapeOf? letter = some c) :
    stepEscape manyLines read letter = some (.plain, c :: read) := by
  have noCode : letter ≠ 'u' ∧ letter ≠ 'U' := by
    constructor <;>
    · rintro rfl
      cases names
  simp [stepEscape, noCode, names]

theorem stepEscape_code (manyLines : Bool) :
    stepEscape manyLines read 'u' = some (.code 3 0, read) := by
  rfl

theorem stepCode_first {more digit : Nat} (small : digit < 16) :
    stepCode (more + 1) 0 read (capitalHexDigit digit) = some (.code more digit, read) := by
  simp [stepCode, hexValue?_capitalHexDigit small]

theorem stepCode_zero (more : Nat) : stepCode (more + 1) 0 read '0' = some (.code more 0, read) :=
  stepCode_first (by decide : 0 < 16)

theorem stepCode_last (small : c.toNat < 0x80) :
    stepCode 0 (c.toNat / 16) read (capitalHexDigit (c.toNat % 16)) =
      some (.plain, c :: read) := by
  have code : charOfCode? c.toNat = some c := by
    have low : c.toNat < 0xD800 := by omega
    simp [charOfCode?, low]
  have whole : c.toNat / 16 * 16 + c.toNat % 16 = c.toNat := by omega
  simp [stepCode, hexValue?_capitalHexDigit (Nat.mod_lt c.toNat (by decide : 0 < 16)), whole, code]

theorem escaped_short_quote (run : Nat) (text : List Char) :
    escaped false run ('"' :: text) = ['\\', '"'] ++ escaped false 0 text := by
  simp [escaped]

theorem escaped_long_quote (run : Nat) (text : List Char) : escaped true run ('"' :: text) =
    if run < 2 then '"' :: escaped true (run + 1) text else ['\\', '"'] ++ escaped true 0 text := by
  simp [escaped]

theorem escaped_other (noQuote : c ≠ '"') (run : Nat) (text : List Char) :
    escaped isLong run (c :: text) = (escapeOf isLong c).getD [c] ++ escaped isLong 0 text := by
  rw [escaped, if_neg noQuote]
  cases escapeOf isLong c <;> rfl

theorem shortRest_escape (escapes : Escapes c escape) (read rest : List Char) :
    shortRest '"' .plain read (escape ++ rest) = shortRest '"' .plain (c :: read) rest := by
  cases escapes with
  | letter names => simp [shortRest, stepEscape_letter false names]
  | code small =>
    have high : c.toNat / 16 < 16 := by omega
    simp [shortRest, stepEscape_code, stepCode_zero, stepCode_first high, stepCode_last small]

-- Only between double quotes does a backslash begin an escape.
theorem not_escape (noSlash : quote = '"' → c ≠ '\\') : (c = '\\' && quote = '"') = false := by
  by_cases double : quote = '"'
  · simp [double, noSlash double]
  · simp [double]

theorem shortRest_plain (noQuote : c ≠ quote) (noSlash : quote = '"' → c ≠ '\\')
    (plain : isPlain c = true) (read rest : List Char) :
    shortRest quote .plain read (c :: rest) = shortRest quote .plain (c :: read) rest := by
  simp [shortRest, noQuote, not_escape noSlash, plain]

theorem shortRest_end (quote : Char) (read rest : List Char) :
    shortRest quote .plain read (quote :: rest) = some (read.reverse, rest) := by
  simp [shortRest]

theorem shortRest_escaped (text read rest : List Char) :
    shortRest '"' .plain read (escaped false 0 text ++ '"' :: rest) =
      some (read.reverse ++ text, rest) := by
  induction text generalizing read with
  | nil =>
    rw [escaped, List.nil_append, shortRest_end, List.append_nil]
  | cons c text ih =>
    have further := ih (c :: read)
    rw [List.reverse_cons, List.append_assoc, List.singleton_append] at further
    by_cases is : c = '"'
    · subst is
      rw [escaped_short_quote]
      exact (shortRest_escape (.letter rfl) ..).trans further
    · rw [escaped_other is, List.append_assoc]
      cases found : escapeOf false c with
      | some escape => exact (shortRest_escape (escapes_of_escapeOf found) ..).trans further
      | none =>
        obtain ⟨noSlash, _, plain | ⟨long, _⟩⟩ := plain_of_escapeOf found
        · exact (shortRest_plain is (fun _ => noSlash) plain ..).trans further
        · cases long

theorem shortRest_literal (noQuote : '\'' ∉ text) (plain : ∀ c ∈ text, isPlain c = true)
    (read rest : List Char) :
    shortRest '\'' .plain read (text ++ '\'' :: rest) = some (read.reverse ++ text, rest) := by
  induction text generalizing read with
  | nil => rw [List.nil_append, shortRest_end, List.append_nil]
  | cons c text ih =>
    rw [List.mem_cons, not_or] at noQuote
    obtain ⟨here, others⟩ := List.forall_mem_cons.mp plain
    rw [List.cons_append, shortRest_plain (Ne.symm noQuote.1) (by simp) here, ih noQuote.2 others]
    simp

def behindQuotes : Nat → QuotePart
  | 0 => .plain
  | run + 1 => .quotes (run + 1)

theorem longRest_plain_cons (quote : Char) (read rest : List Char) (c : Char) :
    longRest quote .plain read (c :: rest) = (stepPlain quote read c).bind fun step =>
      longRest quote step.1 step.2 rest := by
  rw [longRest, stepLong]
  · cases stepPlain quote read c <;> rfl
  · intro count same
    cases same

theorem longRest_quote (few : run < 5) (read rest : List Char) :
    longRest quote (behindQuotes run) read (quote :: rest) =
      longRest quote (behindQuotes (run + 1)) read rest := by
  cases run with
  | zero => simp [behindQuotes, longRest_plain_cons, stepPlain]
  | succ run => simp [behindQuotes, longRest, few]

-- Fewer than three quotes belong to the text once another character follows.
theorem longRest_flush (few : run < 3) (noQuote : c ≠ quote) (read rest : List Char) :
    longRest quote (behindQuotes run) read (c :: rest) =
      longRest quote .plain (List.replicate run quote ++ read) (c :: rest) := by
  cases run with
  | zero => rfl
  | succ run =>
    rw [longRest_plain_cons, behindQuotes, longRest]
    simp only [noQuote, decide_false, Bool.false_and, Bool.false_eq_true, if_false,
      Nat.not_le.mpr few]
    cases stepPlain quote (List.replicate (run + 1) quote ++ read) c <;> rfl

theorem longRest_end (few : run < 3) (read : List Char) (apart : ∀ c ∈ rest.head?, c ≠ quote) :
    longRest quote (behindQuotes run) read (quote :: quote :: quote :: rest) =
      some (read.reverse ++ List.replicate run quote, rest) := by
  rw [longRest_quote (by omega), longRest_quote (by omega), longRest_quote (by omega)]
  cases rest with
  | nil => simp [behindQuotes, longRest]
  | cons c rest =>
    have noQuote := apart c rfl
    simp [behindQuotes, longRest, noQuote]

theorem longRest_plain (noQuote : c ≠ quote) (noSlash : quote = '"' → c ≠ '\\')
    (noReturn : c ≠ '\r') (plain : isPlain c = true ∨ c = '\n') (read rest : List Char) :
    longRest quote .plain read (c :: rest) = longRest quote .plain (c :: read) rest := by
  rw [longRest_plain_cons, stepPlain, if_neg noQuote, not_escape noSlash]
  by_cases feed : c = '\n'
  · simp [feed]
  · simp [feed, noReturn, plain.resolve_right feed]

theorem longRest_escape (escapes : Escapes c escape) (read rest : List Char) :
    longRest '"' .plain read (escape ++ rest) = longRest '"' .plain (c :: read) rest := by
  cases escapes with
  | letter names => simp [longRest, stepLong, stepPlain, stepEscape_letter true names]
  | code small =>
    have high : c.toNat / 16 < 16 := by omega
    simp [longRest, stepLong, stepPlain, stepEscape_code, stepCode_zero, stepCode_first high,
      stepCode_last small]

theorem Escapes.head (escapes : Escapes c escape) : ∃ more, escape = '\\' :: more := by
  cases escapes <;> exact ⟨_, rfl⟩

-- The induction is on the text, with the quotes that were met but not yet taken carried along.
theorem longRest_escaped (few : run < 3) (text read : List Char)
    (apart : ∀ c ∈ rest.head?, c ≠ '"') :
    longRest '"' (behindQuotes run) read (escaped true run text ++ '"' :: '"' :: '"' :: rest) =
      some (read.reverse ++ (List.replicate run '"' ++ text), rest) := by
  induction text generalizing run read with
  | nil =>
    rw [escaped, List.nil_append, longRest_end few read apart, List.append_nil]
  | cons c text ih =>
    -- The character is taken, and so are the quotes before it.
    have further := ih (by decide : 0 < 3) (c :: (List.replicate run '"' ++ read))
    have taken : (c :: (List.replicate run '"' ++ read)).reverse ++
        (List.replicate 0 '"' ++ text) = read.reverse ++ (List.replicate run '"' ++ c :: text) := by
      simp
    rw [taken] at further
    by_cases is : c = '"'
    · subst is
      rw [escaped_long_quote]
      split
      · rename_i second
        rw [List.cons_append, longRest_quote (by omega), ih (by omega)]
        simp [List.replicate_succ']
      · rw [List.append_assoc, List.cons_append, longRest_flush few (by decide)]
        exact (longRest_escape (.letter rfl) ..).trans further
    · rw [escaped_other is, List.append_assoc]
      cases found : escapeOf true c with
      | some escape =>
        have escapes := escapes_of_escapeOf found
        obtain ⟨more, rfl⟩ := escapes.head
        rw [Option.getD_some, List.cons_append, longRest_flush few (by decide)]
        exact (longRest_escape escapes ..).trans further
      | none =>
        obtain ⟨noSlash, noReturn, plain⟩ := plain_of_escapeOf found
        rw [Option.getD_none, List.singleton_append, longRest_flush few is]
        exact (longRest_plain is (fun _ => noSlash) noReturn (plain.imp_right And.right) ..).trans
          further

theorem le_longestRun (c : Char) (run : Nat) (text : List Char) : run ≤ longestRun c run text := by
  induction text generalizing run with
  | nil => exact Nat.le_refl run
  | cons d text ih =>
    unfold longestRun
    split
    · exact Nat.le_of_succ_le (ih (run + 1))
    · exact Nat.le_max_left ..

theorem longRest_literal (few : longestRun '\'' run text < 3)
    (plain : ∀ c ∈ text, c ≠ '\r' ∧ (isPlain c = true ∨ c = '\n')) (read : List Char)
    (apart : ∀ c ∈ rest.head?, c ≠ '\'') :
    longRest '\'' (behindQuotes run) read (text ++ '\'' :: '\'' :: '\'' :: rest) =
      some (read.reverse ++ (List.replicate run '\'' ++ text), rest) := by
  induction text generalizing run read with
  | nil =>
    have few : run < 3 := few
    rw [List.nil_append, longRest_end few read apart, List.append_nil]
  | cons c text ih =>
    obtain ⟨⟨noReturn, here⟩, others⟩ := List.forall_mem_cons.mp plain
    have now := Nat.lt_of_le_of_lt (le_longestRun _ _ _) few
    unfold longestRun at few
    rw [List.cons_append]
    split at few
    · rename_i is
      subst is
      rw [longRest_quote (by omega), ih few others]
      simp [List.replicate_succ']
    · rename_i noQuote
      rw [longRest_flush now noQuote, longRest_plain noQuote (by simp) noReturn here]
      have later : longestRun '\'' 0 text < 3 := Nat.lt_of_le_of_lt (Nat.le_max_right ..) few
      have further := ih later others (c :: (List.replicate run '\'' ++ read))
      simpa [behindQuotes] using further

theorem not_mem_of_longestRun (none : longestRun c run text = 0) : c ∉ text := by
  induction text generalizing run with
  | nil => simp
  | cons d text ih =>
    unfold longestRun at none
    split at none
    · have more := le_longestRun c (run + 1) text
      omega
    · rename_i other
      have later : longestRun c 0 text = 0 := by omega
      simp [Ne.symm other, ih later]

theorem plain_of_isControl (noControl : isControl c = false) :
    c ≠ '\r' ∧ (isPlain c = true ∨ c = '\n') := by
  simp only [isControl, Bool.and_eq_false_iff, Bool.or_eq_false_iff, decide_eq_false_iff_not,
    ne_eq, Decidable.not_not] at noControl
  refine ⟨?_, ?_⟩
  · rintro rfl
    simp at noControl
  · by_cases feed : c = '\n'
    · exact .inr feed
    · left
      simp only [isPlain, Bool.or_eq_true, Bool.and_eq_true, decide_eq_true_eq]
      rcases noControl with (tab | also) | ⟨low, noDelete⟩
      · exact .inl tab
      · exact absurd also feed
      · exact .inr ⟨by omega, noDelete⟩

theorem formFor_literal {traits : Traits} (form : formFor traits = .literal) :
    traits.hasControl = false ∧ traits.singleQuotes = 0 ∧ traits.hasLineFeed = false := by
  unfold formFor at form
  split at form
  · cases form
  split at form
  · rename_i fits
    simpa [and_assoc] using fits
  repeat' split at form
  all_goals cases form

theorem formFor_longLiteral {traits : Traits} (form : formFor traits = .longLiteral) :
    traits.hasControl = false ∧ traits.singleQuotes ≤ 2 := by
  unfold formFor at form
  split at form
  · cases form
  split at form
  · cases form
  split at form
  · cases form
  split at form
  · rename_i fits
    simpa using fits
  split at form <;> cases form

theorem head_escaped (isLong : Bool) (text : List Char) :
    ∀ d ∈ (escaped isLong run text).head?,
      d ≠ '\r' ∧ (d = '\n' → '\n' ∈ text) ∧ (isLong = false → d ≠ '"') := by
  intro d first
  cases text with
  | nil => cases first
  | cons c text =>
    have slash : '\\' ≠ '\r' ∧ ('\\' = '\n' → '\n' ∈ c :: text) ∧ (isLong = false → '\\' ≠ '"') :=
      ⟨by decide, fun same => absurd same (by decide), fun _ => by decide⟩
    by_cases is : c = '"'
    · subst is
      cases isLong with
      | false =>
        rw [escaped_short_quote] at first
        cases first
        exact slash
      | true =>
        rw [escaped_long_quote] at first
        split at first
        · cases first
          exact ⟨by decide, fun same => absurd same (by decide), by simp⟩
        · cases first
          exact slash
    · rw [escaped_other is] at first
      cases found : escapeOf isLong c with
      | some escape =>
        obtain ⟨more, rfl⟩ := (escapes_of_escapeOf found).head
        rw [found] at first
        cases first
        exact slash
      | none =>
        rw [found] at first
        cases first
        refine ⟨(plain_of_escapeOf found).2.1, ?_, fun _ => is⟩
        rintro rfl
        exact List.mem_cons_self

-- Two quotes in a row, where they are not the whole of an empty text, would open a long one.
theorem quotedText_short (double : quote = '"' ∨ quote = '\'') {body : List Char}
    (apart : ∀ c ∈ rest.head?, c ≠ quote) (head : ∀ c ∈ body.head?, c ≠ quote) :
    quotedText (quote :: (body ++ quote :: rest)) =
      shortRest quote .plain [] (body ++ quote :: rest) := by
  have short (more : List Char) : body ++ quote :: rest ≠ quote :: quote :: more := by
    intro same
    cases body with
    | nil =>
      rw [List.nil_append, List.cons.injEq] at same
      exact apart quote (by rw [same.2]; rfl) rfl
    | cons c body => exact head c rfl (List.cons.inj same).1
  rcases double with rfl | rfl <;>
  · rw [quotedText]
    exact fun more same => short more same

theorem lineEnd?_eq_none (head : ∀ c ∈ text.head?, c ≠ '\n' ∧ c ≠ '\r') : lineEnd? text = none := by
  unfold lineEnd?
  split
  · exact absurd rfl (head '\n' rfl).1
  · exact absurd rfl (head '\r' rfl).2
  · rfl

theorem longText_opening (double : quote = '"' ∨ quote = '\'') {body : List Char}
    (head : ∀ c ∈ body.head?, c ≠ '\r' ∧ (c = '\n' → '\n' ∈ text)) :
    longText quote (opening (traitsOf text) ++ body ++ quote :: rest) =
      longRest quote .plain [] (body ++ quote :: rest) := by
  unfold longText opening
  split
  · rfl
  · rename_i noFeed
    have noFeed : '\n' ∉ text := by simpa [traitsOf] using noFeed
    rw [List.nil_append, lineEnd?_eq_none]
    · rfl
    · intro c first
      cases body with
      | nil =>
        cases first
        rcases double with rfl | rfl <;> exact ⟨by decide, by decide⟩
      | cons d body =>
        cases first
        exact ⟨fun feed => noFeed ((head c rfl).2 feed), (head c rfl).1⟩

-- Whatever a text contains, it is read back, and what follows it is left, as long as that does not
-- start with another quote.
theorem quotedText_renderText (text : List Char)
    (apart : ∀ c ∈ rest.head?, c ≠ '"' ∧ c ≠ '\'') :
    quotedText (renderText text ++ rest) = some (text, rest) := by
  have noDouble : ∀ c ∈ rest.head?, c ≠ '"' := fun c first => (apart c first).1
  have noSingle : ∀ c ∈ rest.head?, c ≠ '\'' := fun c first => (apart c first).2
  unfold renderText
  dsimp only
  split
  · have shape : '"' :: escaped false 0 text ++ ['"'] ++ rest =
        '"' :: (escaped false 0 text ++ '"' :: rest) := by simp
    rw [shape, quotedText_short (.inl rfl) noDouble fun c first =>
      (head_escaped false text c first).2.2 rfl]
    exact shortRest_escaped text [] rest
  · rename_i form
    obtain ⟨noControl, noQuotes, noFeed⟩ := formFor_literal form
    have noQuote : '\'' ∉ text := not_mem_of_longestRun noQuotes
    have plain : ∀ c ∈ text, isPlain c = true := by
      intro c present
      have control : isControl c = false := by
        simpa using List.any_eq_false.mp noControl c present
      refine (plain_of_isControl control).2.resolve_right ?_
      rintro rfl
      simp [traitsOf, present] at noFeed
    have shape : '\'' :: text ++ ['\''] ++ rest = '\'' :: (text ++ '\'' :: rest) := by simp
    rw [shape, quotedText_short (.inr rfl) noSingle fun c first same =>
      noQuote (same ▸ List.mem_of_mem_head? first)]
    exact shortRest_literal noQuote plain [] rest
  · have shape : ['"', '"', '"'] ++ opening (traitsOf text) ++ escaped true 0 text ++
        ['"', '"', '"'] ++ rest = '"' :: '"' :: '"' :: (opening (traitsOf text) ++
          escaped true 0 text ++ '"' :: '"' :: '"' :: rest) := by simp
    rw [shape, quotedText, longText_opening (.inl rfl)]
    · exact longRest_escaped (by decide : 0 < 3) text [] noDouble
    · intro c first
      obtain ⟨noReturn, feeds, _⟩ := head_escaped true text c first
      exact ⟨noReturn, feeds⟩
  · rename_i form
    obtain ⟨noControl, fewQuotes⟩ := formFor_longLiteral form
    have plain : ∀ c ∈ text, c ≠ '\r' ∧ (isPlain c = true ∨ c = '\n') := by
      intro c present
      exact plain_of_isControl (by simpa using List.any_eq_false.mp noControl c present)
    have shape : ['\'', '\'', '\''] ++ opening (traitsOf text) ++ text ++ ['\'', '\'', '\''] ++
        rest = '\'' :: '\'' :: '\'' :: (opening (traitsOf text) ++ text ++
          '\'' :: '\'' :: '\'' :: rest) := by simp
    rw [shape, quotedText, longText_opening (.inr rfl)]
    · exact longRest_literal (Nat.lt_succ_of_le fewQuotes) plain [] noSingle
    · intro c first
      have present := List.mem_of_mem_head? first
      exact ⟨(plain c present).1, fun feed => feed ▸ present⟩

end Toml

end RepoFinder
