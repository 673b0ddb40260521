import RepoFinder.Proofs.Text.Decimal
import RepoFinder.Proofs.Time.Calendar
import RepoFinder.Time.Rfc3339

namespace RepoFinder.Time

open RepoFinder.Text

namespace Rfc3339

theorem isDigit_iff {c : Char} : isDigit c = true ↔ 48 ≤ c.toNat ∧ c.toNat ≤ 57 := by
  simp only [isDigit, Bool.and_eq_true, decide_eq_true_eq]
  exact Iff.rfl

theorem isBlank_digit {c : Char} (digit : isDigit c = true) : isBlank c = false := by
  have bounds := isDigit_iff.mp digit
  simp only [isBlank, Bool.or_eq_false_iff, Bool.and_eq_false_iff, decide_eq_false_iff_not,
    beq_eq_false_iff_ne]
  omega

theorem trimStart_digits {digits rest : List Char} (every : ∀ c ∈ digits, isDigit c = true)
    (some : digits ≠ []) : trimStart (digits ++ rest) = digits ++ rest := by
  cases digits with
  | nil => exact absurd rfl some
  | cons c digits =>
    simp [trimStart, isBlank_digit (every c (List.mem_cons_self ..))]

def NoDigit (text : List Char) : Prop := ∀ c ∈ text.head?, isDigit c = false

theorem takeWhile_of_noDigit {text : List Char} (ends : NoDigit text) :
    text.takeWhile isDigit = [] := by
  cases text with
  | nil => rfl
  | cons c rest => simp [ends c rfl]

theorem number_digits {width : Nat} {digits rest : List Char}
    (every : ∀ c ∈ digits, isDigit c = true) (some : digits ≠ []) (fits : digits.length ≤ width)
    (ends : digits.length = width ∨ NoDigit rest) :
    number width (digits ++ rest) = .some (ofDigits digits, rest) := by
  have noMore : NoDigit (rest.take (width - digits.length)) := by
    intro c head
    rcases ends with full | ends
    · simp [full] at head
    · cases rest with
      | nil => simp at head
      | cons first rest =>
        cases room : width - digits.length with
        | zero => simp [room] at head
        | succ room' => exact ends c (by simpa [room] using head)
  have taken : ((digits ++ rest).take width).takeWhile isDigit = digits := by
    rw [List.take_append, List.take_of_length_le fits,
      List.takeWhile_append_of_pos every, takeWhile_of_noDigit noMore, List.append_nil]
  unfold number
  rw [taken]
  -- The reader refuses a number without digits, which is a case of its own there.
  cases digits with
  | nil => exact absurd rfl some
  | cons c digits => simp

theorem padded_ne_nil (width n : Nat) : padded width n ≠ [] := by
  simp [padded, decimal_ne_nil]

theorem blankNumber_padded {n : Nat} (small : n < 100) (rest : List Char) :
    blankNumber 2 (padded 2 n ++ rest) = some (n, rest) := by
  have length : (padded 2 n).length = 2 := length_padded small
  rw [blankNumber, trimStart_digits (padded_isDigit 2 n) (padded_ne_nil 2 n),
    number_digits (padded_isDigit 2 n) (padded_ne_nil 2 n) (by omega) (.inl length),
    ofDigits_padded]

theorem longNumber_padded (width n : Nat) {rest : List Char} (ends : NoDigit rest) :
    longNumber (padded width n ++ rest) = some (n, rest) := by
  rw [longNumber, number_digits (padded_isDigit width n) (padded_ne_nil width n)
    (by simp) (.inr ends), ofDigits_padded]

theorem noDigit_dash (rest : List Char) : NoDigit ('-' :: rest) := by
  simp [NoDigit, isDigit]

theorem year_renderYear (y : Int) (rest : List Char) :
    year (renderYear y ++ '-' :: rest) = some (y, '-' :: rest) := by
  have ends := noDigit_dash rest
  -- Four digits are read without a sign; a longer year and one before zero have theirs.
  cases y with
  | ofNat n =>
    by_cases short : n ≤ 9999
    · have digits := padded_isDigit 4 n
      have length : (padded 4 n).length = 4 := length_padded (by omega)
      have read : number 4 (padded 4 n ++ '-' :: rest) = some (n, '-' :: rest) := by
        rw [number_digits digits (padded_ne_nil 4 n) (by omega) (.inl length), ofDigits_padded]
      have trimmed : trimStart (padded 4 n ++ '-' :: rest) = padded 4 n ++ '-' :: rest :=
        trimStart_digits digits (padded_ne_nil 4 n)
      simp only [renderYear, short, if_true, year, trimmed]
      cases front : padded 4 n with
      | nil => exact absurd front (padded_ne_nil 4 n)
      | cons c others =>
        have digit := isDigit_iff.mp (digits c (by simp [front]))
        rw [front] at read
        split
        · rename_i same
          cases same
          simp at digit
        · rename_i same
          cases same
          simp at digit
        · rw [read]
          rfl
    · simp only [renderYear, short, if_false, year, List.cons_append]
      have trimmed : trimStart ('+' :: (padded 4 n ++ '-' :: rest)) =
          '+' :: (padded 4 n ++ '-' :: rest) := rfl
      rw [trimmed]
      simp [longNumber_padded 4 n ends]
  | negSucc n =>
    simp only [renderYear, year, List.cons_append]
    have trimmed : trimStart ('-' :: (padded 4 (n + 1) ++ '-' :: rest)) =
        '-' :: (padded 4 (n + 1) ++ '-' :: rest) := rfl
    rw [trimmed]
    simp [longNumber_padded 4 (n + 1) ends, Int.negSucc_eq]

theorem date_render {d : Date} (valid : d.isValid = true) (rest : List Char) :
    date (renderYear d.year ++ '-' :: (padded 2 d.month ++ '-' :: (padded 2 d.day ++ rest))) =
      some (d, rest) := by
  have bounds : d.month ≤ 12 ∧ d.day ≤ 31 := by
    simp only [Date.isValid, Bool.and_eq_true, decide_eq_true_eq] at valid
    have longest : Date.daysInMonth d.year d.month ≤ 31 := by
      simp only [Date.daysInMonth]
      repeat' split
      all_goals omega
    omega
  have dash (text : List Char) : mark '-' ('-' :: text) = some text := by rfl
  simp only [date, year_renderYear, dash, Option.bind_eq_bind, Option.bind_some]
  rw [blankNumber_padded (by omega), Option.bind_some, dash, Option.bind_some,
    blankNumber_padded (by omega)]
  rfl

theorem fraction_padded {width n : Nat} (small : n < 10 ^ (width + 1)) (short : width + 1 ≤ 9)
    (rest : List Char) :
    fraction ('.' :: (padded (width + 1) n ++ 'Z' :: rest)) =
      some (n * 10 ^ (9 - (width + 1)), 'Z' :: rest) := by
  have digits := padded_isDigit (width + 1) n
  have length := length_padded small
  have ends : ('Z' :: rest).takeWhile isDigit = [] := by rfl
  have beyond : ('Z' :: rest).dropWhile isDigit = 'Z' :: rest := by rfl
  have filled : ofDigits (nineDigits (padded (width + 1) n)) = n * 10 ^ (9 - (width + 1)) := by
    rw [nineDigits, List.take_of_length_le (by omega), ofDigits_append_zeros, ofDigits_padded,
      length]
  simp only [fraction]
  rw [List.takeWhile_append_of_pos digits, ends, List.append_nil,
    List.dropWhile_append_of_pos digits, beyond]
  cases front : padded (width + 1) n with
  | nil => exact absurd front (padded_ne_nil _ n)
  | cons c others =>
    rw [front] at filled
    simp only [filled]

theorem fraction_render {nanos : Nat} (small : nanos < nanosPerSecond) (rest : List Char) :
    fraction (renderFraction nanos ++ 'Z' :: rest) = some (nanos, 'Z' :: rest) := by
  simp only [nanosPerSecond] at small
  unfold renderFraction
  split
  · rename_i none
    rw [none]
    rfl
  -- Three, six or nine digits: in each case the zeros that were left out are filled in.
  repeat' split
  all_goals
    rw [List.cons_append, fraction_padded (by omega) (by decide)]
    congr 2
    omega

theorem timeOfDay_render {hour minute second nanos : Nat} (hours : hour < 100)
    (minutes : minute < 100) (seconds : second < 100) (small : nanos < nanosPerSecond)
    (rest : List Char) :
    timeOfDay (padded 2 hour ++ ':' :: (padded 2 minute ++ ':' :: (padded 2 second ++
      (renderFraction nanos ++ 'Z' :: rest)))) =
        some (⟨hour, minute, second, nanos⟩, 'Z' :: rest) := by
  have colon (text : List Char) : mark ':' (':' :: text) = some text := by rfl
  simp only [timeOfDay, blankNumber_padded hours, blankNumber_padded minutes,
    blankNumber_padded seconds, colon, fraction_render small, Option.bind_eq_bind,
    Option.bind_some]
  rfl

-- A leap second is written as second sixty, so it is a moment only at the end of a minute.
theorem leap_cases {t : Timestamp} (moment : t.IsMoment) {leap : Nat}
    (leaps : leap = if t.isLeapSecond then 1 else 0) :
    leap = 0 ∧ t.nanos < nanosPerSecond ∨ leap = 1 ∧ nanosPerSecond ≤ t.nanos ∧
      t.nanos < 2 * nanosPerSecond ∧ t.secondOfDay.toNat % 60 = 59 := by
  have steady := moment.steady
  by_cases long : nanosPerSecond ≤ t.nanos
  · have last : t.secondOfDay.toNat % 60 = 59 := by
      simp only [Timestamp.secondOfDay, secondsPerDay]
      omega
    simp only [Timestamp.isLeapSecond, decide_eq_true long, if_true] at leaps
    right
    exact ⟨leaps, long, by omega, last⟩
  · simp only [Timestamp.isLeapSecond, decide_eq_false long, Bool.false_eq_true, if_false] at leaps
    left
    exact ⟨leaps, by omega⟩

theorem moment?_parts {t : Timestamp} (moment : t.IsMoment) {leap : Nat}
    (leaps : leap = if t.isLeapSecond then 1 else 0) :
    moment? t.date
      ⟨t.secondOfDay.toNat / 3600, t.secondOfDay.toNat / 60 % 60, t.secondOfDay.toNat % 60 + leap,
        t.nanos - leap * nanosPerSecond⟩ 0 = some t := by
  have inRange := moment.inRange
  have valid : t.date.isValid = true := Date.isValid_ofDayNumber t.dayNumber
  have years : Date.firstYear ≤ t.date.year ∧ t.date.year ≤ Date.lastYear := by
    simp only [Timestamp.inRange, Bool.and_eq_true, decide_eq_true_eq] at inRange
    exact Date.year_ofDayNumber inRange.1 inRange.2
  have day : t.date.toDayNumber = t.dayNumber := Date.toDayNumber_ofDayNumber t.dayNumber
  have second : 0 ≤ t.secondOfDay ∧ t.secondOfDay < 86400 := by
    simp only [Timestamp.secondOfDay, secondsPerDay]
    omega
  have split : t.seconds = t.dayNumber * 86400 + t.secondOfDay := by
    simp only [Timestamp.dayNumber, Timestamp.secondOfDay, secondsPerDay]
    omega
  have clock : t.secondOfDay.toNat / 3600 ≤ 23 ∧ t.secondOfDay.toNat / 60 % 60 ≤ 59 := by omega
  have minute : t.secondOfDay.toNat % 60 + leap ≤ 60 ∧
      t.secondOfDay.toNat % 60 + leap - (t.secondOfDay.toNat % 60 + leap) / 60 =
        t.secondOfDay.toNat % 60 ∧
      t.nanos - leap * nanosPerSecond + (t.secondOfDay.toNat % 60 + leap) / 60 * nanosPerSecond =
        t.nanos := by
    rcases leap_cases moment leaps with ⟨rfl, short⟩ | ⟨rfl, long, _, last⟩
    · have none : t.secondOfDay.toNat % 60 / 60 = 0 := by omega
      simp only [Nat.add_zero, none]
      omega
    · rw [last]
      omega
  have seconds : t.dayNumber * 86400 + (max t.secondOfDay 0 / 3600 * 3600 +
      max t.secondOfDay 0 / 60 % 60 * 60 + max t.secondOfDay 0 % 60) = t.seconds := by
    omega
  have same : (⟨t.seconds, t.nanos⟩ : Timestamp) = t := rfl
  simp [moment?, valid, years, clock, minute, day, secondsPerDay, seconds, same, inRange]

theorem parse?_render {t : Timestamp} (moment : t.IsMoment) : parse? (render t) = some t := by
  obtain ⟨leap, leaps⟩ : ∃ leap : Nat, leap = if t.isLeapSecond then 1 else 0 := ⟨_, rfl⟩
  have second : t.secondOfDay.toNat < 86400 := by
    simp only [Timestamp.secondOfDay, secondsPerDay]
    omega
  have small : leap ≤ 1 ∧ t.nanos - leap * nanosPerSecond < nanosPerSecond := by
    rcases leap_cases moment leaps with ⟨rfl, short⟩ | ⟨rfl, long, small, _⟩ <;> omega
  have dates := date_render (Date.isValid_ofDayNumber t.dayNumber)
  have hour : t.secondOfDay.toNat / 3600 < 100 := by omega
  have minute : t.secondOfDay.toNat / 60 % 60 < 100 := by omega
  have seconds : t.secondOfDay.toNat % 60 + leap < 100 := by omega
  have times := timeOfDay_render hour minute seconds small.2 []
  have zone : offset ['Z'] = some (0, []) := by rfl
  simp only [render, ← leaps, List.append_assoc, List.cons_append, parse?,
    Timestamp.date, dates, times, zone, Option.bind_eq_bind, Option.bind_some]
  exact moment?_parts moment leaps

end Rfc3339

end RepoFinder.Time
