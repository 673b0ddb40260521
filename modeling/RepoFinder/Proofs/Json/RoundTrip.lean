import RepoFinder.Json.Printer
import RepoFinder.Json.Reader
import RepoFinder.Json.Record
import RepoFinder.Proofs.Text.Decimal

namespace RepoFinder

namespace Json

open State

def IsNumber (literal : List Char) : Prop :=
  (∃ first rest, literal = first :: rest ∧ isSpace first = false ∧ first ≠ ']') ∧
    ∃ part, part.isComplete = true ∧ ∀ frames,
      State.run ⟨frames, .value⟩ literal = some ⟨frames, .number part literal.reverse⟩

mutual

def IsPlain : Json → Prop
  | null => True
  | bool _ => True
  | number literal => IsNumber literal
  | string text => text.isSome
  | array items => ItemsPlain items
  | object fields => FieldsPlain fields

def ItemsPlain : List Json → Prop
  | [] => True
  | item :: rest => IsPlain item ∧ ItemsPlain rest

def FieldsPlain : List (Option (List Char) × Json) → Prop
  | [] => True
  | (key, value) :: rest => key.isSome ∧ IsPlain value ∧ FieldsPlain rest

end

theorem itemsPlain_iff {items : List Json} :
    ItemsPlain items ↔ ∀ item ∈ items, IsPlain item := by
  induction items with
  | nil => simp [ItemsPlain]
  | cons item rest ih => simp [ItemsPlain, ih]

theorem fieldsPlain_iff {fields : List (Option (List Char) × Json)} :
    FieldsPlain fields ↔ ∀ field ∈ fields, field.1.isSome ∧ IsPlain field.2 := by
  induction fields with
  | nil => simp [FieldsPlain]
  | cons field rest ih => simp [FieldsPlain, ih, and_assoc]

theorem run_append (state : State) (text rest : List Char) :
    state.run (text ++ rest) = (state.run text).bind (State.run · rest) := by
  induction text generalizing state with
  | nil => rfl
  | cons c text ih =>
    simp only [List.cons_append, State.run]
    cases state.step c with
    | none => rfl
    | some next => exact ih next

theorem hexValue?_smallHexDigit {n : Nat} (small : n < 16) :
    Text.hexValue? (Text.smallHexDigit n) = some n := by
  have every : ∀ d < 16, Text.hexValue? (Text.smallHexDigit d) = some d := by decide
  exact every n small

theorem run_letter (frames : List Frame) (isKey : Bool) (units : List Nat) {letter : Char}
    {unit : Nat} (escapes : escapeUnit? letter = some unit) (rest : List Char) :
    State.run ⟨frames, .string isKey .plain units⟩ (['\\', letter] ++ rest) =
      State.run ⟨frames, .string isKey .plain (unit :: units)⟩ rest := by
  have noUnicode : letter ≠ 'u' := by
    intro is
    subst is
    cases escapes
  simp [State.run, State.step, stepString, noUnicode, escapes]

theorem run_control (frames : List Frame) (isKey : Bool) (units : List Nat) {unit : Nat}
    (control : unit < 0x20) (rest : List Char) :
    State.run ⟨frames, .string isKey .plain units⟩
        (['\\', 'u', '0', '0', Text.smallHexDigit (unit / 16), Text.smallHexDigit (unit % 16)] ++
          rest) =
      State.run ⟨frames, .string isKey .plain (unit :: units)⟩ rest := by
  have high := hexValue?_smallHexDigit (n := unit / 16) (by omega)
  have low := hexValue?_smallHexDigit (n := unit % 16) (by omega)
  have zero : Text.hexValue? '0' = some 0 := by decide
  have whole : unit / 16 * 16 + unit % 16 = unit := by omega
  simp [State.run, State.step, stepString, high, low, zero, whole]

-- The cases are those of the printer, in its order: seven letters, the control characters that have
-- none, and everything that stands for itself.
theorem run_escapeChar (frames : List Frame) (isKey : Bool) (units : List Nat) (c : Char)
    (rest : List Char) :
    State.run ⟨frames, .string isKey .plain units⟩ (escapeChar c ++ rest) =
      State.run ⟨frames, .string isKey .plain (c.toNat :: units)⟩ rest := by
  have letter {l : Char} {unit : Nat} (escapes : escapeUnit? l = some unit)
      (is : c.toNat = unit) := is ▸ run_letter frames isKey units escapes rest
  unfold escapeChar
  split
  · rename_i is
    subst is
    exact letter rfl rfl
  split
  · rename_i is
    subst is
    exact letter rfl rfl
  split
  · rename_i is
    subst is
    exact letter rfl rfl
  split
  · rename_i is
    subst is
    exact letter rfl rfl
  split
  · rename_i is
    subst is
    exact letter rfl rfl
  split
  · rename_i is
    exact letter rfl is
  split
  · rename_i is
    exact letter rfl is
  split
  · rename_i control
    exact run_control frames isKey units control rest
  · rename_i noQuote noSlash _ _ _ _ _ printable
    simp [State.run, State.step, stepString, noQuote, noSlash, printable]

theorem joinUnits_text (text : List Char) : joinUnits (text.map Char.toNat) = some text := by
  induction text with
  | nil => rfl
  | cons c rest ih =>
    have noSurrogate : ¬(0xD800 ≤ c.toNat ∧ c.toNat ≤ 0xDFFF) := by
      have valid := c.valid
      simp only [UInt32.isValidChar, Nat.isValidChar] at valid
      simp only [Char.toNat]
      omega
    have noHigh : isHighSurrogate c.toNat = false := by
      simp only [isHighSurrogate, Bool.and_eq_false_iff, decide_eq_false_iff_not]
      omega
    have noLow : isLowSurrogate c.toNat = false := by
      simp only [isLowSurrogate, Bool.and_eq_false_iff, decide_eq_false_iff_not]
      omega
    rw [List.map_cons]
    unfold joinUnits
    simp [noHigh, noLow, ih, Char.ofNat_toNat]

theorem run_text (frames : List Frame) (isKey : Bool) (units : List Nat) (text rest : List Char) :
    State.run ⟨frames, .string isKey .plain units⟩ (text.flatMap escapeChar ++ rest) =
      State.run ⟨frames, .string isKey .plain ((text.map Char.toNat).reverse ++ units)⟩ rest := by
  induction text generalizing units with
  | nil => rfl
  | cons c text ih =>
    rw [List.flatMap_cons, List.append_assoc, run_escapeChar, ih]
    simp

theorem run_quoted (frames : List Frame) (isKey : Bool) (text rest : List Char) :
    State.run ⟨frames, .string isKey .plain []⟩ (text.flatMap escapeChar ++ '"' :: rest) =
      (endString frames isKey (some text)).bind (State.run · rest) := by
  rw [run_text, State.run]
  simp only [State.step, stepString, List.append_nil, List.reverse_reverse, joinUnits_text]
  cases endString frames isKey (some text) <;> rfl

def Stops : List Char → Prop
  | [] => False
  | c :: _ => c = ',' ∨ c = ']' ∨ c = '}'

-- The reader learns that a number is over only from the character behind it, which it then reads
-- as if it followed any other value.
theorem run_number {part : NumberPart} (whole : part.isComplete = true) (frames : List Frame)
    (spelled : List Char) {rest : List Char} (stops : Stops rest) :
    State.run ⟨frames, .number part spelled⟩ rest =
      State.run (complete frames (.number spelled.reverse)) rest := by
  cases rest with
  | nil => exact stops.elim
  | cons c rest =>
    have noMore : part.extend c = none := by
      rcases stops with rfl | rfl | rfl <;> cases part <;> rfl
    have between (value : Json) : (complete frames value).step c =
        stepBetween (complete frames value) c := by
      cases frames with
      | nil => rfl
      | cons frame frames => cases frame <;> rfl
    simp only [State.run, between]
    simp only [State.step, noMore, whole, if_true]

theorem run_word (frames : List Frame) (word : List Char) (last : Char) (value : Json)
    (rest : List Char) :
    State.run ⟨frames, .word (word ++ [last]) value⟩ (word ++ last :: rest) =
      State.run (complete frames value) rest := by
  induction word with
  | nil => simp [State.run, State.step]
  | cons c word ih =>
    cases word with
    | nil => simp [State.run, State.step]
    | cons next word => simpa [State.run, State.step] using ih

theorem run_key (frames : List Frame) (read : List (Option (List Char) × Json))
    (key rest : List Char) :
    State.run ⟨.fields read :: frames, .string true .plain []⟩
        (key.flatMap escapeChar ++ '"' :: ':' :: rest) =
      State.run ⟨.field read (some key) :: frames, .value⟩ rest := by
  rw [run_quoted]
  simp [endString, State.run, State.step, stepBetween, isSpace]

-- A number that is read needs something that stops it; any other value ends by itself.
def EndsIn (rest : List Char) : Json → Prop
  | number _ => Stops rest
  | _ => True

theorem Stops.endsIn {rest : List Char} (stops : Stops rest) (value : Json) :
    EndsIn rest value := by
  cases value <;> first | exact stops | trivial

theorem stops_items (items : List Json) (rest : List Char) :
    Stops (compactItems items ++ ']' :: rest) := by
  cases items <;> simp [compactItems, Stops]

theorem stops_fields (fields : List (Option (List Char) × Json)) (rest : List Char) :
    Stops (compactFields fields ++ '}' :: rest) := by
  cases fields <;> simp [compactFields, Stops]

theorem compact_head {value : Json} (plain : IsPlain value) :
    ∃ first rest, compact value = first :: rest ∧ isSpace first = false ∧ first ≠ ']' := by
  match value, plain with
  | null, _ => exact ⟨_, _, rfl, rfl, by decide⟩
  | bool true, _ => exact ⟨_, _, rfl, rfl, by decide⟩
  | bool false, _ => exact ⟨_, _, rfl, rfl, by decide⟩
  | number literal, plain => exact plain.1
  | string (some text), _ => exact ⟨_, _, rfl, rfl, by decide⟩
  | array [], _ => exact ⟨_, _, rfl, rfl, by decide⟩
  | array (item :: items), _ => exact ⟨_, _, rfl, rfl, by decide⟩
  | object [], _ => exact ⟨_, _, rfl, rfl, by decide⟩
  | object ((key, value) :: fields), _ => exact ⟨_, _, rfl, rfl, by decide⟩

-- The first item of an array is read where the array may still end, which is a place of its own.
theorem run_firstItem (frames : List Frame) {value : Json} (plain : IsPlain value)
    (rest : List Char) :
    State.run ⟨frames, .valueOrClose⟩ (compact value ++ rest) =
      State.run ⟨frames, .value⟩ (compact value ++ rest) := by
  obtain ⟨first, others, spelled, noBlank, noEnd⟩ := compact_head plain
  simp [spelled, State.run, State.step, stepBetween, noBlank, noEnd]

mutual

-- The induction is on the value, mutual over the items of its arrays and the fields of its objects.
-- What was read before is carried in the frames, the items and fields of a frame in reverse.
theorem run_compact (frames : List Frame) (value : Json) (plain : IsPlain value)
    (rest : List Char) (ends : EndsIn rest value) :
    State.run ⟨frames, .value⟩ (compact value ++ rest) =
      State.run (complete frames value) rest := by
  match value with
  | null => exact run_word frames ['u', 'l'] 'l' .null rest
  | bool true => exact run_word frames ['r', 'u'] 'e' (.bool true) rest
  | bool false => exact run_word frames ['a', 'l', 's'] 'e' (.bool false) rest
  | number literal =>
    obtain ⟨_, part, whole, read⟩ := plain
    rw [compact, run_append, read frames, Option.bind_some, run_number whole _ _ ends,
      List.reverse_reverse]
  | string (some text) =>
    simp only [compact, quoted, List.cons_append, List.append_assoc, List.nil_append]
    exact run_quoted frames false text rest
  | array [] => rfl
  | array (item :: items) =>
    simp only [compact, List.cons_append, List.append_assoc, List.nil_append]
    have first := run_compact (.items [] :: frames) item plain.1 _
      ((stops_items items rest).endsIn item)
    exact ((run_firstItem _ plain.1 _).trans first).trans
      (run_compactItems frames [item] items plain.2 rest)
  | object [] => rfl
  | object ((some key, value) :: fields) =>
    simp only [compact, quoted, List.cons_append, List.append_assoc, List.nil_append]
    have first := run_compact (.field [] (some key) :: frames) value plain.2.1 _
      ((stops_fields fields rest).endsIn value)
    exact ((run_key frames [] key _).trans first).trans
      (run_compactFields frames [(some key, value)] fields plain.2.2 rest)

theorem run_compactItems (frames : List Frame) (read items : List Json)
    (plain : ItemsPlain items) (rest : List Char) :
    State.run ⟨.items read :: frames, .comma⟩ (compactItems items ++ ']' :: rest) =
      State.run (complete frames (.array (read.reverse ++ items))) rest := by
  match items with
  | [] =>
    rw [List.append_nil]
    rfl
  | item :: items =>
    simp only [compactItems, List.cons_append, List.append_assoc]
    have first := run_compact (.items read :: frames) item plain.1 _
      ((stops_items items rest).endsIn item)
    have others := run_compactItems frames (item :: read) items plain.2 rest
    rw [List.reverse_cons, List.append_assoc] at others
    exact first.trans others

theorem run_compactFields (frames : List Frame) (read fields : List (Option (List Char) × Json))
    (plain : FieldsPlain fields) (rest : List Char) :
    State.run ⟨.fields read :: frames, .comma⟩ (compactFields fields ++ '}' :: rest) =
      State.run (complete frames (.object (read.reverse ++ fields))) rest := by
  match fields with
  | [] =>
    rw [List.append_nil]
    rfl
  | (some key, value) :: fields =>
    simp only [compactFields, quoted, List.cons_append, List.append_assoc, List.nil_append]
    have first := run_compact (.field read (some key) :: frames) value plain.2.1 _
      ((stops_fields fields rest).endsIn value)
    have others := run_compactFields frames ((some key, value) :: read) fields plain.2.2 rest
    rw [List.reverse_cons, List.append_assoc] at others
    exact ((run_key frames read key _).trans first).trans others

end

theorem parse?_compact {value : Json} (plain : IsPlain value) :
    parse? (compact value) = some value := by
  cases value with
  | number literal =>
    obtain ⟨_, part, whole, read⟩ := plain
    simp [parse?, compact, State.start, read [], State.value?, whole]
  | _ =>
    have read := run_compact [] _ plain [] trivial
    rw [List.append_nil] at read
    rw [parse?, State.start, read]
    rfl

theorem run_digits (frames : List Frame) (spelled digits : List Char)
    (every : ∀ c ∈ digits, Text.isDigit c = true) :
    State.run ⟨frames, .number .integer spelled⟩ digits =
      some ⟨frames, .number .integer (digits.reverse ++ spelled)⟩ := by
  induction digits generalizing spelled with
  | nil => rfl
  | cons c digits ih =>
    have digit : Text.isDigit c = true := every c (List.mem_cons_self ..)
    have others : ∀ other ∈ digits, Text.isDigit other = true := by
      intro other present
      exact every other (List.mem_cons_of_mem _ present)
    simpa [State.run, State.step, NumberPart.extend, digit] using ih (c :: spelled) others

theorem step_digit {digit : Nat} (positive : 0 < digit) (small : digit < 10)
    (frames : List Frame) :
    (⟨frames, .value⟩ : State).step (Text.digitChar digit) =
      some ⟨frames, .number .integer [Text.digitChar digit]⟩ := by
  have every : digit = 1 ∨ digit = 2 ∨ digit = 3 ∨ digit = 4 ∨ digit = 5 ∨ digit = 6 ∨
      digit = 7 ∨ digit = 8 ∨ digit = 9 := by omega
  rcases every with rfl | rfl | rfl | rfl | rfl | rfl | rfl | rfl | rfl <;> rfl

theorem isPlain_ofNat (n : Nat) : IsPlain (ofNat n) := by
  by_cases zero : n = 0
  · subst zero
    exact ⟨⟨_, _, rfl, rfl, by decide⟩, .zero, rfl, fun _ => rfl⟩
  · obtain ⟨digit, rest, spelled, positive, small⟩ := Text.decimal_head (Nat.pos_of_ne_zero zero)
    have head : ∀ d < 10, isSpace (Text.digitChar d) = false ∧ Text.digitChar d ≠ ']' := by decide
    have others : ∀ c ∈ rest, Text.isDigit c = true := by
      intro c present
      apply Text.decimal_isDigit n c
      rw [spelled]
      exact List.mem_cons_of_mem _ present
    -- A number has no zero in front, so the reader has begun an integer after the first digit.
    refine ⟨⟨_, rest, spelled, head digit small⟩, .integer, rfl, ?_⟩
    intro frames
    rw [spelled, State.run, step_digit positive small frames]
    simpa using run_digits frames [Text.digitChar digit] rest others

theorem natural?_ofNat {bound n : Nat} (small : n < bound) :
    (ofNat n).natural? bound = some n := by
  have digits : (Text.decimal n).all Text.isDigit = true :=
    List.all_eq_true.mpr (Text.decimal_isDigit n)
  simp [ofNat, natural?, digits, Text.ofDigits_decimal, small]

end Json

end RepoFinder
