import RepoFinder.Text.Utf8

namespace RepoFinder.Text.Utf8

def tailByte (bits : Nat) : UInt8 := UInt8.ofNat (bits + 0x80)

-- The well-formed sequences, each with its scalar value. No sequence is longer than it must be,
-- and none spells a surrogate or a value past the last one.
inductive Spells : Nat → List UInt8 → Prop where
  | one {a : Nat} (small : a < 0x80) : Spells a [UInt8.ofNat a]
  | two {a b : Nat} (long : 2 ≤ a) (lead : a < 32) (first : b < 64) :
      Spells (a * 64 + b) [UInt8.ofNat (a + 0xC0), tailByte b]
  | three {a b c : Nat} (lead : a < 16) (first : b < 64) (second : c < 64) (long : a = 0 → 32 ≤ b)
      (noSurrogate : a = 13 → b < 32) :
      Spells ((a * 64 + b) * 64 + c) [UInt8.ofNat (a + 0xE0), tailByte b, tailByte c]
  | four {a b c d : Nat} (lead : a < 5) (first : b < 64) (second : c < 64) (third : d < 64)
      (long : a = 0 → 16 ≤ b) (within : a = 4 → b < 16) :
      Spells (((a * 64 + b) * 64 + c) * 64 + d)
        [UInt8.ofNat (a + 0xF0), tailByte b, tailByte c, tailByte d]

theorem Spells.isValid {n : Nat} {bytes : List UInt8} (spells : Spells n bytes) :
    n.isValidChar := by
  cases spells with
  | one small => exact .inl (by omega)
  | two long lead first => exact .inl (by omega)
  | @three a b c lead first second long noSurrogate =>
    by_cases surrogate : a < 13 ∨ a = 13
    · exact .inl (by omega)
    · exact .inr (by omega)
  | four lead first second third long within => exact .inr (by omega)

theorem toNat_ofNat {n : Nat} (valid : n.isValidChar) : (Char.ofNat n).toNat = n := by
  rw [Char.ofNat, dif_pos valid]
  rfl

theorem Spells.encodeChar {n : Nat} {bytes : List UInt8} (spells : Spells n bytes) :
    String.utf8EncodeChar (Char.ofNat n) = bytes := by
  have value : (Char.ofNat n).val.toNat = n := toNat_ofNat spells.isValid
  cases spells with
  | one small =>
    simp only [String.utf8EncodeChar, value]
    rw [if_pos (by omega)]
  | @two a b long lead first =>
    have top : (a * 64 + b) / 64 % 0x20 = a := by omega
    have bottom : (a * 64 + b) % 0x40 = b := by omega
    simp only [String.utf8EncodeChar, value]
    rw [if_neg (by omega), if_pos (by omega), top, bottom, tailByte]
  | @three a b c lead first second long noSurrogate =>
    have top : ((a * 64 + b) * 64 + c) / 4096 % 0x10 = a := by omega
    have middle : ((a * 64 + b) * 64 + c) / 64 % 0x40 = b := by omega
    have bottom : ((a * 64 + b) * 64 + c) % 0x40 = c := by omega
    simp only [String.utf8EncodeChar, value]
    rw [if_neg (by omega), if_neg (by omega), if_pos (by omega), top, middle, bottom, tailByte,
      tailByte]
  | @four a b c d lead first second third long within =>
    have top : (((a * 64 + b) * 64 + c) * 64 + d) / 262144 % 0x08 = a := by omega
    have upper : (((a * 64 + b) * 64 + c) * 64 + d) / 4096 % 0x40 = b := by omega
    have lower : (((a * 64 + b) * 64 + c) * 64 + d) / 64 % 0x40 = c := by omega
    have bottom : (((a * 64 + b) * 64 + c) * 64 + d) % 0x40 = d := by omega
    simp only [String.utf8EncodeChar, value]
    rw [if_neg (by omega), if_neg (by omega), if_neg (by omega), top, upper, lower, bottom,
      tailByte, tailByte, tailByte]

theorem exists_spells {n : Nat} (valid : n.isValidChar) : ∃ bytes, Spells n bytes := by
  have bound : n < 0x110000 ∧ ¬(0xD800 ≤ n ∧ n < 0xE000) := by
    rcases valid with low | ⟨above, below⟩ <;> omega
  by_cases ascii : n < 0x80
  · exact ⟨_, .one ascii⟩
  by_cases short : n < 0x800
  · have parts : n = n / 64 * 64 + n % 64 := by omega
    rw [parts]
    exact ⟨_, .two (by omega) (by omega) (by omega)⟩
  by_cases basic : n < 0x10000
  · have parts : n = (n / 4096 * 64 + n / 64 % 64) * 64 + n % 64 := by omega
    rw [parts]
    exact ⟨_, .three (by omega) (by omega) (by omega) (by omega) (by omega)⟩
  · have parts : n = ((n / 262144 * 64 + n / 4096 % 64) * 64 + n / 64 % 64) * 64 + n % 64 := by
      omega
    rw [parts]
    exact ⟨_, .four (by omega) (by omega) (by omega) (by omega) (by omega) (by omega)⟩

theorem spells_encodeChar (c : Char) : Spells c.toNat (String.utf8EncodeChar c) := by
  obtain ⟨bytes, spells⟩ := exists_spells c.valid
  have same := spells.encodeChar
  rw [show Char.ofNat c.val.toNat = c from Char.ofNat_toNat c] at same
  exact same ▸ spells

theorem start_one : ∀ a < 0x80, start (UInt8.ofNat a) = ([some (Char.ofNat a)], .between) := by
  decide

theorem start_two : ∀ a < 32, 2 ≤ a →
    start (UInt8.ofNat (a + 0xC0)) = ([], .inside 0 0x80 0xBF a) := by
  decide

theorem start_three : ∀ a < 16, start (UInt8.ofNat (a + 0xE0)) =
    ([], .inside 1 (if a = 0 then 0xA0 else 0x80) (if a = 13 then 0x9F else 0xBF) a) := by
  decide

theorem start_four : ∀ a < 5, start (UInt8.ofNat (a + 0xF0)) =
    ([], .inside 2 (if a = 0 then 0x90 else 0x80) (if a = 4 then 0x8F else 0xBF) a) := by
  decide

theorem start_stray : ∀ n < 0x42, start (UInt8.ofNat (n + 0x80)) = ([none], .between) := by
  decide

theorem start_beyond : ∀ n < 11, start (UInt8.ofNat (n + 0xF5)) = ([none], .between) := by
  decide

theorem pieces_cons (b : UInt8) (rest : List UInt8) :
    pieces (b :: rest) = (start b).1 ++ piecesFrom (start b).2 rest := rfl

theorem toNat_tailByte {bits : Nat} (small : bits < 64) : (tailByte bits).toNat = bits + 0x80 := by
  rw [tailByte, UInt8.toNat_ofNat', Nat.mod_eq_of_lt (by omega)]

def Admits (low high : UInt8) (bits : Nat) : Prop :=
  bits < 64 ∧ low.toNat ≤ bits + 0x80 ∧ bits + 0x80 ≤ high.toNat

theorem admits_any {bits : Nat} (small : bits < 64) : Admits 0x80 0xBF bits := by
  refine ⟨small, ?_, ?_⟩
  · simp
  · simp
    omega

theorem Admits.step_eq {low high : UInt8} {bits : Nat} (admits : Admits low high bits)
    (missing value : Nat) :
    step (.inside missing low high value) (tailByte bits) =
      match missing with
      | 0 => ([some (Char.ofNat (value * 64 + bits))], .between)
      | more + 1 => ([], .inside more 0x80 0xBF (value * 64 + bits)) := by
  obtain ⟨small, above, below⟩ := admits
  have within : low ≤ tailByte bits ∧ tailByte bits ≤ high := by
    simp only [UInt8.le_iff_toNat_le, toNat_tailByte small]
    exact ⟨above, below⟩
  have bitsOf : (tailByte bits).toNat - 0x80 = bits := by rw [toNat_tailByte small]; omega
  cases missing <;> simp [step, within, bitsOf]

theorem piecesFrom_last {low high : UInt8} {bits : Nat} (admits : Admits low high bits)
    (value : Nat) (rest : List UInt8) :
    piecesFrom (.inside 0 low high value) (tailByte bits :: rest) =
      some (Char.ofNat (value * 64 + bits)) :: pieces rest := by
  rw [piecesFrom, admits.step_eq]
  rfl

theorem piecesFrom_more {low high : UInt8} {bits : Nat} (admits : Admits low high bits)
    (more value : Nat) (rest : List UInt8) :
    piecesFrom (.inside (more + 1) low high value) (tailByte bits :: rest) =
      piecesFrom (.inside more 0x80 0xBF (value * 64 + bits)) rest := by
  rw [piecesFrom, admits.step_eq]
  rfl

theorem admits_of_piecesFrom {missing value : Nat} {low high : UInt8} {bytes : List UInt8}
    {c : Char} {rest : List Piece} (above : 0x80 ≤ low.toNat) (below : high.toNat ≤ 0xBF)
    (read : piecesFrom (.inside missing low high value) bytes = some c :: rest) :
    ∃ bits behind, bytes = tailByte bits :: behind ∧ Admits low high bits := by
  cases bytes with
  | nil => simp [piecesFrom] at read
  | cons b behind =>
    by_cases within : low ≤ b ∧ b ≤ high
    · have bounds := within
      simp only [UInt8.le_iff_toNat_le] at bounds
      have spelled : tailByte (b.toNat - 0x80) = b := by
        rw [tailByte, Nat.sub_add_cancel (by omega), UInt8.ofNat_toNat]
      exact ⟨b.toNat - 0x80, behind, by rw [spelled], by omega, by omega, by omega⟩
    · simp [piecesFrom, step, within] at read

-- The bounds behind a lead byte leave out what is too long, the surrogates and what is too high.
theorem admits_three {a b : Nat} : Admits (if a = 0 then 0xA0 else 0x80)
    (if a = 13 then 0x9F else 0xBF) b ↔ b < 64 ∧ (a = 0 → 32 ≤ b) ∧ (a = 13 → b < 32) := by
  unfold Admits
  split <;> split <;> simp <;> omega

theorem admits_four {a b : Nat} : Admits (if a = 0 then 0x90 else 0x80)
    (if a = 4 then 0x8F else 0xBF) b ↔ b < 64 ∧ (a = 0 → 16 ≤ b) ∧ (a = 4 → b < 16) := by
  unfold Admits
  split <;> split <;> simp <;> omega

theorem pieces_spells {n : Nat} {bytes : List UInt8} (spells : Spells n bytes)
    (rest : List UInt8) : pieces (bytes ++ rest) = some (Char.ofNat n) :: pieces rest := by
  cases spells with
  | one small =>
    rw [List.singleton_append, pieces_cons, start_one n small]
    rfl
  | two long lead first =>
    rw [List.cons_append, pieces_cons, start_two _ lead long]
    exact piecesFrom_last (admits_any first) ..
  | three lead first second long noSurrogate =>
    rw [List.cons_append, pieces_cons, start_three _ lead]
    refine (piecesFrom_more (admits_three.mpr ⟨first, long, noSurrogate⟩) ..).trans ?_
    exact piecesFrom_last (admits_any second) ..
  | four lead first second third long within =>
    rw [List.cons_append, pieces_cons, start_four _ lead]
    refine (piecesFrom_more (admits_four.mpr ⟨first, long, within⟩) ..).trans ?_
    refine (piecesFrom_more (admits_any second) ..).trans ?_
    exact piecesFrom_last (admits_any third) ..

-- What a byte is at the start of a sequence. The two bytes below 0xC2 that look like leads count as
-- strays: what they could lead would fit into one byte.
theorem lead_cases (lead : UInt8) :
    (∃ a < 0x80, lead = UInt8.ofNat a) ∨ (∃ a < 0x42, lead = UInt8.ofNat (a + 0x80)) ∨
      (∃ a < 32, 2 ≤ a ∧ lead = UInt8.ofNat (a + 0xC0)) ∨
      (∃ a < 16, lead = UInt8.ofNat (a + 0xE0)) ∨ (∃ a < 5, lead = UInt8.ofNat (a + 0xF0)) ∨
      ∃ a < 11, lead = UInt8.ofNat (a + 0xF5) := by
  have small := lead.toNat_lt
  have named (base : Nat) (above : base ≤ lead.toNat) :
      lead = UInt8.ofNat (lead.toNat - base + base) := by
    rw [Nat.sub_add_cancel above, UInt8.ofNat_toNat]
  by_cases one : lead.toNat < 0x80
  · exact .inl ⟨lead.toNat, one, UInt8.ofNat_toNat.symm⟩
  by_cases stray : lead.toNat < 0xC2
  · exact .inr (.inl ⟨_, by omega, named 0x80 (by omega)⟩)
  by_cases two : lead.toNat < 0xE0
  · exact .inr (.inr (.inl ⟨_, by omega, by omega, named 0xC0 (by omega)⟩))
  by_cases three : lead.toNat < 0xF0
  · exact .inr (.inr (.inr (.inl ⟨_, by omega, named 0xE0 (by omega)⟩)))
  by_cases four : lead.toNat < 0xF5
  · exact .inr (.inr (.inr (.inr (.inl ⟨_, by omega, named 0xF0 (by omega)⟩))))
  · exact .inr (.inr (.inr (.inr (.inr ⟨_, by omega, named 0xF5 (by omega)⟩))))

-- Only a well-formed sequence is read as a scalar value. The automaton is followed backwards here,
-- from the value that it emitted to the bytes that it must have seen.
theorem spells_of_pieces {bytes : List UInt8} {c : Char} {rest : List Piece}
    (read : pieces bytes = some c :: rest) :
    ∃ n front behind, bytes = front ++ behind ∧ Spells n front := by
  cases bytes with
  | nil => cases read
  | cons lead behind =>
    rw [pieces_cons] at read
    rcases lead_cases lead with ⟨a, small, rfl⟩ | ⟨a, small, rfl⟩ | ⟨a, small, long, rfl⟩ |
      ⟨a, small, rfl⟩ | ⟨a, small, rfl⟩ | ⟨a, small, rfl⟩
    · exact ⟨_, _, behind, rfl, .one small⟩
    · rw [start_stray a small] at read
      cases read
    · rw [start_two a small long] at read
      obtain ⟨b, behind, rfl, first⟩ := admits_of_piecesFrom (by simp) (by simp) read
      exact ⟨_, [_, _], behind, rfl, .two long small first.1⟩
    · rw [start_three a small] at read
      obtain ⟨b, behind, rfl, first⟩ :=
        admits_of_piecesFrom (by split <;> simp) (by split <;> simp) read
      obtain ⟨c, behind, rfl, second⟩ := admits_of_piecesFrom (by simp) (by simp)
        ((piecesFrom_more first ..).symm.trans read)
      obtain ⟨bound, long, noSurrogate⟩ := admits_three.mp first
      exact ⟨_, [_, _, _], behind, rfl, .three small bound second.1 long noSurrogate⟩
    · rw [start_four a small] at read
      obtain ⟨b, behind, rfl, first⟩ :=
        admits_of_piecesFrom (by split <;> simp) (by split <;> simp) read
      obtain ⟨c, behind, rfl, second⟩ := admits_of_piecesFrom (by simp) (by simp)
        ((piecesFrom_more first ..).symm.trans read)
      obtain ⟨d, behind, rfl, third⟩ := admits_of_piecesFrom (by simp) (by simp)
        ((piecesFrom_more second ..).symm.trans ((piecesFrom_more first ..).symm.trans read))
      obtain ⟨bound, long, within⟩ := admits_four.mp first
      exact ⟨_, [_, _, _, _], behind, rfl, .four small bound second.1 third.1 long within⟩
    · rw [start_beyond a small] at read
      cases read

theorem decode?_eq_some {bytes : List UInt8} {text : List Char} :
    decode? bytes = some text ↔ pieces bytes = text.map some := by
  unfold decode?
  generalize pieces bytes = read
  induction read generalizing text with
  | nil => cases text <;> simp
  | cons piece rest ih =>
    cases piece with
    | none => cases text <;> simp
    | some c =>
      cases text with
      | nil => simp [Option.bind_eq_some_iff]
      | cons d text => simpa [Option.bind_eq_some_iff, ih] using and_comm

theorem pieces_encode_append (text : List Char) (more : List UInt8) :
    pieces (encode text ++ more) = text.map some ++ pieces more := by
  induction text with
  | nil => rfl
  | cons c rest ih =>
    have first := pieces_spells (spells_encodeChar c) (encode rest ++ more)
    rw [Char.ofNat_toNat, ih, ← List.append_assoc] at first
    exact first

theorem pieces_encode (text : List Char) : pieces (encode text) = text.map some := by
  have alone := pieces_encode_append text []
  rwa [List.append_nil, show pieces [] = [] from rfl, List.append_nil] at alone

theorem start_busy (b : UInt8) : (start b).1 ≠ [] ∨ (start b).2 ≠ .between := by
  unfold start
  repeat' split
  all_goals simp

theorem eq_nil_of_piecesFrom {state : State} {bytes : List UInt8}
    (none : piecesFrom state bytes = []) : state = .between ∧ bytes = [] := by
  induction bytes generalizing state with
  | nil => cases state <;> simp_all [piecesFrom]
  | cons b rest ih =>
    obtain ⟨silent, behind⟩ := List.append_eq_nil_iff.mp none
    have idle := (ih behind).1
    cases state with
    | between => exact absurd silent ((start_busy b).resolve_right (by simpa using idle))
    | inside missing low high value =>
      by_cases within : low ≤ b ∧ b ≤ high
      · cases missing <;> simp [within] at silent idle
      · simp [within] at silent

theorem decode?_encode (text : List Char) : decode? (encode text) = some text :=
  decode?_eq_some.mpr (pieces_encode text)

theorem encode_of_decode? {bytes : List UInt8} {text : List Char}
    (decoded : decode? bytes = some text) : encode text = bytes := by
  have read := decode?_eq_some.mp decoded
  clear decoded
  induction text generalizing bytes with
  | nil => exact (eq_nil_of_piecesFrom read).2 ▸ rfl
  | cons c rest ih =>
    obtain ⟨n, front, behind, rfl, spells⟩ := spells_of_pieces read
    rw [pieces_spells spells, List.map_cons, List.cons.injEq, Option.some.injEq] at read
    obtain ⟨rfl, read⟩ := read
    simp only [encode, List.flatMap_cons] at ih ⊢
    rw [spells.encodeChar, ih read]

theorem decode?_encode_append {text whole : List Char} {more : List UInt8}
    (decoded : decode? (encode text ++ more) = some whole) :
    ∃ rest, decode? more = some rest ∧ whole = text ++ rest := by
  have read := decode?_eq_some.mp decoded
  rw [pieces_encode_append] at read
  obtain ⟨front, rest, rfl, same, behind⟩ := List.map_eq_append_iff.mp read.symm
  rw [(List.map_inj_right fun _ _ => Option.some.inj).mp same]
  exact ⟨rest, decode?_eq_some.mpr behind.symm, rfl⟩

theorem encode_of_decodeLossy {bytes : List UInt8} {text : List Char}
    (decoded : decodeLossy bytes = text) (whole : replacement ∉ text) : encode text = bytes := by
  apply encode_of_decode?
  apply decode?_eq_some.mpr
  subst decoded
  unfold decodeLossy at whole ⊢
  generalize pieces bytes = read at whole ⊢
  induction read with
  | nil => rfl
  | cons piece rest ih =>
    rw [List.map_cons, List.mem_cons, not_or] at whole
    rw [List.map_cons, List.map_cons, ← ih whole.2]
    cases piece with
    | none => exact absurd rfl whole.1
    | some c => rfl

end RepoFinder.Text.Utf8
