import RepoFinder.Proofs.Text.Utf8

namespace RepoFinder.Text.Utf8

variable {bytes front back : List UInt8} {byte : UInt8} {text : List Char} {c : Char}

-- A byte below 0x80 continues no sequence that is open in this state.
def State.IsShut : State → Prop
  | .between => True
  | .inside _ low _ _ => 0x80 ≤ low

theorem start_isShut (byte : UInt8) : (start byte).2.IsShut := by
  unfold start
  repeat' split
  all_goals simp [State.IsShut]

theorem step_isShut {state : State} (shut : state.IsShut) (byte : UInt8) :
    (step state byte).2.IsShut := by
  cases state with
  | between => exact start_isShut byte
  | inside missing low high value =>
    by_cases within : low ≤ byte ∧ byte ≤ high
    · cases missing <;> simp [step, within, State.IsShut]
    · simpa [step, within] using start_isShut byte

theorem piecesFrom_cons (state : State) (byte : UInt8) (rest : List UInt8) :
    piecesFrom state (byte :: rest) =
      (step state byte).1 ++ piecesFrom (step state byte).2 rest := rfl

theorem piecesFrom_plain {state : State} (shut : state.IsShut) (plain : byte < 0x80) :
    piecesFrom state (byte :: back) =
      piecesFrom state [] ++ some (Char.ofNat byte.toNat) :: pieces back := by
  have starts : start byte = ([some (Char.ofNat byte.toNat)], .between) := by simp [start, plain]
  cases state with
  | between => simp [piecesFrom, step, starts, pieces]
  | inside missing low high value =>
    have outside : ¬(low ≤ byte ∧ byte ≤ high) := fun within =>
      absurd plain (UInt8.not_lt.mpr (UInt8.le_trans shut within.1))
    simp [piecesFrom, step, starts, outside, pieces]

-- What stands before such a byte is read as if nothing came behind it.
theorem piecesFrom_cut {state : State} (shut : state.IsShut) (plain : byte < 0x80) :
    piecesFrom state (front ++ byte :: back) =
      piecesFrom state front ++ some (Char.ofNat byte.toNat) :: pieces back := by
  induction front generalizing state with
  | nil => exact piecesFrom_plain shut plain
  | cons first rest ih =>
    rw [List.cons_append, piecesFrom_cons, piecesFrom_cons, ih (step_isShut shut first),
      List.append_assoc]

theorem decodeLossy_cut (plain : byte < 0x80) :
    decodeLossy (front ++ byte :: back) =
      decodeLossy front ++ Char.ofNat byte.toNat :: decodeLossy back := by
  have between : State.between.IsShut := trivial
  simp [decodeLossy, pieces, piecesFrom_cut between plain]

theorem piecesFrom_broken {missing value : Nat} {low high : UInt8} {rest : List Piece}
    (read : piecesFrom (.inside missing low high value) bytes = none :: rest) :
    ∃ front behind, bytes = front ++ behind ∧ rest = pieces behind := by
  induction bytes generalizing missing low high value with
  | nil =>
    cases read
    exact ⟨[], [], rfl, rfl⟩
  | cons byte more ih =>
    by_cases within : low ≤ byte ∧ byte ≤ high
    · cases missing with
      | zero => simp [piecesFrom, step, within] at read
      | succ missing =>
        simp only [piecesFrom, step, within, decide_true, Bool.and_self, if_true,
          List.nil_append] at read
        obtain ⟨front, behind, rfl, same⟩ := ih read
        exact ⟨byte :: front, behind, rfl, same⟩
    · simp only [piecesFrom, step, Bool.and_eq_true, decide_eq_true_eq, within, if_false,
        List.cons_append, List.cons.injEq, true_and] at read
      exact ⟨[], byte :: more, rfl, read.symm⟩

theorem start_cases (byte : UInt8) : (∃ piece, start byte = ([piece], .between)) ∨
    ∃ missing low high value, start byte = ([], .inside missing low high value) := by
  unfold start
  repeat' split
  all_goals simp

theorem exists_piece (filled : bytes ≠ []) :
    ∃ piece front behind, front ≠ [] ∧ bytes = front ++ behind ∧
      pieces bytes = piece :: pieces behind ∧ ∀ c, piece = some c → Spells c.toNat front := by
  obtain ⟨byte, more, rfl⟩ := List.exists_cons_of_ne_nil filled
  cases read : pieces (byte :: more) with
  | nil => exact absurd (eq_nil_of_piecesFrom read).2 filled
  | cons piece rest =>
    cases piece with
    | some c =>
      obtain ⟨n, front, behind, split, spells⟩ := spells_of_pieces read
      rw [split, pieces_spells spells] at read
      obtain ⟨same, rfl⟩ := List.cons.inj read
      have value : c.toNat = n := by
        rw [← Option.some.inj same]
        exact toNat_ofNat spells.isValid
      refine ⟨some c, front, behind, ?_, split, rfl, ?_⟩
      · rintro rfl
        cases spells
      · rintro _ ⟨⟩
        exact value ▸ spells
    | none =>
      have never (front : List UInt8) (c : Char) (given : none = some c) : Spells c.toNat front := by
        cases given
      rw [pieces_cons] at read
      rcases start_cases byte with ⟨_, starts⟩ | ⟨missing, low, high, value, starts⟩
      · rw [starts] at read
        cases read
        exact ⟨none, [byte], more, by simp, rfl, rfl, never _⟩
      · rw [starts] at read
        obtain ⟨front, behind, rfl, rfl⟩ := piecesFrom_broken read
        exact ⟨none, byte :: front, behind, by simp, rfl, rfl, never _⟩

theorem Spells.plain {n : Nat} (spells : Spells n bytes) (small : n < 0x80) :
    bytes = [UInt8.ofNat n] := by
  cases spells with
  | one => rfl
  | two | three | four => omega

theorem le_tailByte {bits : Nat} (small : bits < 64) : 0x80 ≤ tailByte bits := by
  rw [UInt8.le_iff_toNat_le, toNat_tailByte small]
  exact Nat.le_add_left _ bits

theorem le_ofNat {n : Nat} (large : 0x80 ≤ n) (small : n < 0x100) : 0x80 ≤ UInt8.ofNat n := by
  rw [UInt8.le_iff_toNat_le, UInt8.toNat_ofNat', Nat.mod_eq_of_lt small]
  exact large

theorem Spells.eq_of_mem {n : Nat} (spells : Spells n bytes) (present : byte ∈ bytes)
    (plain : byte < 0x80) : n = byte.toNat := by
  have short {large : UInt8} (above : 0x80 ≤ large) : byte ≠ large := by
    rintro rfl
    exact UInt8.not_lt.mpr above plain
  cases spells with
  | one less =>
    obtain rfl := List.mem_singleton.mp present
    rw [UInt8.toNat_ofNat', Nat.mod_eq_of_lt (by omega)]
  | two long lead first =>
    simp only [List.mem_cons, List.not_mem_nil, or_false] at present
    rcases present with same | same
    · exact absurd same (short (le_ofNat (by omega) (by omega)))
    · exact absurd same (short (le_tailByte first))
  | three lead first second =>
    simp only [List.mem_cons, List.not_mem_nil, or_false] at present
    rcases present with same | same | same
    · exact absurd same (short (le_ofNat (by omega) (by omega)))
    · exact absurd same (short (le_tailByte first))
    · exact absurd same (short (le_tailByte second))
  | four lead first second third =>
    simp only [List.mem_cons, List.not_mem_nil, or_false] at present
    rcases present with same | same | same | same
    · exact absurd same (short (le_ofNat (by omega) (by omega)))
    · exact absurd same (short (le_tailByte first))
    · exact absurd same (short (le_tailByte second))
    · exact absurd same (short (le_tailByte third))

theorem mem_of_mem_pieces (present : some c ∈ pieces bytes) (plain : c.toNat < 0x80) :
    UInt8.ofNat c.toNat ∈ bytes := by
  induction length : bytes.length using Nat.strongRecOn generalizing bytes with
  | ind size ih =>
    subst length
    by_cases none : bytes = []
    · rw [none] at present
      cases present
    obtain ⟨piece, front, behind, filled, rfl, read, spells⟩ := exists_piece none
    rw [read] at present
    rcases List.mem_cons.mp present with here | later
    · rw [(spells c here.symm).plain plain]
      exact List.mem_append_left _ (List.mem_singleton_self _)
    · have shorter : behind.length < (front ++ behind).length := by
        rw [List.length_append]
        exact Nat.lt_add_of_pos_left (List.length_pos_iff.mpr filled)
      exact List.mem_append_right _ (ih _ shorter later rfl)

theorem mem_of_mem_decodeLossy (present : c ∈ decodeLossy bytes) (plain : c.toNat < 0x80) :
    UInt8.ofNat c.toNat ∈ bytes := by
  obtain ⟨piece, among, rfl⟩ := List.mem_map.mp present
  cases piece with
  | none => exact absurd plain (by decide)
  | some c => exact mem_of_mem_pieces among plain

theorem decodeLossy_encode (text : List Char) : decodeLossy (encode text) = text := by
  simp [decodeLossy, pieces_encode, Function.comp_def]

theorem mem_of_mem_encode (present : byte ∈ encode text) (plain : byte < 0x80) :
    Char.ofNat byte.toNat ∈ text := by
  obtain ⟨c, among, inside⟩ := List.mem_flatMap.mp present
  rw [← (spells_encodeChar c).eq_of_mem inside plain, Char.ofNat_toNat]
  exact among

theorem encode_append (text more : List Char) :
    encode (text ++ more) = encode text ++ encode more := by
  simp [encode]

theorem encode_injective {text other : List Char} (same : encode text = encode other) :
    text = other := by
  rw [← decodeLossy_encode text, same, decodeLossy_encode]

end RepoFinder.Text.Utf8
