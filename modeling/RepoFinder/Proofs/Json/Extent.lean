import RepoFinder.Proofs.Json.RoundTrip

namespace RepoFinder.Json

open State

variable {text more : List Char} {state : State} {value other : Json}

theorem run_done {frames : List Frame} (ran : State.run ⟨frames, .done value⟩ more = some state) :
    state = ⟨frames, .done value⟩ ∧ ∀ c ∈ more, isSpace c = true := by
  induction more with
  | nil =>
    cases ran
    exact ⟨rfl, by simp⟩
  | cons c rest ih =>
    cases space : isSpace c with
    | false => simp [State.run, State.step, stepBetween, space] at ran
    | true =>
      simp only [State.run, State.step, stepBetween, space, if_true] at ran
      obtain ⟨same, blank⟩ := ih ran
      exact ⟨same, List.forall_mem_cons.mpr ⟨space, blank⟩⟩

def IsNumeric : Json → Prop
  | number _ => True
  | _ => False

def Numeric (state : State) : Prop :=
  state.frames = [] ∧ match state.mode with
    | .number .. => True
    | .done value => value.IsNumeric
    | _ => False

theorem step_numeric {next : State} {c : Char} (numeric : Numeric state)
    (stepped : state.step c = some next) : Numeric next := by
  obtain ⟨frames, mode⟩ := state
  obtain ⟨rfl, kind⟩ := numeric
  cases mode with
  | number part spelled =>
    simp only [State.step] at stepped
    split at stepped
    · cases stepped
      exact ⟨rfl, trivial⟩
    split at stepped
    · simp only [complete, stepBetween] at stepped
      split at stepped <;> cases stepped
      exact ⟨rfl, trivial⟩
    · cases stepped
  | done value =>
    have ran : State.run ⟨[], .done value⟩ [c] = some next := by
      simp [State.run, stepped]
    rw [(run_done ran).1]
    exact ⟨rfl, kind⟩
  | _ => cases kind

theorem run_numeric {next : State} (numeric : Numeric state)
    (ran : state.run more = some next) : Numeric next := by
  induction more generalizing state with
  | nil =>
    cases ran
    exact numeric
  | cons c rest ih =>
    rw [State.run] at ran
    split at ran
    · cases ran
    · rename_i stepped
      exact ih (step_numeric numeric stepped) ran

theorem Numeric.value? (numeric : Numeric state) (complete : state.value? = some value) :
    value.IsNumeric := by
  obtain ⟨frames, mode⟩ := state
  obtain ⟨rfl, kind⟩ := numeric
  cases mode with
  | number part spelled =>
    simp only [State.value?] at complete
    split at complete
    · cases complete
      trivial
    · cases complete
  | done value =>
    cases complete
    exact kind
  | _ => cases kind

theorem done_or_numeric (complete : state.value? = some value) :
    state.mode = .done value ∨ Numeric state := by
  obtain ⟨frames, mode⟩ := state
  cases mode with
  | done value =>
    cases complete
    exact .inl rfl
  | number part spelled =>
    simp only [State.value?, Bool.and_eq_true, List.isEmpty_iff] at complete
    split at complete
    · rename_i alone
      exact .inr ⟨alone.2, trivial⟩
    · cases complete
  | _ => cases complete

-- Of a text that is a value, a longer text is another value only with blanks behind it, or where
-- both are numbers.
theorem parse?_append (read : parse? text = some value) (also : parse? (text ++ more) = some other) :
    value.IsNumeric ∧ other.IsNumeric ∨ other = value ∧ ∀ c ∈ more, isSpace c = true := by
  obtain ⟨state, ran, complete⟩ := Option.bind_eq_some_iff.mp read
  obtain ⟨ended, went, whole⟩ := Option.bind_eq_some_iff.mp also
  rw [run_append, ran, Option.bind_some] at went
  rcases done_or_numeric complete with done | numeric
  · right
    obtain ⟨frames, mode⟩ := state
    subst done
    obtain ⟨rfl, blank⟩ := run_done went
    cases whole
    exact ⟨rfl, blank⟩
  · exact .inl ⟨numeric.value? complete, (run_numeric numeric went).value? whole⟩

theorem compact_object_ends {fields : List (Option (List Char) × Json)} (some : fields ≠ []) :
    ∃ front, compact (.object fields) = front ++ ['}'] := by
  cases fields with
  | nil => exact absurd rfl some
  | cons field rest => exact ⟨'{' :: quoted field.1 ++ ':' :: compact field.2 ++ compactFields rest, by
      simp [compact]⟩

-- An object that is cut short is no value at all: what is missing ends in a brace.
theorem parse?_cut {fields : List (Option (List Char) × Json)} (some : fields ≠ [])
    (plain : IsPlain (.object fields)) {lost : List Char}
    (whole : compact (.object fields) = text ++ lost) (short : lost ≠ []) : parse? text = none := by
  have also : parse? (text ++ lost) = .some (.object fields) := whole ▸ parse?_compact plain
  cases read : parse? text with
  | none => rfl
  | some value =>
    rcases parse?_append read also with ⟨_, numeric⟩ | ⟨_, blank⟩
    · exact numeric.elim
    · obtain ⟨front, ends⟩ := compact_object_ends some
      have last : '}' ∈ lost := by
        have same := congrArg List.getLast? (whole.symm.trans ends)
        rw [List.getLast?_append, List.getLast?_eq_some_getLast short, List.getLast?_concat] at same
        exact Option.some.inj same ▸ List.getLast_mem short
      cases blank _ last

theorem parse?_behind {fields : List (Option (List Char) × Json)} (plain : IsPlain (.object fields))
    {c : Char} (behind : c ∈ more) (foreign : isSpace c = false) :
    parse? (compact (.object fields) ++ more) = none := by
  cases also : parse? (compact (.object fields) ++ more) with
  | none => rfl
  | some other =>
    rcases parse?_append (parse?_compact plain) also with ⟨numeric, _⟩ | ⟨_, blank⟩
    · exact numeric.elim
    · cases foreign.symm.trans (blank c behind)

end RepoFinder.Json
