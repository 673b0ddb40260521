import RepoFinder.Proofs.Toml.Values

namespace RepoFinder.Toml

variable {name rest : List Char} {content : Content} {draft next final : Draft}

def IsBare (name : Key) : Prop := name ≠ [] ∧ name.all isKeyChar = true

instance (name : Key) : Decidable (IsBare name) :=
  inferInstanceAs (Decidable (name ≠ [] ∧ name.all isKeyChar = true))

theorem IsBare.chars (bare : IsBare name) : ∀ c ∈ name, isKeyChar c = true :=
  List.all_eq_true.mp bare.2

theorem ne_of_isKeyChar {c other : Char} (within : isKeyChar c = true)
    (without : isKeyChar other = false) : c ≠ other := by
  rintro rfl
  cases without.symm.trans within

theorem IsBare.head (bare : IsBare name) : ∃ first more, name = first :: more ∧
    isKeyChar first = true := by
  obtain ⟨first, more, rfl⟩ := List.exists_cons_of_ne_nil bare.1
  exact ⟨first, more, rfl, bare.chars first List.mem_cons_self⟩

theorem not_blank_of_isKeyChar {c : Char} (within : isKeyChar c = true) : isBlank c = false := by
  have noSpace : c ≠ ' ' := ne_of_isKeyChar within (by decide)
  have noTab : c ≠ '\t' := ne_of_isKeyChar within (by decide)
  simp [isBlank, noSpace, noTab]

theorem skipBlanks_cons {c : Char} (noBlank : isBlank c = false) (rest : List Char) :
    skipBlanks (c :: rest) = c :: rest := by
  simp [skipBlanks, noBlank]

theorem skipBlanks_token (token : IsToken rest) : skipBlanks rest = rest := by
  obtain ⟨c, more, rfl, noBlank, _⟩ := token
  exact skipBlanks_cons noBlank more

theorem key_bare (bare : IsBare name) (after : List Char)
    (ends : ∀ c ∈ after.head?, isKeyChar c = false)
    (noPoint : ∀ c ∈ (skipBlanks after).head?, c ≠ '.') :
    key (name ++ after) = some ([name], skipBlanks after) := by
  have taken : (name ++ after).takeWhile isKeyChar = name ∧
      (name ++ after).dropWhile isKeyChar = after := by
    rw [List.takeWhile_append_of_pos bare.chars, List.dropWhile_append_of_pos bare.chars]
    cases after with
    | nil => simp
    | cons c after => simp [ends c rfl]
  obtain ⟨first, more, same, within⟩ := bare.head
  have part : keyPart (skipBlanks (name ++ after)) = some (name, after) := by
    rw [same, List.cons_append] at taken ⊢
    rw [skipBlanks_cons (not_blank_of_isKeyChar within), keyPart]
    · rw [taken.1, taken.2]
    · intro rest quoted
      exact ne_of_isKeyChar within (by decide) (List.cons.inj quoted).1
    · intro rest quoted
      exact ne_of_isKeyChar within (by decide) (List.cons.inj quoted).1
  rw [key, show mostNested = 78 + 1 from rfl, keyParts, part]
  dsimp only
  split
  · rename_i point
    exact absurd rfl (noPoint '.' (by rw [point]; rfl))
  · rfl

theorem isToken_render (content : Content) (rest : List Char) :
    IsToken (content.render ++ rest) := by
  cases content with
  | integer n =>
    obtain ⟨first, more, same, digit⟩ := decimal_cons n
    refine ⟨first, more ++ rest, by rw [Content.render, same]; rfl, ?_, ?_, ?_, ?_⟩
    · have noSpace : first ≠ ' ' := ne_of_isDigit digit (by decide)
      have noTab : first ≠ '\t' := ne_of_isDigit digit (by decide)
      simp [isBlank, noSpace, noTab]
    all_goals exact ne_of_isDigit digit (by decide)
  | text content => exact isToken_renderText content rest
  | texts contents =>
    rcases contents with _ | ⟨text, _ | ⟨next, texts⟩⟩ <;>
      exact ⟨'[', _, rfl, by decide, by decide, by decide, by decide⟩

theorem entry_render (bare : IsBare name) (fits : content.Fits) (depth : Nat) (rest : List Char) :
    entry (value (depth + 1)) (renderEntry name content ++ rest) =
      some (([name], content.toValue), '\n' :: rest) := by
  have shape : renderEntry name content ++ rest =
      name ++ ' ' :: '=' :: ' ' :: (content.render ++ '\n' :: rest) := by
    simp [renderEntry]
  have blank : skipBlanks (' ' :: (content.render ++ '\n' :: rest)) =
      content.render ++ '\n' :: rest := skipBlanks_token (isToken_render content ('\n' :: rest))
  have named := key_bare bare (' ' :: '=' :: ' ' :: (content.render ++ '\n' :: rest))
    (by rintro c ⟨⟩; decide) (by rintro c ⟨⟩; decide)
  rw [shape, entry, named]
  change (value (depth + 1) (skipBlanks (' ' :: (content.render ++ '\n' :: rest)))).map _ = _
  rw [blank, value_render fits]
  rfl

theorem lineRest?_feed (rest : List Char) : lineRest? ('\n' :: rest) = some rest := by
  rw [lineRest?, skipBlanks_cons (by decide)]
  rfl

theorem line_entry (draft : Draft) (bare : IsBare name) (fits : content.Fits) (rest : List Char) :
    draft.line (renderEntry name content ++ rest) =
      (draft.putEntry [name] content.toValue).map fun next => (next, rest) := by
  have read := entry_render bare fits 78 rest
  obtain ⟨first, more, same, within⟩ := bare.head
  have front : renderEntry name content ++ rest =
      first :: (more ++ [' ', '=', ' '] ++ content.render ++ ['\n'] ++ rest) := by
    simp [renderEntry, same]
  rw [front] at read ⊢
  rw [Draft.line]
  · rw [show mostNested = 78 + 1 from rfl, read]
    cases put : draft.putEntry [name] content.toValue <;> simp [lineRest?_feed, put]
  all_goals
    intro rest different
    have other := (List.cons.inj different).1
    exact ne_of_isKeyChar within (by decide) other

theorem line_header (draft : Draft) (bare : IsBare name) (rest : List Char) :
    draft.line (renderHeader name ++ rest) =
      (draft.enter [name] Items.openTable).map fun next => (next, rest) := by
  have named := key_bare bare (']' :: '\n' :: rest) (by rintro c ⟨⟩; decide)
    (by rintro c ⟨⟩; decide)
  have shape : renderHeader name ++ rest = '[' :: (name ++ ']' :: '\n' :: rest) := by
    simp [renderHeader]
  rw [shape, Draft.line]
  · rw [named, skipBlanks_cons (by decide)]
    cases entered : draft.enter [name] Items.openTable <;>
      simp [char?, lineRest?_feed, entered]
  · intro rest different
    obtain ⟨first, more, rfl, within⟩ := bare.head
    exact ne_of_isKeyChar within (by decide) (List.cons.inj different).1

namespace Items

variable {entries : Items} {key : Key} {item : Item}

theorem find?_eq_none : find? entries key = none ↔ key ∉ entries.map (·.1) := by
  induction entries with
  | nil => simp [find?]
  | cons entry entries ih =>
    by_cases same : entry.1 = key
    · simp [find?, same]
    · simp only [find?, List.find?_cons, same, decide_false] at ih ⊢
      simp [ih, Ne.symm same]

theorem find?_snoc (fresh : find? entries key = none) (item : Item) :
    find? (entries ++ [(key, item)]) key = some item := by
  simp only [find?, Option.map_eq_none_iff] at fresh
  simp [find?, List.find?_append, fresh]

theorem replace_snoc (fresh : find? entries key = none) (old new : Item) :
    replace (entries ++ [(key, old)]) key new = entries ++ [(key, new)] := by
  have others : entries.map (fun entry => if entry.1 = key then (key, new) else entry) =
      entries := by
    have kept : ∀ entry ∈ entries, (if entry.1 = key then (key, new) else entry) = entry := by
      intro entry present
      apply if_neg
      intro same
      exact find?_eq_none.mp fresh (same ▸ List.mem_map_of_mem present)
    exact (List.map_congr_left kept).trans (List.map_id entries)
  simp [replace, others]

theorem toValues_append (front back : Items) :
    toValues (front ++ back) = toValues front ++ toValues back := by
  induction front with
  | nil => rfl
  | cons entry front ih =>
    obtain ⟨key, item⟩ := entry
    rw [List.cons_append, toValues, toValues, ih]
    rfl

end Items

def renderEntries (fields : List (Key × Content)) : List Char :=
  fields.flatMap fun (key, content) => renderEntry key content

def itemsOf (fields : List (Key × Content)) : Items :=
  fields.map fun (key, content) => (key, .value content.toValue)

def valuesOf (fields : List (Key × Content)) : List (Key × Value) :=
  fields.map fun (key, content) => (key, content.toValue)

theorem toValues_itemsOf (fields : List (Key × Content)) :
    Items.toValues (itemsOf fields) = valuesOf fields := by
  induction fields with
  | nil => rfl
  | cons field fields ih =>
    rw [itemsOf, List.map_cons, Items.toValues, ← itemsOf, ih]
    rfl

namespace Draft

variable {entries before inner : Items} {key : Key}

-- Two ways to be in the middle of a document: before its table, and in it.
def above (entries : Items) : Draft := ⟨entries, []⟩

def inside (before : Items) (name : Key) (inner : Items) : Draft :=
  ⟨before ++ [(name, .table false false inner)], [name]⟩

theorem putAt_single (fresh : Items.find? entries key = none) (value : Value) :
    putAt [key] value entries = some (entries ++ [(key, .value value)]) := by
  simp [putAt, Items.put, Items.alterAt, Items.putNew, fresh]

theorem putEntry_above (fresh : Items.find? entries key = none) (value : Value) :
    (above entries).putEntry [key] value = some (above (entries ++ [(key, .value value)])) := by
  simp [putEntry, above, Items.alterAt, putAt_single fresh]

theorem putEntry_inside (unique : Items.find? before name = none)
    (fresh : Items.find? inner key = none) (value : Value) :
    (inside before name inner).putEntry [key] value =
      some (inside before name (inner ++ [(key, .value value)])) := by
  simp [putEntry, inside, Items.alterAt, Items.find?_snoc unique, putAt_single fresh,
    Items.replace_snoc unique]

theorem enter_above (fresh : Items.find? entries name = none) :
    (above entries).enter [name] Items.openTable = some (inside entries name []) := by
  simp [enter, above, inside, Items.alterAt, Items.openTable, fresh]

-- A text takes one draft to another, with enough lines.
def Reads (draft : Draft) (text : List Char) (final : Draft) : Prop :=
  ∀ lines, text.length < lines → draft.read lines text = some final

theorem Reads.nil (draft : Draft) : Reads draft [] draft := by
  intro lines enough
  obtain ⟨lines, rfl⟩ : ∃ less, lines = less + 1 := ⟨lines - 1, by simp at enough; omega⟩
  rfl

theorem Reads.line (line : List Char) (begins : ∃ c more, line = c :: more ∧ isBlank c = false)
    (read : draft.line (line ++ rest) = some (next, rest)) (further : Reads next rest final) :
    Reads draft (line ++ rest) final := by
  obtain ⟨c, more, rfl, noBlank⟩ := begins
  intro lines enough
  rw [List.length_append, List.length_cons] at enough
  obtain ⟨lines, rfl⟩ : ∃ less, lines = less + 1 := ⟨lines - 1, by omega⟩
  rw [Draft.read, List.cons_append, skipBlanks_cons noBlank]
  rw [List.cons_append] at read
  simp only [read]
  exact further lines (by omega)

end Draft

structure Writable (fields : List (Key × Content)) : Prop where
  bare : ∀ field ∈ fields, IsBare field.1
  fits : ∀ field ∈ fields, field.2.Fits
  distinct : (fields.map (·.1)).Nodup

namespace Draft

theorem Reads.entries (place : Items → Draft) (inner : Items) {fields : List (Key × Content)}
    (puts : ∀ {inner : Items} {key : Key}, Items.find? inner key = none → ∀ value,
      (place inner).putEntry [key] value = some (place (inner ++ [(key, .value value)])))
    (bare : ∀ field ∈ fields, IsBare field.1) (fits : ∀ field ∈ fields, field.2.Fits)
    (distinct : (inner.map (·.1) ++ fields.map (·.1)).Nodup)
    (further : Reads (place (inner ++ itemsOf fields)) rest final) :
    Reads (place inner) (renderEntries fields ++ rest) final := by
  induction fields generalizing inner with
  | nil =>
    rw [itemsOf, List.map_nil, List.append_nil] at further
    exact further
  | cons field fields ih =>
    obtain ⟨key, content⟩ := field
    obtain ⟨bareHere, bareBehind⟩ := List.forall_mem_cons.mp bare
    obtain ⟨fitsHere, fitsBehind⟩ := List.forall_mem_cons.mp fits
    have fresh : Items.find? inner key = none := by
      apply Items.find?_eq_none.mpr
      intro present
      exact (List.nodup_append.mp distinct).2.2 key present key (by simp) rfl
    have shape : renderEntries ((key, content) :: fields) ++ rest =
        renderEntry key content ++ (renderEntries fields ++ rest) := by
      simp [renderEntries]
    have begins : ∃ c more, renderEntry key content = c :: more ∧ isBlank c = false := by
      obtain ⟨first, more, rfl, within⟩ := IsBare.head bareHere
      exact ⟨first, _, rfl, not_blank_of_isKeyChar within⟩
    rw [shape]
    apply Reads.line _ begins
    · rw [line_entry _ bareHere fitsHere, puts fresh]
      rfl
    · apply ih _ bareBehind fitsBehind
      · simpa using distinct
      · simpa [itemsOf] using further

end Draft

theorem parse?_document {fields inner : List (Key × Content)} (outside : Writable fields)
    (within : Writable inner) (bare : IsBare name) (own : name ∉ fields.map (·.1)) :
    parse? (renderEntries fields ++ '\n' :: renderHeader name ++ renderEntries inner) =
      some (valuesOf fields ++ [(name, .table (valuesOf inner))]) := by
  have fresh : Items.find? (itemsOf fields) name = none := by
    apply Items.find?_eq_none.mpr
    simpa [itemsOf] using own
  have whole : Draft.Reads .start
      (renderEntries fields ++ ('\n' :: (renderHeader name ++ (renderEntries inner ++ []))))
      (.inside (itemsOf fields) name (itemsOf inner)) := by
    apply Draft.Reads.entries Draft.above [] Draft.putEntry_above outside.bare outside.fits
      (by simpa using outside.distinct)
    apply Draft.Reads.line ['\n'] ⟨'\n', [], rfl, by decide⟩ rfl
    apply Draft.Reads.line (renderHeader name) ⟨'[', _, rfl, by decide⟩
    · rw [line_header _ bare, List.nil_append, Draft.enter_above fresh]
      rfl
    · apply Draft.Reads.entries (Draft.inside (itemsOf fields) name) []
        (Draft.putEntry_inside fresh) within.bare within.fits (by simpa using within.distinct)
      exact .nil _
  have begins : skipMark
      (renderEntries fields ++ '\n' :: renderHeader name ++ renderEntries inner) =
      renderEntries fields ++ '\n' :: renderHeader name ++ renderEntries inner := by
    cases fields with
    | nil => rfl
    | cons field fields =>
      obtain ⟨first, more, same, within⟩ := (outside.bare field List.mem_cons_self).head
      have noMark : first ≠ byteOrderMark := ne_of_isKeyChar within (by decide)
      simp [renderEntries, renderEntry, same, skipMark, noMark]
  have shape : renderEntries fields ++
      ('\n' :: (renderHeader name ++ (renderEntries inner ++ []))) =
      renderEntries fields ++ '\n' :: renderHeader name ++ renderEntries inner := by simp
  rw [shape] at whole
  rw [parse?, begins, whole _ (Nat.lt_succ_self _), Option.map_some, Draft.inside, Items.toValues_append,
    toValues_itemsOf, Items.toValues, Items.toValue, toValues_itemsOf, Items.toValues]

end RepoFinder.Toml
