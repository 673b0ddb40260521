import RepoFinder.Git.Line

namespace RepoFinder.Git

inductive CharClass where
  | alnum | alpha | blank | cntrl | digit | graph | lower | print | punct | space | upper | xdigit
deriving DecidableEq, Repr

namespace CharClass

def named? (name : List Char) : Option CharClass :=
  [("alnum", alnum), ("alpha", alpha), ("blank", blank), ("cntrl", cntrl), ("digit", digit),
    ("graph", graph), ("lower", lower), ("print", print), ("punct", punct), ("space", space),
    ("upper", upper), ("xdigit", xdigit)].findSome? fun (known, kind) =>
      if known.toList = name then some kind else none

def isGraph (c : Char) : Bool := 0x20 < c.toNat && c.toNat < 0x7F

def contains : CharClass → Char → Bool
  | alnum, c => c.isAlphanum
  | alpha, c => c.isAlpha
  | blank, c => c = ' ' || c = '\t'
  | cntrl, c => c.toNat < 0x20 || c.toNat = 0x7F
  | digit, c => c.isDigit
  | graph, c => isGraph c
  | lower, c => c.isLower
  | print, c => c = ' ' || isGraph c
  | punct, c => isGraph c && !c.isAlphanum
  | space, c => Line.isSpace c
  | upper, c => c.isUpper
  | xdigit, c => c.isDigit || (0x61 ≤ c.toLower.toNat && c.toLower.toNat ≤ 0x66)

end CharClass

inductive Member where
  | char (c : Char)
  | range (first last : Char)
  | named (kind : CharClass)
deriving DecidableEq, Repr

-- Whether a member covers a character. Without regard to case the character is a small one, and a
-- range or the class of capitals covers it as a capital too.
def Member.covers (anyCase : Bool) (c : Char) : Member → Bool
  | char d => c = d
  | range first last =>
    let within (c : Char) : Bool := first.toNat ≤ c.toNat && c.toNat ≤ last.toNat
    within c || (anyCase && c.isLower && within c.toUpper)
  | named .upper => c.isUpper || (anyCase && c.isLower)
  | named kind => kind.contains c

inductive Piece where
  | exact (c : Char)
  | single
  | set (isNegated : Bool) (members : List Member)
  | stretch
  | anything
  -- Nothing, or any characters up to a slash.
  | levels
deriving DecidableEq, Repr

abbrev Glob := List Piece

namespace Glob

-- The members of a set and what follows its closing bracket. A bracket that stands first is a
-- member. A range starts at the character `before`.
def members? (isFirst : Bool) (before : Option Char) : List Char →
    Option (List Member × List Char)
  | [] => none
  | c :: rest =>
    if c = ']' && !isFirst then some ([], rest)
    else match c, before, rest with
      | '\\', _, d :: rest => add (.char d) (members? false (some d) rest)
      | '\\', _, [] => none
      | '-', some first, '\\' :: last :: rest =>
        add (.range first last) (members? false none rest)
      | '-', some _, ['\\'] => none
      | '-', some _, ']' :: rest => add (.char '-') (some ([], rest))
      | '-', some first, last :: rest => add (.range first last) (members? false none rest)
      | '[', _, ':' :: rest =>
        let name := rest.takeWhile (· ≠ ']')
        if rest.length ≤ name.length then none
        else if name.getLast? = some ':' then match CharClass.named? name.dropLast with
          | none => none
          | some kind => add (.named kind) (members? false none (rest.drop (name.length + 1)))
        else add (.char '[') (members? false (some '[') (':' :: rest))
      | c, _, rest => add (.char c) (members? false (some c) rest)
termination_by text => text.length
decreasing_by all_goals (simp only [List.length_cons, List.length_drop]; omega)
where
  add (member : Member) (next : Option (List Member × List Char)) :
      Option (List Member × List Char) :=
    next.map fun (members, rest) => (member :: members, rest)

theorem length_of_members? {isFirst : Bool} {before : Option Char} {text rest : List Char}
    {members : List Member} (read : members? isFirst before text = some (members, rest)) :
    rest.length < text.length := by
  fun_induction members? isFirst before text generalizing members rest <;>
    grind [members?.add, Option.map_eq_some_iff]

def set? (text : List Char) : Option (Piece × List Char) :=
  let isNegated := text.head? = some '!' || text.head? = some '^'
  (members? true none (if isNegated then text.drop 1 else text)).map fun (members, rest) =>
    (.set isNegated members, rest)

theorem length_of_set? {text rest : List Char} {piece : Piece}
    (read : set? text = some (piece, rest)) : rest.length < text.length := by
  simp only [set?, Option.map_eq_some_iff] at read
  obtain ⟨⟨members, behind⟩, read, same⟩ := read
  obtain ⟨_, rfl⟩ := Prod.mk.inj same
  have shorter := length_of_members? read
  split at shorter
  · exact Nat.lt_of_lt_of_le shorter (List.length_drop ▸ Nat.sub_le ..)
  · exact shorter

inductive Token where
  | asterisk
  | slash
  | piece (piece : Piece)

-- The tokens of a pattern, or none where it ends inside a set or behind a backslash, or names an
-- unknown class. Without regard to case, characters outside sets are read as small ones, unless a
-- backslash stands before them.
def tokens? (anyCase : Bool) : List Char → Option (List Token)
  | [] => some []
  | '*' :: rest => (tokens? anyCase rest).map (.asterisk :: ·)
  | '?' :: rest => (tokens? anyCase rest).map (.piece .single :: ·)
  | '/' :: rest => (tokens? anyCase rest).map (.slash :: ·)
  | ['\\'] => none
  | '\\' :: c :: rest => (tokens? anyCase rest).map (.piece (.exact c) :: ·)
  | '[' :: rest =>
    match read : set? rest with
    | none => none
    | some (set, behind) =>
      have : behind.length < rest.length := length_of_set? read
      (tokens? anyCase behind).map (.piece set :: ·)
  | c :: rest =>
    (tokens? anyCase rest).map (.piece (.exact (if anyCase then c.toLower else c)) :: ·)
termination_by text => text.length
decreasing_by all_goals grind

-- The pieces of a pattern behind so many asterisks, given whether the text before these asterisks
-- ends in a slash or is empty. Two asterisks or more count as two.
def ofTokens (isLevel : Bool) : (asterisks : Nat) → List Token → Glob
  | 0, [] => []
  | asterisks + 1, [] => [if isLevel && 0 < asterisks then .anything else .stretch]
  | asterisks, .asterisk :: rest => ofTokens isLevel (asterisks + 1) rest
  | 0, .slash :: rest => .exact '/' :: ofTokens true 0 rest
  | asterisks + 1, .slash :: rest =>
    if isLevel && 0 < asterisks then .levels :: ofTokens true 0 rest
    else .stretch :: .exact '/' :: ofTokens true 0 rest
  | 0, .piece piece :: rest => piece :: ofTokens (piece = .exact '/') 0 rest
  | asterisks + 1, .piece piece :: rest =>
    (if isLevel && 0 < asterisks && piece = .exact '/' then .anything else .stretch)
      :: piece :: ofTokens (piece = .exact '/') 0 rest

def ofText? (anyCase : Bool) (text : List Char) : Option Glob :=
  (tokens? anyCase text).map (ofTokens true 0)

def endsWithin : List Char → List (List Char)
  | [] => [[]]
  | c :: rest => (c :: rest) :: if c = '/' then [] else endsWithin rest

def ends : List Char → List (List Char)
  | [] => [[]]
  | c :: rest => (c :: rest) :: ends rest

def endsBehindSlash : List Char → List (List Char)
  | [] => []
  | c :: rest => if c = '/' then rest :: endsBehindSlash rest else endsBehindSlash rest

def coversText (anyCase : Bool) : Glob → List Char → Bool
  | [], text => text.isEmpty
  | .exact c :: rest, d :: text => c = d && coversText anyCase rest text
  | .single :: rest, d :: text => d ≠ '/' && coversText anyCase rest text
  | .set isNegated members :: rest, d :: text =>
    d ≠ '/' && members.any (·.covers anyCase d) != isNegated && coversText anyCase rest text
  | .stretch :: rest, text => (endsWithin text).any (coversText anyCase rest)
  | .anything :: rest, text => (ends text).any (coversText anyCase rest)
  | .levels :: rest, text =>
    coversText anyCase rest text || (endsBehindSlash text).any (coversText anyCase rest)
  | _ :: _, [] => false

def covers (anyCase : Bool) (pattern path : List Char) : Bool :=
  match ofText? anyCase pattern with
  | none => false
  | some glob => coversText anyCase glob (if anyCase then path.map Char.toLower else path)

end Glob

end RepoFinder.Git
