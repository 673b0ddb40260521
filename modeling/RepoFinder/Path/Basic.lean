import RepoFinder.Text.Utf8

namespace RepoFinder

abbrev Name := List UInt8

namespace Name

def here : Name := [0x2E]

def parent : Name := [0x2E, 0x2E]

def display (name : Name) : String := Text.Utf8.decodeStringLossy name

end Name

structure Path where
  bytes : List UInt8
deriving DecidableEq, Repr, Inhabited

-- One step of a path. The order of the constructors is the order in which paths sort.
inductive Component where
  | root
  | here
  | parent
  | name (name : Name)
deriving DecidableEq, Repr

namespace Path

def separator : UInt8 := 0x2F

def ofString (s : String) : Path := ⟨Text.Utf8.ofString s⟩

def ofText (text : List Char) : Path := ⟨Text.Utf8.encode text⟩

def empty : Path := ⟨[]⟩

def isAbsolute (p : Path) : Bool := p.bytes.head? == some separator

def segmentsOf : List UInt8 → List Name
  | [] => [[]]
  | b :: rest =>
    if b = separator then [] :: segmentsOf rest
    else match segmentsOf rest with
      | [] => [[b]]
      | segment :: more => (b :: segment) :: more

theorem segmentsOf_ne_nil (bytes : List UInt8) : segmentsOf bytes ≠ [] := by
  cases bytes with
  | nil => simp [segmentsOf]
  | cons b rest =>
    unfold segmentsOf
    split
    · simp
    · split <;> simp

def segments (p : Path) : List Name := segmentsOf p.bytes

def joinSegments : List Name → List UInt8
  | [] => []
  | [segment] => segment
  | segment :: rest => segment ++ separator :: joinSegments rest

def component? (segment : Name) : Option Component :=
  if segment = [] || segment = Name.here then none
  else if segment = Name.parent then some .parent
  else some (.name segment)

-- The components of a path. A dot counts only at the start of a relative path.
def components (p : Path) : List Component :=
  if p.isAbsolute then .root :: p.segments.filterMap component?
  else match p.segments with
    | [] => []
    | first :: rest =>
      if first = Name.here then .here :: rest.filterMap component?
      else (first :: rest).filterMap component?

def segmentOf : Component → Name
  | .root => []
  | .here => Name.here
  | .parent => Name.parent
  | .name name => name

def ofComponents : List Component → Path
  | [.root] => ⟨[separator]⟩
  | components => ⟨joinSegments (components.map segmentOf)⟩

def join (base rest : Path) : Path :=
  if rest.isAbsolute then rest
  else match base.bytes.getLast? with
    | none => rest
    | some last => if last = separator then ⟨base.bytes ++ rest.bytes⟩
      else ⟨base.bytes ++ separator :: rest.bytes⟩

def child (base : Path) (name : Name) : Path := base.join ⟨name⟩

def isTrivial (segment : Name) : Bool := (component? segment).isNone

def trimSegments (segments : List Name) : List Name :=
  (segments.reverse.dropWhile isTrivial).reverse

def fileName? (p : Path) : Option Name :=
  match p.components.getLast? with
  | some (.name name) => some name
  | _ => none

-- The path without its last component, spelled as in the path; the root and the empty path have
-- no parent.
def parent? (p : Path) : Option Path :=
  let kept := if p.isAbsolute || p.segments.head? == some Name.here then 1 else 0
  match trimSegments (p.segments.drop kept) with
  | [] => if p.isAbsolute || kept = 0 then none else some empty
  | first :: rest =>
    match p.segments.take kept ++ trimSegments (first :: rest).dropLast with
    | [[]] => some ⟨[separator]⟩
    | segments => some ⟨joinSegments segments⟩

def dropFirst? (p : Path) (name : Name) : Option Path :=
  match p.segments with
  | [] => none
  | first :: rest =>
    if first = name then some ⟨joinSegments (trimSegments (rest.dropWhile isTrivial))⟩ else none

def display (p : Path) : String := Text.Utf8.decodeStringLossy p.bytes

def text? (p : Path) : Option (List Char) := Text.Utf8.decode? p.bytes

def rank : Component → Nat
  | .root => 0
  | .here => 1
  | .parent => 2
  | .name _ => 3

def nameLe : Name → Name → Bool
  | [], _ => true
  | _ :: _, [] => false
  | a :: as, b :: bs => a < b || (a == b && nameLe as bs)

def componentLe : Component → Component → Bool
  | .name a, .name b => nameLe a b
  | a, b => rank a ≤ rank b

def componentsLe : List Component → List Component → Bool
  | [], _ => true
  | _ :: _, [] => false
  | a :: as, b :: bs => if a = b then componentsLe as bs else componentLe a b

def le (a b : Path) : Bool := componentsLe a.components b.components

end Path

end RepoFinder
