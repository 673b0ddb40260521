import RepoFinder.Path.Basic
import RepoFinder.Text.Lowercase

namespace RepoFinder.Path

-- One component onto the components kept so far (nearest first): a parent step takes back the
-- name before it, and falls away directly below the root.
def cleanStep (kept : List Component) : Component → List Component
  | .here => kept
  | .parent => match kept with
    | .name _ :: below => below
    | .root :: _ => kept
    | _ => .parent :: kept
  | c => c :: kept

def cleanComponents (components : List Component) : List Component :=
  (components.foldl cleanStep []).reverse

-- The lexical normal form: single separators, none at the end, no dot unless nothing else is
-- left, and parent steps only at the start of a relative path.
def clean (p : Path) : Path :=
  match cleanComponents p.components with
  | [] => ⟨Name.here⟩
  | components => ofComponents components

abbrev Key := List Char

def key (p : Path) : Key := Text.lower (Text.Utf8.decodeLossy p.clean.bytes)

def sameKeys (a b : List Path) : Bool :=
  let keysOfA := a.map key
  let keysOfB := b.map key
  keysOfA.all keysOfB.contains && keysOfB.all keysOfA.contains

def tilde : Name := [0x7E]

def expandTilde (home : Option Path) (p : Path) : Path :=
  match home with
  | none => p
  | some home => match p.dropFirst? tilde with
    | none => p
    | some rest => home.join rest

end RepoFinder.Path
