import RepoFinder.Path.Basic

namespace RepoFinder.Git

-- A text with one character for each byte.
abbrev Line := List Char

namespace Line

def ofBytes (bytes : List UInt8) : Line := bytes.map fun b => Char.ofNat b.toNat

def toBytes (line : Line) : List UInt8 := line.map fun c => c.toNat.toUInt8

def ofPath (p : Path) : Line := ofBytes p.bytes

def toPath (line : Line) : Path := ⟨toBytes line⟩

def zero : Char := Char.ofNat 0

def isSpace (c : Char) : Bool :=
  c = ' ' || c = '\t' || c = '\n' || c = '\r' || c.toNat = 11 || c.toNat = 12

def skipSpace (line : Line) : Line := line.dropWhile isSpace

def trimEnd (line : Line) : Line := (line.reverse.dropWhile isSpace).reverse

def beforeZero (line : Line) : Line := line.takeWhile (· ≠ zero)

def ofFile (content : List UInt8) : Line := beforeZero (trimEnd (ofBytes content))

def linesOf : List Char → List Line
  | [] => [[]]
  | c :: rest => match linesOf rest with
    | [] => [[c]]
    | line :: more => if c = '\n' then [] :: line :: more else (c :: line) :: more

def behind? (part : Line) : Line → Option Line
  | [] => part.isPrefixOf? []
  | c :: rest => (part.isPrefixOf? (c :: rest)).or (behind? part rest)

def folderOf (path : Line) : Line :=
  match path.reverse.dropWhile (· = '/') with
  | [] => if path.isEmpty then ['.'] else ['/']
  | named => match named.dropWhile (· ≠ '/') with
    | [] => ['.']
    | above => match above.dropWhile (· = '/') with
      | [] => ['/']
      | folder => folder.reverse

def below (folder path : Line) : Line :=
  match folder.getLast? with
  | none => path
  | some last =>
    let path := path.dropWhile (· = '/')
    if last = '/' then folder ++ path else folder ++ '/' :: path

def isDotted (path : Line) : Bool :=
  "./".toList.isPrefixOf path || "../".toList.isPrefixOf path

end Line

end RepoFinder.Git
