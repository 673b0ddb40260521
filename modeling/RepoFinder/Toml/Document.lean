import RepoFinder.Toml.Value

namespace RepoFinder.Toml

inductive Item where
  | value (value : Value)
  -- A table: whether only longer paths imply it, and whether a dotted key made it.
  | table (implied dotted : Bool) (entries : List (Key × Item))
  | tables (tables : List (List (Key × Item)))

abbrev Items := List (Key × Item)

namespace Items

def find? (entries : Items) (key : Key) : Option Item :=
  (List.find? (fun entry => entry.1 = key) entries).map (·.2)

def replace (entries : Items) (key : Key) (item : Item) : Items :=
  entries.map fun entry => if entry.1 = key then (key, item) else entry

-- Changes the entries of the table that a path leads to from a table. `f` is told whether a
-- dotted key made that table. Missing tables on the way are made; a dotted path may not lead
-- through a table that a header has named.
def alterAt (dotted : Bool) (f : Bool → Items → Option Items) :
    List Key → Bool → Items → Option Items
  | [], isDotted, entries => f isDotted entries
  | key :: path, _, entries =>
    match find? entries key with
    | none => (alterAt dotted f path dotted []).map fun inner =>
        entries ++ [(key, .table true dotted inner)]
    | some (.value _) => none
    | some (.table implied isDotted inner) =>
      if dotted && !implied then none
      else (alterAt dotted f path isDotted inner).map fun inner =>
        replace entries key (.table implied isDotted inner)
    | some (.tables []) => none
    | some (.tables (newest :: others)) =>
      (alterAt dotted f path false newest).map fun newest =>
        replace entries key (.tables (newest :: others))

def putNew (key : Key) (value : Value) (entries : Items) : Option Items :=
  match find? entries key with
  | some _ => none
  | none => some (entries ++ [(key, .value value)])

def put (path : List Key) (key : Key) (value : Value) (entries : Items) : Option Items :=
  alterAt true
    (fun isDotted entries => if isDotted = path.isEmpty then none else putNew key value entries)
    path false entries

def openTable (key : Key) (entries : Items) : Option Items :=
  match find? entries key with
  | none => some (entries ++ [(key, .table false false [])])
  | some (.table true false inner) => some (replace entries key (.table false false inner))
  | some _ => none

def addTable (key : Key) (entries : Items) : Option Items :=
  match find? entries key with
  | none => some (entries ++ [(key, .tables [[]])])
  | some (.tables tables) => some (replace entries key (.tables ([] :: tables)))
  | some _ => none

mutual

def toValues : List (Key × Item) → List (Key × Value)
  | [] => []
  | (key, item) :: rest => (key, toValue item) :: toValues rest

def toValue : Item → Value
  | .value value => value
  | .table _ _ entries => .table (toValues entries)
  | .tables tables => .array (toValueList tables).reverse

def toValueList : List (List (Key × Item)) → List Value
  | [] => []
  | entries :: rest => .table (toValues entries) :: toValueList rest

end

end Items

end RepoFinder.Toml
