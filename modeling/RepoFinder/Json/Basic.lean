
namespace RepoFinder

-- A JSON value. A text is `none` where its escapes leave a surrogate unpaired: such a text can be
-- passed over but not read.
inductive Json where
  | null
  | bool (value : Bool)
  | number (literal : List Char)
  | string (text : Option (List Char))
  | array (items : List Json)
  | object (fields : List (Option (List Char) × Json))
deriving Inhabited

namespace Json

def ofText (text : List Char) : Json := string (some text)

def ofString (s : String) : Json := ofText s.toList

def ofFields (fields : List (String × Json)) : Json :=
  object (fields.map fun (name, value) => (some name.toList, value))

end Json

end RepoFinder
