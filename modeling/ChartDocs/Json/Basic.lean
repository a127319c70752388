/-!
# JSON trees

A JSON tree keeps the fields of an object in their written order, also when a name occurs twice,
and keeps a number as its numeral. A string may escape half of a surrogate pair; such a string, or
an object with such a name, is well formed and denotes nothing.
-/

namespace ChartDocs

/-- A JSON tree. -/
inductive Json where
  | null
  | bool (value : Bool)
  | number (numeral : List Char)
  | string (text : String)
  | array (items : List Json)
  | object (fields : List (String × Json))
  /-- A string with half of a surrogate pair, or an object with such a name. -/
  | unpaired
deriving Repr, Inhabited

namespace Json

/-- Set a field: an equal name keeps its place and takes the new value, and a new name is put before
the first larger one. -/
def setField (name : String) (value : Json) : List (String × Json) → List (String × Json)
  | [] => [(name, value)]
  | (other, old) :: rest =>
    if name = other then (name, value) :: rest
    else if name < other then (name, value) :: (other, old) :: rest
    else (other, old) :: setField name value rest

mutual

/-- The tree with the fields of every object in the order of their names; of fields with one name
the last stays. -/
def sorted : Json → Json
  | array items => array (sortedItems items)
  | object fields => object (sortedFields fields [])
  | json => json

/-- The items of an array, each sorted. -/
def sortedItems : List Json → List Json
  | [] => []
  | item :: rest => sorted item :: sortedItems rest

/-- Fields, each sorted, put in order among others. -/
def sortedFields : List (String × Json) → List (String × Json) → List (String × Json)
  | [], others => others
  | (name, value) :: rest, others => sortedFields rest (setField name (sorted value) others)

end

end Json

end ChartDocs
