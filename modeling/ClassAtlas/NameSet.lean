/-!
Sets of names as ascending lists without repetition, and maps from names as such lists of pairs.
Names are ordered by code point, which is the order of their UTF-8 bytes.
-/

namespace ClassAtlas

namespace NameSet

def insert (name : String) : List String → List String
  | [] => [name]
  | head :: tail =>
    if name < head then name :: head :: tail
    else if name = head then head :: tail
    else head :: insert name tail

def insertAll (names : List String) (set : List String) : List String :=
  names.foldl (fun set name => insert name set) set

def ofList (names : List String) : List String :=
  insertAll names []

end NameSet

namespace NameMap

/-- A key that is present gets the new value. -/
def insert {α : Type} (key : String) (value : α) : List (String × α) → List (String × α)
  | [] => [(key, value)]
  | head :: tail =>
    if key < head.1 then (key, value) :: head :: tail
    else if key = head.1 then (key, value) :: tail
    else head :: insert key value tail

/-- Of several values for a key the last counts. -/
def ofList {α : Type} (entries : List (String × α)) : List (String × α) :=
  entries.foldl (fun map entry => insert entry.1 entry.2 map) []

end NameMap

end ClassAtlas
