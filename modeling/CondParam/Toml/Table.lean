import CondParam.Data

/-!
# Growing tables

A TOML document builds nested tables along paths of keys. `updatePath` changes the value at a path,
making the tables on the way that are missing.
-/

set_option autoImplicit false

namespace CondParam.Toml

abbrev Entries := List (Text × Data)

/-- The entries with the value at a path changed by `f`, which is given the value there, if any.
With `throughLists`, a path goes into the last item of a list on its way. -/
def updatePath (throughLists : Bool) (f : Option Data → Option Data) :
    List Text → Entries → Option Entries
  | [], es => some es
  | [k], es => (f (es.lookup k)).map fun v => Data.insertEntry k v es
  | k :: ks, es =>
    match es.lookup k with
    | none =>
      (updatePath throughLists f ks []).map fun inner => Data.insertEntry k (.table inner) es
    | some (.table inner) =>
      (updatePath throughLists f ks inner).map fun inner => Data.insertEntry k (.table inner) es
    | some (.list items) =>
      match throughLists, items.getLast? with
      | true, some (.table inner) =>
        (updatePath throughLists f ks inner).map fun inner =>
          Data.insertEntry k (.list (items.dropLast ++ [.table inner])) es
      | _, _ => none
    | some _ => none

/-- Sets a value where there is none. -/
def newValue (v : Data) : Option Data → Option Data
  | none => some v
  | some _ => none

/-- Opens a table: a new one, one that is there, or the last one of a list. -/
def openTable : Option Data → Option Data
  | none => some (.table [])
  | some (.table es) => some (.table es)
  | some (.list items) =>
    match items.getLast? with
    | some (.table _) => some (.list items)
    | _ => none
  | some _ => none

/-- Adds an empty table to a list of tables. -/
def appendTable : Option Data → Option Data
  | none => some (.list [.table []])
  | some (.list items) => some (.list (items ++ [.table []]))
  | some _ => none

/-- Whether one of the paths leads to or past the given one's front. -/
def covers (paths : List (List Text)) (path : List Text) : Bool := paths.any (·.isPrefixOf path)

/-- Whether a value is a list or a table. -/
def isContainer : Data → Bool
  | .list _ => true
  | .table _ => true
  | _ => false

end CondParam.Toml
