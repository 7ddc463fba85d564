import MonitorCoverage.Yaml.Node

/-!
# Tables

A file builds a tree of tables. A table may be named on the way to another one, by a header of its
own or by keys with points; who may add to it later depends on that. A value takes no additions.
-/

namespace MonitorCoverage.Toml

/-- How a table came about. -/
inductive Origin where
  /-- A header names a table below it. -/
  | passed
  /-- Keys with points name it, in a section of the file. -/
  | dotted (sectionNumber : Nat)
  /-- A header names it. -/
  | stated
  deriving DecidableEq, Repr

inductive Item where
  | value (node : Yaml.Node)
  | table (origin : Origin) (entries : List (String × Item))
  /-- The tables of one header, the last first. -/
  | tables (rows : List (List (String × Item)))

abbrev Table := List (String × Item)

mutual

def Item.node (item : Item) : Yaml.Node :=
  match item with
  | .value node => node
  | .table _ entries => .mapping (nodesOfEntries entries)
  | .tables rows => .sequence (nodesOfRows rows).reverse
termination_by structural item

def nodesOfEntries (entries : List (String × Item)) : List (String × Yaml.Node) :=
  match entries with
  | [] => []
  | entry :: entries => nodeOfEntry entry :: nodesOfEntries entries
termination_by structural entries

def nodeOfEntry (entry : String × Item) : String × Yaml.Node :=
  match entry with
  | (key, item) => (key, item.node)
termination_by structural entry

def nodesOfRows (rows : List (List (String × Item))) : List Yaml.Node :=
  match rows with
  | [] => []
  | row :: rows => .mapping (nodesOfEntries row) :: nodesOfRows rows
termination_by structural rows

end

namespace Table

/-- Puts an item at a key, in place of the item there. -/
def put (table : Table) (key : String) (item : Item) : Table :=
  if (table.lookup key).isSome then
    table.map fun entry => if entry.1 = key then (key, item) else entry
  else table ++ [(key, item)]

/-- A way into what stands at a key: a table, and the item that it makes when it has changed. -/
abbrev Entrance := Option Item → Option (Table × (Table → Item))

/-- Headers lead through tables, and of several tables with one header through the last. -/
def byHeader : Entrance
  | none => some ([], .table .passed)
  | some (.table origin entries) => some (entries, .table origin)
  | some (.tables (last :: earlier)) => some (last, fun row => .tables (row :: earlier))
  | some _ => none

/-- Keys with points lead through tables that no header states and no earlier section fills. -/
def byKey (sectionNumber : Nat) : Entrance
  | none => some ([], .table (.dotted sectionNumber))
  | some (.table origin entries) =>
    if origin = .passed || origin = .dotted sectionNumber then some (entries, .table origin)
    else none
  | some _ => none

/-- Changes the table to which keys lead. -/
def within (enter : Entrance) (change : Table → Option Table) : List String → Table → Option Table
  | [], table => change table
  | key :: keys, table =>
    match enter (table.lookup key) with
    | none => none
    | some (inner, close) =>
      (within enter change keys inner).map fun inner => table.put key (close inner)

/-- Adds a value at a new key. -/
def addValue (key : String) (node : Yaml.Node) (table : Table) : Option Table :=
  match table.lookup key with
  | none => some (table.put key (.value node))
  | some _ => none

/-- Adds a table that a header states. -/
def state (key : String) (table : Table) : Option Table :=
  match table.lookup key with
  | none => some (table.put key (.table .stated []))
  | some (.table .passed entries) => some (table.put key (.table .stated entries))
  | some _ => none

/-- Adds a table to those of a header in double brackets. -/
def stateRow (key : String) (table : Table) : Option Table :=
  match table.lookup key with
  | none => some (table.put key (.tables [[]]))
  | some (.tables rows) => some (table.put key (.tables ([] :: rows)))
  | some _ => none

end Table

end MonitorCoverage.Toml
