/-
# Configuration tables

A configuration text is a tree of tables. How a table came into being decides what
may still be added to it: one opened by its own header is finished when the next
header opens, one that a longer header or a dotted key implies may be added to by its
own kind, and one written inline is closed. `assign` and `openTable` are the two ways
in which a text adds to the tree.
-/
import NotificationRelay.Table

namespace NotificationRelay
namespace Toml

/-- How a table came into being. -/
inductive Origin where
  /-- Opened by its own header. -/
  | header
  /-- Implied by a longer header. -/
  | implied
  /-- Implied by a dotted key. -/
  | dotted
  /-- Written inline. -/
  | inline
  deriving DecidableEq, Repr

/-- A node of the tree. Floats and moments are kept without their value, since no
setting has one. -/
inductive Item where
  | string (s : String)
  | integer (n : Int)
  | float
  | boolean (b : Bool)
  | moment
  | array (items : List Item)
  | table (origin : Origin) (entries : List (String × Item))
  /-- A list of tables, each opened by a header of its own. -/
  | tables (items : List (List (String × Item)))
  deriving Inhabited

/-- The entries of a table. -/
abbrev Entries := List (String × Item)

/-- Goes down a path of tables and changes the one at its end. A table that is missing
is made, with the given origin. A dotted key does not enter a table that has a header,
and nothing enters an inline table. Of a list of tables the last is entered. -/
def descend (made : Origin) (change : Origin → Entries → Option Entries) :
    List String → Origin → Entries → Option Entries
  | [], origin, entries => change origin entries
  | key :: path, _, entries =>
    match Table.get? key entries with
    | none =>
      (descend made change path made []).map fun inner =>
        Table.put key (.table made inner) entries
    | some (.table origin inner) =>
      if origin = .inline ∨ (made = .dotted ∧ origin = .header) then none
      else
        (descend made change path origin inner).map fun inner =>
          Table.put key (.table origin inner) entries
    | some (.tables items) =>
      match items.getLast? with
      | none => none
      | some last =>
        (descend made change path .header last).map fun inner =>
          Table.put key (.tables (items.dropLast ++ [inner])) entries
    | some _ => none

/-- Adds a key to a table, once. At the end of a dotted path the table must be one that
dotted keys made, and without a path it must not. -/
def addKey (path : List String) (key : String) (value : Item) (origin : Origin)
    (entries : Entries) : Option Entries :=
  if (origin == .dotted) == path.isEmpty then none
  else
    match Table.get? key entries with
    | some _ => none
    | none => some (entries ++ [(key, value)])

/-- The table with a value under a dotted key. -/
def assign (path : List String) (key : String) (value : Item) (origin : Origin)
    (entries : Entries) : Option Entries :=
  descend .dotted (addKey path key value) path origin entries

/-- Opens a table by its header: a new one, or one that longer headers have implied. -/
def openKey (key : String) (_ : Origin) (entries : Entries) : Option Entries :=
  match Table.get? key entries with
  | none => some (entries ++ [(key, .table .header [])])
  | some (.table .implied inner) => some (Table.put key (.table .header inner) entries)
  | some _ => none

/-- Opens one more table of a list. -/
def openAnother (key : String) (_ : Origin) (entries : Entries) : Option Entries :=
  match Table.get? key entries with
  | none => some (entries ++ [(key, .tables [[]])])
  | some (.tables items) => some (Table.put key (.tables (items ++ [[]])) entries)
  | some _ => none

/-- The tree after a header. -/
def openTable (listed : Bool) (path : List String) (key : String) (root : Entries) :
    Option Entries :=
  descend .implied (if listed then openAnother key else openKey key) path .header root

/-- The tree with a value under a dotted key of the table that was opened last. -/
def assignIn (current : List String) (path : List String) (key : String) (value : Item)
    (root : Entries) : Option Entries :=
  descend .implied (assign path key value) current .header root

end Toml
end NotificationRelay
