import ExactLisp.Assoc

/-!
# Configuration documents

The data of a TOML document: items under keys, in tables inside tables. A table remembers how it
came about, because that decides what may still be added to it:

* a table with a header of its own is closed to other headers and to dotted keys;
* a table that only the headers of its subtables imply can still get a header of its own;
* a table made by dotted keys takes more dotted keys, but no header;
* an inline table is complete as it is written.
-/

namespace ExactLisp.Toml

/-- How a table came about. -/
inductive Origin where
  /-- The document itself, or a table with a header. -/
  | header
  /-- Implied by the header of a subtable. -/
  | implied
  /-- Made by a dotted key. -/
  | dotted
  /-- Written inline, as a value. -/
  | inline
  deriving DecidableEq, Repr

/-- What can stand under a key. Numbers with a fraction and moments in time are kept as written. -/
inductive Item where
  | string (value : String)
  | integer (value : Int)
  | boolean (value : Bool)
  | float (written : String)
  | moment (written : String)
  | array (items : List Item)
  | table (origin : Origin) (entries : Assoc String Item)
  /-- The tables that share one double-bracketed header, latest first. -/
  | tables (elements : List (Origin × Assoc String Item))

/-- A table: how it came about, and its entries. -/
abbrev Table : Type := Origin × Assoc String Item

namespace Table

/-- A table without entries. -/
def ofOrigin (origin : Origin) : Table := (origin, .empty)

/-- The item under a key. -/
def get? (table : Table) (key : String) : Option Item :=
  table.2.get? key

/-- Puts an item under a key. -/
def put (table : Table) (key : String) (item : Item) : Table :=
  (table.1, table.2.insert key item)

/-- A table as an item. -/
def toItem (table : Table) : Item :=
  .table table.1 table.2

/--
Changes the table at the end of a path; tables on the way that do not exist yet are made, with the
given origin. Of several tables under one double-bracketed header the path leads into the latest. A
dotted path does not lead into a table that has a header, and no path leads into an inline table or
another value.
-/
def alter (origin : Origin) (change : Table → Option Table) : List String → Table → Option Table
  | [], table => change table
  | key :: path, table =>
    match table.get? key with
    | none => do
      let child ← alter origin change path (ofOrigin origin)
      return table.put key child.toItem
    | some (.table childOrigin entries) =>
      if childOrigin = .inline ∨ (origin = .dotted ∧ childOrigin = .header) then none
      else do
        let child ← alter origin change path (childOrigin, entries)
        return table.put key child.toItem
    | some (.tables (latest :: earlier)) => do
      let child ← alter origin change path latest
      return table.put key (.tables (child :: earlier))
    | some _ => none

/-- Puts a value under a key that has none. With a dotted key the table has to be one that dotted
keys made, with a plain key one that they did not. -/
def putNew (plain : Bool) (key : String) (item : Item) (table : Table) : Option Table :=
  if (table.1 = .dotted) = (plain = true) then none
  else if (table.get? key).isSome then none
  else some (table.put key item)

/-- Adds a value under a dotted key; `path` are the parts before the last. -/
def addValue (path : List String) (key : String) (item : Item) (table : Table) : Option Table :=
  alter .dotted (putNew path.isEmpty key item) path table

/-- Opens the table of a header; `path` are the parts of the header before the last. -/
def openTable (path : List String) (key : String) (table : Table) : Option Table :=
  alter .implied (fun parent =>
    match parent.get? key with
    | none => some (parent.put key (ofOrigin .header).toItem)
    | some (.table .implied entries) => some (parent.put key (.table .header entries))
    | some _ => none) path table

/-- Opens a further table under a double-bracketed header. -/
def openElement (path : List String) (key : String) (table : Table) : Option Table :=
  alter .implied (fun parent =>
    match parent.get? key with
    | none => some (parent.put key (.tables [ofOrigin .header]))
    | some (.tables elements) => some (parent.put key (.tables (ofOrigin .header :: elements)))
    | some _ => none) path table

end Table

end ExactLisp.Toml
