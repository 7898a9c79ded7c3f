import CdkStacks.Toml.Scalar

/-!
# TOML tables

What a document consists of, and how tables are filled.

* `Item` is a scalar, an array, a table or an array of tables;
* `assign` gives a dotted key its value, inside one table;
* `openTable` and `openRow` start a table, or the next row of an array of tables.

A table is defined once. `Form` keeps how it came about, and so who may still add to it.
-/

namespace CdkStacks.Toml

/-- How a table came about. -/
inductive Form where
  /-- By its own header. -/
  | header
  /-- By the header of a table inside it; its own header may follow. -/
  | implied
  /-- By dotted keys, which may add to it. -/
  | dotted
  /-- Between braces, where it is complete. -/
  | closed
  deriving DecidableEq, Repr

/-- What a key stands for. -/
inductive Item where
  | scalar (value : Scalar)
  | array (items : List Item)
  | table (form : Form) (entries : List (String × Item))
  /-- An array of tables, one for each header. -/
  | rows (tables : List (List (String × Item)))

instance : Inhabited Item := ⟨.array []⟩

/-- The entries of a table. -/
abbrev Entries := List (String × Item)

/-- The item of a key. -/
def find? (entries : Entries) (key : String) : Option Item :=
  (entries.find? fun e => e.1 = key).map Prod.snd

/-- Replace the item of a key. -/
def replace (entries : Entries) (key : String) (item : Item) : Entries :=
  entries.map fun e => if e.1 = key then (key, item) else e

/-- Change the table at a path. Tables on the way are made where they are missing; a path through an
array of tables goes on in its last table. Dotted keys do not reach into tables with a header. -/
def within (dotted : Bool) (change : Form → Entries → Option Entries) :
    List String → Form → Entries → Option Entries
  | [], form, entries => change form entries
  | key :: path, _, entries =>
    match find? entries key with
    | none =>
      let form : Form := if dotted then .dotted else .implied
      (within dotted change path form []).map fun child => entries ++ [(key, .table form child)]
    | some (.table form child) =>
      if form = .closed || (dotted && form = .header) then none
      else
        (within dotted change path form child).map fun child =>
          replace entries key (.table form child)
    | some (.rows tables) =>
      match tables.getLast? with
      | some last =>
        (within dotted change path .header last).map fun child =>
          replace entries key (.rows (tables.dropLast ++ [child]))
      | none => none
    | some _ => none

/-- Give a key its item, in a table that does not have the key. Behind a dotted path the table has
to be one made by dotted keys. -/
def put (behindPath : Bool) (key : String) (item : Item) (form : Form) (entries : Entries) :
    Option Entries :=
  if (form == .dotted) != behindPath || (find? entries key).isSome then none
  else some (entries ++ [(key, item)])

/-- Give a dotted key its item. -/
def assign (path : List String) (key : String) (item : Item) (form : Form) (entries : Entries) :
    Option Entries :=
  within true (put (!path.isEmpty) key item) path form entries

/-- Start the table `key` in a table: it is new, or was implied before. -/
def openTable (key : String) (_ : Form) (entries : Entries) : Option Entries :=
  match find? entries key with
  | none => some (entries ++ [(key, .table .header [])])
  | some (.table .implied child) => some (replace entries key (.table .header child))
  | some _ => none

/-- Start the next row of the array of tables `key` in a table. -/
def openRow (key : String) (_ : Form) (entries : Entries) : Option Entries :=
  match find? entries key with
  | none => some (entries ++ [(key, .rows [[]])])
  | some (.rows tables) => some (replace entries key (.rows (tables ++ [[]])))
  | some _ => none

end CdkStacks.Toml
