import CodeAtlas.Data

set_option autoImplicit false

namespace CodeAtlas.Toml

/-- Puts a value at the end of a path. Nothing may stand there yet, and only tables on the way. -/
def insert (v : Data) : List Text → Fields → Option Fields
  | [], _ => none
  | [name], table => if table.has name then none else some (Fields.set name v table)
  | name :: path, table =>
    match table.get? name with
    | none => (insert v path []).map fun inner => Fields.set name (.record inner) table
    | some (.record inner) =>
      (insert v path inner).map fun inner => Fields.set name (.record inner) table
    | some _ => none

/-- Changes the table in which a path of tables ends. The flag tells the change whether that table
is an item of a list. -/
def descend (change : Bool → Fields → Option Fields) : Bool → List Text → Fields → Option Fields
  | inItem, [], table => change inItem table
  | _, name :: path, table =>
    match table.get? name with
    | none =>
      (descend change false path []).map fun inner => Fields.set name (.record inner) table
    | some (.record inner) =>
      (descend change false path inner).map fun inner => Fields.set name (.record inner) table
    | some (.list items) =>
      match items.getLast? with
      | some (.record inner) =>
        (descend change true path inner).map fun inner =>
          Fields.set name (.list (items.dropLast ++ [.record inner])) table
      | _ => none
    | some _ => none

def stands : List Text → Fields → Bool
  | [], _ => true
  | name :: path, table =>
    match table.get? name with
    | none => false
    | some (.record inner) => stands path inner
    | some (.list items) =>
      match items.getLast? with
      | some (.record inner) => stands path inner
      | _ => path.isEmpty
    | some _ => path.isEmpty

/-- Opens a table: it is made if it is missing. One that is there already can be opened only when it
was made on the way to another, or belongs to an item of a list. -/
def openTable (reopen : Bool) (name : Text) (inItem : Bool) (table : Fields) : Option Fields :=
  if table.has name then if reopen || inItem then some table else none
  else some (Fields.set name (.record []) table)

def openItem (name : Text) (_inItem : Bool) (table : Fields) : Option Fields :=
  match table.get? name with
  | none => some (Fields.set name (.list [.record []]) table)
  | some (.list items) => some (Fields.set name (.list (items ++ [.record []])) table)
  | some _ => none

theorem insert_singleton {v : Data} {name : Text} {table : Fields} (h : table.has name = false) :
    insert v [name] table = some (Fields.set name v table) := by
  simp [insert, h]

theorem insert_eq_none_of_has {v : Data} {name : Text} {table : Fields}
    (h : table.has name = true) : insert v [name] table = none := by
  simp [insert, h]

end CodeAtlas.Toml
