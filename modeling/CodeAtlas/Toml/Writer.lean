import CodeAtlas.Data

/-!
Writing TOML. A table is written with its own values first, then with its lists of tables, and the
tables in it follow as blocks, level by level, with an empty line before each block.
-/

set_option autoImplicit false

namespace CodeAtlas.Toml

/-! Names and texts -/

def piecesAtHex : Text → List Text
  | [] => [[]]
  | '\\' :: 'x' :: rest => [] :: piecesAtHex rest
  | c :: rest =>
    match piecesAtHex rest with
    | [] => [[c]]
    | piece :: pieces => (c :: piece) :: pieces

def mergeBackslashes : Text → Text
  | [] => []
  | '\\' :: '\\' :: rest => '\\' :: mergeBackslashes rest
  | c :: rest => c :: mergeBackslashes rest

/-- What takes the place of a backslash and an `x` behind a piece: an escape of two digits grows to
four by `u00` if the backslashes at the end of the piece leave it an escape, and otherwise the `x`
stays alone. -/
def hexJoint (piece : Text) : Text :=
  let count := (piece.reverse.takeWhile (· == '\\')).length
  if count = 0 then ['x']
  else if (count % 2 = 0) = (count = piece.length) then ['x']
  else "u00"

/-- Joins pieces again. TOML has no escapes of two digits. -/
def joinAtHex : Text → List Text → Text
  | head, [] => head
  | head, next :: rest =>
    if head.isEmpty then joinAtHex next rest
    else
      let head := mergeBackslashes head
      joinAtHex (head ++ hexJoint head ++ next) rest

def quote (t : Text) : Text :=
  match piecesAtHex (t.flatMap (Text.quoteChar '"')) with
  | [] => ['"', '"']
  | piece :: pieces => '"' :: joinAtHex piece pieces ++ ['"']

def isPlainName (name : Text) : Bool :=
  !name.isEmpty && name.all fun c => c.isAlphanum || c == '_' || c == '-'

def writeName (name : Text) : Text := if isPlainName name then name else quote name

/-! Values -/

def floatStyle : Decimal.Style := { Data.floatStyle with exponentDigits := 1 }

mutual

def writeValue : Data → Text
  | .null => quote "None"
  | .bool true => "true"
  | .bool false => "false"
  | .int n => Text.ofInt n
  | .float x => Data.writeFloat floatStyle x
  | .text t => quote t
  | .list items => '[' :: writeItems items ++ [']']
  | .record fields => '[' :: fields.flatMap (fun (name, _) => ' ' :: quote name ++ [',']) ++ [']']

def writeItems : List Data → Text
  | [] => []
  | v :: rest => ' ' :: writeValue v ++ ',' :: writeItems rest

end

/-! Tables -/

def tablesOf : Data → List Fields
  | .list items => items.filterMap fun
    | .record inner => some inner
    | _ => none
  | _ => []

def isInline : Data → Bool
  | .null | .record _ => false
  | v => (tablesOf v).isEmpty

def ownLines (table : Fields) : Text :=
  table.flatMap fun (name, v) =>
    if isInline v then writeName name ++ " = " ++ writeValue v ++ ['\n'] else []

def extendHeader (header name : Text) : Text :=
  if header.isEmpty then writeName name else header ++ '.' :: writeName name

def subtables (header : Text) (table : Fields) : List (Text × Fields) :=
  table.filterMap fun (name, v) =>
    match v with
    | .record inner => some (extendHeader header name, inner)
    | _ => none

def headerLine (header : Text) : Text := '[' :: header ++ ("]\n" : Text)

mutual

def body : Nat → Text → Fields → Text
  | 0, _, _ => []
  | n + 1, header, table =>
    ownLines table ++ table.flatMap fun (name, v) =>
      (tablesOf v).flatMap fun inner => item n (extendHeader header name) inner

def item : Nat → Text → Fields → Text
  | 0, _, _ => []
  | n + 1, header, table =>
    let inner := body n header table
    '[' :: headerLine (header ++ [']'])
      ++ (if Text.startsWith inner ['['] then '\n' :: inner else inner ++ ['\n'])
      ++ itemTables n (subtables header table)

/-- The tables in an item, level by level. Those that hold nothing themselves have no header. -/
def itemTables : Nat → List (Text × Fields) → Text
  | 0, _ => []
  | n + 1, tables =>
    if tables.isEmpty then []
    else
      (tables.flatMap fun (header, table) =>
        let inner := body n header table
        if inner.isEmpty then [] else headerLine header ++ inner)
        ++ itemTables n (tables.flatMap fun (header, table) => subtables header table)

end

/-- Adds the block of a table to what is written. A table that only holds tables needs none. -/
def addBlock (n : Nat) (written : Text) (block : Text × Fields) : Text :=
  let inner := body n block.1 block.2
  if inner.isEmpty && !(subtables block.1 block.2).isEmpty then written
  else
    let gap : Text := if written.isEmpty || Text.endsWith written ['\n', '\n'] then [] else ['\n']
    written ++ gap ++ headerLine block.1 ++ inner

def addBlocks : Nat → Text → List (Text × Fields) → Text
  | 0, written, _ => written
  | n + 1, written, blocks =>
    if blocks.isEmpty then written
    else addBlocks n (blocks.foldl (addBlock n) written)
      (blocks.flatMap fun (header, table) => subtables header table)

mutual

def depth : Data → Nat
  | .list items => depthOfItems items + 1
  | .record fields => depthOfFields fields + 1
  | _ => 0

def depthOfItems : List Data → Nat
  | [] => 0
  | v :: rest => max (depth v) (depthOfItems rest)

def depthOfFields : List (Text × Data) → Nat
  | [] => 0
  | (_, v) :: rest => max (depth v) (depthOfFields rest)

end

def write (table : Fields) : Text :=
  let n := 3 * depthOfFields table + 3
  addBlocks n (body n [] table) (subtables [] table)

theorem mergeBackslashes_of_not_mem {t : Text} (h : '\\' ∉ t) : mergeBackslashes t = t := by
  induction t with
  | nil => rfl
  | cons c rest ih =>
    have hc : c ≠ '\\' := fun e => h (e ▸ List.mem_cons_self)
    have hr : '\\' ∉ rest := fun m => h (List.mem_cons_of_mem _ m)
    rw [mergeBackslashes, ih hr]
    intro more e
    exact absurd e hc

theorem write_nil : write [] = [] := rfl

end CodeAtlas.Toml
