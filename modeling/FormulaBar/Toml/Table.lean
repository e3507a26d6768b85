/-!
# FormulaBar.Toml.Table — values and tables of TOML, and how tables are put together

A TOML text fills its tables piece by piece, so each remembers how it came about. A table that only lies on the way to
another is implicit and may still get a header of its own, once; one made by dotted keys may be extended by dotted
keys; anything else that is named twice is refused. A value is closed: no later line may add to it.
-/

namespace FormulaBar.Toml

/-- A TOML value. Of a date or time only the presence is kept. -/
inductive Value
  | string (s : String)
  | integer (n : Int)
  | float (x : Float)
  | bool (b : Bool)
  | dateTime
  | array (items : List Value)
  | table (fields : List (String × Value))

/-- What a name in an open table stands for: a value, a table, or an array of tables, latest first. -/
inductive Node
  | value (v : Value)
  | table (implicit dotted : Bool) (fields : List (String × Node))
  | tables (items : List (List (String × Node)))

/-- The fields of an open table. -/
abbrev Fields := List (String × Node)

namespace Fields

/-- What a name stands for. -/
def get? (fs : Fields) (key : String) : Option Node := (fs.find? (·.1 = key)).map (·.2)

/-- Lets a name stand for something else. -/
def replace (fs : Fields) (key : String) (n : Node) : Fields :=
  fs.map fun f => if f.1 = key then (key, n) else f

/-- Follows a path of names, making the tables that are missing, and changes the fields at its end. The change is told
whether the table there was made by dotted keys. Of an array of tables the latest is entered. -/
def modify (dotted : Bool) (change : Bool → Fields → Option Fields) : List String → Bool → Fields → Option Fields
  | [], here, fs => change here fs
  | key :: path, _, fs =>
    match fs.get? key with
    | none => (modify dotted change path dotted []).map fun inner => fs ++ [(key, .table true dotted inner)]
    | some (.value _) => none
    | some (.table implicit here inner) =>
      if dotted && !implicit then none
      else (modify dotted change path here inner).map fun inner => fs.replace key (.table implicit here inner)
    | some (.tables []) => none
    | some (.tables (latest :: earlier)) =>
      (modify dotted change path false latest).map fun latest => fs.replace key (.tables (latest :: earlier))

/-- Adds a value under a dotted key. It may not be put into a table that was written out under its own header. -/
def insert (key : List String) (v : Value) (isDotted : Bool) (fs : Fields) : Option Fields :=
  match key.getLast? with
  | none => none
  | some name =>
    let path := key.dropLast
    modify true (fun dotted fs =>
      if dotted = path.isEmpty || (fs.get? name).isSome then none else some (fs ++ [(name, .value v)])) path isDotted fs

/-- Opens the table of a header. -/
def openTable (key : List String) (fs : Fields) : Option Fields :=
  match key.getLast? with
  | none => none
  | some name =>
    modify false (fun _ fs =>
      match fs.get? name with
      | none => some (fs ++ [(name, .table false false [])])
      | some (.table true false inner) => some (fs.replace name (.table false false inner))
      | some _ => none) key.dropLast false fs

/-- Opens the next table of the array of tables of a header. -/
def openTables (key : List String) (fs : Fields) : Option Fields :=
  match key.getLast? with
  | none => none
  | some name =>
    modify false (fun _ fs =>
      match fs.get? name with
      | none => some (fs ++ [(name, .tables [[]])])
      | some (.tables items) => some (fs.replace name (.tables ([] :: items)))
      | some _ => none) key.dropLast false fs

end Fields

mutual

/-- The value that a node has come to. -/
def Node.close : Node → Value
  | .value v => v
  | .table _ _ fields => .table (closeFields fields)
  | .tables items => .array (closeTables items).reverse

/-- The values of an open table. -/
def closeFields : List (String × Node) → List (String × Value)
  | [] => []
  | (key, n) :: fs => (key, n.close) :: closeFields fs

/-- The values of an array of tables. -/
def closeTables : List (List (String × Node)) → List Value
  | [] => []
  | fields :: items => .table (closeFields fields) :: closeTables items

end

end FormulaBar.Toml
