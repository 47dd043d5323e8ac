import BytecodeBench.Table

/-!
Tables in text form: fields separated by commas, rows by line ends. A field in double quotes may hold
commas and line ends, and a double quote inside it is written twice.
-/

namespace BytecodeBench.Csv

/-- Where in a field the reader is. -/
inductive Place
  /-- Before the first character of a field. -/
  | start
  | plain
  | quoted
  /-- After a double quote inside quotes. -/
  | closing
  deriving DecidableEq, Repr

/-- Reads rows; `row` holds the fields of the row before the one that is read, whose characters so far
are in `field`, both reversed. -/
def rowsFrom (place : Place) (field : List Char) (row : List String) : List Char → List (List String)
  | [] =>
    if place = .start ∧ row = [] then []
    else [(String.ofList field.reverse :: row).reverse]
  | c :: rest =>
    match place with
    | .quoted =>
      if c = '"' then rowsFrom .closing field row rest else rowsFrom .quoted (c :: field) row rest
    | _ =>
      if c = '\n' then
        if place = .start ∧ row = [] then [] :: rowsFrom .start [] [] rest
        else (String.ofList field.reverse :: row).reverse :: rowsFrom .start [] [] rest
      else if c = ',' then rowsFrom .start [] (String.ofList field.reverse :: row) rest
      else if c = '"' ∧ place ≠ .plain then rowsFrom .quoted (if place = .closing then c :: field else field) row rest
      else rowsFrom .plain (c :: field) row rest

/-- The rows of a text; an empty line is an empty row. -/
def rows (s : String) : List (List String) := rowsFrom .start [] [] s.toList

/-- What a row has under a name: one field, no field, or all fields beyond the named ones. -/
inductive Cell
  | field (s : String)
  | absent
  | surplus (fields : List String)
  deriving DecidableEq, Repr

/-- A row by the names of its columns; surplus fields have none. -/
abbrev Record := Table (Option String) Cell

/-- A row under the names of columns. -/
def record (names : List String) (row : List String) : Record :=
  let present := names.zip (row.map Cell.field)
  let missing := (names.drop row.length).map fun name => (name, Cell.absent)
  let named : Record :=
    (present ++ missing).foldl (fun r (name, cell) => Table.insert (some name) cell r) []
  match row.drop names.length with
  | [] => named
  | surplus => named ++ [(none, .surplus surplus)]

/-- The rows under the names in the first one; empty rows do not count. -/
def records (s : String) : List Record :=
  match rows s with
  | [] => []
  | names :: rest => (rest.filter (· ≠ [])).map (record names)

end BytecodeBench.Csv
