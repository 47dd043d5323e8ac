import BytecodeBench.Jvm.ValueList
import BytecodeBench.Sorting
import BytecodeBench.Table

/-!
Cases: a method, the values it is called with, and the result that is expected. A case is a line
`method (values) -> result`.
-/

namespace BytecodeBench

/-- The values a method is called with. -/
structure Input where
  values : List Value

namespace Input

/-- Reads values; a text that neither opens nor closes a parenthesis is refused. -/
def decode (s : String) : Except Fault Input :=
  match s.toList with
  | [] => .error .badIndex
  | first :: rest =>
    if first ≠ '(' ∧ (first :: rest).getLast? ≠ some ')' then .error (.unparenthesised s)
    else Input.mk <$> ValueList.decode s

def encode (input : Input) : Except Fault String := do
  let texts ← input.values.mapM Value.encode
  return "(" ++ Text.join ", " texts ++ ")"

def sameValues : List Value → List Value → Bool
  | [], [] => true
  | a :: as, b :: bs => a.same b && sameValues as bs
  | _, _ => false

def same (a b : Input) : Bool := sameValues a.values b.values

/-- The order of two lists of values: by the first unequal value, else by length. -/
def relateValues (r : Relation) : List Value → List Value → Verdict
  | [], bs => .ok (r.holds (compare 0 bs.length))
  | as, [] => .ok (r.holds (compare as.length 0))
  | a :: as, b :: bs => if a.same b then relateValues r as bs else a.relate r b

def relate (r : Relation) (a b : Input) : Verdict := relateValues r a.values b.values

end Input

/-- A method, an input and the expected result. -/
structure Case where
  method : AbsMethodId
  input : Input
  result : String

namespace Case

/-- The method, the parenthesised values and the result of a line. -/
def cut? (cs : List Char) : Option (List Char × List Char × List Char) :=
  match (cs.dropWhile (· ≠ ' ')) with
  | [] => none
  | gap =>
    match gap.dropWhile (· = ' ') with
    | '(' :: inner =>
      match Text.dropLead? ") -> ".toList (inner.dropWhile (· ≠ ')')) with
      | some result =>
        some (cs.takeWhile (· ≠ ' '), '(' :: inner.takeWhile (· ≠ ')') ++ [')'],
          Text.firstLine result)
      | none => none
    | _ => none

def decode (line : String) : Except Fault Case :=
  match cut? line.toList with
  | none => .error (.unexpectedLine (Text.quoted line))
  | some (method, input, result) => do
    return {
      method := ← AbsMethodId.decode (String.ofList method)
      input := ← Input.decode (String.ofList input)
      result := String.ofList result }

def encode (c : Case) : Except Fault String := do
  return c.method.encode ++ " " ++ (← c.input.encode) ++ " -> " ++ c.result

/-- The case for a reader: the method by its name alone. -/
def display (c : Case) : Except Fault String := do
  return c.method.className.text ++ "." ++ c.method.method.name ++ ":" ++ (← c.input.encode) ++
    " -> " ++ c.result

def same (a b : Case) : Bool :=
  a.method == b.method && a.input.same b.input && a.result == b.result

/-- The order of two cases: by method, then input, then result. -/
def relate (r : Relation) (a b : Case) : Verdict :=
  r.lexicographic [
    (a.method == b.method, a.method.relate r b.method),
    (a.input.same b.input, a.input.relate r b.input),
    (a.result == b.result, .ok (r.holds (compare a.result b.result)))]

/-- The cases of each method, in their order, the methods as they first come. -/
def group (cases : List Case) : Table AbsMethodId (List Case) :=
  cases.foldl (fun groups c => groups.update c.method [] (· ++ [c])) []

/-- The cases of each method, the methods sorted by a procedure. -/
def byMethod (sort : Sorting.Procedure (AbsMethodId × List Case)) (cases : List Case) :
    Except Fault (Table AbsMethodId (List Case)) :=
  sort (fun a b => a.1.relate .lt b.1) (group cases)

/-- The distinct results of each method, in their order, the methods as they first come. -/
def results (cases : List Case) : Table AbsMethodId (List String) :=
  cases.foldl (fun table c =>
    table.update c.method [] fun known =>
      if c.result ∈ known then known else known ++ [c.result]) []

end Case

end BytecodeBench
