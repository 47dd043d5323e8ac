/-! Queries: the ways in which a run can end, which are also what an analysis is asked about. -/

namespace BytecodeBench

/-- How a run ends; `unresolved` stands for running on. -/
inductive Query
  | unresolved
  | assertionError
  | divideByZero
  | nullPointer
  | ok
  | outOfBounds
  deriving DecidableEq, Repr

namespace Query

def name : Query → String
  | unresolved => "*"
  | assertionError => "assertion error"
  | divideByZero => "divide by zero"
  | nullPointer => "null pointer"
  | ok => "ok"
  | outOfBounds => "out of bounds"

/-- All queries, in the order of their names. -/
def all : List Query :=
  [unresolved, assertionError, divideByZero, nullPointer, ok, outOfBounds]

def ofName? (name : String) : Option Query := all.find? fun q => q.name == name

theorem mem_all (q : Query) : q ∈ all := by cases q <;> decide

end Query

end BytecodeBench
