import BytecodeBench.Fault
import BytecodeBench.SourceTree.Literals

/-! The literals that guide mutations. -/

namespace BytecodeBench

/-- Literals by type; a type may be missing, and a table with no types guides nothing. -/
structure LiteralTable where
  ints : Option (List Int) := none
  chars : Option (List String) := none
  strings : Option (List String) := none

namespace LiteralTable

def isEmpty (table : LiteralTable) : Bool :=
  table.ints.isNone && table.chars.isNone && table.strings.isNone

/-- The integers; a table that guides at all must have them. -/
def intsOrFault (table : LiteralTable) : Except Fault (List Int) :=
  match table.ints with
  | some ints => .ok ints
  | none => if table.isEmpty then .ok [] else .error (.missingKey "'int_literals'")

def ofSource (file : SourceFile) (method : AbsMethodId) : LiteralTable where
  ints := some (file.intLiterals method)
  strings := some (file.stringLiterals method)
  chars := some (file.charLiterals method)

end LiteralTable

end BytecodeBench
