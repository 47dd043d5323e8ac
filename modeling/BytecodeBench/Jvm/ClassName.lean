import BytecodeBench.Text.Basic
import BytecodeBench.Text.Quoted

/-! Names of classes: parts separated by dots, inner classes behind a `$`. -/

namespace BytecodeBench

structure ClassName where
  text : String
  deriving DecidableEq, Repr

namespace ClassName

/-- The packages and the unqualified name. -/
def parts (c : ClassName) : List String := Text.split '.' c.text

def packages (c : ClassName) : List String := c.parts.dropLast

def name (c : ClassName) : String := c.parts.getLastD ""

def slashed (c : ClassName) : String := Text.replaceChar '.' '/' c.text

def ofParts (parts : List String) : ClassName := ⟨Text.join "." parts⟩

def literal (c : ClassName) : String := "ClassName(" ++ Text.quoted c.text ++ ")"

end ClassName

end BytecodeBench
