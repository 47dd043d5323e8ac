import BytecodeBench.Decimal.Reading
import BytecodeBench.Json.Writer
import BytecodeBench.Jvm.Identifier
import BytecodeBench.SourceTree.Basic

/-!
Literals of a method: the integers, characters and strings that its body mentions, as seeds for
inputs. If the body cannot be found, the whole tree is searched.
-/

namespace BytecodeBench

/-- A source text with its parse tree. -/
structure SourceFile where
  text : List Char
  root : Node

namespace SourceFile

/-- The text between the bounds of a node, counted in characters. -/
def textOf (file : SourceFile) (node : Node) : List Char :=
  Position.slice node.first node.last file.text

/-- Whether the first identifier among the children of a node is the given name. -/
def isNamed (file : SourceFile) (name : String) (node : Node) : Bool :=
  match node.children.find? fun child => child.kind == "identifier" with
  | some child => file.textOf child == name.toList
  | none => false

def classNode? (file : SourceFile) (name : String) : Option Node :=
  file.root.search fun node =>
    if node.kind == "class_declaration" && file.isNamed name node then some (some node) else none

/-- The body of a method: the first that one of its declarations in the class has. -/
def methodBody? (file : SourceFile) (method : AbsMethodId) : Option Node := do
  let classNode ← file.classNode? method.className.name
  classNode.search fun node =>
    if node.kind == "method_declaration" && file.isNamed method.method.name node then
      some (node.child? "body")
    else none

/-- The node below which everything counts for a method: its body, else the root. -/
def start (file : SourceFile) (method : AbsMethodId) : Node :=
  (file.methodBody? method).getD file.root

/-- The nodes of a kind that count for a method. -/
def walk (file : SourceFile) (method : AbsMethodId) (kind : String) : List Node :=
  (Node.visit [file.start method]).filter fun node => node.kind == kind

/-- Items in strictly ascending order. -/
def ascending {α : Type} [BEq α] (atMost : α → α → Bool) (items : List α) : List α :=
  items.eraseDups.mergeSort atMost

def intLiterals (file : SourceFile) (method : AbsMethodId) : List Int :=
  let read (reader : String → Option Int) (kind : String) : List Int :=
    (file.walk method kind).filterMap fun node => reader (String.ofList (file.textOf node))
  ascending (fun a b => decide (a ≤ b))
    (read Decimal.readInt? "decimal_integer_literal" ++ read Decimal.readHex? "hex_integer_literal")

/-- A text without the quotation marks around it. -/
def unquoted (mark : Char) (cs : List Char) : String :=
  if 2 ≤ cs.length ∧ cs.head? = some mark ∧ cs.getLast? = some mark then
    String.ofList (cs.drop 1).dropLast
  else String.ofList cs

def ascendingTexts (texts : List String) : List String :=
  ascending (fun a b => decide (a ≤ b)) texts

def charLiterals (file : SourceFile) (method : AbsMethodId) : List String :=
  ascendingTexts ((file.walk method "character_literal").map fun node =>
    unquoted '\'' (file.textOf node))

def stringLiterals (file : SourceFile) (method : AbsMethodId) : List String :=
  ascendingTexts ((file.walk method "string_literal").map fun node =>
    unquoted '"' (file.textOf node))

/-- The integers that a call passes to a string method that takes positions. -/
def indexArguments (file : SourceFile) (call : Node) : List String :=
  match call.child? "name" with
  | none => []
  | some name =>
    if String.ofList (file.textOf name) ∈ ["substring", "charAt", "indexOf"] then
      match call.child? "arguments" with
      | none => []
      | some arguments =>
        (arguments.children.filter fun child => child.kind == "decimal_integer_literal").map
          fun child => String.ofList (file.textOf child)
    else []

def indexConstants (file : SourceFile) (method : AbsMethodId) : List String :=
  ascendingTexts ((file.walk method "method_invocation").flatMap file.indexArguments)

/-- All literals of a method as indented JSON. -/
def literalReport (file : SourceFile) (method : AbsMethodId) : Except Fault String :=
  let texts (l : List String) : Datum := .list (l.map .text)
  let literals : Datum := .record [
    ("char_literals", texts (file.charLiterals method)),
    ("int_literals", .list ((file.intLiterals method).map .int)),
    ("string_index_constants", texts (file.indexConstants method)),
    ("string_literals", texts (file.stringLiterals method))]
  if literals.legible then .ok (Json.writeIndented 4 literals) else .error (.tooManyDigits none)

end SourceFile

end BytecodeBench
