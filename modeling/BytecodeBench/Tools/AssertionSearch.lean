import BytecodeBench.Tools.Guessing

/-!
The analysis that looks for assertions in the source of a method. It queries the parse tree for the
class, for the methods of the name and for assertions in the body; what each query captures is given.
-/

namespace BytecodeBench.Tools

open Work

/-- The nodes that a query captures, by the names in the query. -/
abbrev Captures := Table String (List Node)

/-- What the query that follows so many others captures. -/
abbrev QueryTool := Nat → Captures

def runQuery (tool : QueryTool) (query : String) (node : Node) : Work Captures := do
  let captures := tool (← get).queries.length
  modify fun b => { b with queries := b.queries ++ [(query, node)] }
  return captures

/-- The nodes captured under a name that the query is bound to capture. -/
def capturedAs (name : String) (captures : Captures) : Except Fault (List Node) :=
  match captures.find? name with
  | some nodes => .ok nodes
  | none => .error (.missingKey (Text.quoted name))

def classQuery (name : String) : String :=
  "\n    (class_declaration \n        name: ((identifier) @class-name \n" ++
    "               (#eq? @class-name \"" ++ name ++ "\"))) @class\n"

def methodQuery (name : String) : String :=
  "\n    (method_declaration name: \n      ((identifier) @method-name (#eq? @method-name \"" ++ name ++
    "\"))\n    ) @method\n"

def assertQuery : String := "(assert_statement) @assert"

def hasReadableType (parameter : Node) : Bool := (parameter.child? "type").any (·.readable)

/-- The first declaration with as many parameters as asked for, all with readable types. -/
def findDeclaration (name : String) (count : Nat) : List Node → Work (Option Node)
  | [] => pure none
  | node :: rest => do
    match node.child? "parameters" with
    | none =>
      note (Log.debug ("Could not find parameteres of " ++ name))
      findDeclaration name count rest
    | some list =>
      let parameters := list.children.filter (·.kind == "formal_parameter")
      if parameters.length = count ∧ parameters.all hasReadableType then return some node
      findDeclaration name count rest

/-! Bytes of the source -/

/-- The lines of bytes; `line` is the reversed beginning of the first. -/
def byteLinesFrom (line : List UInt8) : List UInt8 → List (List UInt8)
  | [] => if line.isEmpty then [] else [line.reverse]
  | 13 :: 10 :: rest => line.reverse :: byteLinesFrom [] rest
  | 13 :: rest => line.reverse :: byteLinesFrom [] rest
  | 10 :: rest => line.reverse :: byteLinesFrom [] rest
  | b :: rest => byteLinesFrom (b :: line) rest

def bytesOf (source : String) (node : Node) : List UInt8 :=
  Position.slice node.first node.last source.toUTF8.toList

def decodeBytes (bytes : List UInt8) : Except Fault String :=
  match String.fromUTF8? ⟨bytes.toArray⟩ with
  | some s => .ok s
  | none => .error .badBytes

def noteLines (bytes : List UInt8) : Work Unit :=
  (byteLinesFrom [] bytes).forM fun line => do
    note (Log.debug ("line: " ++ (← lift (decodeBytes line))))

/-- Guesses assertion errors from the source of the method. -/
def guessFromSource (platform : String) (tree : Node) (tool : QueryTool) (words : List String) :
    Work Unit := do
  let id ← askedMethod "syntaxer" "1.0" ["syntatic", "python"] platform words
  let s ← suite
  let file ← lift (s.sourceFile id.className)
  let source ← lift (s.folder.readExact file)
  let shownFile := Path.text ⟨false, (s.folder.root.below? file).getD file.parts⟩
  note (Log.debug ("parse sourcefile " ++ shownFile))
  let className := id.className.name
  note (Log.debug className)
  match ← lift (capturedAs "class" (← runQuery tool (classQuery className) tree)) with
  | [] =>
    note (Log.error ("could not find a class of name " ++ className ++ " in " ++ shownFile))
    throw (.exit (-1))
  | node :: _ =>
    let name := id.method.name
    let declarations ← lift (capturedAs "method" (← runQuery tool (methodQuery name) node))
    match ← findDeclaration name id.method.params.length declarations with
    | none =>
      note (Log.warning ("could not find a method of name " ++ name ++ " in " ++ className))
      throw (.exit (-1))
    | some declaration =>
      match declaration.child? "body" with
      | none => throw (.ofArguments [])
      | some body =>
        let bytes := bytesOf source body
        if bytes.isEmpty || !body.readable then throw (.ofArguments [])
        noteLines bytes
        let found := (← runQuery tool assertQuery body).has "assert"
        note (Log.debug (if found then "Found assertion" else "No assertion"))
        print (if found then "assertion error;80%" else "assertion error;20%")
        throw (.exit 0)

end BytecodeBench.Tools
