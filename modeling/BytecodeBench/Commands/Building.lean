import BytecodeBench.Json.Sorted
import BytecodeBench.Json.Writer
import BytecodeBench.Launch

/-!
Building a suite with the tools of a container: sources are compiled and the cases collected, classes
are decompiled, the instructions in use are documented, and the cases are tested.
-/

namespace BytecodeBench.Building

open Work

structure Phases where
  compile : Bool
  decompile : Bool
  document : Bool
  test : Bool
  deriving DecidableEq, Repr

/-- The phases that were asked for; if none was, all that were not declined. -/
def Phases.asked (compile decompile document test : Option Bool) : Phases :=
  if [compile, decompile, document, test].any (· == some true) then
    ⟨compile == some true, decompile == some true, document == some true, test == some true⟩
  else ⟨compile.isNone, decompile.isNone, document.isNone, test.isNone⟩

/-- A path below the suite, as a word of a command. -/
def wordBelow (s : Suite) (p : Path) : String :=
  Path.text ⟨false, (s.home.below? p).getD p.parts⟩

variable (outside : Outside) (container : List String)

/-- Compiles the sources and collects the cases. -/
def compile : Work Unit := do
  note (Log.info "Compiling")
  let s ← suite
  let _ ← run outside
    (container ++ ["javac", "-d", "target/classes"] ++ s.sourceFiles.map (wordBelow s))
    (noting Log.info) (noting Log.warning)
  note (Log.info "Building Stats")
  let (cases, _) ← run outside (container ++ ["java", "-cp", "target/classes", "jpamb.Runtime"])
    (noting Log.info) (noting Log.debug)
  makeFolder s.caseFile.parent
  writeFile s.caseFile (Text.join "\n" ((Text.lines cases).mergeSort fun a b => decide (a ≤ b)))

def decompileClass (c : ClassName) : Work Unit := do
  note (Log.info ("Decompiling " ++ c.text))
  let s ← suite
  let source ← lift (s.classFile c)
  let (out, _) ← run outside (container ++ ["jvm2json", "-s", wordBelow s source])
    ignore (noting Log.warning)
  let file ← lift (s.decompiledFile c)
  makeFolder file.parent
  writeFile file ""
  let d ← lift (Json.read out)
  writeFile file (Json.writeIndented 2 d.sortFields)

def decompile : Work Unit := do
  note (Log.info "Decompiling")
  (← suite).classNames.forM (decompileClass outside container)
  note (Log.success "Done decompiling")

/-- Tests that a case comes out as expected. -/
def testCase (c : Case) : Work Unit := do
  let title ← lift c.display
  note (Log.info ("Testing " ++ title))
  let s ← suite
  let command := container ++
    ["java", "-cp", wordBelow s s.classes, "-ea", "jpamb.Runtime", c.method.encode,
      ← lift c.input.encode]
  let found ← match ← attempt (run outside command (noting Log.info) (noting Log.debug)) with
    | .ok (out, _) => pure (Text.strip out)
    | .error .overdueRun => pure "*"
    | .error e => throw e
  if c.result = found then note (Log.success ("Correct " ++ title))
  else note (Log.error ("Incorrect (got " ++ found ++ ") expected " ++ title))

def test : Work Unit := do
  note (Log.info "Testing")
  (← ask Suite.cases).forM (testCase outside container)
  note (Log.success "Done testing")

/-! Documentation -/

/-- What is known of a mnemonic: how often it occurs, where it is documented, and of which form its
last instruction is. -/
structure Usage where
  count : Nat
  url : String
  form : String
  deriving DecidableEq, Repr

/-- The mnemonics in use, as they first come, and those in the last case of each class. -/
structure Usages where
  mnemonics : Table String Usage := []
  classes : Table String (List String) := []

def Usages.addInstruction (usages : Usages) (className : String) (i : Instruction) :
    Except Fault Usages := do
  let mnemonic ← i.mnemonic
  let url ← i.url
  let usage (old : Usage) : Usage := ⟨old.count + 1, url, i.form.name⟩
  return {
    mnemonics := usages.mnemonics.update mnemonic ⟨0, "", ""⟩ usage
    classes := usages.classes.update className [] (· ++ [mnemonic]) }

/-- Adds the instructions of a case, which replace those of earlier cases of its class. -/
def Usages.addCase (s : Suite) (usages : Usages) (c : Case) : Except Fault Usages := do
  let name := c.method.className.name
  let usages := { usages with classes := usages.classes.insert name [] }
  (← s.instructions c.method).foldlM (·.addInstruction name) usages

def documentLine (usages : Usages) (mnemonic : String) (usage : Usage) : String :=
  let classes := usages.classes.filterMap fun (name, mnemonics) =>
    if mnemonic ∈ mnemonics then some (" " ++ name) else none
  " | [" ++ mnemonic ++ "](" ++ usage.url ++ ") | [" ++ usage.form ++
    "](jpamb/jvm/opcode.py?plain=1#L0) | " ++ String.join classes ++ " | " ++
    toString usage.count ++ " |\n"

/-- The document: the mnemonics by descending count. -/
def documentText (usages : Usages) : String :=
  let sorted := usages.mnemonics.mergeSort fun a b => decide (b.2.count ≤ a.2.count)
  "#Bytecode instructions\n| Mnemonic | Opcode Name |  Exists in |  Count |\n" ++
    "| :---- | :---- | :----- | -----: |\n" ++
    String.join (sorted.map fun (mnemonic, usage) => documentLine usages mnemonic usage)

def document : Work Unit := do
  note (Log.info "Documenting")
  let cases ← ask Suite.cases
  let usages ← lift (cases.foldlM (Usages.addCase (← suite)) {})
  writeFile (.ofText "OPCODES.md") (documentText usages)

/-- Builds the suite. The container tool that is found first is used. -/
def carryOut (image : String) (phases : Phases) : Work Unit := do
  match (outside.find "podman").or (outside.find "docker") with
  | none => throw (.badUsage "No docker or podman on PATH")
  | some tool =>
    note (Log.info ("Using docker: " ++ tool))
    let container := [tool, "run", "--rm", "-v", (← suite).home.text ++ ":/workspace", image]
    if phases.compile then compile outside container
    if phases.decompile then decompile outside container
    if phases.document then document
    if phases.test then test outside container

end BytecodeBench.Building
