import BytecodeBench.Case
import BytecodeBench.Check
import BytecodeBench.Folder
import BytecodeBench.Instruction.Data
import BytecodeBench.Instruction.Spelling
import BytecodeBench.Json.Reader
import BytecodeBench.Metadata

/-!
Suites: a folder with sources, class files, decompiled classes and cases. The cases are read once and
kept until the suite is opened again or told to forget them.
-/

namespace BytecodeBench

/-- A suite: where it stands in a folder, and the cases it has read. -/
structure Suite where
  folder : Folder
  home : Path := folder.root
  cached : Option (List Case) := none

namespace Suite

/-- Opens the suite of a folder, with no cases read. -/
def ofFolder (folder : Folder) : Suite := { folder }

/-- A suite can only be opened by an absolute path. -/
def requireRooted (p : Path) : Except Fault Unit :=
  if p.rooted then .ok () else .error (.notAbsolute p.text)

def forget (s : Suite) : Suite := { s with cached := none }

/-! Places -/

def sources (s : Suite) : Path := s.home.under ["src", "main", "java"]

def classes (s : Suite) : Path := s.home.under ["target", "classes"]

def decompiled (s : Suite) : Path := s.home.under ["target", "decompiled"]

def stats (s : Suite) : Path := s.home.under ["target", "stats"]

def caseFile (s : Suite) : Path := s.stats.under ["cases.txt"]

/-- The file of a class below a folder. -/
def fileOf (base : Path) (packages : List String) (name suffix : String) : Except Fault Path :=
  let package := Path.under (.ofText "") packages
  ((base.join package).under [name]).withSuffix suffix

def classFile (s : Suite) (c : ClassName) : Except Fault Path :=
  fileOf s.classes c.packages c.name ".class"

/-- The source of a class, which inner classes share with the outer one. -/
def sourceFile (s : Suite) (c : ClassName) : Except Fault Path :=
  fileOf s.sources c.packages ((Text.split '$' c.name).headD "") ".java"

def decompiledFile (s : Suite) (c : ClassName) : Except Fault Path :=
  fileOf s.decompiled c.packages c.name ".json"

def sourceFiles (s : Suite) : List Path := s.folder.find s.sources ".java"

def classFiles (s : Suite) : List Path := s.folder.find s.classes ".class"

def decompiledFiles (s : Suite) : List Path := s.folder.find s.decompiled ".json"

def classOfFile (s : Suite) (p : Path) : ClassName :=
  let parts := (s.classes.below? p).getD p.parts
  .ofParts (parts.dropLast ++ (parts.getLast?.map fun name => (Path.splitSuffix name).1).toList)

def classNames (s : Suite) : List ClassName := s.classFiles.map s.classOfFile

/-! Classes and methods -/

/-- The decompiled form of a class. -/
def findClass (s : Suite) (c : ClassName) : Except Fault Datum := do
  let content ← s.folder.read (← s.decompiledFile c)
  Json.read content

/-- The first method of the name, which must have the parameters. -/
def selectMethod (id : MethodId) : List Datum → Except Fault Datum
  | [] => .error .badIndex
  | method :: rest => do
    if !(← method.fetch "name").same (.text id.name) then return ← selectMethod id rest
    let data ← method.fetch "params"
    let params ← Parameters.ofData true data
    if params = id.params then return method
    throw (.otherParameters (← method.fetch "name").literal params.literal data.display
      id.params.literal)

/-- The decompiled form of a method. -/
def findMethod (s : Suite) (id : AbsMethodId) : Except Fault Datum := do
  let methods ← (← s.findClass id.className).fetch "methods"
  match methods.items? with
  | some items => selectMethod id.method items
  | none => throw .wrongNature

/-- The undecoded instructions of a method. -/
def bytecode (s : Suite) (id : AbsMethodId) : Except Fault (List Datum) := do
  let code ← (← (← s.findMethod id).fetch "code").fetch "bytecode"
  match code.items? with
  | some items => return items
  | none => throw .wrongNature

def instructions (s : Suite) (id : AbsMethodId) : Except Fault (List Instruction) := do
  (← s.bytecode id).mapM Instruction.ofData

/-- The version that the suite gives itself. -/
def version (s : Suite) : Except Fault Datum := do
  (← Metadata.read (← s.folder.read (s.home.under ["CITATION.cff"]))).fetch "version"

/-! Cases -/

/-- The cases as the file has them now. -/
def readCases (folder : Folder) (file : Path) : Except Fault (List Case) := do
  (← folder.readLines file).mapM Case.decode

/-- The cases, read only if they are not kept already. -/
def cases (s : Suite) : Except Fault (List Case) × Suite :=
  match s.cached with
  | some cases => (.ok cases, s)
  | none =>
    match readCases s.folder s.caseFile with
    | .ok cases => (.ok cases, { s with cached := some cases })
    | .error e => (.error e, s)

/-- The methods of the cases with their distinct results. -/
def caseMethods (s : Suite) : Except Fault (Table AbsMethodId (List String)) × Suite :=
  let (cases, s) := s.cases
  (Case.results <$> cases, s)

def caseInstructions (s : Suite) : Except Fault (List Instruction) × Suite :=
  let (methods, s) := s.caseMethods
  (do return (← (← methods).mapM fun (id, _) => s.instructions id).flatten, s)

/-! Health -/

/-- The program that runs containers. -/
inductive ContainerTool
  | missing
  | working
  | failing
  deriving DecidableEq, Repr

abbrev Checkup := Noting Suite

def suite : Checkup Suite := do return (← get).state

def lifted {α : Type} (x : Except Fault α) : Checkup α := ExceptT.mk (pure x)

/-- The cases, kept once they are read. -/
def keptCases : Checkup (List Case) := do
  let (cases, after) := (← suite).cases
  modify fun n => { n with state := after }
  lifted cases

/-- Demands that a folder is there and holds files. -/
def checkFolder (p : Path) (files : List Path) (kind : String) : Checkup Unit := do
  let s ← suite
  demand (s.folder.has p) "should exists"
  demand (s.folder.isFolder p) "should be a folder"
  demand (!files.isEmpty) ("should contain " ++ kind)
  Noting.note (Log.info ("Found " ++ toString files.length ++ " files"))

/-- Demands that a class is decompiled. -/
def checkClass (c : ClassName) : Checkup Unit := do
  let d ← lifted ((← suite).findClass c)
  Noting.note (Log.info ("Checking if " ++ c.text ++ " is decompiled."))
  demand ((← lifted (d.fetch "name")).same (.text c.slashed)) ("could not decompile " ++ c.text)

/-- Spells every instruction of a method, up to the first that cannot be spelt. -/
def spellAll (s : Suite) (id : AbsMethodId) : Except Fault Unit := do
  (← s.bytecode id).forM fun d => do
    let i ← Instruction.ofData d
    let _ ← i.display
    let _ ← i.real

/-- Demands that all instructions of a method are dealt with. -/
def checkMethod (id : AbsMethodId) : Checkup Unit := do
  match (← suite).spellAll id with
  | .ok () => return
  | .error e =>
    if e.kind = .unsupported then throw (.ofArguments [.text "All operations should be supported"])
    else throw e

/-- Checks the suite from the tools to the cases. The timing task has to have found the thousandth
prime. -/
def checkHealth (tool : ContainerTool) (prime : Option Nat) (failFast : Bool) : Checkup Unit := do
  let s ← suite
  check "The path" failFast do
    check "docker" failFast do
      demand (tool ≠ .missing) "java not on path"
      demand (tool ≠ .failing) "dockerbin --version failed"
  check "The timer" failFast do
    demand (prime == some 7919) "should find correct prime."
  check ("The source folder [" ++ s.sources.text ++ "]") failFast do
    checkFolder s.sources s.sourceFiles "source files"
  check ("The classfiles folder [" ++ s.classes.text ++ "]") failFast do
    checkFolder s.classes s.classFiles "class files"
  check ("The decompiled folder [" ++ s.decompiled.text ++ "]") failFast do
    checkFolder s.decompiled s.decompiledFiles "decompiled class files"
    s.classNames.forM checkClass
  check ("The case file [" ++ s.caseFile.text ++ "]") failFast do
    demand (s.folder.has s.caseFile) "should exist"
    let cases ← keptCases
    demand (!cases.isEmpty) "cases should be parsable and at least one"
    Noting.note (Log.info ("Found " ++ toString cases.length ++ " cases"))
  (Case.results (← keptCases)).forM fun (id, _) =>
    check ("The method: [" ++ id.encode ++ "]") failFast (checkMethod id)

end Suite

end BytecodeBench
