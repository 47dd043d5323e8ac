import BytecodeBench.Path
import BytecodeBench.Table

/-!
A folder of files. Files are kept by the parts of their paths below the folder; a path that leads to a
file makes folders of what comes before it. Listings are sorted by name.
-/

namespace BytecodeBench

/-- What stands at a path. -/
inductive Entry
  | file (content : String)
  /-- An archive of named texts. -/
  | archive (texts : List (String × String))
  | folder
  deriving DecidableEq, Repr

/-- A folder: where it is, and what is in it. -/
structure Folder where
  root : Path
  entries : Table (List String) Entry := []

namespace Folder

/-- The parts of a path below the folder. A path that is not rooted starts there. -/
def locate (f : Folder) (p : Path) : Option (List String) :=
  match f.root.below? p with
  | some parts => some parts
  | none => if p.rooted then none else some p.parts

/-- Whether parts lead to a folder. -/
def isFolderAt (f : Folder) (parts : List String) : Bool :=
  parts.isEmpty || f.entries.any fun (key, entry) =>
    (key == parts && entry == .folder) || (parts.length < key.length && parts.isPrefixOf key)

def isFolder (f : Folder) (p : Path) : Bool := (f.locate p).any f.isFolderAt

def file? (f : Folder) (p : Path) : Option String := do
  match f.entries.find? (← f.locate p) with
  | some (.file content) => some content
  | _ => none

/-- What stands at a path, unless it is a folder that only holds something. -/
def entry? (f : Folder) (p : Path) : Option Entry := (f.locate p).bind fun parts => f.entries.find? parts

def has (f : Folder) (p : Path) : Bool := f.isFolder p || (f.entry? p).isSome

/-- Whether a file stands where a path needs a folder. -/
def isBlocked (f : Folder) (p : Path) : Bool :=
  match f.locate p with
  | none => false
  | some parts =>
    f.entries.any fun (key, entry) =>
      key.length < parts.length && key.isPrefixOf parts && entry != .folder

/-- A text with one kind of line end. -/
def unifyLineEnds : List Char → List Char
  | '\r' :: '\n' :: rest => '\n' :: unifyLineEnds rest
  | '\r' :: rest => '\n' :: unifyLineEnds rest
  | c :: rest => c :: unifyLineEnds rest
  | [] => []

/-- Why a path cannot be opened. -/
def refusal (f : Folder) (p : Path) : Fault :=
  if f.isFolder p then .isFolder else if f.isBlocked p then .notFolder else .missingFile

/-- The content of a file as it is. -/
def readExact (f : Folder) (p : Path) : Except Fault String :=
  match f.file? p with
  | some content => .ok content
  | none => .error (f.refusal p)

/-- The content of a file with one kind of line end. -/
def read (f : Folder) (p : Path) : Except Fault String := do
  return String.ofList (unifyLineEnds (← f.readExact p).toList)

/-- The lines of a text with their ends. -/
def linesWithEnds (line : List Char) : List Char → List String
  | [] => if line.isEmpty then [] else [String.ofList line.reverse]
  | '\n' :: rest => String.ofList ('\n' :: line).reverse :: linesWithEnds [] rest
  | c :: rest => linesWithEnds (c :: line) rest

/-- The lines of a file with their ends. -/
def readLines (f : Folder) (p : Path) : Except Fault (List String) := do
  return linesWithEnds [] (← f.read p).toList

/-- Replaces a file. Its folder must be there. -/
def write (f : Folder) (p : Path) (content : String) : Except Fault Folder :=
  match f.locate p with
  | none => .error .missingFile
  | some parts =>
    if f.isFolderAt parts then .error .isFolder
    else if !f.isFolderAt parts.dropLast then .error (f.refusal p)
    else .ok { f with entries := f.entries.insert parts (.file content) }

/-- Makes a folder and the folders on the way to it. -/
def makeFolder (f : Folder) (p : Path) : Folder :=
  match f.locate p with
  | none => f
  | some parts =>
    if f.isFolderAt parts then f else { f with entries := f.entries.insert parts .folder }

/-- Makes a folder in a folder that is there. A folder may be there already. -/
def makeOneFolder (f : Folder) (p : Path) : Except Fault Folder :=
  if f.isFolder p then .ok f
  else if f.has p then .error .existingFile
  else if f.isFolder p.parent then .ok (f.makeFolder p)
  else .error (f.refusal p)

/-- Removes a file if it is there. -/
def remove (f : Folder) (p : Path) : Folder :=
  match f.locate p with
  | none => f
  | some parts => { f with entries := f.entries.filter fun (key, _) => key != parts }

def sortedNames (names : List String) : List String :=
  names.eraseDups.mergeSort fun a b => decide (a ≤ b)

def namesAt (f : Folder) (parts : List String) : List String :=
  sortedNames (f.entries.filterMap fun (key, _) =>
    if parts.isPrefixOf key then key[parts.length]? else none)

def folderNames (f : Folder) : List String := (f.namesAt []).filter fun name => f.isFolderAt [name]

/-- All parts below a folder that end in a name with the given ending: those in it, then those in its
folders. -/
def findAt (f : Folder) (ending : String) : Nat → List String → List (List String)
  | 0, _ => []
  | depth + 1, parts =>
    let names := f.namesAt parts
    (names.filter fun name => Text.endsWith name ending).map (fun name => parts ++ [name]) ++
      (names.filter fun name => f.isFolderAt (parts ++ [name])).flatMap fun name =>
        f.findAt ending depth (parts ++ [name])

/-- The greatest number of parts of a path. -/
def depth (f : Folder) : Nat := f.entries.foldl (fun n (key, _) => max n key.length) 0

/-- All paths below a folder that end in a name with the given ending. -/
def find (f : Folder) (p : Path) (ending : String) : List Path :=
  match f.locate p with
  | none => []
  | some parts =>
    (f.findAt ending (f.depth + 1) parts).map fun found => { f.root with parts := f.root.parts ++ found }

end Folder

end BytecodeBench
