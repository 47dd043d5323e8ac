import BytecodeBench.Fault
import BytecodeBench.Text.Basic
import BytecodeBench.Text.Quoted

/-! Paths: parts separated by slashes. Empty parts and single dots mean nothing. -/

namespace BytecodeBench

/-- A path by its parts, from the root of all files or from elsewhere. -/
structure Path where
  rooted : Bool
  parts : List String
  deriving DecidableEq, Repr

namespace Path

def ofText (s : String) : Path where
  rooted := Text.startsWith s "/"
  parts := (Text.split '/' s).filter fun part => part ≠ "" ∧ part ≠ "."

def text (p : Path) : String :=
  let joined := Text.join "/" p.parts
  if p.rooted then "/" ++ joined else if p.parts.isEmpty then "." else joined

/-- A path seen from another one; a rooted path stands alone. -/
def join (base p : Path) : Path := if p.rooted then p else { base with parts := base.parts ++ p.parts }

/-- A path continued by texts. -/
def under (base : Path) (texts : List String) : Path :=
  texts.foldl (fun p s => p.join (ofText s)) base

/-- The last part. -/
def name (p : Path) : String := p.parts.getLastD ""

def parent (p : Path) : Path := { p with parts := p.parts.dropLast }

/-- A name split before its last dot, unless that is its first or its last character. -/
def splitSuffix (name : String) : String × String :=
  match Text.breakOnLast? ['.'] name.toList with
  | some (c :: stem, d :: ending) => (String.ofList (c :: stem), String.ofList ('.' :: d :: ending))
  | _ => (name, "")

/-- The path with another suffix, which includes its dot. -/
def withSuffix (p : Path) (suffix : String) : Except Fault Path :=
  if p.name = "" then .error (.namelessPath (Text.quoted p.text))
  else .ok { p with parts := p.parts.dropLast ++ [(splitSuffix p.name).1 ++ suffix] }

def below? (base p : Path) : Option (List String) :=
  if base.rooted = p.rooted ∧ base.parts.isPrefixOf p.parts then
    some (p.parts.drop base.parts.length)
  else none

end Path

end BytecodeBench
