import BytecodeBench.Suite

/-!
Open suites. There is one for each path, which all share who open that path; opening it once more makes
it forget its cases for all of them.
-/

namespace BytecodeBench

/-- The suites that are open on a folder: the cases that each one keeps, by its path. -/
structure OpenSuites where
  folder : Folder
  kept : Table Path (Option (List Case)) := []

namespace OpenSuites

def suite (all : OpenSuites) (p : Path) : Suite :=
  { folder := all.folder, home := p, cached := (all.kept.find? p).join }

/-- The suite of a path is as new. -/
def renew (all : OpenSuites) (p : Path) : OpenSuites := { all with kept := all.kept.insert p none }

/-- Opens the suite of a path, which has to be absolute. -/
def openAt (all : OpenSuites) (p : Path) : Except Fault OpenSuites := do
  Suite.requireRooted p
  return all.renew p

/-- Has the suite of a path do something, and keeps what it keeps. -/
def consult {α : Type} (all : OpenSuites) (p : Path) (work : Suite → α × Suite) : α × OpenSuites :=
  let (result, after) := work (all.suite p)
  (result, { folder := after.folder, kept := all.kept.insert p after.cached })

def cases (all : OpenSuites) (p : Path) : Except Fault (List Case) × OpenSuites :=
  all.consult p Suite.cases

def caseMethods (all : OpenSuites) (p : Path) :
    Except Fault (Table AbsMethodId (List String)) × OpenSuites :=
  all.consult p Suite.caseMethods

def forget (all : OpenSuites) (p : Path) : OpenSuites :=
  (all.consult p fun s => ((), s.forget)).2

/-- Replaces a file; the suites do not hear of it. -/
def write (all : OpenSuites) (p : Path) (content : String) : Except Fault OpenSuites := do
  return { all with folder := ← all.folder.write p content }

end OpenSuites

end BytecodeBench
