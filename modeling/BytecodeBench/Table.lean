/-! Tables: keys with their values, in the order in which the keys first came. -/

namespace BytecodeBench

/-- Keys with their values; no operation below repeats a key. -/
abbrev Table (κ ν : Type) := List (κ × ν)

namespace Table

variable {κ ν : Type} [BEq κ]

/-- The value under a key. -/
def find? (key : κ) (table : Table κ ν) : Option ν := table.lookup key

def has (key : κ) (table : Table κ ν) : Bool := (table.find? key).isSome

/-- Puts a value under a key; a key that is there keeps its place. -/
def insert (key : κ) (value : ν) : Table κ ν → Table κ ν
  | [] => [(key, value)]
  | (k, v) :: rest => if key == k then (k, value) :: rest else (k, v) :: insert key value rest

/-- Changes the value under a key, starting from a default when the key is new. -/
def update (key : κ) (start : ν) (change : ν → ν) (table : Table κ ν) : Table κ ν :=
  table.insert key (change ((table.find? key).getD start))

end Table

end BytecodeBench
