import BytecodeBench.Datum.Basic

/-! Data with the fields of every record in ascending order of their names. -/

namespace BytecodeBench.Datum

mutual

/-- Sorts the fields of all records inside a datum. -/
def sortFields : Datum → Datum
  | list items => list (sortFieldsOfItems items)
  | tuple items => tuple (sortFieldsOfItems items)
  | record fields =>
    record ((sortFieldsOfFields fields).mergeSort fun a b => decide (a.1 ≤ b.1))
  | other => other

def sortFieldsOfItems : List Datum → List Datum
  | [] => []
  | item :: items => sortFields item :: sortFieldsOfItems items

def sortFieldsOfFields : List (String × Datum) → List (String × Datum)
  | [] => []
  | (name, value) :: fields => (name, sortFields value) :: sortFieldsOfFields fields

end

end BytecodeBench.Datum
