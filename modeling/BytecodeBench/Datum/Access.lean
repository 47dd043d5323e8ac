import BytecodeBench.Datum.Order

/-! Looking into data whose nature is not known beforehand. -/

namespace BytecodeBench.Datum

/-- Whether a text holds the key as a part, a sequence as an item, a record as a field name. -/
def mentions (key : String) : Datum → Except Fault Bool
  | text s => .ok (Text.occursIn key s)
  | list items | tuple items => .ok (items.any (same (text key)))
  | record fields => .ok (fields.any fun (name, _) => name == key)
  | _ => .error .wrongNature

/-- The field of a record. -/
def fetch (key : String) : Datum → Except Fault Datum
  | record fields =>
    match fields.lookup key with
    | some value => .ok value
    | none => .error (.missingKey (Text.quoted key))
  | _ => .error .wrongNature

def isText (s : String) : Datum → Bool
  | text t => t == s
  | _ => false

/-- The datum as a reader sees it, if it can be written. -/
def shown (d : Datum) : Except Fault String :=
  if d.legible then .ok d.display else .error (.tooManyDigits none)

/-- The items of a sequence; a text is the sequence of its characters, a record that of its names. -/
def items? : Datum → Option (List Datum)
  | list items | tuple items => some items
  | text s => some (s.toList.map fun c => text c.toString)
  | record fields => some (fields.map fun (name, _) => text name)
  | _ => none

/-- How many items a datum has. -/
def size? (d : Datum) : Option Nat := (items? d).map List.length

end BytecodeBench.Datum
