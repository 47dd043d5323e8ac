import BytecodeBench.Fault

/-!
Filters: what the text of a case or of a method must fulfil for it to be taken. Any condition can be a
filter; how a text is read as one is left to the caller.
-/

namespace BytecodeBench

/-- A condition on texts. -/
structure Filter where
  admits : String → Bool

namespace Filter

/-- A filter that was asked for; an empty text asks for none. -/
def readAsked (read : String → Except Fault Filter) (asked : Option String) :
    Except Fault (Option Filter) :=
  match asked with
  | none | some "" => .ok none
  | some s => some <$> read s

/-- Whether a text passes a filter, if there is one. -/
def passes (f : Option Filter) (s : String) : Bool := f.all (·.admits s)

end Filter

end BytecodeBench
