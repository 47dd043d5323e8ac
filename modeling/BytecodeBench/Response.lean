import BytecodeBench.Log
import BytecodeBench.Prediction
import BytecodeBench.Query
import BytecodeBench.Table
import BytecodeBench.Text.Blank

/-!
Responses: what an analysis answers, a line `query;prediction` each. Lines of another form and queries
that are not known are passed over; the last prediction of a query counts.
-/

namespace BytecodeBench

/-- The prediction for each query, in the order in which the queries first came. -/
structure Response (N : Type) where
  predictions : Table Query (Prediction N)

namespace Response

variable {N : Type} [Quantity N]

inductive Line
  | answer (query : Query) (prediction : String)
  | unknownQuery (query : String)
  | other

def Line.of (line : String) : Line :=
  match Text.split ';' line with
  | [query, prediction] =>
    match Query.ofName? query with
    | some q => .answer q prediction
    | none => .unknownQuery query
  | _ => .other

def Line.log (line : String) : Log :=
  match Line.of line with
  | .answer .. => [Log.debug ("response: " ++ line)]
  | .unknownQuery query =>
    [Log.debug ("response: " ++ line), Log.warning (Text.quoted query ++ " not a known query")]
  | .other => [Log.warning line]

/-- Adds what a line says. -/
def takeLine (predictions : Table Query (Prediction N)) (line : String) :
    Except Fault (Table Query (Prediction N)) :=
  match Line.of line with
  | .answer q prediction => do return predictions.insert q (← Prediction.parse prediction)
  | _ => .ok predictions

def parse (out : String) : Except Fault (Response N) :=
  Response.mk <$> (Text.lines out).foldlM takeLine []

/-- What is noted while reading a response, up to the line that cannot be read. -/
def readingLog (out : String) : Log :=
  let rec go : List String → Log
    | [] => []
    | line :: rest =>
      match takeLine (N := N) [] line with
      | .ok _ => Line.log line ++ go rest
      | .error _ => Line.log line
  go (Text.lines out)

/-- The score against the queries that are right. -/
def score (r : Response N) (correct : List String) : Amount N :=
  Amount.sum (r.predictions.map fun (q, p) => p.score (correct.contains q.name))

end Response

end BytecodeBench
