import BytecodeBench.Decimal.Reading
import BytecodeBench.Jvm.Token
import BytecodeBench.Jvm.Value

/-!
Reading lists of values from their tokens: values separated by commas, where an array holds integers
or characters separated by commas. A failure names what was expected, the token found instead, and
the whole text, or says that an integer has too many digits.
-/

namespace BytecodeBench.ValueList

/-- The next token as failures show it. -/
def headLiteral : List Token → String
  | [] => "None"
  | token :: _ => token.literal

/-- The failure at the next token. -/
def unexpected (input expected : String) (ts : List Token) : Fault :=
  .unexpectedToken expected (headLiteral ts) input

/-- Takes the next token, which must be of the given kind. -/
def expect (input : String) (kind : TokenKind) (ts : List Token) :
    Except Fault (Token × List Token) :=
  match ts with
  | token :: rest =>
    if token.kind = kind then .ok (token, rest)
    else .error (unexpected input (Text.quoted kind.name) ts)
  | [] => .error (unexpected input (Text.quoted kind.name) ts)

/-- The content of a character's or a numeral's token; a numeral may have too many digits. -/
def itemContent (token : Token) : Except Fault Datum :=
  match token.kind with
  | .char => .ok (.text (String.ofList (token.chars.drop 1 |>.take 1)))
  | _ =>
    match Decimal.readInt? token.text with
    | some n => .ok (.int n)
    | none => .error (.tooManyDigits (some token.digitCount))

/-- The items after the first one of an array. -/
def moreItems (input : String) (kind : TokenKind) :
    List Token → Except Fault (List Datum × List Token)
  | [] => .ok ([], [])
  | comma :: ts =>
    if comma.kind = .comma then
      match ts with
      | [] => .error (unexpected input (Text.quoted kind.name) [])
      | token :: rest =>
        if token.kind = kind then do
          let item ← itemContent token
          let (items, rest) ← moreItems input kind rest
          return (item :: items, rest)
        else .error (unexpected input (Text.quoted kind.name) (token :: rest))
    else .ok ([], comma :: ts)

/-- The items of an array up to its closing bracket, or none where the tokens end. -/
def arrayItems (input : String) (kind : TokenKind) (ts : List Token) :
    Except Fault (List Datum × List Token) :=
  match ts with
  | [] => .ok ([], [])
  | token :: _ =>
    if token.kind = .closeArray then .ok ([], ts)
    else do
      let (token, rest) ← expect input kind ts
      let item ← itemContent token
      let (items, rest) ← moreItems input kind rest
      return (item :: items, rest)

/-- An array after its opening token. -/
def arrayValue (input : String) (opening : Token) (ts : List Token) :
    Except Fault (Value × List Token) := do
  let (contains, kind) :=
    if opening.chars = ['[', 'I', ':'] then (JvmType.int, TokenKind.int)
    else (JvmType.char, TokenKind.char)
  let (items, rest) ← arrayItems input kind ts
  let (_, rest) ← expect input .closeArray rest
  return (.array contains items, rest)

def value (input : String) (ts : List Token) : Except Fault (Value × List Token) :=
  match ts with
  | [] => .error (unexpected input "token" [])
  | token :: rest =>
    match token.kind with
    | .int => return (⟨.int, ← itemContent token⟩, rest)
    | .char => return (⟨.char, ← itemContent token⟩, rest)
    | .bool => .ok (.boolean (token.chars == ['t', 'r', 'u', 'e']), rest)
    | .string => .ok (.string (String.ofList (token.chars.drop 1).dropLast), rest)
    | .openArray => arrayValue input token rest
    | .closeArray | .comma => .error (unexpected input "char" ts)

theorem expect_shorter {input : String} {kind : TokenKind} {ts rest : List Token} {token : Token}
    (done : expect input kind ts = .ok (token, rest)) : rest.length < ts.length := by
  unfold expect at done
  split at done
  · split at done
    · simp only [Except.ok.injEq, Prod.mk.injEq] at done
      obtain ⟨-, rfl⟩ := done
      simp
    · simp at done
  · simp at done

theorem moreItems_le {input : String} {kind : TokenKind} {items : List Datum} {rest : List Token} :
    ∀ {ts : List Token}, moreItems input kind ts = .ok (items, rest) → rest.length ≤ ts.length
  | [], done => by
    simp only [moreItems, Except.ok.injEq, Prod.mk.injEq] at done
    obtain ⟨-, rfl⟩ := done
    simp
  | [comma], done => by
    unfold moreItems at done
    split at done
    · simp at done
    · simp only [Except.ok.injEq, Prod.mk.injEq] at done
      obtain ⟨-, rfl⟩ := done
      simp
  | comma :: token :: tail, done => by
    unfold moreItems at done
    split at done
    · simp only at done
      split at done
      · cases first : itemContent token with
        | error e => simp [first, bind, Except.bind] at done
        | ok item =>
          cases sub : moreItems input kind tail with
          | error e => simp [first, sub, bind, Except.bind] at done
          | ok found =>
            obtain ⟨inner, after⟩ := found
            simp only [first, sub, bind, Except.bind, pure, Except.pure, Except.ok.injEq,
              Prod.mk.injEq] at done
            have := moreItems_le sub
            obtain ⟨-, rfl⟩ := done
            simp only [List.length_cons]
            omega
      · simp at done
    · simp only [Except.ok.injEq, Prod.mk.injEq] at done
      obtain ⟨-, rfl⟩ := done
      simp

theorem arrayItems_le {input : String} {kind : TokenKind} {items : List Datum}
    {ts rest : List Token} (done : arrayItems input kind ts = .ok (items, rest)) :
    rest.length ≤ ts.length := by
  unfold arrayItems at done
  split at done
  · simp only [Except.ok.injEq, Prod.mk.injEq] at done
    obtain ⟨-, rfl⟩ := done
    simp
  · split at done
    · simp only [Except.ok.injEq, Prod.mk.injEq] at done
      obtain ⟨-, rfl⟩ := done
      simp
    · rename_i first tail _
      cases one : expect input kind (first :: tail) with
      | error e => simp [one, bind, Except.bind] at done
      | ok found =>
        obtain ⟨token, after⟩ := found
        cases content : itemContent token with
        | error e => simp [one, content, bind, Except.bind] at done
        | ok item =>
          cases more : moreItems input kind after with
          | error e => simp [one, content, more, bind, Except.bind] at done
          | ok found =>
            obtain ⟨others, final⟩ := found
            simp only [one, content, more, bind, Except.bind, pure, Except.pure, Except.ok.injEq,
              Prod.mk.injEq] at done
            obtain ⟨-, rfl⟩ := done
            have := expect_shorter one
            have := moreItems_le more
            omega

theorem arrayValue_shorter {input : String} {opening : Token} {ts rest : List Token} {v : Value}
    (done : arrayValue input opening ts = .ok (v, rest)) : rest.length < ts.length := by
  unfold arrayValue at done
  simp only [bind, Except.bind] at done
  split at done
  · simp at done
  · rename_i found itemsDone
    split at done
    · simp at done
    · rename_i closing closeDone
      simp only [pure, Except.pure, Except.ok.injEq, Prod.mk.injEq] at done
      obtain ⟨-, rfl⟩ := done
      have := arrayItems_le itemsDone
      have := expect_shorter closeDone
      omega

theorem value_shorter {input : String} {ts rest : List Token} {v : Value}
    (done : value input ts = .ok (v, rest)) : rest.length < ts.length := by
  unfold value at done
  split at done
  · simp at done
  · rename_i token tail
    cases kind : token.kind <;> simp only [kind] at done
    case openArray =>
      have := arrayValue_shorter done
      simp only [List.length_cons]
      omega
    case closeArray => simp at done
    case comma => simp at done
    case bool | string =>
      simp only [Except.ok.injEq, Prod.mk.injEq] at done
      obtain ⟨-, rfl⟩ := done
      simp
    case int | char =>
      cases content : itemContent token with
      | error e => simp [content, bind, Except.bind] at done
      | ok item =>
        simp only [content, bind, Except.bind, pure, Except.pure, Except.ok.injEq,
          Prod.mk.injEq] at done
        obtain ⟨-, rfl⟩ := done
        simp

/-- The values after the first one. -/
def moreValues (input : String) (ts : List Token) : Except Fault (List Value × List Token) :=
  match ts with
  | [] => .ok ([], [])
  | comma :: rest =>
    if comma.kind = .comma then
      match _step : value input rest with
      | .error e => .error e
      | .ok (v, rest) => do
        let (vs, rest) ← moreValues input rest
        return (v :: vs, rest)
    else .ok ([], comma :: rest)
termination_by ts.length
decreasing_by
  have := value_shorter _step
  simp only [List.length_cons]
  omega

/-- Values separated by commas, and the tokens after them. -/
def values (input : String) (ts : List Token) : Except Fault (List Value × List Token) :=
  match ts with
  | [] => .ok ([], [])
  | _ => do
    let (v, rest) ← value input ts
    let (vs, rest) ← moreValues input rest
    return (v :: vs, rest)

/-- The values at the start of a text; whatever follows them is left alone. -/
def parse (s : String) : Except Fault (List Value) := do
  return (← values s (Token.tokenize s)).1

/-- The values of a text, all of whose tokens belong to them. -/
def decode (s : String) : Except Fault (List Value) := do
  let (vs, rest) ← values s (Token.tokenize s)
  if rest.isEmpty then return vs else throw (unexpected s "end of file" rest)

end BytecodeBench.ValueList
