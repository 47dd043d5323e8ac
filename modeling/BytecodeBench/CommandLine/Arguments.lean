import BytecodeBench.Decimal.Reading
import BytecodeBench.Fault
import BytecodeBench.Table
import BytecodeBench.Text.Basic
import BytecodeBench.Text.Numeral

/-!
Arguments of a small tool: a fixed number of operands, and long options that take one value each and
may be cut short as long as they stay clear. Every wrong use ends the tool with exit code 2. A call for
help is answered as soon as it is reached, whatever is missing or too much; but no word may be unclear.
-/

namespace BytecodeBench.CommandLine

structure ToolUsage where
  /-- How many operands it takes. -/
  operands : Nat
  /-- The options whose value is a whole number. -/
  wholeOptions : List String := []
  /-- The options that take any value. -/
  otherOptions : List String := []
  /-- What it says about itself. -/
  help : String

def ToolUsage.options (usage : ToolUsage) : List String := usage.wholeOptions ++ usage.otherOptions

inductive ArgumentWord
  | operand (text : String)
  /-- An option, with a value if one is attached by an equals sign. -/
  | option (name : String) (attached : Option String)
  | help
  /-- A call for help with something attached that does not belong there. -/
  | spoiltHelp
  | unknown
  /-- The beginning of several options. -/
  | unclear
  deriving DecidableEq, Repr

def isNegativeNumber (word : String) : Bool :=
  match word.toList with
  | '-' :: number =>
    let whole := number.takeWhile Text.isDecimalDigit
    match number.dropWhile Text.isDecimalDigit with
    | [] => !whole.isEmpty
    | '.' :: fraction => !fraction.isEmpty && fraction.all Text.isDecimalDigit
    | _ => false
  | _ => false

/-- Whether the letters after `-h` leave it a call for help. -/
def keepsHelp : List Char → Bool
  | '-' :: _ => false
  | '=' :: _ => false
  | 'h' :: rest => keepsHelp rest
  | _ => true

/-- Sorts out a word. A word of an unknown option may still look like an operand. -/
def ArgumentWord.of (options : List String) (word : String) : ArgumentWord :=
  let names := "--help" :: options
  let name := String.ofList (word.toList.takeWhile (· ≠ '='))
  let attached := match word.toList.dropWhile (· ≠ '=') with
    | [] => none
    | _ :: value => some (String.ofList value)
  let found (name : String) :=
    if name = "--help" then (if attached.isNone then help else spoiltHelp) else option name attached
  if !Text.startsWith word "-" || word = "-" then operand word
  else if name ∈ names then found name
  else if Text.startsWith word "-h" then
    if keepsHelp (word.toList.drop 2) then help else spoiltHelp
  else
    match if Text.startsWith word "--" then names.filter (Text.startsWith · name) else [] with
    | [name] => found name
    | _ :: _ => unclear
    | [] => if isNegativeNumber word || ' ' ∈ word.toList then operand word else unknown

/-- The operands and the values of options. -/
structure Arguments where
  operands : List String := []
  values : Table String String := []
  /-- Whether there were words that the tool does not take. -/
  spoilt : Bool := false
  deriving DecidableEq, Repr

def wrongArguments : Fault := .exit 2

namespace Arguments

def put (usage : ToolUsage) (found : Arguments) (name value : String) : Except Fault Arguments :=
  if name ∈ usage.wholeOptions ∧ (Decimal.readInt? value).isNone then .error wrongArguments
  else .ok { found with values := found.values.insert name value }

/--
Gathers operands and values; nothing is found when help is called for. The words after two dashes are
operands. The dashes themselves belong to an operand: to the one before them, else to the one after.
-/
def gather (usage : ToolUsage) (found : Arguments) (afterOperand : Bool) :
    List String → Except Fault (Option Arguments)
  | [] => .ok (some found)
  | word :: rest =>
    if word = "--" then
      .ok (some { found with
        operands := found.operands ++ rest
        spoilt := found.spoilt || (!afterOperand && usage.operands ≤ found.operands.length) })
    else
      match ArgumentWord.of usage.options word with
      | .operand text =>
        gather usage { found with operands := found.operands ++ [text] } true rest
      | .help => .ok none
      | .spoiltHelp | .unclear => .error wrongArguments
      | .unknown => gather usage { found with spoilt := true } false rest
      | .option name (some value) => do
        gather usage (← found.put usage name value) false rest
      | .option name none =>
        match rest with
        | [] => .error wrongArguments
        | value :: rest =>
          match ArgumentWord.of usage.options value with
          | .operand _ => do
            if value = "--" then throw wrongArguments
            gather usage (← found.put usage name value) false rest
          | _ => .error wrongArguments

/-- Reads the words of a command line; nothing is found when help is called for. -/
def read (usage : ToolUsage) (words : List String) : Except Fault (Option Arguments) := do
  if (words.takeWhile (· ≠ "--")).any fun w => ArgumentWord.of usage.options w = .unclear then
    throw wrongArguments
  match ← gather usage {} false words with
  | none => return none
  | some found =>
    if found.operands.length = usage.operands ∧ !found.spoilt then return some found
    else throw wrongArguments

/-- The value of an option, as a whole number. -/
def int (arguments : Arguments) (option : String) (default : Int) : Except Fault Int :=
  match arguments.values.find? option with
  | none => .ok default
  | some value =>
    match Decimal.readInt? value with
    | some n => .ok n
    | none => .error wrongArguments

end Arguments

end BytecodeBench.CommandLine
