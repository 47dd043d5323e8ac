/-!
Faults: everything that can go wrong, by cause. A cause has a kind, by which callers tell faults
apart, and for the kinds that are worded a message.
-/

namespace BytecodeBench

/-- How a fault is told apart from others. -/
inductive FaultKind
  /-- A text or a number does not have the expected form. -/
  | malformed
  /-- The input is well formed and not dealt with. -/
  | unsupported
  /-- A condition that should hold does not. -/
  | violated
  /-- A key is not there. -/
  | missing
  /-- An operation met data of the wrong nature. -/
  | mismatched
  /-- Something was asked for a part that it does not have. -/
  | partless
  /-- A position lies outside a sequence. -/
  | outOfRange
  /-- A file is not there. -/
  | fileMissing
  /-- A folder stands where a file is needed. -/
  | folderInTheWay
  /-- A file stands where a folder is needed. -/
  | fileInTheWay
  /-- A text is not JSON. -/
  | notJson
  /-- A program ends on its own account. -/
  | exited
  /-- A started program ended with a code other than zero. -/
  | runFailed
  /-- A started program did not end in time. -/
  | runOverdue
  /-- A division by zero. -/
  | indivisible
  /-- Something is used that was never set. -/
  | unset
  /-- A text is not a pattern. -/
  | notPattern
  /-- A command line that the program does not take. -/
  | misused
  /-- A file stands where something new is to be. -/
  | occupied
  /-- A file is not an archive. -/
  | notArchive
  /-- Bytes are not text. -/
  | undecodable
  /-- A number is too large for what is done with it. -/
  | overflowing
  /-- The system refuses. -/
  | impossible
  deriving DecidableEq, Repr

/-- What a step of a machine expects of its operands. -/
inductive Expectation
  | intLocal
  | intIndex
  | intIndices
  | intReceiver
  | int
  | ints
  | intLike
  | truthLike
  | arrayRef
  | stringRef
  | thisRef
  | charArray
  | charArrayRef
  | stringReceiver
  | stringArgument
  | signArguments
  deriving DecidableEq, Repr

/-- The wording of an expectation, up to what was found. -/
def Expectation.wording : Expectation → String
  | intLocal => "expected int local var, got "
  | intIndex => "expected int index, got "
  | intIndices => "expected int indices, got "
  | intReceiver => "expected int receiver, got "
  | int => "expected int, but got "
  | ints => "expected ints, got "
  | intLike => "expected int/char/bool, got "
  | truthLike => "ifz expects int/bool-like, got "
  | arrayRef => "expected array ref id, got "
  | stringRef => "expected string ref id or literal, got "
  | thisRef => "expected string ref id for this, got "
  | charArray => "expected char array ref, got "
  | charArrayRef => "expected char array ref id, got "
  | stringReceiver => "expected String receiver, got "
  | stringArgument => "expected String argument, got "
  | signArguments => "expected StringSign argument, got "

/-- What went wrong. Texts that a message quotes are carried in their written form. -/
inductive Fault
  -- descriptors and identifiers
  | unknownType (symbol : String)
  | undecodableType (text : String)
  | unterminatedClassName
  | invalidMethodName (quotedText : String)
  | invalidAbsoluteName (quotedText : String)
  | badReturnType (quotedText : String)
  | invalidFieldFormat (text : String)
  | extraFieldText (text : String)
  | bareAbsolute
  -- values
  | unexpectedToken (expected found input : String)
  /-- An integer has more digits than can be read or written, in reading with their count. -/
  | tooManyDigits (count : Option Nat)
  | notOneChar (literal : String)
  | notIterable
  | unencodableArray
  | unencodable (type : String)
  -- class files
  | unknownTypeData (literal : String)
  | unknownClassData (name literal : String)
  | unknownKindData (kind literal : String)
  | unannotated (display : String)
  | unknownConstant (literal : String)
  -- instructions
  | unknownInstruction (literal : String)
  | unknownAccess (literal : String)
  | unreadableInstruction (literal : String)
  | unknownOperator
  | illTypedField (field expected found form : String)
  | notStackType
  | unhandledInstruction (literal : String)
  | unhandledName (literal : String)
  | badReferenceConstant (value : String)
  | unknownCondition (condition : String)
  | unknownReturnType (type : String)
  -- cases
  | unparenthesised (text : String)
  | unexpectedLine (quotedText : String)
  -- machines
  | unexpectedOperand (expected : Expectation) (found : String)
  | unknownZeroCondition (condition : String)
  | unhandledStep (what : String)
  -- analyses
  | unreadableNumber (quotedText : String)
  | wrongLineCount (count : Nat)
  /-- A check that failed, by what it shows and by what it was given. -/
  | failedCheck (shown arguments : String)
  | refused (shown : String)
  /-- The end of a program, by its exit code. -/
  | exit (code : Int)
  -- runs of other programs
  | failedRun (shownCommand : String) (code : Int) (out err : String)
  | overdueRun
  | dividedByZero
  | noLogarithm
  | neverSet
  | badPattern
  | badUsage (explanation : String)
  | unwritableReport (quotedText reason : String)
  -- reports
  | emptyExtremum (name : String)
  | unreadableReport (shown : String)
  | tooFewParts
  | yearOutOfRange (year : Int)
  | noTime
  | yearTooLarge
  | existingFile
  | badArchive
  | badBytes
  -- files
  | namelessPath (quotedText : String)
  | missingFile
  | isFolder
  | notFolder
  | badJson
  -- suites
  | notAbsolute (path : String)
  | otherParameters (name found shown expected : String)
  -- fuzzing
  | ungeneratableItem (type : String)
  | ungeneratableParameter (type : String)
  | unmutatableItem (type : String)
  | unmutatable (type : String)
  | emptyRange
  -- data
  | missingKey (literal : String)
  | noOrder
  | wrongNature
  | noSuchPart
  | badIndex
  | tooLarge
  deriving DecidableEq, Repr

namespace Fault

open FaultKind in
def kind : Fault → FaultKind
  | unknownType _ | undecodableType _ | unterminatedClassName | invalidMethodName _
  | invalidAbsoluteName _ | badReturnType _ | invalidFieldFormat _ | extraFieldText _
  | unexpectedToken .. | tooManyDigits _ | unknownCondition _ | unknownReturnType _ | unparenthesised _
  | unexpectedLine _ | emptyRange | unreadableNumber _ | wrongLineCount _ | refused _
  | namelessPath _ | noLogarithm | emptyExtremum _ | unreadableReport _
  | tooFewParts | yearOutOfRange _ | noTime => malformed
  | unencodableArray | unencodable _ | unknownTypeData _ | unknownClassData .. | unknownKindData ..
  | unknownConstant _ | unknownInstruction _ | unknownAccess _ | unreadableInstruction _
  | unknownOperator | unhandledInstruction _ | unhandledName _ | unknownZeroCondition _
  | unhandledStep _ | ungeneratableItem _ | ungeneratableParameter _ | unmutatableItem _
  | unmutatable _ => unsupported
  | bareAbsolute | notOneChar _ | notIterable | unannotated _ | illTypedField .. | notStackType
  | badReferenceConstant _ | unexpectedOperand .. | failedCheck ..
  | notAbsolute _ | otherParameters .. => violated
  | missingKey _ => missing
  | noOrder | wrongNature => mismatched
  | noSuchPart => partless
  | badIndex => outOfRange
  | missingFile => fileMissing
  | isFolder => folderInTheWay
  | notFolder => fileInTheWay
  | badJson => notJson
  | exit _ | unwritableReport .. => exited
  | failedRun .. => runFailed
  | overdueRun => runOverdue
  | dividedByZero => indivisible
  | neverSet => unset
  | badPattern => notPattern
  | badUsage _ => misused
  | existingFile => occupied
  | badArchive => notArchive
  | badBytes => undecodable
  | tooLarge => overflowing
  | yearTooLarge => impossible

/-- The signals that end a program, from the first on. -/
def signalNames : List String := [
  "SIGHUP", "SIGINT", "SIGQUIT", "SIGILL", "SIGTRAP", "SIGABRT", "SIGBUS", "SIGFPE", "SIGKILL",
  "SIGUSR1", "SIGSEGV", "SIGUSR2", "SIGPIPE", "SIGALRM", "SIGTERM", "SIGSTKFLT", "SIGCHLD",
  "SIGCONT", "SIGSTOP", "SIGTSTP", "SIGTTIN", "SIGTTOU", "SIGURG", "SIGXCPU", "SIGXFSZ",
  "SIGVTALRM", "SIGPROF", "SIGWINCH", "SIGIO", "SIGPWR", "SIGSYS"]

/-- How a program ended, by its exit code; a negative code is a signal. -/
def endText (code : Int) : String :=
  if code < 0 then
    match signalNames[code.natAbs - 1]? with
    | some name => "died with <Signals." ++ name ++ ": " ++ toString code.natAbs ++ ">."
    | none => "died with unknown signal " ++ toString code.natAbs ++ "."
  else "returned non-zero exit status " ++ toString code ++ "."

/-- The wording of a fault; empty for the kinds that have none. -/
def message : Fault → String
  | unknownType symbol => "Unknown type " ++ symbol
  | undecodableType text => "Could not decode " ++ text
  | unterminatedClassName => "substring not found"
  | invalidMethodName quotedText => "('invalid method name: %r', " ++ quotedText ++ ")"
  | invalidAbsoluteName quotedText => "('invalid absolute method name: %r', " ++ quotedText ++ ")"
  | badReturnType quotedText => "could not decode method id, bad return type " ++ quotedText
  | invalidFieldFormat text => "invalid field id format: " ++ text
  | extraFieldText text => "extra characters in field type: " ++ text
  | bareAbsolute => "Do not use absolute directly, use AbsMethodId or AbsFieldID"
  | unexpectedToken expected found input =>
    "Expected " ++ expected ++ " but got " ++ found ++ " in " ++ input
  | tooManyDigits count =>
    "Exceeds the limit (4300 digits) for integer string conversion" ++
      (count.map fun n => ": value has " ++ toString n ++ " digits").getD "" ++
      "; use sys.set_int_max_str_digits() to increase the limit"
  | notOneChar literal => "string should be exactly one char, was " ++ literal
  | notIterable => ""
  | unencodableArray => ""
  | unencodable type => "Cannot encode " ++ type
  | unknownTypeData literal => "Type.from_json: " ++ literal
  | unknownClassData name literal =>
    "Unknown class " ++ name ++ ", in Type.from_json: " ++ literal
  | unknownKindData kind literal => "Unknown kind " ++ kind ++ ", in Type.from_json: " ++ literal
  | unannotated display => "parameters should be annotated was: " ++ display
  | unknownConstant literal => "Cannot handle " ++ literal
  | unknownInstruction literal => "Unhandled opcode " ++ literal ++ " (implement yourself)"
  | unknownAccess literal => "Unhandled invoke access " ++ literal ++ " (implement yourself)"
  | unreadableInstruction literal => "Unhandled opcode " ++ literal
  | unknownOperator => ""
  | illTypedField field expected found form =>
    "Expected " ++ field ++ " to be type " ++ expected ++ ", but was " ++ found ++ ", in " ++ form
  | notStackType => "return only handles stack types \x7bself.type()\x7d"
  | unhandledInstruction literal => "Unhandled " ++ literal
  | unhandledName literal => "Unhandled real " ++ literal
  | badReferenceConstant value => "unexpected reference value: " ++ value
  | unknownCondition condition => "Unknown comparison condition: " ++ condition
  | unknownReturnType type => "Unknown return type: " ++ type
  | unparenthesised text => "Expected input to be in parenthesis, but got " ++ text
  | unexpectedLine quotedText => "Unexpected line: " ++ quotedText
  | unexpectedOperand expected found => expected.wording ++ found
  | unknownZeroCondition condition => "Unknown Ifz condition: " ++ condition
  | unhandledStep what => "Don't know how to handle: " ++ what
  | unreadableNumber quotedText => "could not convert string to float: " ++ quotedText
  | wrongLineCount count => "Expected 5 lines, but got " ++ toString count
  | failedCheck shown _ => shown
  | refused shown => shown
  | namelessPath quotedText => "PosixPath(" ++ quotedText ++ ") has an empty name"
  | notAbsolute path => "Assuming that " ++ path ++ " is absolute."
  | otherParameters name found shown expected =>
    "Mulitple methods with same name " ++ name ++ ", but different params " ++ found ++ " from " ++
      shown ++ " and " ++ expected
  | ungeneratableItem type => "Fuzzing for array element type " ++ type ++ " not implemented"
  | ungeneratableParameter type =>
    "Testcase generation for param type " ++ type ++ " not implemented"
  | unmutatableItem type => "Mutation for array element type " ++ type ++ " not implemented"
  | unmutatable type => "Mutation for type " ++ type ++ " not implemented"
  | emptyRange => "empty range for randrange()"
  | missingKey literal => literal
  | failedRun shownCommand code _ _ => "Command '" ++ shownCommand ++ "' " ++ endText code
  | noLogarithm => "math domain error"
  | badUsage explanation => explanation
  | unwritableReport quotedText reason => "Could not open file " ++ quotedText ++ ": " ++ reason
  | emptyExtremum name =>
    "zero-size array to reduction operation " ++ name ++ " which has no identity"
  | unreadableReport shown => "Cannot read " ++ shown
  | tooFewParts => "not enough values to unpack (expected 2, got 1)"
  | yearOutOfRange year => "year " ++ toString year ++ " is out of range"
  | noTime => "Invalid value NaN (not a number)"
  | badIndex => "string index out of range"
  | missingFile | isFolder | notFolder | badJson | exit _ | overdueRun | dividedByZero | neverSet
  | badPattern | existingFile | badArchive | badBytes | noOrder | wrongNature | noSuchPart
  | tooLarge | yearTooLarge => ""

end Fault

end BytecodeBench
