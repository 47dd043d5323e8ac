import BytecodeBench.Instruction.Form
import BytecodeBench.Log

/-!
How instructions are spelled: the short text of a listing, the real instruction that the machine's
specification documents, the mnemonic under which it is documented, and its rule where one is given.
-/

namespace BytecodeBench.Instruction

/-- The short text of an instruction in a listing. -/
def display (i : Instruction) : Except Fault String :=
  match i.operation with
  | .push value => .ok ("push:" ++ value.type.encode ++ " " ++ value.content.display)
  | .newArray type dim => .ok ("newarray[" ++ dim.display ++ "D] " ++ type.encode)
  | .dup words => .ok ("dup " ++ words.display)
  | .pop => .ok "pop"
  | .arrayStore type => .ok ("array_store " ++ type.encode)
  | .arrayLoad type => .ok ("array_load:" ++ type.encode)
  | .arrayLength => .ok "arraylength"
  | .cast source target => .ok ("cast " ++ source.encode ++ " " ++ target.encode)
  | .binary type operator => .ok ("binary:" ++ type.encode ++ " " ++ operator.name)
  | .store type index => .ok ("store:" ++ type.encode ++ " " ++ index.display)
  | .load type index => .ok ("load:" ++ type.encode ++ " " ++ index.display)
  | .compareJump condition target => .ok ("if " ++ condition ++ " " ++ target.display)
  | .zeroJump condition target => .ok ("ifz " ++ condition ++ " " ++ target.display)
  | .get static field => .ok ("get " ++ (if static then "static" else "field") ++ " " ++ field.encode)
  | .new className => return "new " ++ (← classDisplay className)
  | .throw => .ok "throw"
  | .increment index amount => .ok ("incr " ++ index.display ++ " by " ++ amount.display)
  | .goto target => .ok ("goto " ++ target.display)
  | .return type => .ok ("return:" ++ encodeResult type)
  | .invokeVirtual method => .ok ("invoke virtual " ++ method.encode)
  | .invokeStatic method => .ok ("invoke static " ++ method.encode)
  | .invokeInterface method stackSize =>
    .ok ("invoke interface " ++ method.encode ++ " (stack_size=" ++ stackSize.display ++ ")")
  | .invokeSpecial method isInterface =>
    .ok ("invoke special" ++ (if isInterface then " interface" else "") ++ " " ++ method.encode)

/-- The short instruction for a small integer constant. -/
def smallConstant? (content : Datum) : Option String :=
  [(-1, "iconst_m1"), (0, "iconst_0"), (1, "iconst_1"), (2, "iconst_2"), (3, "iconst_3"),
    (4, "iconst_4"), (5, "iconst_5")].findSome? fun (n, name) =>
      if content.same (.int n) then some name else none

/-- The real instruction behind a push. -/
def realPush (i : Instruction) (value : Value) : Except Fault String :=
  match value.type with
  | .int =>
    match smallConstant? value.content with
    | some name => .ok name
    | none => .ok ("ldc [" ++ value.content.display ++ "]")
  | .reference =>
    match value.content with
    | .text s => .ok ("ldc [\"" ++ s ++ "\"]")
    | .null => .ok "aconst_null"
    | _ => .error (.badReferenceConstant value.math)
  | _ => .error (.unhandledInstruction i.literal)

/-- An instruction on a local variable: the first four have forms of their own. -/
def realLocal (i : Instruction) (stem : String) (type : JvmType) (index : Operand) :
    Except Fault String :=
  let spelled (letter : String) :=
    letter ++ stem ++ (if index.toInt < 4 then "_" else " ") ++ index.display
  match type with
  | .reference => .ok (spelled "a")
  | .int => .ok (spelled "i")
  | _ => .error (.unhandledName i.literal)

/-- The conditions between two integers or against zero. -/
def integerConditions : List String := ["eq", "ne", "lt", "ge", "gt", "le"]

/-- The real jump for a condition: `numeric` leads the integer conditions. -/
def realJump (numeric same different condition : String) (target : Operand) : Except Fault String :=
  if condition ∈ integerConditions then .ok (numeric ++ condition ++ " " ++ target.display)
  else if condition = "is" then .ok (same ++ " " ++ target.display)
  else if condition = "isnot" then .ok (different ++ " " ++ target.display)
  else .error (.unknownCondition condition)

/-- The instruction as the machine's specification names it. -/
def real (i : Instruction) : Except Fault String :=
  match i.operation with
  | .push value => i.realPush value
  | .newArray type dim =>
    if dim.toInt = 1 then .ok ("newarray " ++ type.encode)
    else .ok ("multianewarray " ++ type.encode ++ " " ++ dim.display)
  | .dup words => if words.toInt = 1 then .ok "dup" else .error (.unhandledName i.literal)
  | .pop => .ok "pop"
  | .arrayStore type =>
    match type with
    | .reference => .ok "aastore"
    | .int => .ok "iastore"
    | _ => .error (.unhandledName i.literal)
  | .arrayLoad type =>
    match type with
    | .reference => .ok "aaload"
    | .int => .ok "iaload"
    | .char => .ok "caload"
    | _ => .error (.unhandledName i.literal)
  | .arrayLength => .ok "arraylength"
  | .cast source target =>
    if source = .int ∧ target = .short then .ok "i2s" else .error (.unhandledName i.literal)
  | .binary type operator =>
    if type = .int then .ok ("i" ++ operator.name) else .error (.unhandledName i.literal)
  | .store type index => i.realLocal "store" type index
  | .load type index => i.realLocal "load" type index
  | .compareJump condition target => realJump "if_icmp" "if_acmpeq" "if_acmpne" condition target
  | .zeroJump condition target => realJump "if" "ifnull" "ifnonnull" condition target
  | .get static field => .ok ((if static then "getstatic " else "getfield ") ++ field.encode)
  | .new className => return "new " ++ (← classSlashed className)
  | .throw => .ok "athrow"
  | .increment index amount => .ok ("iinc " ++ index.display ++ " " ++ amount.display)
  | .goto target => .ok ("goto " ++ target.display)
  | .return none => .ok "return"
  | .return (some type) =>
    match type with
    | .int => .ok "ireturn"
    | .long => .ok "lreturn"
    | .float => .ok "freturn"
    | .double => .ok "dreturn"
    | .reference => .ok "areturn"
    | _ => .error (.unknownReturnType type.encode)
  | .invokeVirtual method => do
    return "invokevirtual " ++ (← classSlashed method.className) ++ "/" ++ method.name.display
  | .invokeStatic method => .ok ("invokestatic " ++ method.encode)
  | .invokeInterface method stackSize =>
    .ok ("invokeinterface " ++ method.encode ++ " " ++ stackSize.display)
  | .invokeSpecial method _ => .ok ("invokespecial " ++ method.encode)

/-- The mnemonic of an instruction on a local variable; other types have none. -/
def localMnemonic (stem : String) (type : JvmType) (index : Operand) : String :=
  let suffix := if index.toInt < 4 then "_n" else ""
  match type with
  | .reference => "a" ++ stem ++ suffix
  | .int => "i" ++ stem ++ suffix
  | _ => ""

def pushMnemonic (i : Instruction) (value : Value) : Except Fault String :=
  match value.type with
  | .int => do
    if ← Datum.relate .lt (.int (-2)) value.content then
      if ← value.content.relate .lt (.int 5) then return "iconst_i"
    return "ldc"
  | .reference => .ok "aconst_null"
  | _ => .error (.unhandledInstruction i.literal)

/-- The mnemonic under which the specification documents the instruction. -/
def mnemonic (i : Instruction) : Except Fault String :=
  match i.operation with
  | .push value => i.pushMnemonic value
  | .newArray _ dim => .ok (if dim.toInt = 1 then "newarray" else "multianewarray")
  | .store type index => .ok (localMnemonic "store" type index)
  | .load type index => .ok (localMnemonic "load" type index)
  | .compareJump .. => .ok "if_icmp_cond"
  | .zeroJump .. => .ok "if_cond"
  | .get static _ => .ok (if static then "getstatic" else "getfield")
  | .new _ => .ok "new"
  | .throw => .ok "athrow"
  | .increment .. => .ok "iinc"
  | .goto _ => .ok "goto"
  | .invokeVirtual _ => .ok "invokevirtual"
  | .invokeStatic _ => .ok "invokestatic"
  | .invokeInterface .. => .ok "invokeinterface"
  | .invokeSpecial .. => .ok "invokespecial"
  | _ => i.real

/-- The rule of the instruction, for the few that state one. -/
def rule? (i : Instruction) : Option String :=
  match i.operation with
  | .newArray _ dim => some (if dim.toInt = 1 then "newarray" else "multianewarray")
  | .dup _ => some "
        bc[i].opr = 'dup'
        bc[i].words = 1
        -------------------------[dup1]
        (i, s + [v]) -> (i+1, s + [v, v])
        "
  | .throw => some "
        bc[i].opr = 'throw'
        -------------------------[throw]
        bc |- (i, s + [objectref]) -> (handler_pc, [objectref]) if exception is caught
        bc |- (i, s + [objectref]) -> (⊥, [objectref]) if exception is uncaught
        where objectref must be an instance of Throwable or subclass
        "
  | .increment .. => some "
        bc[i].opr = 'incr'
        bc[i].index = idx
        bc[i].amount = const
        -------------------------[iinc]
        bc |- (i, s) -> (i+1, s)
        where locals[idx] = locals[idx] + const
        "
  | .goto _ => some "
        bc[i].opr = 'goto'
        bc[i].target = t
        -------------------------[goto]
        bc |- (i, s) -> (t, s)
        where t must be a valid instruction offset
        "
  | _ => none

/-- Where the instruction is documented. -/
def url (i : Instruction) : Except Fault String := do
  return "https://docs.oracle.com/javase/specs/jvms/se23/html/jvms-6.html#jvms-6.5." ++ (← i.mnemonic)

/-- What is noted when help with an instruction is asked for. -/
def help (i : Instruction) : Except Fault Log := do
  return Log.warning ("Instructions can be found at: " ++ (← i.url)) ::
    (i.rule?.map fun rule => Log.debug ("Semantics:\n " ++ rule)).toList

end BytecodeBench.Instruction
