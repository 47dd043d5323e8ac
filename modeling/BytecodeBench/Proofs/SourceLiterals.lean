import BytecodeBench.Proofs.AscendingLists
import BytecodeBench.Proofs.TreeWalks

/-! Literals of a method. The walk from the body of the method, or from the root if there is none, finds each node of a
kind once. The lists of literals are in strictly ascending order and hold what the texts of those nodes stand for, and so
they do not depend on the order of the children of any node. -/

namespace BytecodeBench.SourceFile

open Node

variable {file other : SourceFile} {method : AbsMethodId} {kind text : String}

/-! Where the walk starts. -/

def DeclaresClass (file : SourceFile) (method : AbsMethodId) (node : Node) : Prop :=
  node.kind = "class_declaration" ∧ file.isNamed method.className.name node = true

def Declares (file : SourceFile) (method : AbsMethodId) (node : Node) : Prop :=
  node.kind = "method_declaration" ∧ file.isNamed method.method.name node = true

/-- In the first declaration of the class, the first declaration of the method that has a body has this one. Declarations
within others of the method do not count. -/
def IsBody (file : SourceFile) (method : AbsMethodId) (body : Node) : Prop :=
  ∃ classPlace classNode place declaration, FirstAt (file.DeclaresClass method) file.root classPlace classNode ∧
    OutermostAt (file.Declares method) classNode place declaration ∧ declaration.child? "body" = some body ∧
    ∀ earlier other, earlier < place → OutermostAt (file.Declares method) classNode earlier other →
      other.child? "body" = none

/-- The class is not declared, or no declaration of the method in the first declaration of the class has a body. -/
def Bodiless (file : SourceFile) (method : AbsMethodId) : Prop :=
  ∀ classPlace classNode place declaration, FirstAt (file.DeclaresClass method) file.root classPlace classNode →
    OutermostAt (file.Declares method) classNode place declaration → declaration.child? "body" = none

private theorem asks_class (file : SourceFile) (method : AbsMethodId) :
    Asks (fun node => if node.kind == "class_declaration" && file.isNamed method.className.name node then
      some (some node) else none) (file.DeclaresClass method) some := by
  constructor <;> intro node right <;> simpa [DeclaresClass] using right

private theorem asks_method (file : SourceFile) (method : AbsMethodId) :
    Asks (fun node => if node.kind == "method_declaration" && file.isNamed method.method.name node then
      some (node.child? "body") else none) (file.Declares method) (·.child? "body") := by
  constructor <;> intro node right <;> simpa [Declares] using right

private theorem firstAt_of_classNode? {classNode : Node}
    (found : file.classNode? method.className.name = some classNode) :
    ∃ place, FirstAt (file.DeclaresClass method) file.root place classNode := by
  obtain ⟨place, node, outermost, same, first⟩ := (asks_class file method).search_some _ found
  obtain rfl : node = classNode := Option.some_inj.mp same
  refine ⟨place, outermost.firstAt ?_⟩
  intro earlier other before again
  cases first earlier other before again

private theorem not_declaresClass (missed : file.classNode? method.className.name = none) {place : List Nat} {node : Node}
    (there : file.root.descend? place = some node) : ¬file.DeclaresClass method node := by
  intro right
  obtain ⟨above, other, -, outermost⟩ := exists_outermostAt there right
  cases (asks_class file method).search_none missed outermost

private theorem isBody_of_methodBody? {body : Node} (found : file.methodBody? method = some body) :
    file.IsBody method body := by
  obtain ⟨classNode, located, searched⟩ := Option.bind_eq_some_iff.mp found
  obtain ⟨classPlace, first⟩ := firstAt_of_classNode? located
  obtain ⟨place, declaration, outermost, has, before⟩ := (asks_method file method).search_some _ searched
  exact ⟨classPlace, classNode, place, declaration, first, outermost, has, before⟩

private theorem bodiless_of_methodBody? (missed : file.methodBody? method = none) : file.Bodiless method := by
  intro classPlace classNode place declaration first outermost
  cases located : file.classNode? method.className.name with
  | none => exact absurd first.right (not_declaresClass located first.there)
  | some other =>
    obtain ⟨otherPlace, also⟩ := firstAt_of_classNode? located
    obtain rfl := first.unique also
    rw [methodBody?, located] at missed
    exact (asks_method file method).search_none missed outermost

private theorem start_cases (file : SourceFile) (method : AbsMethodId) :
    file.methodBody? method = none ∧ file.Bodiless method ∧ file.start method = file.root ∨
      file.methodBody? method = some (file.start method) ∧ file.IsBody method (file.start method) := by
  unfold start
  cases found : file.methodBody? method with
  | none => exact Or.inl ⟨rfl, bodiless_of_methodBody? found, rfl⟩
  | some body => exact Or.inr ⟨rfl, isBody_of_methodBody? found⟩

theorem start_within (file : SourceFile) (method : AbsMethodId) : file.root.Within (file.start method) := by
  rcases start_cases file method with ⟨-, -, root⟩ | ⟨-, _, classNode, _, declaration, outer, inner, body, -⟩
  · rw [root]
    exact .refl _
  · exact outer.within.trans (inner.within.trans (within_child (mem_children_of_child? body)))

/-! Texts. -/

/-- A text without the marks around it, or as it is if it does not stand between two marks. -/
def Unquotes (mark : Char) (text s : String) : Prop :=
  text.toList = mark :: s.toList ++ [mark] ∨ (¬∃ inner, text.toList = mark :: inner ++ [mark]) ∧ text = s

private theorem between_marks_iff {mark : Char} {cs : List Char} :
    (2 ≤ cs.length ∧ cs.head? = some mark ∧ cs.getLast? = some mark) ↔ ∃ inner, cs = mark :: inner ++ [mark] := by
  constructor
  · rintro ⟨long, first, last⟩
    cases cs with
    | nil => cases first
    | cons c rest =>
      cases first
      rcases List.eq_nil_or_concat rest with rfl | ⟨inner, d, rfl⟩
      · simp at long
      · have same : d = mark := by simpa [List.getLast?_cons] using last
        exact ⟨inner, by simp [same]⟩
  · rintro ⟨inner, rfl⟩
    simp [List.getLast?_cons]

private theorem unquoted_eq_iff {mark : Char} {s : String} : unquoted mark text.toList = s ↔ Unquotes mark text s := by
  unfold unquoted Unquotes
  by_cases between : ∃ inner, text.toList = mark :: inner ++ [mark]
  · rw [if_pos (between_marks_iff.mpr between)]
    obtain ⟨inner, same⟩ := between
    simp [same, String.ext_iff, eq_comm]
  · rw [if_neg (mt between_marks_iff.mp between)]
    have apart : text.toList ≠ mark :: s.toList ++ [mark] := fun same => between ⟨_, same⟩
    rw [String.ofList_toList, or_iff_right apart, and_iff_right between]

def Mentions (file : SourceFile) (method : AbsMethodId) (kind text : String) : Prop :=
  ∃ node, (file.start method).Within node ∧ node.kind = kind ∧ String.ofList (file.textOf node) = text

theorem mem_walk {node : Node} : node ∈ file.walk method kind ↔ (file.start method).Within node ∧ node.kind = kind :=
  mem_filter_visit

private theorem exists_walk (converts : List Char → Prop) :
    (∃ node ∈ file.walk method kind, converts (file.textOf node)) ↔
      ∃ text, file.Mentions method kind text ∧ converts text.toList := by
  constructor
  · rintro ⟨node, member, converted⟩
    obtain ⟨inside, right⟩ := mem_walk.mp member
    refine ⟨_, ⟨node, inside, right, rfl⟩, ?_⟩
    rwa [String.toList_ofList]
  · rintro ⟨_, ⟨node, inside, right, rfl⟩, converted⟩
    rw [String.toList_ofList] at converted
    exact ⟨node, mem_walk.mpr ⟨inside, right⟩, converted⟩

/-- The text of an integer among the arguments of a call, if the call is of a string method that takes positions. -/
def PassesPosition (file : SourceFile) (call : Node) (text : String) : Prop :=
  ∃ name arguments literal, call.child? "name" = some name ∧
    String.ofList (file.textOf name) ∈ ["substring", "charAt", "indexOf"] ∧ call.child? "arguments" = some arguments ∧
    literal ∈ arguments.children ∧ literal.kind = "decimal_integer_literal" ∧ String.ofList (file.textOf literal) = text

private theorem mem_indexArguments {call : Node} : text ∈ file.indexArguments call ↔ file.PassesPosition call text := by
  unfold indexArguments PassesPosition
  constructor
  · intro member
    split at member
    · cases member
    next name named =>
      split at member
      next known =>
        split at member
        · cases member
        next arguments passed =>
          obtain ⟨literal, found, same⟩ := List.mem_map.mp member
          obtain ⟨inside, right⟩ := List.mem_filter.mp found
          exact ⟨name, arguments, literal, named, known, passed, inside, beq_iff_eq.mp right, same⟩
      · cases member
  · rintro ⟨name, arguments, literal, named, known, passed, inside, right, same⟩
    rw [named]
    dsimp only
    rw [if_pos known, passed]
    exact List.mem_map.mpr ⟨literal, List.mem_filter.mpr ⟨inside, beq_iff_eq.mpr right⟩, same⟩

/-! Lists. -/

structure Lists {α : Type} [LinearOrder α] (items : List α) (described : α → Prop) : Prop where
  ascends : items.SortedLT
  member : ∀ a, a ∈ items ↔ described a

/-- Such a list is known by what it is to list. -/
theorem Lists.unique {α : Type} [LinearOrder α] {items others : List α} {described wanted : α → Prop}
    (first : Lists items described) (second : Lists others wanted) (same : ∀ a, described a ↔ wanted a) : items = others :=
  first.ascends.eq_of_mem_iff second.ascends fun a =>
    (first.member a).trans ((same a).trans (second.member a).symm)

theorem lists_texts {texts : List String} {described : String → Prop} (member : ∀ s, s ∈ texts ↔ described s) :
    Lists (ascendingTexts texts) described :=
  ⟨sortedLT_ascending (fun _ _ => decide_eq_true_iff) texts, fun s => mem_ascending.trans (member s)⟩

/-- An integer that a text of a node of one of the two kinds stands for; texts that no integer is read from are left out. -/
def MentionsInt (file : SourceFile) (method : AbsMethodId) (n : Int) : Prop :=
  ∃ text, file.Mentions method "decimal_integer_literal" text ∧ Decimal.readInt? text = some n ∨
    file.Mentions method "hex_integer_literal" text ∧ Decimal.readHex? text = some n

def MentionsQuoted (file : SourceFile) (method : AbsMethodId) (kind : String) (mark : Char) (s : String) : Prop :=
  ∃ text, file.Mentions method kind text ∧ Unquotes mark text s

def MentionsPosition (file : SourceFile) (method : AbsMethodId) (text : String) : Prop :=
  ∃ call, (file.start method).Within call ∧ call.kind = "method_invocation" ∧ file.PassesPosition call text

private theorem mem_read (reader : String → Option Int) {n : Int} :
    n ∈ (file.walk method kind).filterMap (fun node => reader (String.ofList (file.textOf node))) ↔
      ∃ text, file.Mentions method kind text ∧ reader text = some n := by
  rw [List.mem_filterMap, exists_walk fun cs => reader (String.ofList cs) = some n]
  simp only [String.ofList_toList]

private theorem mem_unquoted {mark : Char} {s : String} :
    s ∈ (file.walk method kind).map (fun node => unquoted mark (file.textOf node)) ↔
      file.MentionsQuoted method kind mark s := by
  rw [List.mem_map, exists_walk fun cs => unquoted mark cs = s]
  simp only [unquoted_eq_iff]
  rfl

theorem lists_intLiterals (file : SourceFile) (method : AbsMethodId) :
    Lists (file.intLiterals method) (file.MentionsInt method) := by
  refine ⟨sortedLT_ascending (fun _ _ => decide_eq_true_iff) _, ?_⟩
  intro n
  rw [intLiterals, mem_ascending, List.mem_append, mem_read, mem_read, ← exists_or]
  rfl

theorem lists_charLiterals (file : SourceFile) (method : AbsMethodId) :
    Lists (file.charLiterals method) (file.MentionsQuoted method "character_literal" '\'') :=
  lists_texts fun _ => mem_unquoted

theorem lists_stringLiterals (file : SourceFile) (method : AbsMethodId) :
    Lists (file.stringLiterals method) (file.MentionsQuoted method "string_literal" '"') :=
  lists_texts fun _ => mem_unquoted

theorem lists_indexConstants (file : SourceFile) (method : AbsMethodId) :
    Lists (file.indexConstants method) (file.MentionsPosition method) :=
  lists_texts fun s => by simp only [List.mem_flatMap, mem_walk, mem_indexArguments, and_assoc]; rfl

/-! Order of children. -/

/-- Two sources have one text, and what counts for a method in them is the same up to the order of children. -/
structure Alike (method : AbsMethodId) (file other : SourceFile) : Prop where
  text : other.text = file.text
  start : Rearranged (file.start method) (other.start method)

namespace Alike

variable (alike : Alike method file other)
include alike

theorem symm : Alike method other file := ⟨alike.text.symm, alike.start.symm⟩

theorem textOf {node again : Node} (rearranged : Rearranged node again) : other.textOf again = file.textOf node := by
  unfold SourceFile.textOf
  rw [alike.text, rearranged.bounds.1, rearranged.bounds.2]

theorem mentions (mentioned : file.Mentions method kind text) : other.Mentions method kind text := by
  obtain ⟨node, inside, right, same⟩ := mentioned
  obtain ⟨again, there, rearranged⟩ := alike.start.within inside
  exact ⟨again, there, rearranged.kind.trans right, by rw [alike.textOf rearranged, same]⟩

theorem passesPosition {call again : Node} (rearranged : Rearranged call again) (passes : file.PassesPosition call text) :
    other.PassesPosition again text := by
  obtain ⟨name, arguments, literal, named, known, passed, inside, right, same⟩ := passes
  obtain ⟨otherName, alsoNamed, names⟩ := rearranged.child? named
  obtain ⟨otherArguments, alsoPassed, lists⟩ := rearranged.child? passed
  obtain ⟨otherLiteral, alsoInside, literals⟩ := lists.child inside
  refine ⟨otherName, otherArguments, otherLiteral, alsoNamed, ?_, alsoPassed, alsoInside, literals.kind.trans right, ?_⟩
  · rwa [alike.textOf names]
  · rw [alike.textOf literals, same]

theorem mentionsInt {n : Int} (mentioned : file.MentionsInt method n) : other.MentionsInt method n := by
  obtain ⟨text, ⟨decimal, read⟩ | ⟨hexadecimal, read⟩⟩ := mentioned
  · exact ⟨text, Or.inl ⟨alike.mentions decimal, read⟩⟩
  · exact ⟨text, Or.inr ⟨alike.mentions hexadecimal, read⟩⟩

theorem mentionsQuoted {mark : Char} {s : String} (mentioned : file.MentionsQuoted method kind mark s) :
    other.MentionsQuoted method kind mark s := by
  obtain ⟨text, found, unquotes⟩ := mentioned
  exact ⟨text, alike.mentions found, unquotes⟩

theorem mentionsPosition (mentioned : file.MentionsPosition method text) : other.MentionsPosition method text := by
  obtain ⟨call, inside, right, passes⟩ := mentioned
  obtain ⟨again, there, rearranged⟩ := alike.start.within inside
  exact ⟨again, there, rearranged.kind.trans right, alike.passesPosition rearranged passes⟩

end Alike

/-- The walk starts at the first body that there is for the method, and at the root only if there is none. It finds the
nodes of each kind, each place of the tree once, and the literals are what their texts stand for, in strictly ascending
order, whatever the order of the children. -/
theorem literals_complete_and_canonical (file : SourceFile) (method : AbsMethodId) :
    (file.methodBody? method = none ∧ file.Bodiless method ∧ file.start method = file.root ∨
      file.methodBody? method = some (file.start method) ∧ file.IsBody method (file.start method)) ∧
    (∀ kind, (file.start method).Enumerates kind (file.walk method kind)) ∧
    Lists (file.intLiterals method) (file.MentionsInt method) ∧
    Lists (file.charLiterals method) (file.MentionsQuoted method "character_literal" '\'') ∧
    Lists (file.stringLiterals method) (file.MentionsQuoted method "string_literal" '"') ∧
    Lists (file.indexConstants method) (file.MentionsPosition method) ∧
    ∀ other, Alike method file other →
      other.intLiterals method = file.intLiterals method ∧ other.charLiterals method = file.charLiterals method ∧
      other.stringLiterals method = file.stringLiterals method ∧ other.indexConstants method = file.indexConstants method := by
  refine ⟨start_cases file method, fun kind => enumerates_visit _ kind, lists_intLiterals file method,
    lists_charLiterals file method, lists_stringLiterals file method, lists_indexConstants file method, ?_⟩
  intro other alike
  refine ⟨?_, ?_, ?_, ?_⟩
  · exact (lists_intLiterals other method).unique (lists_intLiterals file method)
      fun n => ⟨alike.symm.mentionsInt, alike.mentionsInt⟩
  · exact (lists_charLiterals other method).unique (lists_charLiterals file method)
      fun s => ⟨alike.symm.mentionsQuoted, alike.mentionsQuoted⟩
  · exact (lists_stringLiterals other method).unique (lists_stringLiterals file method)
      fun s => ⟨alike.symm.mentionsQuoted, alike.mentionsQuoted⟩
  · exact (lists_indexConstants other method).unique (lists_indexConstants file method)
      fun s => ⟨alike.symm.mentionsPosition, alike.mentionsPosition⟩

def sampleArguments (turned : Bool) : Node :=
  let children : List Node := [.mk "(" 6 7 [] [] true, .mk "decimal_integer_literal" 7 8 [] [] true]
  .mk "argument_list" 6 9 (if turned then children.reverse else children) [] true

def sampleName : Node := .mk "identifier" 0 6 [] [] true

def sampleCall : SourceFile :=
  ⟨"charAt(7)".toList, .mk "method_invocation" 0 9 [sampleName, sampleArguments false] [("name", 0), ("arguments", 1)] true⟩

def turnedCall : SourceFile :=
  ⟨"charAt(7)".toList, .mk "method_invocation" 0 9 [sampleArguments true, sampleName] [("name", 1), ("arguments", 0)] true⟩

private theorem sampleArguments_rearranged : Rearranged (sampleArguments false) (sampleArguments true) := by
  refine .of rfl rfl rfl rfl ((sampleArguments false).children.zip (sampleArguments false).children) (.refl _) (.swap _ _ _)
    ?_ fun name => Or.inl ⟨rfl, rfl⟩
  exact List.forall_mem_cons.mpr ⟨.refl _, List.forall_mem_singleton.mpr (.refl _)⟩

private theorem turnedCall_rearranged : Rearranged sampleCall.root turnedCall.root := by
  refine .of rfl rfl rfl rfl [(sampleName, sampleName), (sampleArguments false, sampleArguments true)] (.refl _)
    (.swap _ _ _) ?_ ?_
  · exact List.forall_mem_cons.mpr ⟨.refl _, List.forall_mem_singleton.mpr sampleArguments_rearranged⟩
  · intro name
    by_cases called : name = "name"
    · subst called
      exact Or.inr ⟨_, List.mem_cons_self, rfl, rfl⟩
    · by_cases passed : name = "arguments"
      · subst passed
        exact Or.inr ⟨_, List.mem_cons_of_mem _ List.mem_cons_self, rfl, rfl⟩
      · have missing (first second : Nat) : [("name", first), ("arguments", second)].lookup name = none := by
          rw [List.lookup_cons, List.lookup_cons, beq_false_of_ne called, beq_false_of_ne passed]
          rfl
        refine Or.inl ⟨?_, ?_⟩
        · exact congrArg (Option.bind · _) (missing 0 1)
        · exact congrArg (Option.bind · _) (missing 1 0)

def sampleMethod : AbsMethodId := ⟨⟨"a.B"⟩, ⟨"m", [], none⟩⟩

private theorem sampleCall_start : sampleCall.start sampleMethod = sampleCall.root := by
  have missing : (sampleCall.methodBody? sampleMethod).isNone = true := by decide
  rw [start, Option.isNone_iff_eq_none.mp missing]
  rfl

private theorem turnedCall_start : turnedCall.start sampleMethod = turnedCall.root := by
  have missing : (turnedCall.methodBody? sampleMethod).isNone = true := by decide
  rw [start, Option.isNone_iff_eq_none.mp missing]
  rfl

private theorem sampleCall_mentionsPosition : sampleCall.MentionsPosition sampleMethod "7" := by
  have named : String.ofList (sampleCall.textOf sampleName) ∈ ["substring", "charAt", "indexOf"] := by decide
  have seven : String.ofList (sampleCall.textOf (.mk "decimal_integer_literal" 7 8 [] [] true)) = "7" := by decide
  refine ⟨sampleCall.root, ?_, rfl, sampleName, sampleArguments false, _, rfl, named, rfl, ?_, rfl, seven⟩
  · rw [sampleCall_start]
    exact .refl _
  · exact List.mem_cons_of_mem _ List.mem_cons_self

theorem turnedCall_same_literals : Alike sampleMethod sampleCall turnedCall ∧
    "7" ∈ sampleCall.indexConstants sampleMethod ∧
    turnedCall.indexConstants sampleMethod = sampleCall.indexConstants sampleMethod := by
  have alike : Alike sampleMethod sampleCall turnedCall := by
    refine ⟨rfl, ?_⟩
    rw [sampleCall_start, turnedCall_start]
    exact turnedCall_rearranged
  obtain ⟨-, -, -, -, -, positions, canonical⟩ := literals_complete_and_canonical sampleCall sampleMethod
  refine ⟨alike, (positions.member "7").mpr sampleCall_mentionsPosition, ?_⟩
  exact (canonical turnedCall alike).2.2.2

end BytecodeBench.SourceFile
