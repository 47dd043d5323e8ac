import BytecodeBench.Proofs.SourceLiterals
import BytecodeBench.Tools.AssertionSearch
import Mathlib.Data.String.Basic

/-! Texts of nodes. The bounds of a node count bytes, and its text is cut by counting characters. The two counts agree up to
a place exactly if every character before it takes one byte; behind the end of the text it does not matter how far they
are apart. So all nodes of a text are read right exactly if no character of it but the last takes more than one byte. -/

namespace BytecodeBench

open String (utf8Len utf8Len_append)

/-! Bytes. -/

private theorem toList_eq_data (bytes : ByteArray) : bytes.toList = bytes.data.toList := by
  have loop (i : Nat) (before : List UInt8) :
      ByteArray.toList.loop bytes i before = before.reverse ++ bytes.data.toList.drop i := by
    fun_induction ByteArray.toList.loop bytes i before with
    | case1 i before inside ih =>
      have within : i < bytes.data.toList.length := by simpa using inside
      rw [ih, List.drop_eq_getElem_cons within]
      simp [ByteArray.get!, inside]
    | case2 i before outside =>
      rw [List.drop_eq_nil_of_le (by simpa using Nat.le_of_not_lt outside), List.append_nil]
  rw [ByteArray.toList, loop]
  simp

private theorem toList_toUTF8 (cs : List Char) : (String.ofList cs).toUTF8.toList = cs.flatMap String.utf8EncodeChar := by
  rw [toList_eq_data, String.toUTF8_eq_toByteArray, String.toByteArray_ofList]
  exact List.toList_data_toByteArray

private theorem length_encoded (cs : List Char) : (cs.flatMap String.utf8EncodeChar).length = utf8Len cs := by
  induction cs with
  | nil => rfl
  | cons c cs ih => simp [ih, Nat.add_comm]

private theorem decodeBytes_encoded (cs : List Char) :
    Tools.decodeBytes (cs.flatMap String.utf8EncodeChar) = .ok (String.ofList cs) := by
  have stored : ByteArray.mk (cs.flatMap String.utf8EncodeChar).toArray = cs.utf8Encode := by
    apply ByteArray.ext
    apply Array.toList_inj.mp
    exact List.toList_data_toByteArray.symm
  unfold Tools.decodeBytes String.fromUTF8?
  rw [stored, dif_pos ByteArray.isValidUTF8_utf8Encode]
  rfl

/-! Characters of one byte. -/

def Plain (cs : List Char) : Prop := ∀ c ∈ cs, c.utf8Size = 1

instance (cs : List Char) : Decidable (Plain cs) := List.decidableBAll (fun c : Char => c.utf8Size = 1) cs

theorem length_le_utf8Len (cs : List Char) : cs.length ≤ utf8Len cs := by
  induction cs with
  | nil => exact le_rfl
  | cons c cs ih =>
    have := c.utf8Size_pos
    rw [List.length_cons, String.utf8Len_cons]
    omega

theorem plain_iff (cs : List Char) : Plain cs ↔ utf8Len cs = cs.length := by
  induction cs with
  | nil => simp [Plain]
  | cons c cs ih =>
    have positive := c.utf8Size_pos
    have least := length_le_utf8Len cs
    rw [Plain, List.forall_mem_cons, String.utf8Len_cons, List.length_cons]
    change _ ∧ Plain cs ↔ _
    rw [ih]
    omega

theorem plain_append {cs ds : List Char} : Plain (cs ++ ds) ↔ Plain cs ∧ Plain ds := List.forall_mem_append

namespace SourceFile

variable {file : SourceFile} {node : Node} {before inside after : List Char}

/-! Bounds. -/

structure OnBoundaries (file : SourceFile) (node : Node) : Prop where
  first : ∃ place : String.Pos.Raw, place.IsValid (String.ofList file.text) ∧ node.first = place.byteIdx
  last : ∃ place : String.Pos.Raw, place.IsValid (String.ofList file.text) ∧ node.last = place.byteIdx
  ordered : node.first ≤ node.last

structure Spans (file : SourceFile) (node : Node) (before inside after : List Char) : Prop where
  text : file.text = before ++ (inside ++ after)
  first : node.first = utf8Len before
  last : node.last = utf8Len (before ++ inside)

theorem onBoundaries_iff : file.OnBoundaries node ↔ ∃ before inside after, file.Spans node before inside after := by
  constructor
  · rintro ⟨⟨_, valid, first⟩, ⟨_, other, last⟩, ordered⟩
    obtain ⟨i, counted⟩ := String.Pos.Raw.isValid_ofList.mp valid
    obtain ⟨j, alsoCounted⟩ := String.Pos.Raw.isValid_ofList.mp other
    rw [counted, String.utf8ByteSize_ofList] at first
    rw [alsoCounted, String.utf8ByteSize_ofList] at last
    have joined : file.text.take (min i j) ++ (file.text.take j).drop (min i j) = file.text.take j := by
      have shorter : (file.text.take j).take (min i j) = file.text.take (min i j) := by simp [List.take_take]
      rw [← shorter, List.take_append_drop]
    refine ⟨file.text.take (min i j), (file.text.take j).drop (min i j), file.text.drop j, ?_, ?_, by rw [joined, last]⟩
    · rw [← List.append_assoc, joined, List.take_append_drop]
    · -- Places further on in the text come no later in the bytes only if there is nothing between them.
      by_cases le : i ≤ j
      · rw [min_eq_left le, first]
      · have fewer := String.utf8Len_le_of_prefix (List.take_prefix_take_left (l := file.text) (by omega : j ≤ i))
        rw [min_eq_right (by omega)]
        omega
  · rintro ⟨before, inside, after, spans⟩
    refine ⟨⟨⟨utf8Len before⟩, ?_, spans.first⟩, ⟨⟨utf8Len (before ++ inside)⟩, ?_, spans.last⟩, ?_⟩
    · exact String.Pos.Raw.isValid_ofList.mpr ⟨before.length, by simp [spans.text, String.utf8ByteSize_ofList]⟩
    · refine String.Pos.Raw.isValid_ofList.mpr ⟨(before ++ inside).length, ?_⟩
      rw [spans.text, ← List.append_assoc, List.take_left, String.utf8ByteSize_ofList]
    · rw [spans.first, spans.last, utf8Len_append]
      omega

theorem clip_natCast (size i : Nat) : Position.clip size (i : Int) = min i size := by
  unfold Position.clip
  rw [if_neg (by omega)]
  rfl

/-- What is cut out between the right positions. -/
theorem slice_middle {α : Type} {items inside : List α} (before after : List α) {first last : Int}
    (whole : items = before ++ (inside ++ after)) (begins : Position.clip items.length first = before.length)
    (ends : Position.clip items.length last = (before ++ inside).length) : Position.slice first last items = inside := by
  unfold Position.slice
  rw [begins, ends, whole, ← List.append_assoc, List.take_left, List.drop_left]

/-- The bytes of a node stand for the characters that it spans. -/
theorem Spans.decode (spans : file.Spans node before inside after) :
    Tools.decodeBytes (Tools.bytesOf (String.ofList file.text) node) = .ok (String.ofList inside) := by
  let encode (cs : List Char) : List UInt8 := cs.flatMap String.utf8EncodeChar
  have joined (cs ds : List Char) : encode (cs ++ ds) = encode cs ++ encode ds := List.flatMap_append
  have length (cs : List Char) : (encode cs).length = utf8Len cs := length_encoded cs
  have cut : Tools.bytesOf (String.ofList file.text) node = encode inside := by
    unfold Tools.bytesOf
    rw [toList_toUTF8]
    refine slice_middle (encode before) (encode after) ?_ ?_ ?_
    · rw [← joined, ← joined, spans.text]
    · rw [spans.first, clip_natCast, length, length, spans.text, utf8Len_append]
      omega
    · rw [spans.last, clip_natCast, ← joined, length, length, spans.text]
      simp only [utf8Len_append]
      omega
  rw [cut, decodeBytes_encoded]

/-! Cuts. -/

def CutsAt (file : SourceFile) (node : Node) (first last : Nat) : Prop :=
  Position.clip file.text.length node.first = first ∧ Position.clip file.text.length node.last = last

/-- A node that spans characters is cut out where they are exactly if all characters before it take one byte, and those of
its own as well or there are no others behind it. -/
theorem Spans.cutsAt_iff (spans : file.Spans node before inside after) (filled : inside ≠ []) :
    file.CutsAt node before.length (before ++ inside).length ↔ Plain before ∧ (Plain inside ∨ after = []) := by
  have some := List.length_pos_iff.mpr filled
  have least := length_le_utf8Len before
  have also := length_le_utf8Len inside
  have rest : after = [] ↔ after.length = 0 := List.length_eq_zero_iff.symm
  unfold CutsAt
  rw [spans.text, spans.first, spans.last, clip_natCast, clip_natCast, plain_iff, plain_iff, rest, utf8Len_append]
  simp only [List.length_append]
  omega

theorem Spans.textOf (spans : file.Spans node before inside after)
    (cuts : file.CutsAt node before.length (before ++ inside).length) : file.textOf node = inside :=
  slice_middle before after spans.text cuts.1 cuts.2

theorem Spans.textOf_empty (spans : file.Spans node before [] after) : file.textOf node = [] := by
  have same : node.last = node.first := by rw [spans.first, spans.last, List.append_nil]
  unfold SourceFile.textOf Position.slice
  rw [same]
  exact List.drop_eq_nil_of_le (List.length_take_le _ _)

/-- A node has the text that its bytes stand for. -/
def ReadsItsBytes (file : SourceFile) (node : Node) : Prop :=
  Tools.decodeBytes (Tools.bytesOf (String.ofList file.text) node) = .ok (String.ofList (file.textOf node))

theorem Spans.readsItsBytes_iff (spans : file.Spans node before inside after) :
    file.ReadsItsBytes node ↔ file.textOf node = inside := by
  rw [ReadsItsBytes, spans.decode, Except.ok.injEq, String.ofList_inj, eq_comm]

theorem Spans.readsItsBytes (spans : file.Spans node before inside after) (plain : Plain before)
    (ends : Plain inside ∨ after = []) : file.ReadsItsBytes node := by
  apply spans.readsItsBytes_iff.mpr
  by_cases filled : inside = []
  · subst filled
    exact spans.textOf_empty
  · exact spans.textOf ((spans.cutsAt_iff filled).mpr ⟨plain, ends⟩)

/-- The last character of a text is not read right if one before it takes more than one byte. -/
theorem Spans.last_unread {cs : List Char} {c : Char} (spans : file.Spans node cs [c] []) (wide : ¬ Plain cs) :
    file.textOf node = [] := by
  have least := length_le_utf8Len cs
  rw [plain_iff] at wide
  have beyond : Position.clip file.text.length node.first = file.text.length := by
    rw [spans.first, clip_natCast, spans.text]
    simp only [List.length_append, List.length_cons, List.length_nil]
    omega
  unfold SourceFile.textOf Position.slice
  rw [beyond]
  exact List.drop_eq_nil_of_le (List.length_take_le' _ _)

private theorem all_read_iff (file : SourceFile) :
    (∀ node, file.OnBoundaries node → file.ReadsItsBytes node) ↔ Plain file.text.dropLast := by
  constructor
  · intro all
    rcases List.eq_nil_or_concat file.text with empty | ⟨cs, c, whole⟩
    · simp [empty, Plain]
    · rw [List.concat_eq_append] at whole
      rw [whole, List.dropLast_concat]
      by_contra wide
      have spans : file.Spans (.mk "" (utf8Len cs) (utf8Len (cs ++ [c])) [] [] true) cs [c] [] := ⟨whole, rfl, rfl⟩
      have read := spans.readsItsBytes_iff.mp (all _ (onBoundaries_iff.mpr ⟨cs, [c], [], spans⟩))
      rw [spans.last_unread wide] at read
      cases read
  · intro plain node bounded
    obtain ⟨before, inside, after, spans⟩ := onBoundaries_iff.mp bounded
    rcases List.eq_nil_or_concat after with rfl | ⟨rest, c, rfl⟩
    · by_cases filled : inside = []
      · subst filled
        exact spans.readsItsBytes_iff.mpr spans.textOf_empty
      · rw [spans.text, List.append_nil, List.dropLast_append_of_ne_nil filled, plain_append] at plain
        exact spans.readsItsBytes plain.1 (Or.inr rfl)
    · rw [List.concat_eq_append] at spans
      rw [spans.text, ← List.append_assoc, ← List.append_assoc, List.dropLast_concat, plain_append, plain_append] at plain
      exact spans.readsItsBytes plain.1.1 (Or.inl plain.1.2)

/-! What is read through the texts of nodes. -/

/-- The name of a declaration is what the bytes of its first identifier stand for. -/
theorem isNamed_iff {name : String} (read : ∀ child ∈ node.children, file.ReadsItsBytes child) :
    file.isNamed name node = true ↔ ∃ child, node.children.find? (fun child => child.kind == "identifier") = some child ∧
      Tools.decodeBytes (Tools.bytesOf (String.ofList file.text) child) = .ok name := by
  unfold isNamed
  cases found : node.children.find? fun child => child.kind == "identifier" with
  | none => simp
  | some child =>
    have bytes : file.ReadsItsBytes child := read child (List.mem_of_find?_eq_some found)
    rw [ReadsItsBytes] at bytes
    simp only [Option.some.injEq, exists_eq_left', bytes, Except.ok.injEq, beq_iff_eq]
    rw [← String.toList_inj, String.toList_ofList]

private theorem mentions_iff {method : AbsMethodId} {kind text : String}
    (read : ∀ node, (file.start method).Within node → file.ReadsItsBytes node) :
    file.Mentions method kind text ↔ ∃ node, (file.start method).Within node ∧ node.kind = kind ∧
      Tools.decodeBytes (Tools.bytesOf (String.ofList file.text) node) = .ok text := by
  refine exists_congr fun node => and_congr_right fun inside => and_congr_right fun _ => ?_
  rw [read node inside, Except.ok.injEq]

/-- All nodes are read right exactly if no character but the last takes more than one byte, and then so are the names of
declarations and the texts of literals. A single node that is not empty is cut out where its bytes are exactly if this is
so up to its end. -/
theorem node_texts_right_iff_plain (file : SourceFile) :
    ((∀ node, file.OnBoundaries node → file.ReadsItsBytes node) ↔ Plain file.text.dropLast) ∧
    (∀ node before inside after, file.Spans node before inside after → inside ≠ [] →
      (file.CutsAt node before.length (before ++ inside).length ↔ Plain before ∧ (Plain inside ∨ after = []))) ∧
    (∀ node before inside after, file.Spans node before inside after → Plain before → Plain inside ∨ after = [] →
      file.ReadsItsBytes node) ∧
    (Plain file.text.dropLast → (∀ node, file.root.Within node → file.OnBoundaries node) →
      (∀ node name, file.root.Within node → (file.isNamed name node = true ↔
        ∃ child, node.children.find? (fun child => child.kind == "identifier") = some child ∧
          Tools.decodeBytes (Tools.bytesOf (String.ofList file.text) child) = .ok name)) ∧
      ∀ method kind text, file.Mentions method kind text ↔ ∃ node, (file.start method).Within node ∧ node.kind = kind ∧
        Tools.decodeBytes (Tools.bytesOf (String.ofList file.text) node) = .ok text) := by
  refine ⟨all_read_iff file, fun node before inside after spans => spans.cutsAt_iff,
    fun node before inside after spans => spans.readsItsBytes, ?_⟩
  intro plain bounded
  have read (node : Node) (inside : file.root.Within node) : file.ReadsItsBytes node :=
    (all_read_iff file).mpr plain node (bounded node inside)
  refine ⟨?_, ?_⟩
  · intro node name inside
    exact isNamed_iff fun child member => read child (inside.trans (Node.within_child member))
  · intro method kind text
    exact mentions_iff fun node inside => read node ((start_within file method).trans inside)

def accentBehind : SourceFile :=
  ⟨"class A{}//é".toList, .mk "class_declaration" 0 9 [.mk "identifier" 6 7 [] [] true] [("name", 0)] true⟩

theorem accentBehind_named : Plain accentBehind.text.dropLast ∧
    (∀ node, accentBehind.root.Within node → accentBehind.OnBoundaries node) ∧
    (accentBehind.isNamed "A" accentBehind.root = true ↔
      ∃ child, accentBehind.root.children.find? (fun child => child.kind == "identifier") = some child ∧
        Tools.decodeBytes (Tools.bytesOf (String.ofList accentBehind.text) child) = .ok "A") := by
  have plain : Plain accentBehind.text.dropLast := by decide
  have bounded : ∀ node, accentBehind.root.Within node → accentBehind.OnBoundaries node := by
    rintro node ⟨place, found⟩
    apply onBoundaries_iff.mpr
    match place with
    | [] =>
      cases found
      exact ⟨[], "class A{}".toList, "//é".toList, rfl, rfl, rfl⟩
    | [0] =>
      cases found
      exact ⟨"class ".toList, ['A'], "{}//é".toList, rfl, rfl, rfl⟩
    | 0 :: _ :: _ => cases found
    | (_ + 1) :: _ => cases found
  obtain ⟨-, -, -, read⟩ := node_texts_right_iff_plain accentBehind
  exact ⟨plain, bounded, (read plain bounded).1 _ "A" (.refl _)⟩

def accentBefore : SourceFile :=
  ⟨"é A m{}".toList, .mk "class_declaration" 0 8
    [.mk "identifier" 3 4 [] [] true,
      .mk "method_declaration" 5 8 [.mk "identifier" 5 6 [] [] true, .mk "block" 6 8 [] [] true] [("body", 1)] true]
    [("name", 0)] true⟩

/-- The blank behind the name is taken for it, and neither the class nor the body of its method is found. -/
theorem name_behind_accent_lost : ∃ child ∈ accentBefore.root.children, accentBefore.OnBoundaries child ∧
    Tools.decodeBytes (Tools.bytesOf (String.ofList accentBefore.text) child) = .ok "A" ∧
    accentBefore.textOf child = [' '] ∧ ¬ accentBefore.ReadsItsBytes child ∧
    (accentBefore.classNode? "A").isNone = true ∧
    (accentBefore.methodBody? ⟨⟨"A"⟩, ⟨"m", [], none⟩⟩).isNone = true := by
  have spans : accentBefore.Spans (.mk "identifier" 3 4 [] [] true) "é ".toList ['A'] " m{}".toList := ⟨rfl, rfl, rfl⟩
  have taken : accentBefore.textOf (.mk "identifier" 3 4 [] [] true) = [' '] := by decide
  refine ⟨_, List.mem_cons_self, onBoundaries_iff.mpr ⟨_, _, _, spans⟩, spans.decode, taken, ?_, by decide, by decide⟩
  rw [spans.readsItsBytes_iff, taken]
  decide

end SourceFile
end BytecodeBench
