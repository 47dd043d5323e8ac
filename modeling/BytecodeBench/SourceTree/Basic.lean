import BytecodeBench.Position
import BytecodeBench.Table

/-! Parse trees of source texts. -/

namespace BytecodeBench

/-- A node of a parse tree. -/
inductive Node
  /--
  The kind of the node, where its text begins and ends, its children, the children that have names,
  and whether the text is available.
  -/
  | mk (kind : String) (first last : Int) (children : List Node) (named : Table String Nat)
    (readable : Bool)

instance : Inhabited Node := ⟨.mk "" 0 0 [] [] true⟩

namespace Node

def kind : Node → String
  | mk kind .. => kind

def first : Node → Int
  | mk _ first .. => first

def last : Node → Int
  | mk _ _ last .. => last

def children : Node → List Node
  | mk _ _ _ children .. => children

def named : Node → Table String Nat
  | mk _ _ _ _ named _ => named

def readable : Node → Bool
  | mk _ _ _ _ _ readable => readable

def child? (node : Node) (name : String) : Option Node :=
  (node.named.find? name).bind (node.children[·]?)

mutual

/-- The number of nodes of a tree. -/
def size : Node → Nat
  | mk _ _ _ children _ _ => totalSize children + 1

def totalSize : List Node → Nat
  | [] => 0
  | node :: rest => size node + totalSize rest

end

theorem totalSize_append (trees others : List Node) :
    totalSize (trees ++ others) = totalSize trees + totalSize others := by
  induction trees with
  | nil => simp [totalSize]
  | cons node rest ih => simp [totalSize, ih, Nat.add_assoc]

theorem totalSize_reverse (trees : List Node) : totalSize trees.reverse = totalSize trees := by
  induction trees with
  | nil => rfl
  | cons node rest ih => simp [totalSize, totalSize_append, ih, Nat.add_comm]

theorem size_eq (node : Node) : node.size = totalSize node.children + 1 := by
  cases node
  rfl

/--
The nodes of pending trees: the root of the first of them, then the nodes below it, where the last
child comes first, then those of the others.
-/
def visit : List Node → List Node
  | [] => []
  | node :: pending => node :: visit (node.children.reverse ++ pending)
termination_by pending => totalSize pending
decreasing_by
  rw [totalSize_append, totalSize_reverse, totalSize, size_eq]
  omega

mutual

/-- The first answer that a question about nodes has, parents first; an empty answer ends a branch. -/
def search {α : Type} (ask : Node → Option (Option α)) : Node → Option α
  | mk kind first last children named readable =>
    match ask (mk kind first last children named readable) with
    | some answer => answer
    | none => searchAll ask children

def searchAll {α : Type} (ask : Node → Option (Option α)) : List Node → Option α
  | [] => none
  | node :: rest =>
    match search ask node with
    | some found => some found
    | none => searchAll ask rest

end

/-- The node at the end of a path of child positions. -/
def descend? (node : Node) : List Nat → Option Node
  | [] => some node
  | i :: path =>
    match node.children[i]? with
    | some child => child.descend? path
    | none => none

end Node

end BytecodeBench
