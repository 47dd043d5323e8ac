import BytecodeBench.Text.Basic

/-!
How much two texts are alike: the characters that they share in blocks, the longest block first, then
the longest on either side of it, and so on, in relation to the length of both.
-/

namespace BytecodeBench.Text

/-- How far two texts agree from their start. -/
def commonStart : List Char → List Char → Nat
  | a :: as, b :: bs => if a = b then commonStart as bs + 1 else 0
  | _, _ => 0

/-- A block that two texts share, by its places in both and its size. -/
structure SharedBlock where
  left : Nat
  right : Nat
  size : Nat
  deriving DecidableEq, Repr

/-- The longest shared block; of several the one that comes first in the left text, then in the right. -/
def longestBlock (as bs : List Char) : SharedBlock :=
  let blocks := (List.range as.length).flatMap fun i =>
    (List.range bs.length).map fun j => SharedBlock.mk i j (commonStart (as.drop i) (bs.drop j))
  blocks.foldl (fun best block => if best.size < block.size then block else best) ⟨0, 0, 0⟩

/-- The number of characters in shared blocks. The depth bounds the blocks within blocks. -/
def sharedTo : Nat → List Char → List Char → Nat
  | 0, _, _ => 0
  | depth + 1, as, bs =>
    let block := longestBlock as bs
    if block.size = 0 then 0
    else
      sharedTo depth (as.take block.left) (bs.take block.right) + block.size +
        sharedTo depth (as.drop (block.left + block.size)) (bs.drop (block.right + block.size))

/-- The number of characters that two texts share; each block takes one at least. -/
def shared (a b : String) : Nat := sharedTo a.length a.toList b.toList

/-- Whether `b` is more like the text than `a` is; of equals the later text is. -/
def isMoreAlike (s a b : String) : Bool :=
  let left := shared a s * (b.length + s.length)
  let right := shared b s * (a.length + s.length)
  left < right || (left == right && a < b)

/-- The texts that are like a text: at least six tenths of the characters are shared. The three best
are taken, in the order of the alphabet. -/
def closeMatches (s : String) (texts : List String) : List String :=
  let close := texts.filter fun t => 6 * (t.length + s.length) ≤ 20 * shared t s
  ((close.mergeSort fun a b => !isMoreAlike s a b).take 3).mergeSort fun a b => decide (a ≤ b)

end BytecodeBench.Text
