import BytecodeBench.SourceTree.Basic
import Mathlib.Data.List.Infix
import Mathlib.Data.List.Lex
import Mathlib.Data.List.Nodup

/-! Walks over parse trees. The trees that wait for a visit stand at different places of the whole tree, and none of them
below another. A visit keeps this, and so each place of the tree is visited once. Which nodes are met does not depend on
the order of the children anywhere. A search does not look below a node that answers, and so it is about the outermost
nodes that do. -/

namespace BytecodeBench.Node

variable {root node : Node} {pending : List Node} {place : List Nat} {places : List (List Nat)}

/-! Places. -/

theorem descend?_cons (node : Node) (i : Nat) (path : List Nat) :
    node.descend? (i :: path) = node.children[i]?.bind (·.descend? path) := by
  rw [descend?]
  cases node.children[i]? <;> rfl

private theorem descend?_append (node : Node) (path further : List Nat) :
    node.descend? (path ++ further) = (node.descend? path).bind (·.descend? further) := by
  induction path generalizing node with
  | nil => rfl
  | cons i path ih =>
    rw [List.cons_append, descend?_cons, descend?_cons, Option.bind_assoc]
    exact congrArg _ (funext ih)

/-- Below a node, a path goes on with the position of a child. -/
theorem descend?_below (found : root.descend? place = some node) (i : Nat) (path : List Nat) :
    root.descend? (place ++ i :: path) = node.children[i]?.bind (·.descend? path) := by
  rw [descend?_append, found, Option.bind_some, descend?_cons]

def Apart (a b : List Nat) : Prop := ¬ a <+: b ∧ ¬ b <+: a

/-- Trees that wait for a visit stand at places of a whole tree, none of them below another. -/
structure Stand (root : Node) (pending : List Node) (places : List (List Nat)) : Prop where
  found : pending.map some = places.map root.descend?
  apart : places.Pairwise Apart

/-- The places of the children of a node, the last one first. -/
def childPlaces (node : Node) (place : List Nat) : List (List Nat) :=
  (List.range node.children.length).reverse.map fun i => place ++ [i]

theorem mem_childPlaces {below : List Nat} :
    below ∈ childPlaces node place ↔ ∃ i < node.children.length, place ++ [i] = below := by
  simp [childPlaces]

private theorem childPlaces_found (found : root.descend? place = some node) :
    node.children.reverse.map some = (childPlaces node place).map root.descend? := by
  have each (i : Nat) : root.descend? (place ++ [i]) = node.children[i]? := by
    rw [descend?_below found]
    cases node.children[i]? <;> rfl
  have listed : node.children.map some = (List.range node.children.length).map (node.children[·]?) := by
    apply List.ext_getElem?
    intro i
    by_cases inside : i < node.children.length <;> simp [inside]
  rw [childPlaces, List.map_map, List.map_reverse, List.map_reverse, listed]
  exact congrArg List.reverse (List.map_congr_left fun i _ => (each i).symm)

private theorem childPlaces_apart (node : Node) (place : List Nat) : (childPlaces node place).Pairwise Apart := by
  rw [childPlaces, List.pairwise_map, List.pairwise_reverse]
  refine List.pairwise_lt_range.imp fun {i j} less => ?_
  simp only [Apart, List.prefix_append_right_inj, List.cons_prefix_cons, List.nil_prefix, and_true]
  omega

theorem Apart.child {other : List Nat} (apart : Apart place other) (i : Nat) : Apart (place ++ [i]) other := by
  refine ⟨fun below => apart.1 ((List.prefix_append _ _).trans below), fun above => ?_⟩
  rcases List.prefix_concat_iff.mp above with rfl | higher
  · exact apart.1 (List.prefix_append _ _)
  · exact apart.2 higher

/-! Visits. -/

/-- A visit puts the children of a node in its place. -/
theorem Stand.step (stand : Stand root (node :: pending) (place :: places)) :
    Stand root (node.children.reverse ++ pending) (childPlaces node place ++ places) := by
  obtain ⟨here, later⟩ := List.cons_eq_cons.mp stand.found
  obtain ⟨own, others⟩ := List.pairwise_cons.mp stand.apart
  refine ⟨?_, List.pairwise_append.mpr ⟨childPlaces_apart node place, others, ?_⟩⟩
  · rw [List.map_append, List.map_append, childPlaces_found here.symm, later]
  · intro below member other waits
    obtain ⟨i, -, rfl⟩ := mem_childPlaces.mp member
    exact (own other waits).child i

/-- What is at or below a place is the node there or at or below a child of it. -/
theorem reaches_iff (found : root.descend? place = some node) {path : List Nat} (reached : (root.descend? path).isSome) :
    place <+: path ↔ path = place ∨ ∃ below ∈ childPlaces node place, below <+: path := by
  constructor
  · rintro ⟨further, rfl⟩
    cases further with
    | nil => exact Or.inl (List.append_nil place)
    | cons i further =>
      rw [descend?_below found] at reached
      have inside : i < node.children.length := by
        by_contra outside
        rw [List.getElem?_eq_none (Nat.le_of_not_lt outside)] at reached
        cases reached
      exact Or.inr ⟨place ++ [i], mem_childPlaces.mpr ⟨i, inside, rfl⟩, further, by simp⟩
  · rintro (rfl | ⟨below, member, above⟩)
    · exact List.prefix_rfl
    · obtain ⟨i, -, rfl⟩ := mem_childPlaces.mp member
      exact (List.prefix_append _ _).trans above

/-- Visits from pending trees on come once to every place at or below theirs, and to no other. -/
theorem visit_places (stand : Stand root pending places) :
    ∃ visited : List (List Nat), visited.Nodup ∧ (visit pending).map some = visited.map root.descend? ∧
      ∀ path, path ∈ visited ↔ (root.descend? path).isSome ∧ ∃ above ∈ places, above <+: path := by
  fun_induction visit pending generalizing places with
  | case1 =>
    have none : places = [] := List.map_eq_nil_iff.mp stand.found.symm
    subst none
    exact ⟨[], List.nodup_nil, rfl, by simp⟩
  | case2 node pending ih =>
    cases places with
    | nil => cases stand.found
    | cons place places =>
      obtain ⟨here, -⟩ := List.cons_eq_cons.mp stand.found
      obtain ⟨own, -⟩ := List.pairwise_cons.mp stand.apart
      obtain ⟨visited, once, listed, reached⟩ := ih stand.step
      refine ⟨place :: visited, List.nodup_cons.mpr ⟨?_, once⟩, ?_, ?_⟩
      · intro again
        obtain ⟨-, above, member, higher⟩ := (reached place).mp again
        rcases List.mem_append.mp member with below | waits
        · obtain ⟨i, -, rfl⟩ := mem_childPlaces.mp below
          have longer := higher.length_le
          rw [List.length_append, List.length_singleton] at longer
          omega
        · exact (own above waits).2 higher
      · rw [List.map_cons, List.map_cons, listed, here]
      · intro path
        rw [List.mem_cons, reached]
        constructor
        · rintro (rfl | ⟨there, above, member, higher⟩)
          · exact ⟨by rw [← here]; rfl, path, List.mem_cons_self, List.prefix_rfl⟩
          · rcases List.mem_append.mp member with below | waits
            · exact ⟨there, place, List.mem_cons_self, (reaches_iff here.symm there).mpr (Or.inr ⟨above, below, higher⟩)⟩
            · exact ⟨there, above, List.mem_cons_of_mem _ waits, higher⟩
        · rintro ⟨there, above, member, higher⟩
          rcases List.mem_cons.mp member with rfl | waits
          · rcases (reaches_iff here.symm there).mp higher with same | ⟨below, child, lower⟩
            · exact Or.inl same
            · exact Or.inr ⟨there, below, List.mem_append_left _ child, lower⟩
          · exact Or.inr ⟨there, above, List.mem_append_right _ waits, higher⟩

def Within (root node : Node) : Prop := ∃ place, root.descend? place = some node

theorem Within.refl (root : Node) : Within root root := ⟨[], rfl⟩

theorem Within.trans {below : Node} (outer : Within root node) (inner : Within node below) : Within root below := by
  obtain ⟨place, found⟩ := outer
  obtain ⟨path, further⟩ := inner
  exact ⟨place ++ path, by rw [descend?_append, found, Option.bind_some, further]⟩

theorem within_child (member : node ∈ root.children) : Within root node := by
  obtain ⟨i, position⟩ := List.mem_iff_getElem?.mp member
  exact ⟨[i], by rw [descend?_cons, position]; rfl⟩

theorem mem_children_of_child? {name : String} (found : root.child? name = some node) : node ∈ root.children := by
  obtain ⟨i, -, position⟩ := Option.bind_eq_some_iff.mp found
  exact List.mem_of_getElem? position

private theorem size_le_totalSize {trees : List Node} (member : node ∈ trees) : node.size ≤ totalSize trees := by
  induction member with
  | head rest =>
    rw [totalSize]
    omega
  | tail tree _ ih =>
    rw [totalSize]
    omega

/-! Searches. -/

/-- A node with a property, and none with it above. -/
structure OutermostAt (holds : Node → Prop) (root : Node) (place : List Nat) (node : Node) : Prop where
  there : root.descend? place = some node
  right : holds node
  topmost : ∀ above other, above <+: place → above ≠ place → root.descend? above = some other → ¬holds other

/-- The first node with a property, where a node comes before those below it and these in the order of the children. -/
structure FirstAt (holds : Node → Prop) (root : Node) (place : List Nat) (node : Node) : Prop where
  there : root.descend? place = some node
  right : holds node
  first : ∀ earlier other, earlier < place → root.descend? earlier = some other → ¬holds other

variable {holds : Node → Prop}

theorem OutermostAt.within (outermost : OutermostAt holds root place node) : Within root node := ⟨place, outermost.there⟩

theorem FirstAt.within (first : FirstAt holds root place node) : Within root node := ⟨place, first.there⟩

theorem FirstAt.unique {again : List Nat} {other : Node} (first : FirstAt holds root place node)
    (second : FirstAt holds root again other) : node = other := by
  rcases lt_trichotomy place again with before | rfl | after
  · exact absurd first.right (second.first place node before first.there)
  · exact Option.some_inj.mp (first.there.symm.trans second.there)
  · exact absurd second.right (first.first again other after second.there)

theorem outermostAt_nil : OutermostAt holds root [] node ↔ node = root ∧ holds root := by
  constructor
  · intro outermost
    obtain rfl : root = node := Option.some_inj.mp outermost.there
    exact ⟨rfl, outermost.right⟩
  · rintro ⟨rfl, right⟩
    refine ⟨rfl, right, ?_⟩
    intro above other higher apart
    exact absurd (List.prefix_nil.mp higher) apart

theorem outermostAt_cons {i : Nat} : OutermostAt holds root (i :: place) node ↔
    ¬holds root ∧ ∃ child, root.children[i]? = some child ∧ OutermostAt holds child place node := by
  constructor
  · intro outermost
    have there := outermost.there
    rw [descend?_cons] at there
    obtain ⟨child, position, below⟩ := Option.bind_eq_some_iff.mp there
    refine ⟨outermost.topmost [] root List.nil_prefix (by simp) rfl, child, position, below, outermost.right, ?_⟩
    intro above other higher apart found
    refine outermost.topmost (i :: above) other (List.cons_prefix_cons.mpr ⟨rfl, higher⟩) (by simpa using apart) ?_
    rw [descend?_cons, position, Option.bind_some, found]
  · rintro ⟨wrong, child, position, inner⟩
    refine ⟨by rw [descend?_cons, position, Option.bind_some, inner.there], inner.right, ?_⟩
    intro above other higher apart found
    cases above with
    | nil =>
      obtain rfl : root = other := Option.some_inj.mp found
      exact wrong
    | cons j above =>
      obtain ⟨rfl, lower⟩ := List.cons_prefix_cons.mp higher
      rw [descend?_cons, position, Option.bind_some] at found
      exact inner.topmost above other lower (by simpa using apart) found

/-- A node with a property is at or below an outermost one. -/
theorem exists_outermostAt (there : root.descend? place = some node) (right : holds node) :
    ∃ above other, above <+: place ∧ OutermostAt holds root above other := by
  induction place generalizing root with
  | nil =>
    obtain rfl : root = node := Option.some_inj.mp there
    exact ⟨[], root, List.prefix_rfl, outermostAt_nil.mpr ⟨rfl, right⟩⟩
  | cons i place ih =>
    by_cases already : holds root
    · exact ⟨[], root, List.nil_prefix, outermostAt_nil.mpr ⟨rfl, already⟩⟩
    · rw [descend?_cons] at there
      obtain ⟨child, position, below⟩ := Option.bind_eq_some_iff.mp there
      obtain ⟨above, other, higher, outermost⟩ := ih below
      exact ⟨i :: above, other, List.cons_prefix_cons.mpr ⟨rfl, higher⟩,
        outermostAt_cons.mpr ⟨already, child, position, outermost⟩⟩

private theorem lt_of_prefix_of_lt {above earlier later : List Nat} (higher : above <+: earlier)
    (before : earlier < later) :
    above < later := by
  induction above generalizing earlier later with
  | nil =>
    cases later with
    | nil => exact absurd before (List.not_lt_nil _)
    | cons j later => exact List.nil_lt_cons j later
  | cons i above ih =>
    obtain ⟨rest, rfl⟩ := higher
    cases later with
    | nil => exact absurd before (List.not_lt_nil _)
    | cons j later =>
      rw [List.cons_append, List.cons_lt_cons_iff] at before
      rw [List.cons_lt_cons_iff]
      exact before.imp_right fun ⟨same, less⟩ => ⟨same, ih (List.prefix_append _ _) less⟩

/-- The first of the outermost nodes with a property is the first of all. -/
theorem OutermostAt.firstAt (outermost : OutermostAt holds root place node)
    (first : ∀ earlier other, earlier < place → ¬OutermostAt holds root earlier other) : FirstAt holds root place node := by
  refine ⟨outermost.there, outermost.right, ?_⟩
  intro earlier other before there right
  obtain ⟨above, higher, upward, topmost⟩ := exists_outermostAt there right
  exact first above higher (lt_of_prefix_of_lt upward before) topmost

section

variable {α : Type} {ask : Node → Option (Option α)} {answer : Node → Option α}

/-- A question that the nodes with a property answer, and no others. -/
structure Asks (ask : Node → Option (Option α)) (holds : Node → Prop) (answer : Node → Option α) : Prop where
  answered : ∀ {node}, holds node → ask node = some (answer node)
  unanswered : ∀ {node}, ¬holds node → ask node = none

private theorem searchAll_eq (ask : Node → Option (Option α)) (trees : List Node) :
    searchAll ask trees = trees.findSome? (search ask) := by
  induction trees with
  | nil => rfl
  | cons tree rest ih =>
    rw [searchAll, List.findSome?_cons, ih]
    cases search ask tree <;> rfl

theorem Asks.search_eq (asks : Asks ask holds answer) (root : Node) :
    holds root ∧ search ask root = answer root ∨
      ¬holds root ∧ search ask root = root.children.findSome? (search ask) := by
  cases root with
  | mk kind first last children named readable =>
    rw [search]
    by_cases right : holds (Node.mk kind first last children named readable)
    · rw [asks.answered right]
      exact Or.inl ⟨right, rfl⟩
    · rw [asks.unanswered right]
      exact Or.inr ⟨right, searchAll_eq ask children⟩

/-- A search comes to all outermost nodes with the property: if it finds nothing, they have no answer. -/
theorem Asks.search_none (asks : Asks ask holds answer) (missed : search ask root = none)
    (outermost : OutermostAt holds root place node) : answer node = none := by
  induction place generalizing root with
  | nil =>
    obtain ⟨rfl, right⟩ := outermostAt_nil.mp outermost
    rcases asks.search_eq node with ⟨-, same⟩ | ⟨wrong, -⟩
    · exact same.symm.trans missed
    · exact absurd right wrong
  | cons i place ih =>
    obtain ⟨wrong, child, position, inner⟩ := outermostAt_cons.mp outermost
    rcases asks.search_eq root with ⟨right, -⟩ | ⟨-, same⟩
    · exact absurd right wrong
    · rw [same, List.findSome?_eq_none_iff] at missed
      exact ih (missed child (List.mem_of_getElem? position)) inner

/-- What a search finds is the answer of the first outermost node that has one. -/
theorem Asks.search_some (asks : Asks ask holds answer) {a : α} (root : Node) (found : search ask root = some a) :
    ∃ place node, OutermostAt holds root place node ∧ answer node = some a ∧
      ∀ earlier other, earlier < place → OutermostAt holds root earlier other → answer other = none := by
  rcases asks.search_eq root with ⟨right, same⟩ | ⟨wrong, same⟩
  · refine ⟨[], root, outermostAt_nil.mpr ⟨rfl, right⟩, same.symm.trans found, ?_⟩
    intro earlier other before
    exact absurd before (List.not_lt_nil _)
  · rw [same] at found
    obtain ⟨before, child, after, split, here, missed⟩ := List.findSome?_eq_some_iff.mp found
    have inside : child ∈ root.children := by
      rw [split]
      exact List.mem_append_right _ List.mem_cons_self
    have position : root.children[before.length]? = some child := by simp [split]
    obtain ⟨place, node, outermost, answered, first⟩ := search_some asks child here
    refine ⟨before.length :: place, node, outermostAt_cons.mpr ⟨wrong, child, position, outermost⟩, answered, ?_⟩
    intro earlier other less again
    cases earlier with
    | nil => exact absurd (outermostAt_nil.mp again).2 wrong
    | cons j earlier =>
      obtain ⟨-, sibling, there, inner⟩ := outermostAt_cons.mp again
      rcases List.cons_lt_cons_iff.mp less with left | ⟨rfl, lower⟩
      -- A child further left was searched in vain.
      · rw [split, List.getElem?_append_left left] at there
        exact asks.search_none (missed sibling (List.mem_of_getElem? there)) inner
      · obtain rfl : child = sibling := Option.some_inj.mp (position.symm.trans there)
        exact first earlier other lower inner
termination_by root.size
decreasing_by
  have least := size_le_totalSize inside
  rw [size_eq root]
  omega

end

/-- Exactly the nodes of a kind that a tree has, one for each place at which there is one. -/
def Enumerates (root : Node) (kind : String) (found : List Node) : Prop :=
  ∃ places : List (List Nat), places.Nodup ∧ found.map some = places.map root.descend? ∧
    ∀ place, place ∈ places ↔ ∃ node, root.descend? place = some node ∧ node.kind = kind

theorem enumerates_visit (root : Node) (kind : String) :
    Enumerates root kind ((visit [root]).filter fun node => node.kind == kind) := by
  have stand : Stand root [root] [[]] := ⟨rfl, List.pairwise_singleton _ _⟩
  obtain ⟨visited, once, listed, reached⟩ := visit_places stand
  refine ⟨visited.filter fun place => (root.descend? place).any fun node => node.kind == kind, once.filter _, ?_, ?_⟩
  · calc ((visit [root]).filter fun node => node.kind == kind).map some
        = ((visit [root]).map some).filter (Option.any fun node => node.kind == kind) := by rw [List.filter_map]; rfl
      _ = (visited.map root.descend?).filter (Option.any fun node => node.kind == kind) := by rw [listed]
      _ = _ := by rw [List.filter_map]; rfl
  · intro place
    rw [List.mem_filter, reached, Option.any_eq_true]
    simp only [beq_iff_eq, List.mem_singleton, exists_eq_left, List.nil_prefix, and_true]
    exact and_iff_right_of_imp fun ⟨node, found, _⟩ => Option.isSome_of_eq_some found

theorem mem_filter_visit {kind : String} :
    node ∈ (visit [root]).filter (fun node => node.kind == kind) ↔ Within root node ∧ node.kind = kind := by
  obtain ⟨places, -, listed, reached⟩ := enumerates_visit root kind
  rw [← List.mem_map_of_injective (f := some) fun _ _ => Option.some.inj, listed, List.mem_map]
  constructor
  · rintro ⟨place, member, found⟩
    obtain ⟨other, there, same⟩ := (reached place).mp member
    obtain rfl : node = other := Option.some_inj.mp (found.symm.trans there)
    exact ⟨⟨place, found⟩, same⟩
  · rintro ⟨⟨place, found⟩, same⟩
    exact ⟨place, (reached place).mpr ⟨node, found, same⟩, found⟩

/-! Order of children. -/

/-- Two trees are the same up to the order of the children, anywhere in them; names of children go with the children. -/
inductive Rearranged : Node → Node → Prop
  | of {tree other : Node} (kind : other.kind = tree.kind) (first : other.first = tree.first)
      (last : other.last = tree.last) (readable : other.readable = tree.readable) (pairs : List (Node × Node))
      (left : (pairs.map Prod.fst).Perm tree.children) (right : (pairs.map Prod.snd).Perm other.children)
      (each : ∀ pair ∈ pairs, Rearranged pair.1 pair.2)
      (named : ∀ name, tree.child? name = none ∧ other.child? name = none ∨
        ∃ pair ∈ pairs, tree.child? name = some pair.1 ∧ other.child? name = some pair.2) : Rearranged tree other

namespace Rearranged

variable {other : Node}

theorem refl (tree : Node) : Rearranged tree tree := by
  refine .of rfl rfl rfl rfl (tree.children.map fun child => (child, child)) ?_ ?_ ?_ ?_
  · rw [List.map_map]
    exact .of_eq (List.map_id _)
  · rw [List.map_map]
    exact .of_eq (List.map_id _)
  · intro pair member
    obtain ⟨child, inside, rfl⟩ := List.mem_map.mp member
    exact refl child
  · intro name
    cases found : tree.child? name with
    | none => exact Or.inl ⟨rfl, rfl⟩
    | some child => exact Or.inr ⟨(child, child), List.mem_map_of_mem (mem_children_of_child? found), rfl, rfl⟩
termination_by tree.size
decreasing_by
  have least := size_le_totalSize inside
  rw [size_eq tree]
  omega

theorem symm (rearranged : Rearranged root other) : Rearranged other root := by
  induction rearranged with
  | of kind first last readable pairs left right each named ih =>
    refine .of kind.symm first.symm last.symm readable.symm (pairs.map Prod.swap) ?_ ?_ ?_ ?_
    · rw [List.map_map]
      exact right
    · rw [List.map_map]
      exact left
    · intro pair member
      obtain ⟨swapped, inside, rfl⟩ := List.mem_map.mp member
      exact ih swapped inside
    · intro name
      rcases named name with ⟨none, also⟩ | ⟨pair, member, own, others⟩
      · exact Or.inl ⟨also, none⟩
      · exact Or.inr ⟨pair.swap, List.mem_map_of_mem member, others, own⟩

theorem kind (rearranged : Rearranged root other) : other.kind = root.kind := by
  cases rearranged
  assumption

theorem bounds (rearranged : Rearranged root other) : other.first = root.first ∧ other.last = root.last := by
  cases rearranged
  constructor <;> assumption

/-- Every child is found again on the other side. -/
theorem child (rearranged : Rearranged root other) (member : node ∈ root.children) :
    ∃ again ∈ other.children, Rearranged node again := by
  cases rearranged with
  | of kind first last readable pairs left right each named =>
    obtain ⟨pair, inside, rfl⟩ := List.mem_map.mp (left.mem_iff.mpr member)
    exact ⟨pair.2, right.mem_iff.mp (List.mem_map_of_mem inside), each pair inside⟩

theorem child? (rearranged : Rearranged root other) {name : String} (found : root.child? name = some node) :
    ∃ again, other.child? name = some again ∧ Rearranged node again := by
  cases rearranged with
  | of kind first last readable pairs left right each named =>
    rcases named name with ⟨none, -⟩ | ⟨pair, inside, own, others⟩
    · rw [none] at found
      cases found
    · obtain rfl : pair.1 = node := Option.some_inj.mp (own.symm.trans found)
      exact ⟨pair.2, others, each pair inside⟩

theorem within (rearranged : Rearranged root other) (inside : Within root node) :
    ∃ again, Within other again ∧ Rearranged node again := by
  obtain ⟨place, found⟩ := inside
  induction place generalizing root other with
  | nil =>
    cases found
    exact ⟨other, .refl other, rearranged⟩
  | cons i place ih =>
    rw [descend?_cons] at found
    obtain ⟨child, there, below⟩ := Option.bind_eq_some_iff.mp found
    obtain ⟨twin, member, alike⟩ := rearranged.child (List.mem_of_getElem? there)
    obtain ⟨again, reached, same⟩ := ih alike below
    exact ⟨again, (within_child member).trans reached, same⟩

end Rearranged

end BytecodeBench.Node
