import BytecodeBench.Proofs.Integers
import BytecodeBench.Proofs.SignOrder
import BytecodeBench.Proofs.SignSimulation

/-! Characters and parts of strings, on texts and on signs. The sign of a part allows for the characters of the whole
string. But its length is that of what is left out; a part may begin one place before the string; and the first
character is refused. -/

namespace BytecodeBench

namespace Text

def charAt? (text : String) (place : Int) : Option Char :=
  if 0 ≤ place ∧ place < text.length then text.toList[place.toNat]? else none

def part? (text : String) (first last : Int) : Option String :=
  if 0 ≤ first ∧ first ≤ last ∧ last ≤ text.length then
    some (String.ofList ((text.toList.take last.toNat).drop first.toNat))
  else none

variable {text part : String} {first last place : Int} {c : Char}

theorem charAt?_eq_none : charAt? text place = none ↔ place < 0 ∨ (text.length : Int) ≤ place := by
  unfold charAt?
  split
  next inside =>
    have bound : place.toNat < text.toList.length := by
      rw [String.length_toList]
      omega
    rw [List.getElem?_eq_getElem bound]
    simp only [reduceCtorEq, false_iff]
    omega
  next outside =>
    simp only [true_iff]
    omega

theorem charAt?_mem (found : charAt? text place = some c) : c ∈ text.toList := by
  unfold charAt? at found
  split at found
  · exact List.mem_of_getElem? found
  · cases found

theorem part?_eq_none : part? text first last = none ↔ first < 0 ∨ last < first ∨ (text.length : Int) < last := by
  unfold part?
  split
  next inside =>
    simp only [reduceCtorEq, false_iff]
    omega
  next outside =>
    simp only [true_iff]
    omega

/-- A part has the length between its places, and no character that the text has not. -/
theorem part?_eq_some (found : part? text first last = some part) :
    (part.length : Int) = last - first ∧ ∀ c ∈ part.toList, c ∈ text.toList := by
  unfold part? at found
  split at found
  next inside =>
    cases found
    rw [String.length_ofList, String.toList_ofList, List.length_drop, List.length_take, String.length_toList]
    exact ⟨by omega, fun c member => List.mem_of_mem_take (List.mem_of_mem_drop member)⟩
  next => cases found

end Text

namespace Concrete

variable {s : State String} {r : Int} {text : String}

structure IsText (s : State String) (recv : Slot) (text : String) : Prop where
  present : ∀ outcome, refuseNull outcome recv = .ok ()
  known : ∀ expected, textOf s expected recv = .ok text

theorem IsText.reference (held : s.heap.find? (.number r) = some (.text text)) : IsText s (.reference (.int r)) text :=
  ⟨fun _ => rfl, textOf_reference held⟩

theorem IsText.substring {recv : Slot} (isText : IsText s recv text) (first last : Int) :
    call s .substring [.int last, .int first, recv] =
      (Text.part? text first last).elim (.error (.ended .outOfBounds)) fun part => .ok (s.alloc (.text part)) := by
  have checked : call s .substring [.int last, .int first, recv] = (do
      refuseNull .outOfBounds recv
      let text ← textOf s .stringReceiver recv
      if ← (Datum.int first).relate .lt (.int 0) then throw (.ended .outOfBounds)
      if ← (Datum.int last).relate .lt (.int first) then throw (.ended .outOfBounds)
      if ← (Datum.int last).relate .gt (.int text.length) then throw (.ended .outOfBounds)
      return s.alloc (.text (String.ofList ((text.toList.take last.toNat).drop first.toNat)))) := rfl
  have present : refuseNull .outOfBounds recv = pure () := isText.present _
  have known : textOf s .stringReceiver recv = pure text := isText.known _
  rw [checked, present, pure_bind, known, pure_bind]
  unfold Text.part?
  simp only [Datum.relate_int, Relation.holds_compare]
  by_cases negative : first < 0
  · rw [if_neg (by omega), decide_eq_true negative]
    rfl
  by_cases turned : last < first
  · rw [if_neg (by omega), decide_eq_false negative, decide_eq_true turned]
    rfl
  by_cases beyond : (text.length : Int) < last
  · rw [if_neg (by omega), decide_eq_false negative, decide_eq_false turned, decide_eq_true beyond]
    rfl
  · rw [if_pos (by omega), decide_eq_false negative, decide_eq_false turned, decide_eq_false beyond]
    rfl

theorem call_substring (held : s.heap.find? (.number r) = some (.text text)) (first last : Int) :
    call s .substring [.int last, .int first, .reference (.int r)] =
      (Text.part? text first last).elim (.error (.ended .outOfBounds)) fun part => .ok (s.alloc (.text part)) :=
  (IsText.reference held).substring first last

theorem IsText.charAt {recv : Slot} (isText : IsText s recv text) (filled : text.isEmpty = false) (place : Int) :
    call s .charAt [.int place, recv] =
      (Text.charAt? text place).elim (.error (.ended .outOfBounds)) fun c => .ok (.value (.char c), s) := by
  have asked : call s .charAt [.int place, recv] =
      refuseNull .outOfBounds recv >>= fun _ => textOf s .stringReceiver recv >>= _ := rfl
  have present : refuseNull .outOfBounds recv = pure () := isText.present _
  have known : textOf s .stringReceiver recv = pure text := isText.known _
  rw [asked, present, pure_bind, known, pure_bind, filled]
  change (liftM ((Datum.int place).isWithin (.ok text.length)) : Except Halt Bool) >>= _ = _
  rw [Datum.isWithin_int]
  unfold Text.charAt?
  by_cases inside : 0 ≤ place ∧ place < text.length
  · have bound : place.toNat < text.toList.length := by
      rw [String.length_toList]
      omega
    have checked : (liftM (Except.ok true : Except Fault Bool) : Except Halt Bool) = pure true := rfl
    have located : (liftM (Value.int place).content.toPlace : Except Halt Nat) = pure place.toNat := rfl
    rw [if_pos inside, decide_eq_true inside, checked, pure_bind, if_pos rfl, located, pure_bind,
      List.getElem?_eq_getElem bound]
    rfl
  · rw [if_neg inside, decide_eq_false inside]
    rfl

theorem call_charAt (held : s.heap.find? (.number r) = some (.text text)) (filled : text.isEmpty = false) (place : Int) :
    call s .charAt [.int place, .reference (.int r)] =
      (Text.charAt? text place).elim (.error (.ended .outOfBounds)) fun c => .ok (.value (.char c), s) :=
  (IsText.reference held).charAt filled place

end Concrete

namespace Abstract

variable {t : State StringSign} {q : Int} {sign : StringSign}

private theorem receiver_reference (signed : t.heap.find? (.number q) = some (.sign sign)) :
    receiver t (.reference (.int q)) = pure sign := by
  unfold receiver
  rw [signOf_reference signed]
  rfl

theorem call_substring (signed : t.heap.find? (.number q) = some (.sign sign)) (first last : Int) :
    call t .substring [.int last, .int first, .reference (.int q)] =
      (sign.substring first last).elim (.error (.ended .outOfBounds)) fun part => .ok (t.alloc (.sign part)) := by
  have asked : call t .substring [.int last, .int first, .reference (.int q)] =
      receiver t (.reference (.int q)) >>= _ := rfl
  rw [asked, receiver_reference signed, pure_bind]
  cases sign.substring first last <;> rfl

theorem call_charAt (signed : t.heap.find? (.number q) = some (.sign sign)) (place : Int) :
    call t .charAt [.int place, .reference (.int q)] =
      (sign.charAt place).elim (.error (.ended .outOfBounds)) fun one => .ok (t.alloc (.sign one)) := by
  have asked : call t .charAt [.int place, .reference (.int q)] =
      receiver t (.reference (.int q)) >>= _ := rfl
  rw [asked, receiver_reference signed, pure_bind]
  cases sign.charAt place <;> rfl

end Abstract

def State.holding {L : Type} (d : Datum) : State L where
  heap := [(.number 0, d)]
  frames := []
  next := 1
  pool := []
  arrays := {}

namespace StringSign

variable {sign a : StringSign} {text part : String} {first last place : Int}

theorem charAt_eq_none : sign.charAt place = none ↔ place ≤ 0 ∨ sign.length ≤ place := by
  unfold charAt
  split
  next inside =>
    simp only [Bool.and_eq_true, decide_eq_true_eq] at inside
    simp only [reduceCtorEq, false_iff]
    omega
  next outside =>
    simp only [Bool.and_eq_true, decide_eq_true_eq] at outside
    simp only [true_iff]
    omega

private theorem charAt_eq_some (found : sign.charAt place = some a) : a = { sign with length := 1 } := by
  unfold charAt at found
  split at found
  · exact (Option.some.inj found).symm
  · cases found

theorem substring_eq_none : sign.substring first last = none ↔ first < -1 ∨ last < first ∨ sign.length < last := by
  unfold substring
  split
  next refused =>
    simp only [Bool.or_eq_true, decide_eq_true_eq] at refused
    simp only [true_iff]
    omega
  next kept =>
    simp only [Bool.or_eq_true, decide_eq_true_eq] at kept
    simp only [reduceCtorEq, false_iff]
    omega

theorem substring_eq_some (found : sign.substring first last = some a) :
    a = { sign with length := sign.length - (last - first) } := by
  unfold substring at found
  split at found
  · cases found
  · exact (Option.some.inj found).symm

/-- The sign of a text allows for the characters of a text that has no others, whatever length it is given. -/
theorem abstract_narrower (inside : ∀ c ∈ part.toList, c ∈ text.toList) (length : Int) :
    (abstract part).Narrower { abstract text with length } := by
  have own : (abstract text).admitsBy .of text.toList = true := abstractBy_narrower_iff.mp (.refl _)
  have kept : (abstract text).admitsBy .of part.toList = true := by
    rw [admitsBy, List.all_eq_true] at own ⊢
    exact fun c member => own c (inside c member)
  exact abstractBy_narrower_iff.mpr kept

theorem length_abstract (text : String) : (abstract text).length = text.length := by
  rw [← String.length_toList]
  rfl

/-- What an operation makes of the sign of a text stands for what it makes of the text: both are refused or none is, and
the sign has the right length and is above the sign of the result. -/
structure Renders (length : Int) (sign : Option StringSign) (text : Option String) : Prop where
  refused : sign = none ↔ text = none
  above : ∀ part, text = some part → ∃ a, sign = some a ∧ a.length = length ∧ (abstract part).below a = true

theorem Renders.none (length : Int) : Renders length none none :=
  ⟨iff_of_true rfl rfl, fun _ impossible => nomatch impossible⟩

/-- A part of a text is rendered where its places are refused on both sides, and where it is half of the text. -/
theorem renders_substring_iff (text : String) (first last : Int) :
    Renders (last - first) ((abstract text).substring first last) (Text.part? text first last) ↔
      (first < -1 ∨ last < first ∨ (text.length : Int) < last) ∨ (0 ≤ first ∧ 2 * (last - first) = text.length) := by
  have refusedText : Text.part? text first last = none ↔ _ := Text.part?_eq_none
  have refusedSign : (abstract text).substring first last = none ↔ _ := substring_eq_none
  rw [length_abstract] at refusedSign
  by_cases outside : first < -1 ∨ last < first ∨ (text.length : Int) < last
  · have noText : Text.part? text first last = none := refusedText.mpr (by omega)
    rw [refusedSign.mpr outside, noText]
    exact iff_of_true (.none _) (.inl outside)
  -- The sign is cut here; the text is too, unless the part begins one place before it.
  · obtain ⟨a, found⟩ := Option.ne_none_iff_exists'.mp (mt refusedSign.mp outside)
    have length : a.length = text.length - (last - first) := by
      rw [substring_eq_some found, ← length_abstract text]
    constructor
    · intro renders
      have present : Text.part? text first last ≠ none := by
        rw [Ne, ← renders.refused, found]
        exact Option.some_ne_none a
      obtain ⟨part, cut⟩ := Option.ne_none_iff_exists'.mp present
      obtain ⟨b, same, right, -⟩ := renders.above part cut
      obtain rfl : a = b := Option.some.inj (found.symm.trans same)
      have placed := mt refusedText.mpr present
      exact .inr ⟨by omega, by omega⟩
    · rintro (impossible | ⟨begun, half⟩)
      · exact (outside impossible).elim
      have present : Text.part? text first last ≠ none := by
        rw [Ne, refusedText]
        omega
      obtain ⟨part, cut⟩ := Option.ne_none_iff_exists'.mp present
      obtain ⟨size, inside⟩ := Text.part?_eq_some cut
      rw [found, cut]
      refine ⟨iff_of_false (Option.some_ne_none a) (Option.some_ne_none part), ?_⟩
      rintro other ⟨⟩
      refine ⟨a, rfl, by omega, below_iff.mpr ⟨?_, ?_⟩⟩
      · rw [substring_eq_some found]
        exact abstract_narrower inside _
      · rw [length_abstract]
        omega

/-- The character at a place is rendered unless it is the first one. -/
theorem renders_charAt_iff {text : String} (filled : text ≠ "") (place : Int) :
    Renders 1 ((abstract text).charAt place) ((Text.charAt? text place).map String.singleton) ↔ place ≠ 0 := by
  have refusedText : Text.charAt? text place = none ↔ _ := Text.charAt?_eq_none
  have refusedSign : (abstract text).charAt place = none ↔ _ := charAt_eq_none
  rw [length_abstract] at refusedSign
  have long : text.length ≠ 0 := mt String.length_eq_zero_iff.mp filled
  by_cases outside : place < 0 ∨ (text.length : Int) ≤ place
  · rw [refusedSign.mpr (by omega), refusedText.mpr outside]
    exact iff_of_true (.none 1) (by omega)
  · obtain ⟨c, there⟩ := Option.ne_none_iff_exists'.mp (mt refusedText.mp outside)
    rw [there, Option.map_some]
    constructor
    · intro renders first
      have refused := renders.refused.mp (refusedSign.mpr (by omega))
      cases refused
    · intro later
      have present : (abstract text).charAt place ≠ none := by
        rw [Ne, refusedSign]
        omega
      obtain ⟨a, found⟩ := Option.ne_none_iff_exists'.mp present
      rw [found]
      refine ⟨iff_of_false (Option.some_ne_none a) (Option.some_ne_none _), ?_⟩
      rintro other ⟨⟩
      obtain rfl := charAt_eq_some found
      refine ⟨_, rfl, rfl, below_iff.mpr ⟨?_, ?_⟩⟩
      · refine abstract_narrower ?_ 1
        intro d member
        rw [String.toList_singleton, List.mem_singleton] at member
        exact member ▸ Text.charAt?_mem there
      · rw [length_abstract]
        simp

/-! The two machines. -/

section Machines

variable {s : State String} {t : State StringSign} {r q : Int}

/-- The machine on texts cuts out the part between two places of the text, or refuses them. The machine on signs refuses
the same places but for a first one of minus one, and always allows for the characters of the part, but it keeps the
length of the rest. So the sign is right exactly where both refuse, and for halves of the text. -/
theorem substrings_rendered_iff_halves (held : s.heap.find? (.number r) = some (.text text))
    (signed : t.heap.find? (.number q) = some (.sign (abstract text))) (first last : Int) :
    Concrete.call s .substring [.int last, .int first, .reference (.int r)] =
      (Text.part? text first last).elim (.error (.ended .outOfBounds)) (fun part => .ok (s.alloc (.text part))) ∧
    Abstract.call t .substring [.int last, .int first, .reference (.int q)] =
      ((abstract text).substring first last).elim (.error (.ended .outOfBounds)) (fun a => .ok (t.alloc (.sign a))) ∧
    (Text.part? text first last = none ↔ first < 0 ∨ last < first ∨ (text.length : Int) < last) ∧
    ((abstract text).substring first last = none ↔ first < -1 ∨ last < first ∨ (text.length : Int) < last) ∧
    (∀ part a, Text.part? text first last = some part → (abstract text).substring first last = some a →
      (abstract part).Narrower a ∧ a.length = text.length - (last - first)) ∧
    (Renders (last - first) ((abstract text).substring first last) (Text.part? text first last) ↔
      (first < -1 ∨ last < first ∨ (text.length : Int) < last) ∨ (0 ≤ first ∧ 2 * (last - first) = text.length)) := by
  refine ⟨Concrete.call_substring held first last, Abstract.call_substring signed first last, Text.part?_eq_none,
    ?_, ?_, renders_substring_iff text first last⟩
  · rw [substring_eq_none, length_abstract]
  · intro part a cut found
    rw [substring_eq_some found, ← length_abstract text]
    exact ⟨abstract_narrower (Text.part?_eq_some cut).2 _, rfl⟩

/-- The middle of four characters is half of them. -/
theorem middle_rendered :
    Concrete.call (.holding (.text "a7Ω-")) .substring [.int 3, .int 1, .reference (.int 0)] =
      .ok (State.alloc (.holding (.text "a7Ω-")) (.text "7Ω")) ∧
    Renders 2 ((abstract "a7Ω-").substring 1 3) (some "7Ω") := by
  have cut : Text.part? "a7Ω-" 1 3 = some "7Ω" := by decide
  obtain ⟨called, -, -, -, -, rendered⟩ := substrings_rendered_iff_halves
    (s := .holding (.text "a7Ω-")) (t := .holding (.sign (abstract "a7Ω-"))) (r := 0) (q := 0) rfl rfl 1 3
  rw [cut] at called rendered
  exact ⟨called, rendered.mpr (by decide)⟩

/-- All of a text is taken for none of it, and a place before the text is not refused. -/
theorem whole_and_early_parts_not_rendered :
    (Text.part? "abc" 0 3 = some "abc" ∧ ((abstract "abc").substring 0 3).map length = some 0 ∧
      ¬ Renders (3 - 0) ((abstract "abc").substring 0 3) (Text.part? "abc" 0 3)) ∧
    Concrete.call (.holding (.text "abc")) .substring [.int 2, .int (-1), .reference (.int 0)] =
      .error (.ended .outOfBounds) ∧
    (abstract "abc").substring (-1) 2 ≠ none ∧
    ¬ Renders (2 - -1) ((abstract "abc").substring (-1) 2) (Text.part? "abc" (-1) 2) := by
  have whole : ¬ Renders (3 - 0) ((abstract "abc").substring 0 3) (Text.part? "abc" 0 3) := by
    rw [renders_substring_iff]
    decide
  have early : ¬ Renders (2 - -1) ((abstract "abc").substring (-1) 2) (Text.part? "abc" (-1) 2) := by
    rw [renders_substring_iff]
    decide
  have kept : (abstract "abc").substring (-1) 2 ≠ none := by
    rw [Ne, substring_eq_none, length_abstract]
    decide
  exact ⟨⟨by decide, rfl, whole⟩, Concrete.call_substring (r := 0) rfl _ _, kept, early⟩

/-- The machine on texts gives the character at a place of a text that has any, or refuses the place. The machine on signs
refuses the same places and the first one too, and is right everywhere else. -/
theorem characters_rendered_iff_not_first (held : s.heap.find? (.number r) = some (.text text))
    (signed : t.heap.find? (.number q) = some (.sign (abstract text))) (filled : text ≠ "") (place : Int) :
    Concrete.call s .charAt [.int place, .reference (.int r)] =
      (Text.charAt? text place).elim (.error (.ended .outOfBounds)) (fun c => .ok (.value (.char c), s)) ∧
    Abstract.call t .charAt [.int place, .reference (.int q)] =
      ((abstract text).charAt place).elim (.error (.ended .outOfBounds)) (fun a => .ok (t.alloc (.sign a))) ∧
    (Text.charAt? text place = none ↔ place < 0 ∨ (text.length : Int) ≤ place) ∧
    ((abstract text).charAt place = none ↔ place ≤ 0 ∨ (text.length : Int) ≤ place) ∧
    (Renders 1 ((abstract text).charAt place) ((Text.charAt? text place).map String.singleton) ↔ place ≠ 0) := by
  refine ⟨Concrete.call_charAt held ?_ place, Abstract.call_charAt signed place, Text.charAt?_eq_none, ?_,
    renders_charAt_iff filled place⟩
  · simpa using filled
  · rw [charAt_eq_none, length_abstract]

theorem last_character_rendered :
    Concrete.call (.holding (.text "a7Ω")) .charAt [.int 2, .reference (.int 0)] =
      .ok (.value (.char 'Ω'), .holding (.text "a7Ω")) ∧
    Renders 1 ((abstract "a7Ω").charAt 2) (some "Ω") := by
  have there : Text.charAt? "a7Ω" 2 = some 'Ω' := by decide
  obtain ⟨called, -, -, -, rendered⟩ := characters_rendered_iff_not_first
    (s := .holding (.text "a7Ω")) (t := .holding (.sign (abstract "a7Ω"))) (r := 0) (q := 0) rfl rfl (by decide) 2
  rw [there] at called rendered
  exact ⟨called, rendered.mpr (by decide)⟩

/-- The first character of a text is refused on signs. -/
theorem first_character_not_rendered :
    Concrete.call (.holding (.text "abc")) .charAt [.int 0, .reference (.int 0)] =
      .ok (.value (.char 'a'), .holding (.text "abc")) ∧
    (abstract "abc").charAt 0 = none ∧
    ¬ Renders 1 ((abstract "abc").charAt 0) ((Text.charAt? "abc" 0).map String.singleton) := by
  have refused : (abstract "abc").charAt 0 = none := charAt_eq_none.mpr (by decide)
  have wrong : ¬ Renders 1 ((abstract "abc").charAt 0) ((Text.charAt? "abc" 0).map String.singleton) := by
    rw [renders_charAt_iff (by decide)]
    decide
  have filled : "abc".isEmpty = false := by decide
  exact ⟨Concrete.call_charAt (r := 0) rfl filled 0, refused, wrong⟩

end Machines

end StringSign
end BytecodeBench
