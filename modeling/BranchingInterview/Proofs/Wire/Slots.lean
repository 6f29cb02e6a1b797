import BranchingInterview.Proofs.Wire.Order
import Mathlib.Data.List.Pairwise

/-!
Drafts that are filled slot by slot. Each member of an object goes into the slot of its name, and no
slot sees what is in another, so the order of the members is of no account.
-/

namespace BranchingInterview.Wire

open Json (Altered Shape aliases)

/-- A place of a draft: the name of the member that fills it, and what that is decoded to. -/
structure Slot (δ : Type) where
  {content : Type}
  name : String
  get : δ → Option content
  set : δ → Option content → δ
  decode : Json → Decoded content

namespace Slot

variable {δ : Type}

def fill (slot : Slot δ) (draft : δ) (value : Json) : Decoded δ :=
  Wire.fill slot.name (slot.get draft) (slot.decode value) >>= fun filled =>
    pure (slot.set draft filled)

/-- Fills the slot of a name. A member that has none is passed over. -/
def visit (slots : List (Slot δ)) (draft : δ) (name : String) (value : Json) : Decoded δ :=
  match slots.find? (·.name == name) with
  | some slot => slot.fill draft value
  | none => passOver draft value

/-- Filling one of two slots leaves the other as it is. -/
structure Separate (left right : Slot δ) : Prop where
  get_left : ∀ draft filled, left.get (right.set draft filled) = left.get draft
  get_right : ∀ draft filled, right.get (left.set draft filled) = right.get draft
  set_comm : ∀ draft first second,
    right.set (left.set draft first) second = left.set (right.set draft second) first

theorem separate_iff {left right : Slot δ} :
    left.Separate right ↔
      (∀ draft filled, left.get (right.set draft filled) = left.get draft) ∧
        (∀ draft filled, right.get (left.set draft filled) = right.get draft) ∧
          ∀ draft first second,
            right.set (left.set draft first) second = left.set (right.set draft second) first :=
  ⟨fun hseparate => ⟨hseparate.get_left, hseparate.get_right, hseparate.set_comm⟩,
    fun ⟨hleft, hright, hcomm⟩ => ⟨hleft, hright, hcomm⟩⟩

instance : Std.Symm (Separate (δ := δ)) where
  symm _ _ hseparate :=
    { get_left := hseparate.get_right
      get_right := hseparate.get_left
      set_comm := fun draft first second => (hseparate.set_comm draft second first).symm }

theorem Separate.fill_swap {left right : Slot δ} (hseparate : left.Separate right) (draft : δ)
    (value held : Json) :
    ((left.fill draft value).toOption.bind fun next => (right.fill next held).toOption) =
      (right.fill draft held).toOption.bind fun next => (left.fill next value).toOption := by
  simp only [fill, toOption_bind, toOption_pure, Option.bind_assoc, Option.bind_some,
    hseparate.get_left, hseparate.get_right, hseparate.set_comm]
  exact Option.bind_comm _ _

variable {shape : Shape} {slots : List (Slot δ)} {name : String}

theorem visit_of_find? {slot : Slot δ} (hfound : slots.find? (·.name == name) = some slot)
    (draft : δ) (value : Json) : visit slots draft name value = slot.fill draft value := by
  rw [visit, hfound]

theorem visit_of_find?_eq_none (hnone : slots.find? (·.name == name) = none) (draft : δ)
    (value : Json) : visit slots draft name value = passOver draft value := by
  rw [visit, hnone]

theorem visit_of_not_mem (hname : name ∉ slots.map Slot.name) (draft : δ) (value : Json) :
    visit slots draft name value = passOver draft value := by
  apply visit_of_find?_eq_none
  rw [List.find?_eq_none]
  intro slot hslot hsame
  exact hname (List.mem_map.2 ⟨slot, hslot, beq_iff_eq.1 hsame⟩)

theorem visit_swap (hseparate : slots.Pairwise Separate) {other : String} (hname : name ≠ other)
    (draft : δ) (value held : Json) :
    ((visit slots draft name value).toOption.bind fun next =>
        (visit slots next other held).toOption) =
      (visit slots draft other held).toOption.bind fun next =>
        (visit slots next name value).toOption := by
  cases hleft : slots.find? (·.name == name) with
  | none =>
      simp only [visit_of_find?_eq_none hleft]
      exact passOver_swap _ draft value
  | some left =>
      cases hright : slots.find? (·.name == other) with
      | none =>
          simp only [visit_of_find?_eq_none hright]
          exact (passOver_swap (fun next => (visit slots next name value).toOption) draft held).symm
      | some right =>
          have hne : left ≠ right := by
            rintro rfl
            have hfirst := List.find?_some hleft
            have hsecond := List.find?_some hright
            exact hname ((beq_iff_eq.1 hfirst).symm.trans (beq_iff_eq.1 hsecond))
          have hboth : left.Separate right := hseparate.forall (List.mem_of_find?_eq_some hleft)
            (List.mem_of_find?_eq_some hright) hne
          simp only [visit_of_find? hleft, visit_of_find? hright]
          exact hboth.fill_swap draft value held

theorem unaffected_visit
    (hdecode : ∀ slot ∈ slots, Unaffected (shape.member slot.name) slot.decode) (draft : δ)
    (name : String) : Unaffected (shape.member name) (visit slots draft name) := by
  intro json other hjson haltered
  cases hfound : slots.find? (·.name == name) with
  | none =>
      rw [visit_of_find?_eq_none hfound, visit_of_find?_eq_none hfound]
      exact unaffected_passOver draft json other hjson haltered
  | some slot =>
      have hslot := hdecode slot (List.mem_of_find?_eq_some hfound)
      have hname : slot.name = name := by
        have hsame := List.find?_some hfound
        exact beq_iff_eq.1 hsame
      rw [hname] at hslot
      rw [visit_of_find? hfound, visit_of_find? hfound]
      exact hslot.fill slot.name (slot.get draft) (slot.set draft) json other hjson haltered

/-- Slots that are separate are filled in any order. -/
theorem unordered_visit (hseparate : slots.Pairwise Separate)
    (hdecode : ∀ slot ∈ slots, Unaffected (shape.member slot.name) slot.decode)
    (hrename : shape = .condition → ∀ draft name second, (name, second) ∈ aliases →
      visit slots draft name = visit slots draft second) :
    Unordered shape fun draft name value => (visit slots draft name value).toOption where
  swap draft left right hapart := visit_swap hseparate hapart.name draft left.2 right.2
  disregards draft name := unaffected_visit hdecode draft name
  rename hcondition draft name second hsecond := by
    rw [hrename hcondition draft name second hsecond]

end Slot

end BranchingInterview.Wire
