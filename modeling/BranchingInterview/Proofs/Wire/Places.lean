import BranchingInterview.Wire.Clause
import BranchingInterview.Wire.Interview

/-!
Places in JSON trees, and where in the JSON of a formula, a chain or an interview its conditions
stand. Every condition has a place of its own.
-/

namespace BranchingInterview

namespace Json

inductive Step
  | member (name : String)
  | item (index : Nat)
deriving DecidableEq

/-- The steps from a tree down to one of its parts. -/
abbrev Place := List Step

def part? : Json → Place → Option Json
  | json, [] => some json
  | object members, .member name :: place =>
      (lookupEntry name members).bind fun value => value.part? place
  | array items, .item index :: place => items[index]?.bind fun item => item.part? place
  | _, _ :: _ => none

/-- Puts another tree in the place of a part. -/
def put : Json → Place → Json → Json
  | _, [], new => new
  | object members, .member name :: place, new =>
      object (members.map fun member =>
        (member.1, if member.1 = name then member.2.put place new else member.2))
  | array items, .item index :: place, new =>
      array (items.modify index fun item => item.put place new)
  | json, _ :: _, _ => json

variable {new value : Json} {place : Place}

@[simp]
theorem part?_item (before after : List Json) :
    (array (before ++ value :: after)).part? (.item before.length :: place) =
      value.part? place := by
  rw [part?, List.getElem?_append_right (Nat.le_refl _), Nat.sub_self]
  rfl

@[simp]
theorem put_item (before after : List Json) :
    (array (before ++ value :: after)).put (.item before.length :: place) new =
      array (before ++ value.put place new :: after) := by
  rw [put]
  congr 1
  induction before with
  | nil => rfl
  | cons item before ih => exact congrArg (item :: ·) ih

section Members

variable {name : String} {before after : List (String × Json)}
  (hnames : ∀ member ∈ before ++ after, member.1 ≠ name)
include hnames

theorem part?_member :
    (object (before ++ (name, value) :: after)).part? (.member name :: place) =
      value.part? place := by
  have hbefore : before.find? (fun member => member.1 == name) = none := by
    rw [List.find?_eq_none]
    intro member hmember
    simpa using hnames member (List.mem_append_left after hmember)
  rw [part?, lookupEntry, List.find?_append, hbefore]
  simp

theorem put_member :
    (object (before ++ (name, value) :: after)).put (.member name :: place) new =
      object (before ++ (name, value.put place new) :: after) := by
  have hkept {members : List (String × Json)} (hmembers : ∀ member ∈ members, member.1 ≠ name) :
      (members.map fun member =>
        (member.1, if member.1 = name then member.2.put place new else member.2)) = members := by
    refine (List.map_congr_left fun member hmember => ?_).trans (List.map_id members)
    rw [if_neg (hmembers member hmember)]
    rfl
  rw [put, List.map_append, List.map_cons, if_pos rfl,
    hkept fun member hmember => hnames member (List.mem_append_left after hmember),
    hkept fun member hmember => hnames member (List.mem_append_right before hmember)]

end Members

end Json

/-- Conditions, each with the place of its operator in a tree. -/
abbrev Placed := List (Json.Place × Comparison)

namespace Placed

variable {α : Type}

/-- The conditions of a part, seen from the tree that has it at a step. -/
def below (step : Json.Step) (placed : Placed) : Placed :=
  placed.map fun entry => (step :: entry.1, entry.2)

def ofItems (placed : α → Placed) : Nat → List α → Placed
  | _, [] => []
  | index, item :: rest => (placed item).below (.item index) ++ ofItems placed (index + 1) rest

@[simp]
theorem map_snd_below (step : Json.Step) (placed : Placed) :
    (placed.below step).map Prod.snd = placed.map Prod.snd := by
  rw [below, List.map_map]
  rfl

theorem map_snd_ofItems (placed : α → Placed) (index : Nat) (items : List α) :
    (ofItems placed index items).map Prod.snd =
      items.flatMap fun item => (placed item).map Prod.snd := by
  induction items generalizing index with
  | nil => rfl
  | cons item rest ih => rw [ofItems, List.map_append, map_snd_below, ih, List.flatMap_cons]

theorem mem_below {step : Json.Step} {placed : Placed} {entry : Json.Place × Comparison}
    (hentry : entry ∈ placed.below step) :
    ∃ place, entry.1 = step :: place ∧ (place, entry.2) ∈ placed := by
  obtain ⟨inner, hinner, rfl⟩ := List.mem_map.1 hentry
  exact ⟨inner.1, rfl, hinner⟩

theorem mem_ofItems {placed : α → Placed} {index : Nat} {items : List α}
    {entry : Json.Place × Comparison} (hentry : entry ∈ ofItems placed index items) :
    ∃ before item after place, items = before ++ item :: after ∧
      entry.1 = .item (index + before.length) :: place ∧ (place, entry.2) ∈ placed item := by
  induction items generalizing index with
  | nil => cases hentry
  | cons item rest ih =>
      rcases List.mem_append.1 hentry with hitem | hrest
      · obtain ⟨place, hplace, hmem⟩ := mem_below hitem
        exact ⟨[], item, rest, place, rfl, hplace, hmem⟩
      · obtain ⟨before, found, after, place, rfl, hplace, hmem⟩ := ih hrest
        refine ⟨item :: before, found, after, place, rfl, ?_, hmem⟩
        rw [hplace, List.length_cons, Nat.add_comm before.length, Nat.add_assoc]

/-- The place of a condition of an item leads through the array into the item. -/
theorem exists_item {placed : α → Placed} {items : List α} {entry : Json.Place × Comparison}
    (hentry : entry ∈ ofItems placed 0 items) (encode : α → Json) :
    ∃ before item after place, items = before ++ item :: after ∧ (place, entry.2) ∈ placed item ∧
      (Json.array (items.map encode)).part? entry.1 = (encode item).part? place ∧
      ∀ new, (Json.array (items.map encode)).put entry.1 new =
        .array (before.map encode ++ (encode item).put place new :: after.map encode) := by
  obtain ⟨before, item, after, place, rfl, hplace, hmem⟩ := mem_ofItems hentry
  rw [Nat.zero_add, ← List.length_map encode] at hplace
  refine ⟨before, item, after, place, rfl, hmem, ?_, fun new => ?_⟩
  · rw [hplace, List.map_append, List.map_cons, Json.part?_item]
  · rw [hplace, List.map_append, List.map_cons, Json.put_item]

end Placed

def Comparison.placed (comparison : Comparison) : Placed := [([.member "operator"], comparison)]

namespace Formula

mutual

def placed : Formula → Placed
  | leaf comparison => comparison.placed
  | group _ _ conditions => (placedInAll 0 conditions).below (.member "conditions")

def placedInAll : Nat → List Formula → Placed
  | _, [] => []
  | index, condition :: rest =>
      condition.placed.below (.item index) ++ placedInAll (index + 1) rest

end

theorem placedInAll_eq (index : Nat) (conditions : List Formula) :
    placedInAll index conditions = .ofItems placed index conditions := by
  induction conditions generalizing index with
  | nil => rfl
  | cons condition rest ih => rw [placedInAll, Placed.ofItems, ih]

mutual

theorem map_snd_placed : ∀ formula : Formula, formula.placed.map Prod.snd = formula.leaves
  | leaf _ => rfl
  | group _ _ conditions => by
      rw [placed, Placed.map_snd_below, map_snd_placedInAll 0 conditions, leaves]

theorem map_snd_placedInAll : ∀ (index : Nat) (conditions : List Formula),
    (placedInAll index conditions).map Prod.snd = leavesOfAll conditions
  | _, [] => rfl
  | index, condition :: rest => by
      rw [placedInAll, List.map_append, Placed.map_snd_below, map_snd_placed condition,
        map_snd_placedInAll (index + 1) rest, leavesOfAll]

end

end Formula

namespace Chain

/-- The conditions of the guards, from the first branch on. -/
def placed : Chain → Placed
  | otherwise _ => []
  | branch first rest =>
      first.guard.toFormula.placed.below (.member "conditionGroup") ++
        rest.placed.below (.member "elseClause")

theorem map_snd_placed (chain : Chain) : chain.placed.map Prod.snd = chain.conditions := by
  induction chain with
  | otherwise action => rfl
  | branch first rest ih =>
      rw [placed, List.map_append, Placed.map_snd_below, Placed.map_snd_below, ih,
        Formula.map_snd_placed, conditions]
      rfl

end Chain

def Clause.placed (clause : Clause) : Placed := clause.toChain.placed

namespace Interview

/-- The conditions of the candidates, screen by screen. -/
def placed (interview : Interview) : Placed :=
  interview.actions.entries.flatMap fun entry =>
    ((Placed.ofItems (fun candidate : Candidate => candidate.condition.placed) 0 entry.2).below
      (.member entry.1)).below (.member "actions")

theorem map_snd_placed (interview : Interview) :
    interview.placed.map Prod.snd =
      interview.actions.entries.flatMap fun entry => entry.2.map Candidate.condition := by
  rw [placed, List.map_flatMap]
  simp only [Placed.map_snd_below, Placed.map_snd_ofItems]
  exact congrArg interview.actions.entries.flatMap
    (funext fun _ => List.map_eq_flatMap.symm)

end Interview

end BranchingInterview
