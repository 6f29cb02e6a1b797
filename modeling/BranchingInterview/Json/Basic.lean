import BranchingInterview.KeyMap
import BranchingInterview.Double.Shortest

/-!
JSON trees. The members of an object keep the order in which they were written. A text that is not
JSON, or not a value everywhere, still has a tree: a flaw stands where there is no value.
-/

namespace BranchingInterview

inductive Number
  | integer (value : Int)
  | double (value : Double)
deriving DecidableEq

namespace Json

/-- What a value is, without the content of containers. -/
inductive Found
  | null
  | bool (value : Bool)
  | number (value : Number)
  | string (value : String)
  | sequence
  | map
deriving DecidableEq

end Json

/-- Why a place in a text holds no value. -/
inductive Flaw
  /-- The text is not JSON from here on. -/
  | malformed
  /-- The text is not JSON from here on, where the name of a member should start. There may be
  another value instead. -/
  | nameless (instead : Option Json.Found)
  /-- A member whose name is well formed but not a text. -/
  | misnamed
  /-- Well formed, but not a value: a number too large, half a character, or nesting too deep. -/
  | unrepresentable
deriving DecidableEq

def Flaw.breaksOff : Flaw → Bool
  | malformed | nameless _ => true
  | misnamed | unrepresentable => false

inductive Json
  | null
  | bool (value : Bool)
  | number (value : Number)
  | string (value : String)
  | array (items : List Json)
  | object (members : List (String × Json))
  | flaw (reason : Flaw)

namespace Json

instance : Inhabited Json := ⟨null⟩

def integer (value : Int) : Json := number (.integer value)

/-- What a tree is, unless it is a flaw. -/
def found? : Json → Option Found
  | null => some .null
  | bool value => some (.bool value)
  | number value => some (.number value)
  | string value => some (.string value)
  | array _ => some .sequence
  | object _ => some .map
  | flaw _ => none

def strings (values : List String) : Json := array (values.map string)

mutual

def decEq : (left right : Json) → Decidable (left = right)
  | null, right => by
      cases right
      · exact isTrue rfl
      all_goals exact isFalse nofun
  | bool value, right => by
      cases right
      case bool other =>
        exact if heq : value = other then isTrue (heq ▸ rfl)
          else isFalse fun h => heq (Json.bool.inj h)
      all_goals exact isFalse nofun
  | number value, right => by
      cases right
      case number other =>
        exact if heq : value = other then isTrue (heq ▸ rfl)
          else isFalse fun h => heq (Json.number.inj h)
      all_goals exact isFalse nofun
  | string value, right => by
      cases right
      case string other =>
        exact if heq : value = other then isTrue (heq ▸ rfl)
          else isFalse fun h => heq (Json.string.inj h)
      all_goals exact isFalse nofun
  | array items, right => by
      cases right
      case array others =>
        exact match decEqItems items others with
          | isTrue heq => isTrue (heq ▸ rfl)
          | isFalse hne => isFalse fun h => hne (Json.array.inj h)
      all_goals exact isFalse nofun
  | object members, right => by
      cases right
      case object others =>
        exact match decEqMembers members others with
          | isTrue heq => isTrue (heq ▸ rfl)
          | isFalse hne => isFalse fun h => hne (Json.object.inj h)
      all_goals exact isFalse nofun
  | flaw reason, right => by
      cases right
      case flaw other =>
        exact if heq : reason = other then isTrue (heq ▸ rfl)
          else isFalse fun h => heq (Json.flaw.inj h)
      all_goals exact isFalse nofun

def decEqItems : (left right : List Json) → Decidable (left = right)
  | [], [] => isTrue rfl
  | [], _ :: _ => isFalse nofun
  | _ :: _, [] => isFalse nofun
  | item :: items, other :: others =>
      match decEq item other, decEqItems items others with
      | isTrue hitem, isTrue hitems => isTrue (by rw [hitem, hitems])
      | isFalse hne, _ => isFalse fun h => hne (List.cons.inj h).1
      | _, isFalse hne => isFalse fun h => hne (List.cons.inj h).2

def decEqMembers : (left right : List (String × Json)) → Decidable (left = right)
  | [], [] => isTrue rfl
  | [], _ :: _ => isFalse nofun
  | _ :: _, [] => isFalse nofun
  | (name, value) :: members, (otherName, otherValue) :: others =>
      match decEq value otherValue, decEqMembers members others with
      | isTrue hvalue, isTrue hmembers =>
          if hname : name = otherName then isTrue (by rw [hname, hvalue, hmembers])
          else isFalse fun h => hname (Prod.mk.inj (List.cons.inj h).1).1
      | isFalse hne, _ => isFalse fun h => hne (Prod.mk.inj (List.cons.inj h).1).2
      | _, isFalse hne => isFalse fun h => hne (List.cons.inj h).2

end

instance : DecidableEq Json := decEq

mutual

def depth : Json → Nat
  | array items => depthOfItems items + 1
  | object members => depthOfMembers members + 1
  | _ => 0

def depthOfItems : List Json → Nat
  | [] => 0
  | item :: rest => max item.depth (depthOfItems rest)

def depthOfMembers : List (String × Json) → Nat
  | [] => 0
  | (_, value) :: rest => max value.depth (depthOfMembers rest)

end

mutual

/-- The text reads as JSON throughout. -/
def isGrammatical : Json → Bool
  | array items => areGrammatical items
  | object members => haveGrammaticalValues members
  | flaw reason => !reason.breaksOff
  | _ => true

def areGrammatical : List Json → Bool
  | [] => true
  | item :: rest => item.isGrammatical && areGrammatical rest

def haveGrammaticalValues : List (String × Json) → Bool
  | [] => true
  | (_, value) :: rest => value.isGrammatical && haveGrammaticalValues rest

end

mutual

/-- There is a value everywhere. -/
def isWhole : Json → Bool
  | array items => areWhole items
  | object members => haveWholeValues members
  | flaw _ => false
  | _ => true

def areWhole : List Json → Bool
  | [] => true
  | item :: rest => item.isWhole && areWhole rest

def haveWholeValues : List (String × Json) → Bool
  | [] => true
  | (_, value) :: rest => value.isWhole && haveWholeValues rest

end

mutual

theorem isGrammatical_of_isWhole : ∀ {json : Json},
    json.isWhole = true → json.isGrammatical = true
  | .null, _ | .bool _, _ | .number _, _ | .string _, _ => rfl
  | .array _, hwhole => areGrammatical_of_areWhole hwhole
  | .object _, hwhole => haveGrammaticalValues_of_haveWholeValues hwhole

theorem areGrammatical_of_areWhole : ∀ {items : List Json},
    areWhole items = true → areGrammatical items = true
  | [], _ => rfl
  | _ :: _, hwhole => by
      rw [areWhole, Bool.and_eq_true] at hwhole
      rw [areGrammatical, isGrammatical_of_isWhole hwhole.1, areGrammatical_of_areWhole hwhole.2]
      rfl

theorem haveGrammaticalValues_of_haveWholeValues : ∀ {members : List (String × Json)},
    haveWholeValues members = true → haveGrammaticalValues members = true
  | [], _ => rfl
  | (_, _) :: _, hwhole => by
      rw [haveWholeValues, Bool.and_eq_true] at hwhole
      rw [haveGrammaticalValues, isGrammatical_of_isWhole hwhole.1,
        haveGrammaticalValues_of_haveWholeValues hwhole.2]
      rfl

end

/-- A property of all trees is shown of a container from its parts. -/
@[elab_as_elim]
theorem induct {motive : Json → Prop} (null : motive null) (bool : ∀ value, motive (bool value))
    (number : ∀ value, motive (number value)) (string : ∀ value, motive (string value))
    (array : ∀ items, (∀ item ∈ items, motive item) → motive (array items))
    (object : ∀ members, (∀ member ∈ members, motive member.2) → motive (object members))
    (flaw : ∀ reason, motive (flaw reason)) (json : Json) : motive json :=
  @Json.rec motive (fun items => ∀ item ∈ items, motive item)
    (fun members => ∀ member ∈ members, motive member.2) (fun member => motive member.2)
    null bool number string array object flaw
    (List.forall_mem_nil _) (fun _ _ hitem hrest => List.forall_mem_cons.2 ⟨hitem, hrest⟩)
    (List.forall_mem_nil _) (fun _ _ hmember hrest => List.forall_mem_cons.2 ⟨hmember, hrest⟩)
    (fun _ _ hvalue => hvalue) json

end Json

end BranchingInterview
