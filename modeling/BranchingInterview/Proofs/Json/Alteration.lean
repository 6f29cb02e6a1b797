import BranchingInterview.Proofs.Json.ReadBack
import BranchingInterview.Wire.Decoding
import Mathlib.Data.List.Nodup

/-!
Trees that differ in the order of members, or in which of its two names a field of a condition has.
Where the conditions of a tree are depends on what the tree is decoded as.
-/

namespace BranchingInterview

open Wire

namespace Json

mutual

/-- The members of every object in a tree. -/
def objects : Json → List (List (String × Json))
  | array items => objectsOfItems items
  | object members => members :: objectsOfMembers members
  | _ => []

def objectsOfItems : List Json → List (List (String × Json))
  | [] => []
  | item :: rest => item.objects ++ objectsOfItems rest

def objectsOfMembers : List (String × Json) → List (List (String × Json))
  | [] => []
  | (_, value) :: rest => value.objects ++ objectsOfMembers rest

end

/-- The names of members, but for those whose name is not a text. -/
def namesOf (members : List (String × Json)) : List String :=
  (members.filter fun member => !isUnnamed member.2).map Prod.fst

/-- No object repeats a name. -/
def HasDistinctNames (json : Json) : Prop :=
  ∀ members ∈ json.objects, (namesOf members).Nodup

/-- What says that an action skips screens: the name of its kind, or an object with that alone. -/
def NamesSkip (json : Json) : Prop :=
  json = string "skip" ∨ json = object [("skip", null)]

instance (json : Json) : Decidable json.NamesSkip :=
  inferInstanceAs (Decidable (json = string "skip" ∨ json = object [("skip", null)]))

/-- The payload of a skip has a value everywhere. -/
def HasWholeSkips (json : Json) : Prop :=
  ∀ members ∈ json.objects, ∀ kind ∈ members, kind.1 = "type" → kind.2.NamesSkip →
    ∀ payload ∈ members, payload.1 = "payload" → payload.2.isWhole = true

instance (json : Json) : Decidable json.HasDistinctNames :=
  inferInstanceAs (Decidable (∀ members ∈ json.objects, (namesOf members).Nodup))

instance (json : Json) : Decidable json.HasWholeSkips :=
  inferInstanceAs (Decidable (∀ members ∈ json.objects,
    ∀ kind ∈ members, kind.1 = "type" → kind.2.NamesSkip →
      ∀ payload ∈ members, payload.1 = "payload" → payload.2.isWhole = true))

/-- A tree for which the order of members is of no account. -/
structure Orderly (json : Json) : Prop where
  distinct : json.HasDistinctNames
  skips : json.HasWholeSkips

/-- Where the conditions of a tree are: in the objects that stand at a `condition`. -/
inductive Shape
  | plain
  | interview
  | byScreen
  | conditions
  | condition
  | clause
deriving DecidableEq

namespace Shape

def member : Shape → String → Shape
  | interview, "actions" => byScreen
  | byScreen, _ => conditions
  | condition, "conditions" => conditions
  | clause, "conditionGroup" => condition
  | clause, "elseClause" => clause
  | _, _ => plain

/-- An array that is no list gives the fields of an object in their order; that of a clause gives
all four. -/
def item : Shape → (index size : Nat) → Shape
  | conditions, _, _ => condition
  | interview, 4, _ => byScreen
  | condition, 2, _ => conditions
  | clause, 1, 4 => condition
  | clause, 3, 4 => clause
  | _, _, _ => plain

theorem member_type_ne (shape : Shape) : shape.member "type" ≠ .condition := by
  cases shape <;> decide

end Shape

/-- The fields of a condition that have a second name. -/
def aliases : List (String × String) :=
  [("operator", "conditionalOperator"), ("responseKeyField", "responseKeyLookupField")]

/-- One alteration of a tree: the members of one object get another order, or one field of a
condition gets its second name. -/
inductive Altered : Shape → Json → Json → Prop
  | reorder {shape : Shape} {members others : List (String × Json)} (hperm : members.Perm others) :
      Altered shape (object members) (object others)
  | rename {before after : List (String × Json)} {name second : String} {value : Json}
      (hsecond : (name, second) ∈ aliases) (hfree : second ∉ namesOf (before ++ after)) :
      Altered .condition (object (before ++ (name, value) :: after))
        (object (before ++ (second, value) :: after))
  | member {shape : Shape} {before after : List (String × Json)} {name : String}
      {value other : Json} (hvalue : Altered (shape.member name) value other) :
      Altered shape (object (before ++ (name, value) :: after))
        (object (before ++ (name, other) :: after))
  | item {shape : Shape} {before after : List Json} {value other : Json}
      (hvalue : Altered (shape.item before.length (before.length + after.length + 1)) value other) :
      Altered shape (array (before ++ value :: after)) (array (before ++ other :: after))

section

variable {shape : Shape} {json other : Json}

theorem areGrammatical_iff {items : List Json} :
    areGrammatical items = true ↔ ∀ item ∈ items, item.isGrammatical = true := by
  induction items with
  | nil => simp [areGrammatical]
  | cons item rest ih => simp [areGrammatical, ih]

theorem haveGrammaticalValues_iff {members : List (String × Json)} :
    haveGrammaticalValues members = true ↔ ∀ member ∈ members, member.2.isGrammatical = true := by
  induction members with
  | nil => simp [haveGrammaticalValues]
  | cons member rest ih => simp [haveGrammaticalValues, ih]

/-- Whatever holds of a container if it holds of its parts does not depend on alterations. -/
theorem Altered.iff_of_parts (holds : Json → Prop)
    (harray : ∀ items, holds (array items) ↔ ∀ item ∈ items, holds item)
    (hobject : ∀ members, holds (object members) ↔ ∀ member ∈ members, holds member.2)
    (haltered : Altered shape json other) : holds json ↔ holds other := by
  induction haltered with
  | reorder hperm =>
      rw [hobject, hobject]
      exact ⟨fun hall member hmember => hall member (hperm.mem_iff.2 hmember),
        fun hall member hmember => hall member (hperm.mem_iff.1 hmember)⟩
  | rename hsecond hfree =>
      simp only [hobject, List.forall_mem_append, List.forall_mem_cons]
  | member hvalue ih =>
      simp only [hobject, List.forall_mem_append, List.forall_mem_cons, ih]
  | item hvalue ih =>
      simp only [harray, List.forall_mem_append, List.forall_mem_cons, ih]

theorem Altered.isWhole_eq (haltered : Altered shape json other) : json.isWhole = other.isWhole :=
  Bool.eq_iff_iff.2 (haltered.iff_of_parts (isWhole · = true)
    (fun _ => areWhole_iff) fun _ => haveWholeValues_iff)

theorem Altered.isGrammatical_eq (haltered : Altered shape json other) :
    json.isGrammatical = other.isGrammatical :=
  Bool.eq_iff_iff.2 (haltered.iff_of_parts (isGrammatical · = true)
    (fun _ => areGrammatical_iff) fun _ => haveGrammaticalValues_iff)

theorem depthOfItems_append (first rest : List Json) :
    depthOfItems (first ++ rest) = max (depthOfItems first) (depthOfItems rest) := by
  induction first with
  | nil => exact (Nat.zero_max _).symm
  | cons item first ih => rw [List.cons_append, depthOfItems, depthOfItems, ih, Nat.max_assoc]

theorem depthOfMembers_append (first rest : List (String × Json)) :
    depthOfMembers (first ++ rest) = max (depthOfMembers first) (depthOfMembers rest) := by
  induction first with
  | nil => exact (Nat.zero_max _).symm
  | cons member first ih =>
      rw [List.cons_append, depthOfMembers, depthOfMembers, ih, Nat.max_assoc]

theorem Altered.depth_eq (haltered : Altered shape json other) : json.depth = other.depth := by
  induction haltered with
  | reorder hperm =>
      refine congrArg (· + 1) (Nat.le_antisymm ?_ ?_)
      · exact depthOfMembers_le.2 fun member hmember =>
          depthOfMembers_le.1 (Nat.le_refl _) member (hperm.mem_iff.1 hmember)
      · exact depthOfMembers_le.2 fun member hmember =>
          depthOfMembers_le.1 (Nat.le_refl _) member (hperm.mem_iff.2 hmember)
  | rename hsecond hfree =>
      rw [depth, depth, depthOfMembers_append, depthOfMembers_append]
      rfl
  | member hvalue ih =>
      rw [depth, depth, depthOfMembers_append, depthOfMembers_append, depthOfMembers,
        depthOfMembers, ih]
  | item hvalue ih =>
      rw [depth, depth, depthOfItems_append, depthOfItems_append, depthOfItems, depthOfItems, ih]

theorem Altered.isUnnamed_eq (haltered : Altered shape json other) :
    isUnnamed json = isUnnamed other := by
  cases haltered <;> rfl

theorem Altered.exists_members {members : List (String × Json)}
    (haltered : Altered shape (object members) other) : ∃ others, other = object others := by
  cases haltered <;> exact ⟨_, rfl⟩

theorem Altered.ne_null (haltered : Altered shape json other) : json ≠ null ∧ other ≠ null := by
  constructor
  · rintro rfl
    cases haltered
  · rintro rfl
    cases haltered

/-- A name that is given as the only member of an object stays one. -/
theorem Altered.eq_onlyMember_iff (haltered : Altered shape json other)
    (hshape : shape ≠ .condition) (name : String) :
    json = object [(name, null)] ↔ other = object [(name, null)] := by
  cases haltered with
  | reorder hperm =>
      rw [object.injEq, object.injEq]
      constructor
      · rintro rfl
        exact (List.singleton_perm.1 hperm).symm
      · rintro rfl
        exact List.perm_singleton.1 hperm
  | rename => exact absurd rfl hshape
  | @member _ before after found value other hvalue =>
      have hsingle (held : Json) (heq : object (before ++ (found, held) :: after) =
          object [(name, null)]) : held = null := by
        have hmem : (found, held) ∈ before ++ (found, held) :: after := by simp
        rw [object.inj heq] at hmem
        exact congrArg Prod.snd (List.mem_singleton.1 hmem)
      exact iff_of_false (fun heq => hvalue.ne_null.1 (hsingle value heq))
        fun heq => hvalue.ne_null.2 (hsingle other heq)
  | item =>
      refine iff_of_false (fun heq => ?_) fun heq => ?_
      · cases heq
      · cases heq

theorem Altered.namesSkip_iff (haltered : Altered shape json other) (hshape : shape ≠ .condition) :
    json.NamesSkip ↔ other.NamesSkip := by
  have hstring : json = string "skip" ↔ other = string "skip" := by
    refine iff_of_false (fun heq => ?_) fun heq => ?_
    · subst heq
      cases haltered
    · subst heq
      cases haltered
  exact or_congr hstring (haltered.eq_onlyMember_iff hshape "skip")

theorem Altered.of_plain (haltered : Altered .plain json other) (shape : Shape) :
    Altered shape json other := by
  generalize hplain : Shape.plain = found at haltered
  induction haltered generalizing shape with
  | reorder hperm => exact .reorder hperm
  | rename => cases hplain
  | member hvalue ih => subst hplain; exact .member (ih _ rfl)
  | item hvalue ih => subst hplain; exact .item (ih _ rfl)

theorem mem_objectsOfItems {items : List Json} {members : List (String × Json)} :
    members ∈ objectsOfItems items ↔ ∃ item ∈ items, members ∈ item.objects := by
  induction items with
  | nil => simp [objectsOfItems]
  | cons item rest ih => simp [objectsOfItems, ih]

theorem mem_objectsOfMembers {members found : List (String × Json)} :
    found ∈ objectsOfMembers members ↔ ∃ member ∈ members, found ∈ member.2.objects := by
  induction members with
  | nil => simp [objectsOfMembers]
  | cons member rest ih => simp [objectsOfMembers, ih]

/-- Members whose order is of no account. -/
structure OrderlyMembers (members : List (String × Json)) : Prop where
  distinct : (namesOf members).Nodup
  skip : ∀ kind ∈ members, kind.1 = "type" → kind.2.NamesSkip →
    ∀ payload ∈ members, payload.1 = "payload" → payload.2.isWhole = true

theorem orderly_iff : json.Orderly ↔ ∀ members ∈ json.objects, OrderlyMembers members :=
  ⟨fun ⟨hdistinct, hskips⟩ members hmembers =>
      ⟨hdistinct members hmembers, hskips members hmembers⟩,
    fun hall => ⟨fun members hmembers => (hall members hmembers).distinct,
      fun members hmembers => (hall members hmembers).skip⟩⟩

theorem orderly_array {items : List Json} :
    (array items).Orderly ↔ ∀ item ∈ items, item.Orderly := by
  simp only [orderly_iff, objects, mem_objectsOfItems]
  exact ⟨fun hall item hitem members hmembers => hall members ⟨item, hitem, hmembers⟩,
    fun hall members ⟨item, hitem, hmembers⟩ => hall item hitem members hmembers⟩

theorem orderly_object {members : List (String × Json)} :
    (object members).Orderly ↔
      OrderlyMembers members ∧ ∀ member ∈ members, member.2.Orderly := by
  simp only [orderly_iff, objects, List.forall_mem_cons, mem_objectsOfMembers]
  refine and_congr_right fun _ => ?_
  exact ⟨fun hall member hmember found hfound => hall found ⟨member, hmember, hfound⟩,
    fun hall found ⟨member, hmember, hfound⟩ => hall member hmember found hfound⟩

theorem namesOf_append (first rest : List (String × Json)) :
    namesOf (first ++ rest) = namesOf first ++ namesOf rest := by
  rw [namesOf, List.filter_append, List.map_append]
  rfl

theorem namesOf_cons (name : String) (value : Json) (rest : List (String × Json)) :
    namesOf ((name, value) :: rest) =
      if isUnnamed value then namesOf rest else name :: namesOf rest := by
  cases hnamed : isUnnamed value <;> simp [namesOf, hnamed]

theorem OrderlyMembers.perm {members others : List (String × Json)}
    (hmembers : OrderlyMembers members) (hperm : members.Perm others) : OrderlyMembers others where
  distinct := ((hperm.filter _).map _).nodup hmembers.distinct
  skip kind hkind htype hskip payload hpayload :=
    hmembers.skip kind (hperm.mem_iff.2 hkind) htype hskip payload (hperm.mem_iff.2 hpayload)

theorem OrderlyMembers.rename {before after : List (String × Json)} {name second : String}
    {value : Json} (hmembers : OrderlyMembers (before ++ (name, value) :: after))
    (hsecond : (name, second) ∈ aliases) (hfree : second ∉ namesOf (before ++ after)) :
    OrderlyMembers (before ++ (second, value) :: after) := by
  obtain ⟨hdistinct, hskip⟩ := hmembers
  refine ⟨?_, ?_⟩
  · rw [namesOf_append, namesOf_cons] at hdistinct ⊢
    by_cases hunnamed : isUnnamed value = true
    · rwa [if_pos hunnamed] at hdistinct ⊢
    · rw [if_neg hunnamed, List.nodup_middle, List.nodup_cons] at hdistinct ⊢
      rw [← namesOf_append] at hdistinct ⊢
      exact ⟨hfree, hdistinct.2⟩
  · have hother : second ≠ "type" ∧ second ≠ "payload" :=
      (by decide : ∀ names ∈ aliases, names.2 ≠ "type" ∧ names.2 ≠ "payload") _ hsecond
    have hkept (member : String × Json) (hmember : member ∈ before ++ (second, value) :: after)
        (hname : member.1 ≠ second) : member ∈ before ++ (name, value) :: after := by
      rw [List.mem_append, List.mem_cons] at hmember ⊢
      refine hmember.imp_right fun hmember => Or.inr (hmember.resolve_left fun heq => ?_)
      exact hname (congrArg Prod.fst heq)
    intro kind hkind htype hnames payload hpayload hname
    exact hskip kind (hkept kind hkind (htype ▸ hother.1.symm)) htype hnames payload
      (hkept payload hpayload (hname ▸ hother.2.symm)) hname

theorem OrderlyMembers.member {before after : List (String × Json)} {name : String}
    {value other : Json} (hmembers : OrderlyMembers (before ++ (name, value) :: after))
    (hunnamed : isUnnamed value = isUnnamed other) (hwhole : value.isWhole = other.isWhole)
    (hnames : name = "type" → (value.NamesSkip ↔ other.NamesSkip)) :
    OrderlyMembers (before ++ (name, other) :: after) := by
  obtain ⟨hdistinct, hskip⟩ := hmembers
  refine ⟨?_, ?_⟩
  · rwa [namesOf_append, namesOf_cons, ← hunnamed, ← namesOf_cons, ← namesOf_append]
  · have hheld (member : String × Json) (hmember : member ∈ before ++ (name, other) :: after) :
        ∃ held ∈ before ++ (name, value) :: after, held.1 = member.1 ∧
          held.2.isWhole = member.2.isWhole ∧
          (held.1 = "type" → (held.2.NamesSkip ↔ member.2.NamesSkip)) := by
      simp only [List.mem_append, List.mem_cons] at hmember ⊢
      rcases hmember with hbefore | rfl | hafter
      · exact ⟨member, Or.inl hbefore, rfl, rfl, fun _ => Iff.rfl⟩
      · exact ⟨(name, value), Or.inr (Or.inl rfl), rfl, hwhole, hnames⟩
      · exact ⟨member, Or.inr (Or.inr hafter), rfl, rfl, fun _ => Iff.rfl⟩
    intro kind hkind htype hskips payload hpayload hname
    obtain ⟨heldKind, hheldKind, htypes, -, hkinds⟩ := hheld kind hkind
    obtain ⟨held, hheldPayload, hnamed, hwhole, -⟩ := hheld payload hpayload
    have hheldType := htypes.trans htype
    rw [← hwhole]
    exact hskip heldKind hheldKind hheldType ((hkinds hheldType).2 hskips) held hheldPayload
      (hnamed.trans hname)

theorem Altered.orderly (haltered : Altered shape json other) (hjson : json.Orderly) :
    other.Orderly := by
  induction haltered with
  | reorder hperm =>
      obtain ⟨hmembers, hvalues⟩ := orderly_object.1 hjson
      exact orderly_object.2 ⟨hmembers.perm hperm,
        fun member hmember => hvalues member (hperm.mem_iff.2 hmember)⟩
  | rename hsecond hfree =>
      obtain ⟨hmembers, hvalues⟩ := orderly_object.1 hjson
      refine orderly_object.2 ⟨hmembers.rename hsecond hfree, ?_⟩
      simp only [List.forall_mem_append, List.forall_mem_cons] at hvalues ⊢
      exact hvalues
  | @member shape before after name value other hvalue ih =>
      obtain ⟨hmembers, hvalues⟩ := orderly_object.1 hjson
      have hnames (htype : name = "type") : value.NamesSkip ↔ other.NamesSkip := by
        subst htype
        exact hvalue.namesSkip_iff shape.member_type_ne
      refine orderly_object.2
        ⟨hmembers.member hvalue.isUnnamed_eq hvalue.isWhole_eq hnames, ?_⟩
      simp only [List.forall_mem_append, List.forall_mem_cons] at hvalues ⊢
      exact ⟨hvalues.1, ih hvalues.2.1, hvalues.2.2⟩
  | item hvalue ih =>
      have hvalues := orderly_array.1 hjson
      refine orderly_array.2 ?_
      simp only [List.forall_mem_append, List.forall_mem_cons] at hvalues ⊢
      exact ⟨hvalues.1, ih hvalues.2.1, hvalues.2.2⟩

theorem canonicalItems?_congr (heq : json.canonical? = other.canonical?)
    (before after : List Json) :
    canonicalItems? (before ++ json :: after) = canonicalItems? (before ++ other :: after) := by
  induction before with
  | nil => rw [List.nil_append, List.nil_append, canonicalItems?, canonicalItems?, heq]
  | cons item before ih =>
      rw [List.cons_append, List.cons_append, canonicalItems?, canonicalItems?, ih]

theorem canonicalMembers?_congr (heq : json.canonical? = other.canonical?) (name : String)
    (before after : List (String × Json)) :
    canonicalMembers? (before ++ (name, json) :: after) =
      canonicalMembers? (before ++ (name, other) :: after) := by
  induction before with
  | nil =>
      rw [List.nil_append, List.nil_append, canonicalMembers?_cons, canonicalMembers?_cons, heq]
  | cons member before ih =>
      rw [List.cons_append, List.cons_append, canonicalMembers?_cons, canonicalMembers?_cons, ih]

theorem canonicalMembers?_eq_some_cons {name : String} {value : Json}
    {rest values : List (String × Json)} :
    canonicalMembers? ((name, value) :: rest) = some values ↔
      ∃ first more, value.canonical? = some first ∧ canonicalMembers? rest = some more ∧
        values = (name, first) :: more := by
  simp only [canonicalMembers?_cons, Option.bind_eq_some_iff, Option.some.injEq]
  exact ⟨fun ⟨first, hfirst, more, hmore, heq⟩ => ⟨first, more, hfirst, hmore, heq.symm⟩,
    fun ⟨first, more, hfirst, hmore, heq⟩ => ⟨first, hfirst, more, hmore, heq.symm⟩⟩

theorem exists_perm_of_canonicalMembers? {members others values : List (String × Json)}
    (hperm : members.Perm others) (hvalues : canonicalMembers? members = some values) :
    ∃ found, canonicalMembers? others = some found ∧ values.Perm found := by
  induction hperm generalizing values with
  | nil => exact ⟨values, hvalues, .refl _⟩
  | cons member hperm ih =>
      obtain ⟨first, more, hfirst, hmore, rfl⟩ := canonicalMembers?_eq_some_cons.1 hvalues
      obtain ⟨found, hfound, hvalues⟩ := ih hmore
      exact ⟨_, canonicalMembers?_eq_some_cons.2 ⟨first, found, hfirst, hfound, rfl⟩,
        hvalues.cons _⟩
  | swap member next rest =>
      obtain ⟨first, more, hfirst, hmore, rfl⟩ := canonicalMembers?_eq_some_cons.1 hvalues
      obtain ⟨second, last, hsecond, hlast, rfl⟩ := canonicalMembers?_eq_some_cons.1 hmore
      refine ⟨_, canonicalMembers?_eq_some_cons.2 ⟨second, _, hsecond, ?_, rfl⟩, .swap _ _ _⟩
      exact canonicalMembers?_eq_some_cons.2 ⟨first, last, hfirst, hlast, rfl⟩
  | trans hleft hright ihleft ihright =>
      obtain ⟨middle, hmiddle, hfirst⟩ := ihleft hvalues
      obtain ⟨found, hfound, hsecond⟩ := ihright hmiddle
      exact ⟨found, hfound, hfirst.trans hsecond⟩

/-- All names of an object that has a canonical form are texts. -/
theorem namesOf_eq_of_canonicalMembers? {members values : List (String × Json)}
    (hvalues : canonicalMembers? members = some values) :
    namesOf members = values.map Prod.fst := by
  induction members generalizing values with
  | nil => cases hvalues; rfl
  | cons member rest ih =>
      obtain ⟨first, more, hfirst, hmore, rfl⟩ := canonicalMembers?_eq_some_cons.1 hvalues
      have hnamed : isUnnamed member.2 = false := by
        cases hvalue : member.2 with
        | flaw reason => rw [hvalue] at hfirst; cases hfirst
        | null | bool | number | string | array | object => rfl
      rw [namesOf_cons, hnamed, ih hmore]
      rfl

theorem canonical?_eq_of_perm {members others : List (String × Json)}
    (hperm : members.Perm others) (hdistinct : (namesOf members).Nodup) :
    (object members).canonical? = (object others).canonical? := by
  rw [canonical?_object, canonical?_object]
  cases hvalues : canonicalMembers? members with
  | none =>
      cases hothers : canonicalMembers? others with
      | none => rfl
      | some values =>
          obtain ⟨found, hfound, -⟩ := exists_perm_of_canonicalMembers? hperm.symm hothers
          cases hvalues.symm.trans hfound
  | some values =>
      obtain ⟨found, hfound, hpermuted⟩ := exists_perm_of_canonicalMembers? hperm hvalues
      rw [namesOf_eq_of_canonicalMembers? hvalues] at hdistinct
      have hsorted := ((sortEntries_perm hdistinct).trans hpermuted).trans
        (sortEntries_perm ((hpermuted.map _).nodup hdistinct)).symm
      rw [hfound, Option.map_some, Option.map_some,
        (ascending_sortEntries values).eq_of_perm (ascending_sortEntries found) hsorted]

theorem Altered.canonical?_eq (haltered : Altered .plain json other) (hjson : json.Orderly) :
    json.canonical? = other.canonical? := by
  generalize hplain : Shape.plain = found at haltered
  induction haltered with
  | reorder hperm => exact canonical?_eq_of_perm hperm (orderly_object.1 hjson).1.distinct
  | rename => cases hplain
  | @member _ before after name value other hvalue ih =>
      subst hplain
      have heq := ih ((orderly_object.1 hjson).2 _ (List.mem_append_right _ List.mem_cons_self)) rfl
      rw [canonical?_object, canonical?_object, canonicalMembers?_congr heq]
  | @item _ before after value other hvalue ih =>
      subst hplain
      have heq := ih (orderly_array.1 hjson _ (List.mem_append_right _ List.mem_cons_self)) rfl
      rw [canonical?, canonical?, canonicalItems?_congr heq]

end

end Json

end BranchingInterview
