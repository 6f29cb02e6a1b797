import BranchingInterview.Json.Reader
import BranchingInterview.Text.Quoted

/-!
Decoding of JSON trees. The fields of an object are visited in their order and the first failure is
the one reported; a field that is missing is noticed after all that are present. An array stands
for the object whose fields it lists in the order of declaration.
-/

namespace BranchingInterview.Wire

open Json (Found)

inductive DecodeError
  /-- The text is not JSON here, or its value cannot be represented. -/
  | unreadable
  | wrongType (found : Found)
  | wrongValue (found : Found)
  | wrongLength
  | missingField (name : String)
  | repeatedField (name : String)
  | unknownName (name : String)
  | unknownOperator (name : String)
  /-- None of the shapes a type can have fits. -/
  | noShape (type : String)
deriving DecidableEq

def foundText : Found → String
  | .null => "null"
  | .bool value => "boolean `" ++ toString value ++ "`"
  | .number (.integer value) => "integer `" ++ toString value ++ "`"
  | .number (.double value) => "floating point `" ++ value.text ++ "`"
  | .string value => "string " ++ Text.quote value
  | .sequence => "sequence"
  | .map => "map"

def DecodeError.message : DecodeError → String
  | unreadable => "syntax"
  | wrongType found => "invalid type: " ++ foundText found
  | wrongValue found => "invalid value: " ++ foundText found
  | wrongLength => "invalid length"
  | missingField name => "missing field `" ++ name ++ "`"
  | repeatedField name => "duplicate field `" ++ name ++ "`"
  | unknownName name => "unknown variant `" ++ name ++ "`"
  | unknownOperator name => "Unhandled conditional operator: " ++ name
  | noShape type => "data did not match any variant of untagged enum " ++ type

/-- Where a tree comes from. A text is decoded while it is read, so that more than was wanted is an
error of the text; a tree held in memory is looked at as a whole, and so is a part that was set
aside to try it in several ways. -/
inductive Origin
  | text
  | tree
  | aside
deriving DecidableEq

def Origin.surplus : Origin → DecodeError
  | text => .unreadable
  | tree | aside => .wrongLength

abbrev Decoded := Except DecodeError

def mismatch (json : Json) : DecodeError :=
  match json.found? with
  | some found => .wrongType found
  | none => .unreadable

def decodeString : Json → Decoded String
  | .string value => .ok value
  | json => .error (mismatch json)

def decodeBool : Json → Decoded Bool
  | .bool value => .ok value
  | json => .error (mismatch json)

def decodeUInt32 : Json → Decoded UInt32
  | .number (.integer value) =>
      if 0 ≤ value ∧ value.toNat < UInt32.size then .ok (.ofNat value.toNat)
      else .error (.wrongValue (.number (.integer value)))
  | json => .error (mismatch json)

section

variable {α δ : Type}

/-- `null` is nothing. -/
def decodeOptional (decode : Json → Decoded α) : Json → Decoded (Option α)
  | .null => .ok none
  | json => (decode json).map some

def decodeList (decode : Json → Decoded α) : Json → Decoded (List α)
  | .array items => items.mapM decode
  | json => .error (mismatch json)

def isUnnamed : Json → Bool
  | .flaw (.nameless _) => true
  | .flaw .misnamed => true
  | _ => false

def visitMembers (visit : δ → String → Json → Decoded δ) : δ → List (String × Json) → Decoded δ
  | draft, [] => .ok draft
  | draft, (name, value) :: rest => do
      if isUnnamed value then throw .unreadable
      visitMembers visit (← visit draft name value) rest

/-- A map from texts; of several members of one name the last is kept. -/
def decodeMap (decode : Json → Decoded α) : Json → Decoded (KeyMap α)
  | .object members =>
      visitMembers (fun map name value => return map.insert name (← decode value)) {} members
  | json => .error (mismatch json)

/-- Visits items under the names of the fields they stand for, and returns the items left over. -/
def visitItems (visit : δ → String → Json → Decoded δ) :
    δ → List String → List Json → Decoded (δ × List Json)
  | draft, name :: names, item :: items => do visitItems visit (← visit draft name item) names items
  | draft, _, items => .ok (draft, items)

/-- A field that the items of an array do not reach makes the array too short. -/
def atItems : DecodeError → DecodeError
  | .missingField _ => .wrongLength
  | error => error

/-- Decodes the fields of an object, or of the array that lists them: each is put into a draft when
it is visited, and the draft is completed at the end. -/
def decodeFields (origin : Origin) (names : List String) (visit : δ → String → Json → Decoded δ)
    (complete : δ → Decoded α) (start : δ) : Json → Decoded α
  | .object members => do complete (← visitMembers visit start members)
  | .array items => do
      let (draft, surplus) ← visitItems visit start names items
      let value ← (complete draft).mapError atItems
      if surplus.isEmpty then return value else throw origin.surplus
  | json => .error (mismatch json)

/-- Puts the value of a field into its place in a draft, which must be free. -/
def fill (name : String) (place : Option α) (value : Decoded α) : Decoded (Option α) :=
  match place with
  | none => value.map some
  | some _ => .error (.repeatedField name)

def passOver (draft : δ) (value : Json) : Decoded δ :=
  if value.isGrammatical then .ok draft else .error .unreadable

def require (name : String) (place : Option α) : Decoded α :=
  match place with
  | some value => .ok value
  | none => .error (.missingField name)

/-- Sets a tree aside to decode it later, for which it must have a value everywhere. -/
def setAside (value : Json) : Decoded Json :=
  if value.isWhole then .ok value else .error .unreadable

def decodeNull : Json → Decoded Unit
  | .null => .ok ()
  | json => .error (mismatch json)

def findName (ofName? : String → Option α) (name : String) : Decoded α :=
  match ofName? name with
  | some value => .ok value
  | none => .error (.unknownName name)

/-- The only member of an object for a name, in a text. -/
def decodeNameInText (ofName? : String → Option α) : Json → Decoded α
  | .object ((_, .flaw (.nameless (some found))) :: _) => .error (.wrongType found)
  | .object ((name, content) :: rest) => do
      if isUnnamed content then throw .unreadable
      let value ← findName ofName? name
      decodeNull content
      if rest.isEmpty then return value else throw .unreadable
  | _ => .error .unreadable

/-- The only member of an object for a name, in a tree. -/
def decodeNameInTree (ofName? : String → Option α) : Json → Decoded α
  | .object [(name, content)] => do
      let value ← findName ofName? name
      decodeNull content
      return value
  | .object _ => .error (.wrongValue .map)
  | json => .error (mismatch json)

/-- One of some names: as a string, or as the only member of an object, with `null` for its
value. -/
def decodeName (origin : Origin) (ofName? : String → Option α) : Json → Decoded α
  | .string name => findName ofName? name
  | json =>
      match origin with
      | .text => decodeNameInText ofName? json
      | .tree | .aside => decodeNameInTree ofName? json

end

/-- Decodes a text as it is read; whatever follows the value is noticed last. -/
def decodeText {α : Type} (decode : Origin → Json → Decoded α) (text : String) : Decoded α := do
  let document := Json.Document.read text
  let value ← decode .text document.root
  if document.isComplete then return value else throw .unreadable

end BranchingInterview.Wire
