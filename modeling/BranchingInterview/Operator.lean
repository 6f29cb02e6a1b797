/-!
The operators that compare an answer with an operand.
-/

namespace BranchingInterview

inductive Operator
  | alwaysExecute
  | eq
  | gt
  | gte
  | lt
  | lte
  | isEmpty
  | isNotEmpty
  | after
  | afterOrEqual
  | before
  | beforeOrEqual
  | equalsDate
deriving DecidableEq, Repr

inductive Operator.Family
  | generic
  | number
  | date
deriving DecidableEq, Repr

namespace Operator

def all : List Operator :=
  [alwaysExecute, eq, gt, gte, lt, lte, isEmpty, isNotEmpty, after, afterOrEqual, before,
    beforeOrEqual, equalsDate]

def name : Operator → String
  | alwaysExecute => "always_execute"
  | eq => "eq"
  | gt => "gt"
  | gte => "gte"
  | lt => "lt"
  | lte => "lte"
  | isEmpty => "is_empty"
  | isNotEmpty => "is_not_empty"
  | after => "after"
  | afterOrEqual => "after_or_equal"
  | before => "before"
  | beforeOrEqual => "before_or_equal"
  | equalsDate => "equals_date"

def ofName? (name : String) : Option Operator :=
  all.find? (·.name == name)

/-- The wording shown to authors. -/
def label : Operator → String
  | alwaysExecute => "Always execute"
  | eq => "Equals"
  | gt => ">"
  | gte => "≥"
  | lt => "<"
  | lte => "≤"
  | isEmpty => "Is empty"
  | isNotEmpty => "Is not empty"
  | after => "After"
  | afterOrEqual => "After or equal"
  | before => "Before"
  | beforeOrEqual => "Before or equal"
  | equalsDate => "Is on day"

def family : Operator → Family
  | gt | gte | lt | lte => .number
  | after | afterOrEqual | before | beforeOrEqual | equalsDate => .date
  | alwaysExecute | eq | isEmpty | isNotEmpty => .generic

def Family.name : Family → String
  | .generic => "generic"
  | .number => "number"
  | .date => "date"

def isDate (operator : Operator) : Bool := operator.family == .date

def isNumber (operator : Operator) : Bool := operator.family == .number

/-- The operators offered for answers of every kind. -/
def isGeneric : Operator → Bool
  | eq | isEmpty | isNotEmpty => true
  | _ => false

def requiresOperand : Operator → Bool
  | alwaysExecute | isEmpty | isNotEmpty => false
  | _ => true

def requiresKey : Operator → Bool
  | alwaysExecute => false
  | _ => true

theorem requiresOperand_iff {operator : Operator} :
    operator.requiresOperand = true ↔ operator ∉ [alwaysExecute, isEmpty, isNotEmpty] := by
  cases operator <;> decide

theorem requiresKey_iff {operator : Operator} :
    operator.requiresKey = true ↔ operator ≠ alwaysExecute := by
  cases operator <;> decide

theorem ofName?_name (operator : Operator) : ofName? operator.name = some operator := by
  cases operator <;> decide +kernel

theorem eq_name_of_ofName? {name : String} {operator : Operator}
    (hfound : ofName? name = some operator) : name = operator.name := by
  have hname := List.find?_some hfound
  exact (eq_of_beq hname).symm

end Operator

end BranchingInterview
