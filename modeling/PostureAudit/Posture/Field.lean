import PostureAudit.Text.Basic

set_option autoImplicit false

/-! # Identifier fields

The three fields of a security posture whose values follow a format. They are checked in the order
of `Field.all`. -/

namespace PostureAudit

/-- An identifier field of a posture declaration. -/
inductive Field where
  | postureId
  | policySetId
  | policyId
  deriving DecidableEq, Repr

namespace Field

/-- The fields, in the order in which they are checked. -/
def all : List Field := [postureId, policySetId, policyId]

/-- The name that an assignment of the field starts with. -/
def name : Field → Text
  | postureId => "posture_id".toList
  | policySetId => "policy_set_id".toList
  | policyId => "policy_id".toList

theorem mem_all (f : Field) : f ∈ all := by cases f <;> decide

def ofName? (name : Text) : Option Field := all.find? (·.name = name)

end Field

end PostureAudit
