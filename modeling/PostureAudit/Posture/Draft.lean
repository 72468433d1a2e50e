import PostureAudit.Text.Basic

set_option autoImplicit false

/-! # Drafts of posture files

A draft is built up step by step: postures, policy sets within the latest posture, policies within
its latest policy set, and raw text for the end of the file. A policy set without a posture and a
policy without a policy set are dropped. `Draft.text` writes the file. -/

namespace PostureAudit

/-- A policy set of a draft. -/
structure DraftPolicySet where
  id : Text
  policies : List Text
  deriving DecidableEq, Repr

/-- A posture of a draft. Its identifier may be left out. -/
structure DraftPosture where
  label : Text
  id : Option Text
  policySets : List DraftPolicySet
  deriving DecidableEq, Repr

/-- A posture file in the making. -/
structure Draft where
  postures : List DraftPosture
  trailing : List Text
  deriving DecidableEq, Repr

/-- One step of building a draft. -/
inductive DraftStep where
  | posture (label id : Text)
  | postureWithoutId (label : Text)
  | policySet (id : Text)
  | policy (id : Text)
  | raw (content : Text)
  deriving DecidableEq, Repr

/-- Changes the last element of a list, if there is one. -/
def mapLast {α : Type} (f : α → α) : List α → List α
  | [] => []
  | [a] => [f a]
  | a :: b :: rest => a :: mapLast f (b :: rest)

@[simp] theorem getLast?_mapLast {α : Type} (f : α → α) (as : List α) :
    (mapLast f as).getLast? = as.getLast?.map f := by
  fun_induction mapLast f as with
  | case1 => rfl
  | case2 a => rfl
  | case3 a b rest ih =>
    obtain ⟨c, cs, hcons⟩ : ∃ c cs, mapLast f (b :: rest) = c :: cs := by
      cases rest <;> exact ⟨_, _, rfl⟩
    rw [hcons] at ih ⊢
    rw [List.getLast?_cons_cons, List.getLast?_cons_cons, ih]

/-- A view that a change of the last element leaves alone. -/
theorem map_mapLast {α β : Type} {f : α → α} {view : α → β} (h : ∀ a, view (f a) = view a)
    (as : List α) : (mapLast f as).map view = as.map view := by
  fun_induction mapLast f as with
  | case1 => rfl
  | case2 a => simp [h]
  | case3 a b rest ih => rw [List.map_cons, List.map_cons, ih]

/-- A view to which a change of the last element appends something. -/
theorem flatMap_mapLast {α β : Type} {f : α → α} {view extra : α → List β}
    (h : ∀ a, view (f a) = view a ++ extra a) (as : List α) :
    (mapLast f as).flatMap view = as.flatMap view ++ (as.getLast?.map extra).getD [] := by
  fun_induction mapLast f as with
  | case1 => rfl
  | case2 a => simp [h]
  | case3 a b rest ih =>
    rw [List.flatMap_cons, List.flatMap_cons, ih, List.getLast?_cons_cons, List.append_assoc]

theorem forall_mem_mapLast {α : Type} {f : α → α} {P : α → Prop} (hf : ∀ a, P a → P (f a))
    {as : List α} (h : ∀ a ∈ as, P a) : ∀ a ∈ mapLast f as, P a := by
  fun_induction mapLast f as with
  | case1 => exact h
  | case2 a => simpa using hf a (h a (List.mem_cons_self ..))
  | case3 a b rest ih =>
    obtain ⟨ha, hrest⟩ := List.forall_mem_cons.mp h
    exact List.forall_mem_cons.mpr ⟨ha, ih hrest⟩

def DraftPolicySet.addPolicy (s : DraftPolicySet) (id : Text) : DraftPolicySet :=
  { s with policies := s.policies ++ [id] }

def DraftPosture.addPolicySet (p : DraftPosture) (id : Text) : DraftPosture :=
  { p with policySets := p.policySets ++ [⟨id, []⟩] }

/-- Appends a policy to the latest policy set of a posture. -/
def DraftPosture.addPolicy (p : DraftPosture) (id : Text) : DraftPosture :=
  { p with policySets := mapLast (·.addPolicy id) p.policySets }

namespace Draft

def empty : Draft := ⟨[], []⟩

def addPosture (d : Draft) (label : Text) (id : Option Text) : Draft :=
  { d with postures := d.postures ++ [⟨label, id, []⟩] }

/-- Appends a policy set to the latest posture. -/
def addPolicySet (d : Draft) (id : Text) : Draft :=
  { d with postures := mapLast (·.addPolicySet id) d.postures }

/-- Appends a policy to the latest policy set of the latest posture. -/
def addPolicy (d : Draft) (id : Text) : Draft :=
  { d with postures := mapLast (·.addPolicy id) d.postures }

/-- Appends raw text to the end of the file. -/
def addRaw (d : Draft) (content : Text) : Draft := { d with trailing := d.trailing ++ [content] }

def step (d : Draft) : DraftStep → Draft
  | .posture label id => d.addPosture label (some id)
  | .postureWithoutId label => d.addPosture label none
  | .policySet id => d.addPolicySet id
  | .policy id => d.addPolicy id
  | .raw content => d.addRaw content

/-- The draft that some steps build, one after the other. -/
def ofSteps (steps : List DraftStep) : Draft := steps.foldl step empty

def policyText (id : Text) : Text :=
  "    policies \x7b\n      policy_id = \"".toList ++ id ++ "\"\n    \x7d\n".toList

def policySetText (s : DraftPolicySet) : Text :=
  "  policy_sets \x7b\n    policy_set_id = \"".toList ++ s.id ++ "\"\n".toList ++
    s.policies.flatMap policyText ++ "  \x7d\n".toList

/-- The line that assigns the identifier of a posture. -/
def idText : Option Text → Text
  | some id => "  posture_id  = \"".toList ++ id ++ "\"\n".toList
  | none => []

def postureText (p : DraftPosture) : Text :=
  "resource \"google_securityposture_posture\" \"".toList ++ p.label ++ "\" \x7b\n".toList ++
    idText p.id ++
    "  parent      = \"organizations/123456789\"\n  state       = \"ACTIVE\"\n".toList ++
    p.policySets.flatMap policySetText ++ "\x7d\n".toList

/-- Raw text, with a line feed after it unless it ends in one. -/
def rawText (t : Text) : Text := if t.getLast? = some '\n' then t else t ++ ['\n']

def text (d : Draft) : Text :=
  d.postures.flatMap postureText ++ d.trailing.flatMap rawText

end Draft

end PostureAudit
