import PostureAudit.Posture.Draft
import PostureAudit.Proofs.Pieces

set_option autoImplicit false

/-! # Drafts are read back

What the steps of a draft say is told from the steps alone: a policy set counts if a posture was
started before it, and a policy if a policy set was started since the latest posture
(`writtenIds`). The draft that the steps build holds just this, block by block (`Draft.Follows`),
and a scan of its text finds just what the draft holds (`valuesIn_text`), as long as labels hold no
quotes and identifiers are values. Labels and identifiers may look like assignments, headers or
blocks otherwise: the quote that closes them is the last one on its line. -/

namespace PostureAudit

open Assignment (IsValue)

/-! ## What the steps say -/

namespace DraftStep

/-- The label of the posture that a step starts. -/
def label? : DraftStep → Option Text
  | posture label _ => some label
  | postureWithoutId label => some label
  | policySet _ => none
  | policy _ => none
  | raw _ => none

def startsPosture (s : DraftStep) : Bool := s.label?.isSome

def startsPolicySet : DraftStep → Bool
  | policySet _ => true
  | _ => false

@[simp] theorem label?_policySet (id : Text) : (policySet id).label? = none := rfl

@[simp] theorem label?_policy (id : Text) : (policy id).label? = none := rfl

@[simp] theorem label?_raw (content : Text) : (raw content).label? = none := rfl

@[simp] theorem startsPosture_policySet (id : Text) : (policySet id).startsPosture = false := rfl

@[simp] theorem startsPosture_policy (id : Text) : (policy id).startsPosture = false := rfl

@[simp] theorem startsPosture_raw (content : Text) : (raw content).startsPosture = false := rfl

@[simp] theorem startsPolicySet_policySet (id : Text) :
    (policySet id).startsPolicySet = true := rfl

@[simp] theorem startsPolicySet_policy (id : Text) : (policy id).startsPolicySet = false := rfl

@[simp] theorem startsPolicySet_raw (content : Text) : (raw content).startsPolicySet = false := rfl

/-- Labels hold no quote and identifiers are values; text that is not quoted is not allowed. -/
def WellQuoted : DraftStep → Prop
  | posture label id => '"' ∉ label ∧ IsValue id
  | postureWithoutId label => '"' ∉ label
  | policySet id => IsValue id
  | policy id => IsValue id
  | raw _ => False

instance : DecidablePred WellQuoted
  | posture label id => inferInstanceAs (Decidable ('"' ∉ label ∧ IsValue id))
  | postureWithoutId label => inferInstanceAs (Decidable ('"' ∉ label))
  | policySet id => inferInstanceAs (Decidable (IsValue id))
  | policy id => inferInstanceAs (Decidable (IsValue id))
  | raw _ => inferInstanceAs (Decidable False)

end DraftStep

/-- Some step has started a posture. -/
def hasPosture (before : List DraftStep) : Bool := before.any (·.startsPosture)

/-- Some step has started a posture, and one after the latest of these a policy set. -/
def hasPolicySet (before : List DraftStep) : Bool :=
  hasPosture before && (before.reverse.takeWhile (!·.startsPosture)).any (·.startsPolicySet)

/-- The identifier that a step gives to a field, after some other steps. -/
def DraftStep.idAfter (before : List DraftStep) : DraftStep → Field → Option Text
  | .posture _ id, .postureId => some id
  | .policySet id, .policySetId => if hasPosture before then some id else none
  | .policy id, .policyId => if hasPolicySet before then some id else none
  | _, _ => none

/-- The identifiers that steps give to a field, one after the other, after some other steps. -/
def writtenIds (f : Field) (before : List DraftStep) : List DraftStep → List Text
  | [] => []
  | s :: rest => (s.idAfter before f).toList ++ writtenIds f (before ++ [s]) rest

theorem writtenIds_concat (f : Field) (before steps : List DraftStep) (s : DraftStep) :
    writtenIds f before (steps ++ [s]) =
      writtenIds f before steps ++ (s.idAfter (before ++ steps) f).toList := by
  induction steps generalizing before with
  | nil => simp [writtenIds]
  | cons s' steps ih =>
    rw [List.cons_append, writtenIds, writtenIds, ih]
    simp only [List.append_assoc, List.singleton_append]

theorem hasPosture_concat (before : List DraftStep) (s : DraftStep) :
    hasPosture (before ++ [s]) = (hasPosture before || s.startsPosture) := by
  simp [hasPosture]

theorem hasPolicySet_concat (before : List DraftStep) (s : DraftStep) :
    hasPolicySet (before ++ [s]) =
      (!s.startsPosture && (hasPolicySet before || hasPosture before && s.startsPolicySet)) := by
  rw [hasPolicySet, hasPosture_concat, List.reverse_concat, List.takeWhile_cons, hasPolicySet]
  cases hasPosture before <;> cases s.startsPosture <;> cases hset : s.startsPolicySet <;>
    simp [hset]

/-! ## What a draft holds -/

/-- The identifiers of a field in a policy set. -/
def DraftPolicySet.ids (s : DraftPolicySet) : Field → List Text
  | .postureId => []
  | .policySetId => [s.id]
  | .policyId => s.policies

/-- The identifiers of a field in a posture, policy set by policy set. -/
def DraftPosture.ids (p : DraftPosture) (f : Field) : List Text :=
  (if f = .postureId then p.id.toList else []) ++ p.policySets.flatMap (·.ids f)

/-- The identifiers of a field in a draft, posture by posture. -/
def Draft.ids (d : Draft) (f : Field) : List Text := d.postures.flatMap (·.ids f)

theorem DraftPosture.ids_addPolicySet (p : DraftPosture) (id : Text) (f : Field) :
    (p.addPolicySet id).ids f = p.ids f ++ if f = .policySetId then [id] else [] := by
  cases f <;> simp [ids, addPolicySet, DraftPolicySet.ids]

/-- A posture without policy sets takes no policy. -/
theorem DraftPosture.ids_addPolicy (p : DraftPosture) (id : Text) (f : Field) :
    (p.addPolicy id).ids f =
      p.ids f ++ if f = .policyId ∧ p.policySets.getLast?.isSome then [id] else [] := by
  have hset (s : DraftPolicySet) :
      (s.addPolicy id).ids f = s.ids f ++ if f = .policyId then [id] else [] := by
    cases f <;> simp [DraftPolicySet.ids, DraftPolicySet.addPolicy]
  rw [ids, ids, addPolicy, flatMap_mapLast hset, List.append_assoc]
  cases p.policySets.getLast? <;> simp

namespace Draft

/-- The draft holds what some steps said. The last two facts are about what the next step meets: a
    posture that is the latest one, and a policy set in it. -/
structure Follows (steps : List DraftStep) (d : Draft) : Prop where
  labels : d.postures.map (·.label) = steps.filterMap (·.label?)
  ids : ∀ f, d.ids f = writtenIds f [] steps
  posture : d.postures.getLast?.isSome = hasPosture steps
  policySet : (d.postures.getLast?.any fun p => p.policySets.getLast?.isSome) = hasPolicySet steps

theorem follows_empty : Follows [] empty := ⟨rfl, fun _ => rfl, rfl, rfl⟩

theorem Follows.addPosture {steps : List DraftStep} {d : Draft} (h : Follows steps d)
    {s : DraftStep} {label : Text} {id : Option Text} (hlabel : s.label? = some label)
    (hid : ∀ f, (s.idAfter steps f).toList = if f = .postureId then id.toList else []) :
    Follows (steps ++ [s]) (d.addPosture label id) where
  labels := by simp [Draft.addPosture, h.labels, hlabel]
  ids := by
    intro f
    rw [writtenIds_concat, ← h.ids f, List.nil_append, hid]
    simp [Draft.ids, Draft.addPosture, DraftPosture.ids]
  posture := by simp [Draft.addPosture, hasPosture_concat, DraftStep.startsPosture, hlabel]
  policySet := by simp [Draft.addPosture, hasPolicySet_concat, DraftStep.startsPosture, hlabel]

theorem Follows.addPolicySet {steps : List DraftStep} {d : Draft} (h : Follows steps d)
    (id : Text) : Follows (steps ++ [.policySet id]) (d.addPolicySet id) where
  labels := by
    have hkept (p : DraftPosture) : (p.addPolicySet id).label = p.label := rfl
    simp [Draft.addPolicySet, map_mapLast hkept, h.labels]
  ids := by
    intro f
    have hposture := h.posture
    rw [writtenIds_concat, ← h.ids f, List.nil_append, Draft.ids, Draft.addPolicySet,
      flatMap_mapLast (fun p => p.ids_addPolicySet id f), Draft.ids]
    -- the identifier is taken exactly if there is a latest posture
    cases hlast : d.postures.getLast? with
    | none =>
      rw [hlast] at hposture
      cases f <;> simp [DraftStep.idAfter, ← hposture]
    | some p =>
      rw [hlast] at hposture
      cases f <;> simp [DraftStep.idAfter, ← hposture]
  posture := by simp [Draft.addPolicySet, hasPosture_concat, h.posture]
  policySet := by
    have hposture := h.posture
    have hpolicySet := h.policySet
    rw [hasPolicySet_concat, ← hposture, ← hpolicySet, Draft.addPolicySet, getLast?_mapLast]
    cases d.postures.getLast? <;> simp [DraftPosture.addPolicySet]

theorem Follows.addPolicy {steps : List DraftStep} {d : Draft} (h : Follows steps d)
    (id : Text) : Follows (steps ++ [.policy id]) (d.addPolicy id) where
  labels := by
    have hkept (p : DraftPosture) : (p.addPolicy id).label = p.label := rfl
    simp [Draft.addPolicy, map_mapLast hkept, h.labels]
  ids := by
    intro f
    have hpolicySet := h.policySet
    rw [writtenIds_concat, ← h.ids f, List.nil_append, Draft.ids, Draft.addPolicy,
      flatMap_mapLast (fun p => p.ids_addPolicy id f), Draft.ids]
    -- the identifier is taken exactly if the latest posture has a policy set
    cases hlast : d.postures.getLast? with
    | none =>
      rw [hlast] at hpolicySet
      cases f <;> simp [DraftStep.idAfter, ← hpolicySet]
    | some p =>
      rw [hlast, Option.any_some] at hpolicySet
      cases hsets : p.policySets <;> rw [hsets] at hpolicySet <;>
        cases f <;> simp [DraftStep.idAfter, ← hpolicySet, hsets]
  posture := by simp [Draft.addPolicy, hasPosture_concat, h.posture]
  policySet := by
    have hpolicySet := h.policySet
    rw [hasPolicySet_concat, ← hpolicySet, Draft.addPolicy, getLast?_mapLast]
    cases d.postures.getLast? <;> simp [DraftPosture.addPolicy]

theorem Follows.addRaw {steps : List DraftStep} {d : Draft} (h : Follows steps d)
    (content : Text) : Follows (steps ++ [.raw content]) (d.addRaw content) where
  labels := by simp [Draft.addRaw, h.labels]
  ids := by
    intro f
    rw [writtenIds_concat, ← h.ids f]
    cases f <;> simp [Draft.ids, Draft.addRaw, DraftStep.idAfter]
  posture := by simp [Draft.addRaw, h.posture, hasPosture_concat]
  policySet := by
    rw [hasPolicySet_concat, Draft.addRaw, h.policySet]
    simp

/-- Every step keeps a draft to what was said. -/
theorem Follows.step {steps : List DraftStep} {d : Draft} (h : Follows steps d)
    (s : DraftStep) : Follows (steps ++ [s]) (d.step s) := by
  cases s with
  | posture label id =>
    refine h.addPosture rfl fun f => ?_
    cases f <;> simp [DraftStep.idAfter]
  | postureWithoutId label =>
    refine h.addPosture rfl fun f => ?_
    cases f <;> simp [DraftStep.idAfter]
  | policySet id => exact h.addPolicySet id
  | policy id => exact h.addPolicy id
  | raw content => exact h.addRaw content

/-- The draft that some steps build holds what they say. -/
theorem follows_ofSteps (steps : List DraftStep) : Follows steps (ofSteps steps) := by
  have hrun (before steps : List DraftStep) (d : Draft) (h : Follows before d) :
      Follows (before ++ steps) (steps.foldl Draft.step d) := by
    induction steps generalizing before d with
    | nil => rwa [List.append_nil]
    | cons s steps ih =>
      have hnext := ih (before ++ [s]) (d.step s) (h.step s)
      rwa [List.append_assoc, List.singleton_append] at hnext
  exact hrun [] steps empty follows_empty

/-! ## What is well quoted -/

end Draft

def DraftPolicySet.WellQuoted (s : DraftPolicySet) : Prop :=
  IsValue s.id ∧ ∀ id ∈ s.policies, IsValue id

def DraftPosture.WellQuoted (p : DraftPosture) : Prop :=
  '"' ∉ p.label ∧ (∀ id ∈ p.id, IsValue id) ∧ ∀ s ∈ p.policySets, s.WellQuoted

namespace Draft

/-- Labels hold no quote and identifiers are values, and there is no raw text. -/
def WellQuoted (d : Draft) : Prop := (∀ p ∈ d.postures, p.WellQuoted) ∧ d.trailing = []

theorem WellQuoted.addPosture {d : Draft} (h : d.WellQuoted) {label : Text} {id : Option Text}
    (hlabel : '"' ∉ label) (hid : ∀ i ∈ id, IsValue i) : (d.addPosture label id).WellQuoted := by
  refine ⟨fun p hp => ?_, h.2⟩
  rcases List.mem_append.mp hp with hp | hp
  · exact h.1 p hp
  · obtain rfl := List.mem_singleton.mp hp
    exact ⟨hlabel, hid, by simp⟩

theorem WellQuoted.addPolicySet {d : Draft} (h : d.WellQuoted) {id : Text} (hid : IsValue id) :
    (d.addPolicySet id).WellQuoted := by
  refine ⟨forall_mem_mapLast (fun p hp => ⟨hp.1, hp.2.1, fun s hs => ?_⟩) h.1, h.2⟩
  rcases List.mem_append.mp hs with hs | hs
  · exact hp.2.2 s hs
  · obtain rfl := List.mem_singleton.mp hs
    exact ⟨hid, by simp⟩

theorem WellQuoted.addPolicy {d : Draft} (h : d.WellQuoted) {id : Text} (hid : IsValue id) :
    (d.addPolicy id).WellQuoted := by
  refine ⟨forall_mem_mapLast (fun p hp => ⟨hp.1, hp.2.1, ?_⟩) h.1, h.2⟩
  refine forall_mem_mapLast (fun s hs => ⟨hs.1, fun i hi => ?_⟩) hp.2.2
  rcases List.mem_append.mp hi with hi | hi
  · exact hs.2 i hi
  · exact List.mem_singleton.mp hi ▸ hid

theorem WellQuoted.step {d : Draft} (h : d.WellQuoted) {s : DraftStep} (hs : s.WellQuoted) :
    (d.step s).WellQuoted := by
  cases s with
  | posture label id => exact h.addPosture hs.1 (by simpa using hs.2)
  | postureWithoutId label => exact h.addPosture hs (by simp)
  | policySet id => exact h.addPolicySet hs
  | policy id => exact h.addPolicy hs
  | raw content => exact hs.elim

/-- What well quoted steps build is well quoted. -/
theorem wellQuoted_ofSteps {steps : List DraftStep} (h : ∀ s ∈ steps, s.WellQuoted) :
    (ofSteps steps).WellQuoted := by
  have hrun (d : Draft) (hd : d.WellQuoted) : (steps.foldl Draft.step d).WellQuoted := by
    induction steps generalizing d with
    | nil => exact hd
    | cons s steps ih =>
      obtain ⟨hs, hsteps⟩ := List.forall_mem_cons.mp h
      exact ih hsteps (d.step s) (hd.step hs)
  exact hrun empty ⟨by simp [empty], rfl⟩

/-! ## What a scan finds in its text -/

/-- In front of quoted text, in it and up to the end of its line nothing is found, if no lead of
    the recogniser stands in front of it. -/
theorem valuesIn_quoted_line {read : Recogniser Text} {lead front quoted line : Text}
    (hlead : ∀ t x, read t = some x → lead <+: t) (hread : ReadsPastQuote read)
    (hfront : avoids lead front = true) (hquoted : QuotesEscaped quoted) (hquote : '"' ∉ line)
    (rest : Text) :
    valuesIn read (front ++ (quoted ++ '"' :: (line ++ '\n' :: rest))) =
      valuesIn read (line ++ '\n' :: rest) := by
  rw [valuesIn_of_avoids hlead hfront]
  have hsilent := silent_quoted hread hquoted hquote rest
  have hskip := valuesIn_of_silent hsilent
  rwa [List.append_assoc, List.singleton_append] at hskip

/-- A line that ends in quoted text, with what opens and closes it, is silent where no lead of the
    recogniser stands. -/
theorem valuesIn_silent_line {read : Recogniser Text} {lead opens quoted closes : Text}
    (after : Text) (hlead : ∀ t x, read t = some x → lead <+: t) (hread : ReadsPastQuote read)
    (hcloses : closes = '"' :: '\n' :: after) (hopens : avoids lead opens = true)
    (hafter : avoids lead ('\n' :: after) = true) (hquoted : QuotesEscaped quoted) (rest : Text) :
    valuesIn read (opens ++ quoted ++ closes ++ rest) = valuesIn read rest := by
  have hsplit : opens ++ quoted ++ closes ++ rest =
      opens ++ (quoted ++ '"' :: ([] ++ '\n' :: (after ++ rest))) := by
    simp [hcloses]
  rw [hsplit, valuesIn_quoted_line hlead hread hopens hquoted List.not_mem_nil]
  exact valuesIn_of_avoids hlead hafter rest

/-- What opens and closes a line that assigns to a field: the field, some blanks, the sign and a
    quote, and then a quote and the end of the line. No field has its name anywhere else there. -/
def AssignsTo (g : Field) (opens closes front gap after : Text) : Prop :=
  opens = front ++ (g.name ++ (gap ++ ['=', ' ', '"'])) ∧ closes = '"' :: '\n' :: after ∧
    gap.all isBlank = true ∧
    ∀ f ∈ Field.all, avoids f.name front = true ∧ avoids f.name ('\n' :: after) = true ∧
      (f ≠ g → avoids f.name opens = true)

instance (g : Field) (opens closes front gap after : Text) :
    Decidable (AssignsTo g opens closes front gap after) := inferInstanceAs (Decidable (_ ∧ _))

/-- A line that assigns an identifier to a field is the text of an assignment for that field, and
    silent for the others. -/
theorem valuesIn_assignment_line {g : Field} {opens closes front gap after id : Text}
    (h : AssignsTo g opens closes front gap after) (hid : IsValue id) (f : Field) (rest : Text) :
    valuesIn (Assignment.read f) (opens ++ id ++ closes ++ rest) =
      (if f = g then [id] else []) ++ valuesIn (Assignment.read f) rest := by
  obtain ⟨hopens, hcloses, hgap, hfields⟩ := h
  obtain ⟨hfront, hafter, hother⟩ := hfields f f.mem_all
  have hlead := Assignment.name_isPrefix_of_read f
  by_cases hf : f = g
  · subst hf
    have hsplit : opens ++ id ++ closes ++ rest =
        front ++ (Assignment.text f gap [' '] id ++ ('\n' :: after ++ rest)) := by
      simp [hopens, hcloses, Assignment.text]
    rw [hsplit, valuesIn_of_avoids hlead hfront,
      Assignment.valuesIn_text (List.all_eq_true.mp hgap) (by simp) hid,
      valuesIn_of_avoids hlead hafter rest, if_pos rfl, List.singleton_append]
  · rw [valuesIn_silent_line after hlead (Assignment.readsPastQuote f) hcloses (hother hf) hafter
      hid.quotesEscaped, if_neg hf, List.nil_append]

theorem valuesIn_policyText {id : Text} (hid : IsValue id) (f : Field) (rest : Text) :
    valuesIn (Assignment.read f) (policyText id ++ rest) =
      (if f = .policyId then [id] else []) ++ valuesIn (Assignment.read f) rest := by
  have hline : AssignsTo .policyId "    policies \x7b\n      policy_id = \"".toList
      "\"\n    \x7d\n".toList "    policies \x7b\n      ".toList [' ']
      "    \x7d\n".toList := by decide
  exact valuesIn_assignment_line hline hid f rest

theorem valuesIn_idText {id : Option Text} (hid : ∀ i ∈ id, IsValue i) (f : Field) (rest : Text) :
    valuesIn (Assignment.read f) (idText id ++ rest) =
      (if f = .postureId then id.toList else []) ++ valuesIn (Assignment.read f) rest := by
  cases id with
  | none => cases f <;> rfl
  | some id =>
    have hline : AssignsTo .postureId "  posture_id  = \"".toList "\"\n".toList "  ".toList
        [' ', ' '] [] := by decide
    exact valuesIn_assignment_line hline (hid id rfl) f rest

/-- A policy set begins with the line that assigns its identifier. -/
theorem policySetText_append (s : DraftPolicySet) (rest : Text) :
    policySetText s ++ rest =
      "  policy_sets \x7b\n    policy_set_id = \"".toList ++ s.id ++ "\"\n".toList ++
        (s.policies.flatMap policyText ++ ("  \x7d\n".toList ++ rest)) := by
  have hsplit (opens closes policies last : Text) : opens ++ s.id ++ closes ++ policies ++ last ++
      rest = opens ++ s.id ++ closes ++ (policies ++ (last ++ rest)) := by
    simp only [List.append_assoc]
  exact hsplit _ _ _ _

theorem valuesIn_policySetText {s : DraftPolicySet} (hs : s.WellQuoted) (f : Field)
    (rest : Text) :
    valuesIn (Assignment.read f) (policySetText s ++ rest) =
      s.ids f ++ valuesIn (Assignment.read f) rest := by
  have hline : AssignsTo .policySetId "  policy_sets \x7b\n    policy_set_id = \"".toList
      "\"\n".toList "  policy_sets \x7b\n    ".toList [' '] [] := by decide
  have hclose : avoids f.name "  \x7d\n".toList = true := by cases f <;> decide
  have hpolicies := valuesIn_flatMap (fun id hid rest => valuesIn_policyText hid f rest) hs.2
  rw [policySetText_append, valuesIn_assignment_line hline hs.1, hpolicies,
    valuesIn_of_avoids (Assignment.name_isPrefix_of_read f) hclose rest]
  cases f <;> simp [DraftPolicySet.ids]

/-- What opens the block of a posture is a header. -/
theorem header_eq (label : Text) :
    "resource \"google_securityposture_posture\" \"".toList ++ label ++ "\" \x7b\n".toList =
      Declaration.text label [' '] ++ ['\n'] := by
  have hopens : "resource \"google_securityposture_posture\" \"".toList = Declaration.lead := by
    decide
  have hcloses : "\" \x7b\n".toList = ['"', ' ', '\x7B', '\n'] := by decide
  rw [hopens, hcloses, Declaration.text_eq]
  simp

/-- No assignment is found in a header: the quote that closes its label is the last one on its
    line. -/
theorem valuesIn_header {label : Text} (hlabel : '"' ∉ label) (f : Field) (rest : Text) :
    valuesIn (Assignment.read f) (Declaration.text label [' '] ++ '\n' :: rest) =
      valuesIn (Assignment.read f) rest := by
  have hlead := Assignment.name_isPrefix_of_read f
  have hfront : avoids f.name Declaration.lead = true := by cases f <;> decide
  have hend : avoids f.name [' ', '\x7B', '\n'] = true := by cases f <;> decide
  have hsplit : Declaration.text label [' '] ++ '\n' :: rest =
      Declaration.lead ++ (label ++ '"' :: ([' ', '\x7B'] ++ '\n' :: rest)) := by
    simp [Declaration.text_eq]
  rw [hsplit, valuesIn_quoted_line hlead (Assignment.readsPastQuote f) hfront
    (quotesEscaped_of_notMem hlabel) (by decide)]
  exact valuesIn_of_avoids hlead hend rest

/-- The lines that every posture has. -/
def fixedLines : Text :=
  "  parent      = \"organizations/123456789\"\n  state       = \"ACTIVE\"\n".toList

/-- A posture begins with its header, and the rest of the block follows line by line. -/
theorem postureText_append (p : DraftPosture) (rest : Text) :
    postureText p ++ rest = Declaration.text p.label [' '] ++ '\n' :: (idText p.id ++
      (fixedLines ++ (p.policySets.flatMap policySetText ++ ("\x7d\n".toList ++ rest)))) := by
  have hsplit (header id fixed sets last : Text) :
      header ++ ['\n'] ++ id ++ fixed ++ sets ++ last ++ rest =
        header ++ '\n' :: (id ++ (fixed ++ (sets ++ (last ++ rest)))) := by
    simp
  unfold postureText
  rw [header_eq]
  exact hsplit _ _ _ _ _

theorem valuesIn_postureText {p : DraftPosture} (hp : p.WellQuoted) (f : Field) (rest : Text) :
    valuesIn (Assignment.read f) (postureText p ++ rest) =
      p.ids f ++ valuesIn (Assignment.read f) rest := by
  have hlead := Assignment.name_isPrefix_of_read f
  have hfixed : avoids f.name fixedLines = true := by cases f <;> decide
  have hclose : avoids f.name "\x7d\n".toList = true := by cases f <;> decide
  have hsets := valuesIn_flatMap (fun s hs rest => valuesIn_policySetText hs f rest) hp.2.2
  rw [postureText_append, valuesIn_header hp.1, valuesIn_idText hp.2.1,
    valuesIn_of_avoids hlead hfixed, hsets,
    valuesIn_of_avoids hlead hclose rest, DraftPosture.ids, List.append_assoc]

/-- A scan for a field finds what a draft holds. -/
theorem valuesIn_text {d : Draft} (hd : d.WellQuoted) (f : Field) :
    valuesIn (Assignment.read f) d.text = d.ids f := by
  have hpostures := valuesIn_flatMap (fun p hp rest => valuesIn_postureText hp f rest) hd.1 []
  rw [text, hd.2, ids]
  simpa [valuesIn_nil] using hpostures

/-! ## Which headers are found in it -/

theorem labelsIn_policyText {id : Text} (hid : IsValue id) (rest : Text) :
    valuesIn Declaration.read (policyText id ++ rest) = valuesIn Declaration.read rest :=
  valuesIn_silent_line "    \x7d\n".toList Declaration.lead_isPrefix_of_read
    Declaration.readsPastQuote (by decide) (by decide) (by decide) hid.quotesEscaped rest

theorem labelsIn_idText {id : Option Text} (hid : ∀ i ∈ id, IsValue i) (rest : Text) :
    valuesIn Declaration.read (idText id ++ rest) = valuesIn Declaration.read rest := by
  cases id with
  | none => rfl
  | some id =>
    exact valuesIn_silent_line [] Declaration.lead_isPrefix_of_read Declaration.readsPastQuote
      (by decide) (by decide) (by decide) (hid id rfl).quotesEscaped rest

theorem labelsIn_policySetText {s : DraftPolicySet} (hs : s.WellQuoted) (rest : Text) :
    valuesIn Declaration.read (policySetText s ++ rest) = valuesIn Declaration.read rest := by
  have hlead := Declaration.lead_isPrefix_of_read
  have hclose : avoids Declaration.lead "  \x7d\n".toList = true := by decide
  have hpolicies := valuesIn_flatMap_of_none (fun id hid rest => labelsIn_policyText hid rest) hs.2
  rw [policySetText_append, valuesIn_silent_line [] hlead Declaration.readsPastQuote (by decide)
    (by decide) (by decide) hs.1.quotesEscaped, hpolicies,
    valuesIn_of_avoids hlead hclose rest]

theorem labelsIn_postureText {p : DraftPosture} (hp : p.WellQuoted) (rest : Text) :
    valuesIn Declaration.read (postureText p ++ rest) =
      [p.label] ++ valuesIn Declaration.read rest := by
  have hlead := Declaration.lead_isPrefix_of_read
  have hfixed : avoids Declaration.lead fixedLines = true := by decide
  have hclose : avoids Declaration.lead "\x7d\n".toList = true := by decide
  have hsets :=
    valuesIn_flatMap_of_none (fun s hs rest => labelsIn_policySetText hs rest) hp.2.2
  have hbreak : avoids Declaration.lead ['\n'] = true := by decide
  have hline (rest : Text) :
      valuesIn Declaration.read ('\n' :: rest) = valuesIn Declaration.read rest :=
    valuesIn_of_avoids hlead hbreak rest
  rw [postureText_append, Declaration.valuesIn_text hp.1 (by simp), hline, labelsIn_idText hp.2.1,
    valuesIn_of_avoids hlead hfixed, hsets,
    valuesIn_of_avoids hlead hclose rest, List.singleton_append]

/-- A scan for headers finds one for every posture. -/
theorem labelsIn_text {d : Draft} (hd : d.WellQuoted) :
    valuesIn Declaration.read d.text = d.postures.map (·.label) := by
  have hpostures := valuesIn_flatMap (fun p hp rest => labelsIn_postureText hp rest) hd.1 []
  rw [text, hd.2, List.map_eq_flatMap]
  simpa [valuesIn_nil] using hpostures

end Draft

/-! ## Steps are read back -/

/-- The labels and identifiers of well quoted steps are read back from the file that they build:
    a label for every posture, in the order of the steps, and for each field the identifiers that
    the steps give to it, in the order of the steps and of the blocks they are written in. -/
theorem ofSteps_read_back (steps : List DraftStep) (h : ∀ s ∈ steps, s.WellQuoted) :
    (declarations (Draft.ofSteps steps).text).map (·.value) = steps.filterMap (·.label?) ∧
    ∀ f : Field,
      (assignments f (Draft.ofSteps steps).text).map (·.value) = writtenIds f [] steps ∧
      (assignments f (Draft.ofSteps steps).text).map (·.value) =
        (Draft.ofSteps steps).postures.flatMap (·.ids f) := by
  have hquoted := Draft.wellQuoted_ofSteps h
  have hfollows := Draft.follows_ofSteps steps
  have hlabels := Draft.labelsIn_text hquoted
  refine ⟨?_, fun f => ?_⟩
  · rw [← hfollows.labels, ← hlabels]
    rfl
  · have hids := Draft.valuesIn_text hquoted f
    refine ⟨?_, hids⟩
    rw [← hfollows.ids f, ← hids]
    rfl

/-- Steps whose labels and identifiers look like headers and assignments; the first two and the
    one after each posture are dropped. -/
def deceptiveSteps : List DraftStep :=
  [.policySet "early".toList, .policy "early".toList,
    .posture "a\n\x7d\n policy_id =".toList
      "resource \\\"google_securityposture_posture\\\" \\\"b\\\" \x7b posture_id = ".toList,
    .policy "early".toList, .policySet "policy_id = \\\"x\\\" policy_set_id=".toList,
    .policy "\\\\".toList, .policy [], .postureWithoutId "resource posture_id = ".toList,
    .policy "early".toList, .policySet "last".toList]

theorem ofSteps_read_back_deceptiveSteps :
    (∀ s ∈ deceptiveSteps, s.WellQuoted) ∧
      (declarations (Draft.ofSteps deceptiveSteps).text).map (·.value) =
        ["a\n\x7d\n policy_id =".toList, "resource posture_id = ".toList] ∧
      (assignments .policySetId (Draft.ofSteps deceptiveSteps).text).map (·.value) =
        ["policy_id = \\\"x\\\" policy_set_id=".toList, "last".toList] ∧
      (assignments .policyId (Draft.ofSteps deceptiveSteps).text).map (·.value) =
        ["\\\\".toList, []] := by
  have hquoted : ∀ s ∈ deceptiveSteps, s.WellQuoted := by decide
  obtain ⟨hlabels, hids⟩ := ofSteps_read_back deceptiveSteps hquoted
  exact ⟨hquoted, hlabels.trans (by decide), (hids .policySetId).1.trans (by decide),
    (hids .policyId).1.trans (by decide)⟩

end PostureAudit
