import PostureAudit.FileSystem.Resolve
import PostureAudit.Proofs.Trails

set_option autoImplicit false

/-! # Paths made of ordinary names

A path is put together from its pieces again (`ofPieces_pieces`), so it is known by them. If every
piece is an ordinary name, the pieces are the names that the path goes into, and what is at the end
of this trail has the path that one gets by joining the two paths (`along_names`). To join a name
to a path adds one step to what the path tells the resolver, in the place of a slash at the end
(`exists_steps_join`). -/

namespace PostureAudit.Path

/-- The path of some pieces. -/
def ofPieces : List Bytes → Path
  | [] => []
  | [piece] => piece
  | piece :: next :: rest => piece ++ slash :: ofPieces (next :: rest)

/-- A name that a directory may have. -/
structure IsName (name : Bytes) : Prop where
  ne_nil : name ≠ []
  ne_dot : name ≠ [dot]
  ne_dots : name ≠ [dot, dot]
  slash_notMem : slash ∉ name
  nul_notMem : 0 ∉ name
  length_le : name.length ≤ maxNameLength

/-- Every component is a name that a directory may have. -/
def Ordinary (p : Path) : Prop :=
  ∀ piece ∈ p.pieces, piece ≠ [] ∧ piece ≠ [dot] ∧ piece ≠ [dot, dot] ∧ 0 ∉ piece ∧
    piece.length ≤ maxNameLength

instance : DecidablePred Ordinary := fun p =>
  inferInstanceAs (Decidable (∀ piece ∈ p.pieces, _))

/-- The one path goes on where the other one ends. -/
def IsAncestor (p q : Path) : Prop := p ++ [slash] <+: q

instance : DecidableRel IsAncestor := fun p q => inferInstanceAs (Decidable (p ++ [slash] <+: q))

/-- The last component of a path. -/
def fileName? (p : Path) : Option Bytes := p.pieces.getLast?

/-! ## Pieces -/

theorem exists_pieces_eq_cons (p : Path) : ∃ piece rest, p.pieces = piece :: rest := by
  cases p with
  | nil => exact ⟨_, _, rfl⟩
  | cons b p =>
    rw [pieces]
    split
    · exact ⟨_, _, rfl⟩
    · split <;> exact ⟨_, _, rfl⟩

theorem pieces_cons_slash (p : Path) : pieces (slash :: p) = [] :: pieces p := by
  rw [pieces, if_pos rfl]

theorem pieces_cons_of_ne {b : UInt8} {p : Path} {piece : Bytes} {rest : List Bytes}
    (hb : b ≠ slash) (h : p.pieces = piece :: rest) : pieces (b :: p) = (b :: piece) :: rest := by
  rw [pieces, if_neg hb, h]

theorem slash_notMem_of_mem_pieces {p : Path} {piece : Bytes} (h : piece ∈ p.pieces) :
    slash ∉ piece := by
  induction p generalizing piece with
  | nil =>
    rw [pieces, List.mem_singleton] at h
    simp [h]
  | cons b p ih =>
    by_cases hb : b = slash
    · subst hb
      rw [pieces_cons_slash, List.mem_cons] at h
      rcases h with rfl | h
      · simp
      · exact ih h
    · obtain ⟨first, rest, hpieces⟩ := exists_pieces_eq_cons p
      rw [hpieces] at ih
      rw [pieces_cons_of_ne hb hpieces, List.mem_cons] at h
      rcases h with rfl | h
      · rw [List.mem_cons, not_or]
        exact ⟨Ne.symm hb, ih (List.mem_cons_self ..)⟩
      · exact ih (List.mem_cons_of_mem _ h)

theorem ofPieces_cons {piece : Bytes} {rest : List Bytes} (h : rest ≠ []) :
    ofPieces (piece :: rest) = piece ++ slash :: ofPieces rest := by
  obtain ⟨next, rest, rfl⟩ := List.exists_cons_of_ne_nil h
  rfl

theorem ofPieces_append {front back : List Bytes} (hfront : front ≠ []) (hback : back ≠ []) :
    ofPieces (front ++ back) = ofPieces front ++ slash :: ofPieces back := by
  induction front with
  | nil => exact absurd rfl hfront
  | cons piece front ih =>
    cases front with
    | nil => exact ofPieces_cons hback
    | cons next front =>
      have hfirst : ofPieces (piece :: (next :: front ++ back)) =
          piece ++ slash :: ofPieces (next :: front ++ back) := ofPieces_cons (List.cons_ne_nil _ _)
      have hfront : ofPieces (piece :: next :: front) =
          piece ++ slash :: ofPieces (next :: front) := ofPieces_cons (List.cons_ne_nil _ _)
      rw [List.cons_append, hfirst, ih (List.cons_ne_nil _ _), hfront, List.append_assoc,
        List.cons_append]

theorem ofPieces_pieces (p : Path) : ofPieces p.pieces = p := by
  induction p with
  | nil => rfl
  | cons b p ih =>
    obtain ⟨piece, rest, hpieces⟩ := exists_pieces_eq_cons p
    by_cases hb : b = slash
    · subst hb
      rw [pieces_cons_slash, ofPieces_cons (by simp [hpieces]), ih]
      rfl
    · rw [pieces_cons_of_ne hb hpieces]
      rw [hpieces] at ih
      cases rest with
      | nil => exact congrArg (b :: ·) ih
      | cons next rest =>
        rw [ofPieces_cons (by simp)] at ih ⊢
        rw [List.cons_append, ih]

theorem pieces_of_notMem {name : Bytes} (h : slash ∉ name) : pieces name = [name] := by
  induction name with
  | nil => rfl
  | cons b name ih =>
    obtain ⟨hb, hname⟩ := List.ne_and_not_mem_of_not_mem_cons h
    exact pieces_cons_of_ne hb.symm (ih hname)

theorem pieces_append_slash (front back : Path) :
    pieces (front ++ slash :: back) = pieces front ++ pieces back := by
  induction front with
  | nil => exact pieces_cons_slash back
  | cons b front ih =>
    by_cases hb : b = slash
    · rw [hb, List.cons_append, pieces_cons_slash, ih, pieces_cons_slash, List.cons_append]
    · obtain ⟨piece, rest, hpieces⟩ := exists_pieces_eq_cons front
      rw [hpieces] at ih
      rw [List.cons_append, pieces_cons_of_ne hb ih, pieces_cons_of_ne hb hpieces]
      rfl

/-! ## Ordinary names -/

variable {p q : Path}

theorem Ordinary.isName (h : p.Ordinary) {name : Bytes} (hname : name ∈ p.pieces) :
    IsName name := by
  obtain ⟨hempty, hdot, hdots, hnul, hlength⟩ := h name hname
  exact ⟨hempty, hdot, hdots, slash_notMem_of_mem_pieces hname, hnul, hlength⟩

theorem Ordinary.names_eq (h : p.Ordinary) : p.names = p.pieces := by
  rw [names, List.filter_eq_self]
  intro piece hpiece
  obtain ⟨hempty, hdot, -⟩ := h piece hpiece
  simp [hempty, hdot]

theorem Ordinary.names_ne_nil (h : p.Ordinary) : p.names ≠ [] := by
  obtain ⟨piece, rest, hpieces⟩ := exists_pieces_eq_cons p
  simp [h.names_eq, hpieces]

theorem Ordinary.ofPieces_names (h : p.Ordinary) : ofPieces p.names = p := by
  rw [h.names_eq, ofPieces_pieces]

theorem Ordinary.length_le (h : p.Ordinary) :
    ∀ name ∈ p.names, name.length ≤ maxNameLength := by
  intro name hname
  rw [h.names_eq] at hname
  exact (h name hname).2.2.2.2

theorem Ordinary.eq_of_names_eq (hp : p.Ordinary) (hq : q.Ordinary) (h : p.names = q.names) :
    p = q := by
  rw [← hp.ofPieces_names, h, hq.ofPieces_names]

theorem Ordinary.isAncestor (hp : p.Ordinary) (hq : q.Ordinary) (h : p.names <+: q.names)
    (hne : p.names ≠ q.names) : p.IsAncestor q := by
  obtain ⟨below, hbelow⟩ := h
  have hback : below ≠ [] := by
    rintro rfl
    exact hne (by simpa using hbelow)
  have hpath := ofPieces_append hp.names_ne_nil hback
  rw [hbelow, hp.ofPieces_names, hq.ofPieces_names] at hpath
  rw [hpath]
  exact ⟨ofPieces below, by simp⟩

/-! ## Trails of names -/

theorem join_append (directory : Path) (front back : Bytes) :
    directory.join (front ++ back) = directory.join front ++ back := by
  unfold join
  split <;> simp

/-- A directory that is no root is separated from what is in it. -/
theorem join_join {name : Bytes} (directory : Path) (hname : name ≠ []) (hslash : slash ∉ name)
    (inner : Bytes) :
    (directory.join name).join inner = directory.join (name ++ slash :: inner) := by
  obtain ⟨initial, last, rfl⟩ := List.eq_nil_or_concat name |>.resolve_left hname
  rw [List.concat_eq_append] at hslash ⊢
  have hend : (directory.join (initial ++ [last])).getLast? ≠ some slash := by
    rw [join_append, List.getLast?_concat]
    intro h
    exact hslash (by simp [Option.some.inj h])
  have hfull : directory.join (initial ++ [last]) ≠ [] := by
    rw [join_append]
    simp
  rw [join_append directory _ (slash :: inner)]
  generalize directory.join (initial ++ [last]) = path at hend hfull ⊢
  rw [join, if_neg (by simp [hend, hfull])]

theorem along_ofPieces (directory : Path) {trail : Trail} (hne : trail ≠ [])
    (hnames : ∀ name ∈ trail, name ≠ [] ∧ slash ∉ name) :
    directory.along trail = directory.join (ofPieces trail) := by
  induction trail generalizing directory with
  | nil => exact absurd rfl hne
  | cons name trail ih =>
    obtain ⟨⟨hname, hslash⟩, htrail⟩ := List.forall_mem_cons.mp hnames
    cases trail with
    | nil => rfl
    | cons next trail =>
      rw [ofPieces_cons (by simp), ← join_join directory hname hslash]
      exact ih (directory.join name) (by simp) htrail

theorem Ordinary.along_names (h : p.Ordinary) (directory : Path) :
    directory.along p.names = directory.join p := by
  rw [along_ofPieces directory h.names_ne_nil, h.ofPieces_names]
  intro name hname
  rw [h.names_eq] at hname
  exact ⟨(h name hname).1, slash_notMem_of_mem_pieces hname⟩

theorem length_le_length_along (directory : Path) (trail : Trail) :
    directory.length ≤ (directory.along trail).length := by
  induction trail generalizing directory with
  | nil => exact Nat.le_refl _
  | cons name trail ih =>
    refine Nat.le_trans ?_ (ih (directory.join name))
    unfold join
    split <;> simp

/-- What is further down has the longer path. -/
theorem length_along_le (directory : Path) {t trail : Trail} (h : t <+: trail) :
    (directory.along t).length ≤ (directory.along trail).length := by
  obtain ⟨below, rfl⟩ := h
  have hsplit : directory.along (t ++ below) = (directory.along t).along below := List.foldl_append
  rw [hsplit]
  exact length_le_length_along _ below

/-! ## Steps -/

theorem IsName.steps_eq {name : Bytes} (h : IsName name) :
    (pieces name).filterMap stepOf? = [.into name] := by
  simp [pieces_of_notMem h.slash_notMem, stepOf?, h.ne_nil, h.ne_dot, h.ne_dots]

theorem IsName.getLast?_ne {name : Bytes} (h : IsName name) : name.getLast? ≠ some slash := by
  intro hend
  exact h.slash_notMem (List.mem_of_getLast? hend)

/-- A name that is joined to a path is one step more. -/
theorem exists_steps_join {name : Bytes} (h : IsName name) (directory : Path) :
    ∃ front tail, (tail = [] ∨ tail = [.slash]) ∧ directory.steps = front ++ tail ∧
      (directory.join name).steps = front ++ [.into name] := by
  refine ⟨(pieces directory).filterMap stepOf?, _, ?_, rfl, ?_⟩
  · split
    · exact Or.inr rfl
    · exact Or.inl rfl
  have hend : (directory.join name).getLast? ≠ some slash := by
    unfold join
    split <;> rw [List.getLast?_append_of_ne_nil _ (by simp [h.ne_nil])]
    · exact h.getLast?_ne
    · rw [List.getLast?_cons_of_ne_nil h.ne_nil]
      exact h.getLast?_ne
  rw [steps, if_neg hend, List.append_nil, ← h.steps_eq, ← List.filterMap_append]
  unfold join
  split
  next hslash =>
    rcases List.eq_nil_or_concat directory with rfl | ⟨initial, last, rfl⟩
    · simp [pieces, stepOf?]
    · -- the slash at the end of the path is the one in between
      rw [List.concat_eq_append] at hslash ⊢
      have hlast : last = slash := by simpa using hslash
      rw [hlast, List.append_assoc, List.singleton_append, pieces_append_slash,
        pieces_append_slash]
      simp [pieces, stepOf?]
  next => rw [pieces_append_slash]

theorem startFrom_join {directory : Path} (hne : directory ≠ []) (name : Bytes) (trail : Trail) :
    (directory.join name).startFrom trail = directory.startFrom trail := by
  obtain ⟨b, rest, rfl⟩ := List.exists_cons_of_ne_nil hne
  unfold join
  split <;> rfl

theorem join_ne_nil (directory : Path) {name : Bytes} (h : name ≠ []) :
    directory.join name ≠ [] := by
  unfold join
  split <;> simp [h]

theorem nul_notMem_join {directory : Path} {name : Bytes} (hdirectory : 0 ∉ directory)
    (h : IsName name) : 0 ∉ directory.join name := by
  have hslash : (0 : UInt8) ≠ slash := by decide
  unfold join
  split <;> simp [hdirectory, h.nul_notMem, hslash]

end PostureAudit.Path
