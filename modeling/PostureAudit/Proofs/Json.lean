import PostureAudit.Json
import PostureAudit.Pattern.Token
import Mathlib.Tactic.SplitIfs

set_option autoImplicit false

/-! # Reading JSON back

A reader of JSON values, without regard to how they are laid out: spaces and line ends may stand
between any two parts of a value. The only numbers that it takes are those that a value can hold,
and an escape by number stands for one character, so a pair of surrogates is not read.

The reader inverts the writer: a value is read back from its text at any level of indentation and
whatever follows it, unless more digits follow a number (`Json.readValue_textAt`). -/

namespace PostureAudit

namespace Json

/-! ## The reader -/

/-- The characters that may stand between the parts of a value. -/
def isSpace (c : Char) : Bool := c = ' ' || c = '\n' || c = '\r' || c = '\t'

def dropSpace (t : Text) : Text := t.dropWhile isSpace

/-- The rest of a text after a character, with any spaces before it. -/
def afterChar? (c : Char) (t : Text) : Option Text := Text.after? [c] (dropSpace t)

/-- What a letter stands for after a backslash. -/
def unescape? : Char → Option Char
  | '"' => some '"'
  | '\\' => some '\\'
  | '/' => some '/'
  | 'n' => some '\n'
  | 'r' => some '\r'
  | 't' => some '\t'
  | 'b' => some '\x08'
  | 'f' => some '\x0C'
  | _ => none

/-- Reads a string after its opening quote, up to and including the closing one. -/
def readString : Text → Option (Text × Text)
  | [] => none
  | '"' :: t => some ([], t)
  | '\\' :: 'u' :: a :: b :: c :: d :: t => do
    let char ← Pattern.hexChar? [a, b, c, d]
    let (chars, rest) ← readString t
    return (char :: chars, rest)
  | '\\' :: letter :: t => do
    let char ← unescape? letter
    let (chars, rest) ← readString t
    return (char :: chars, rest)
  | char :: t =>
    if char = '\\' || char.toNat < 0x20 then none
    else do
      let (chars, rest) ← readString t
      return (char :: chars, rest)

/-- Reads the name of a member, up to and including the colon after it. -/
def readName (t : Text) : Option (Text × Text) := do
  let (name, rest) ← readString (← afterChar? '"' t)
  return (name, ← afterChar? ':' rest)

def readNumber (t : Text) : Option (Nat × Text) :=
  match t.takeWhile Char.isDigit with
  | [] => none
  | digits => some (Nat.ofDigitChars 10 digits 0, t.dropWhile Char.isDigit)

mutual

/-- Reads a value. Every value, item and member takes some of the fuel and a character of the text,
    so there is enough of it if there is more than the text is long. -/
def readValue : Nat → Text → Option (Json × Text)
  | 0, _ => none
  | fuel + 1, t =>
    match dropSpace t with
    | '"' :: t => (readString t).map fun (s, rest) => (string s, rest)
    | '[' :: t =>
      match afterChar? ']' t with
      | some rest => some (array [], rest)
      | none => do
        let (item, t) ← readValue fuel t
        let (items, rest) ← readItems fuel t
        return (array (item :: items), rest)
    | '\x7b' :: t =>
      match afterChar? '\x7d' t with
      | some rest => some (object [], rest)
      | none => do
        let (name, t) ← readName t
        let (value, t) ← readValue fuel t
        let (members, rest) ← readMembers fuel t
        return (object ((name, value) :: members), rest)
    | t =>
      match Text.after? "null".toList t with
      | some rest => some (null, rest)
      | none => (readNumber t).map fun (n, rest) => (number n, rest)

/-- Reads the items of an array after the first one, and the bracket after them. -/
def readItems : Nat → Text → Option (List Json × Text)
  | 0, _ => none
  | fuel + 1, t =>
    match afterChar? ']' t with
    | some rest => some ([], rest)
    | none => do
      let (item, t) ← readValue fuel (← afterChar? ',' t)
      let (items, rest) ← readItems fuel t
      return (item :: items, rest)

/-- Reads the members of an object after the first one, and the brace after them. -/
def readMembers : Nat → Text → Option (List (Text × Json) × Text)
  | 0, _ => none
  | fuel + 1, t =>
    match afterChar? '\x7d' t with
    | some rest => some ([], rest)
    | none => do
      let (name, t) ← readName (← afterChar? ',' t)
      let (value, t) ← readValue fuel t
      let (members, rest) ← readMembers fuel t
      return ((name, value) :: members, rest)

end

/-- Reads a text that is one value. -/
def ofText? (t : Text) : Option Json :=
  match readValue (t.length + 1) t with
  | some (value, rest) => if dropSpace rest = [] then some value else none
  | none => none

/-! ## Spaces -/

theorem dropSpace_cons {c : Char} (hc : isSpace c = false) (t : Text) :
    dropSpace (c :: t) = c :: t := by
  simp [dropSpace, hc]

theorem dropSpace_append {blanks : Text} (h : ∀ c ∈ blanks, isSpace c = true) (t : Text) :
    dropSpace (blanks ++ t) = dropSpace t :=
  List.dropWhile_append_of_pos h

theorem isSpace_newLine (level : Nat) : ∀ c ∈ newLine level, isSpace c = true := by
  rintro c (_ | ⟨_, hc⟩)
  · decide
  · rw [List.eq_of_mem_replicate hc]
    decide

theorem dropSpace_newLine (level : Nat) (t : Text) :
    dropSpace (newLine level ++ t) = dropSpace t :=
  dropSpace_append (isSpace_newLine level) t

theorem afterChar?_self {c : Char} (hc : isSpace c = false) (t : Text) :
    afterChar? c (c :: t) = some t := by
  rw [afterChar?, dropSpace_cons hc, Text.after?_eq_some_iff]
  rfl

theorem afterChar?_ne {c d : Char} (hd : isSpace d = false) (hne : c ≠ d) (t : Text) :
    afterChar? c (d :: t) = none := by
  rw [afterChar?, dropSpace_cons hd, Text.after?, if_neg hne]

theorem afterChar?_newLine (c : Char) (level : Nat) (t : Text) :
    afterChar? c (newLine level ++ t) = afterChar? c t := by
  rw [afterChar?, afterChar?, dropSpace_newLine]

theorem readValue_append {blanks : Text} (h : ∀ c ∈ blanks, isSpace c = true) (fuel : Nat)
    (t : Text) : readValue fuel (blanks ++ t) = readValue fuel t := by
  cases fuel with
  | zero => rw [readValue, readValue]
  | succ fuel => rw [readValue, readValue, dropSpace_append h]

theorem readValue_space (fuel : Nat) (t : Text) : readValue fuel (' ' :: t) = readValue fuel t :=
  readValue_append (List.forall_mem_singleton.mpr (by decide : isSpace ' ' = true)) fuel t

/-! ## Strings -/

theorem hexChar?_controlDigits {c : Char} (h : c.toNat < 0x20) :
    Pattern.hexChar? ('0' :: '0' :: controlDigits c) = some c := by
  have hall : ∀ n < 0x20, Pattern.hexChar? ['0', '0', Nat.digitChar (n / 16),
      Nat.digitChar (n % 16)] = some (Char.ofNat n) := by decide
  rw [controlDigits, hall c.toNat h, Char.ofNat_toNat]

/-- The reader gets past a character by its escape. -/
theorem readString_escapeChar (c : Char) (t : Text) :
    readString (escapeChar c ++ t) = do
      let (chars, rest) ← readString t
      return (c :: chars, rest) := by
  unfold escapeChar
  split_ifs with hquote hbackslash hn hr ht hb hf hcontrol
  case pos => subst hquote; rfl
  case pos => subst hbackslash; rfl
  case pos => subst hn; rfl
  case pos => subst hr; rfl
  case pos => subst ht; rfl
  case pos => subst hb; rfl
  case pos => subst hf; rfl
  case pos =>
    change readString ('\\' :: 'u' :: '0' :: '0' :: _ :: _ :: t) = _
    rw [readString, ← controlDigits, hexChar?_controlDigits hcontrol]
    rfl
  case neg =>
    rw [List.singleton_append, readString]
    · simp [hbackslash, hcontrol]
    all_goals simp [hquote, hbackslash]

theorem readString_flatMap_escapeChar (s rest : Text) :
    readString (s.flatMap escapeChar ++ '"' :: rest) = some (s, rest) := by
  induction s with
  | nil => rfl
  | cons c s ih =>
    rw [List.flatMap_cons, List.append_assoc, readString_escapeChar, ih]
    rfl

theorem quote_append (s rest : Text) :
    quote s ++ rest = '"' :: (s.flatMap escapeChar ++ '"' :: rest) := by
  rw [quote, List.cons_append, List.cons_append, List.append_assoc, List.singleton_append]

theorem readName_quote (level : Nat) (name rest : Text) :
    readName (newLine level ++ (quote name ++ (": ".toList ++ rest))) =
      some (name, ' ' :: rest) := by
  have hquote : afterChar? '"' (newLine level ++ (quote name ++ (": ".toList ++ rest))) =
      some (name.flatMap escapeChar ++ '"' :: (": ".toList ++ rest)) := by
    rw [afterChar?_newLine, quote_append, afterChar?_self (by decide)]
  have hcolon : afterChar? ':' (": ".toList ++ rest) = some (' ' :: rest) :=
    afterChar?_self (by decide) _
  rw [readName, hquote, Option.bind_eq_bind, Option.bind_some, readString_flatMap_escapeChar,
    Option.bind_eq_bind, Option.bind_some]
  simp only [hcolon]
  rfl

/-! ## Numbers -/

/-- The text does not go on with a digit. -/
def Delimited (t : Text) : Prop := ∀ c, t.head? = some c → c.isDigit = false

theorem delimited_cons {c : Char} (hc : c.isDigit = false) (t : Text) : Delimited (c :: t) := by
  rintro d ⟨⟩
  exact hc

theorem readNumber_ofNat (n : Nat) {rest : Text} (hrest : Delimited rest) :
    readNumber (Text.ofNat n ++ rest) = some (n, rest) := by
  have htake : rest.takeWhile Char.isDigit = [] := by
    cases rest with
    | nil => rfl
    | cons c t => simp [hrest c rfl]
  have hdrop : rest.dropWhile Char.isDigit = rest := by
    cases rest with
    | nil => rfl
    | cons c t => simp [hrest c rfl]
  rw [readNumber, List.takeWhile_append_of_pos fun _ => Text.isDigit_of_mem_ofNat,
    List.dropWhile_append_of_pos fun _ => Text.isDigit_of_mem_ofNat, htake, hdrop,
    List.append_nil]
  split
  case h_1 hnil => exact absurd hnil Nat.toDigits_ne_nil
  case h_2 => rw [Text.ofNat, Nat.ofDigitChars_toDigits (by decide) (by decide)]

theorem isSpace_eq_false_of_isDigit {c : Char} (hc : c.isDigit = true) : isSpace c = false := by
  refine Bool.eq_false_iff.mpr fun hspace => ?_
  simp only [isSpace, Bool.or_eq_true, decide_eq_true_eq] at hspace
  rcases hspace with ((rfl | rfl) | rfl) | rfl <;> exact absurd hc (by decide)

/-! ## Values -/

/-- A value begins with a character that is no space and closes no array. -/
theorem exists_textAt_eq_cons (level : Nat) (v : Json) :
    ∃ c t, v.textAt level = c :: t ∧ isSpace c = false ∧ c ≠ ']' := by
  cases v with
  | null => exact ⟨'n', "ull".toList, by rw [textAt]; rfl, by decide, by decide⟩
  | number n =>
    obtain ⟨c, t, hn, hc⟩ := Text.exists_ofNat_eq_cons n
    refine ⟨c, t, by rw [textAt, hn], isSpace_eq_false_of_isDigit hc, ?_⟩
    rintro rfl
    exact absurd hc (by decide)
  | string t => exact ⟨'"', _, by rw [textAt]; rfl, by decide, by decide⟩
  | array items =>
    cases items with
    | nil => exact ⟨'[', _, by rw [textAt]; rfl, by decide, by decide⟩
    | cons item items => exact ⟨'[', _, by rw [textAt]; rfl, by decide, by decide⟩
  | object members =>
    cases members with
    | nil => exact ⟨'\x7b', _, by rw [textAt]; rfl, by decide, by decide⟩
    | cons member members => exact ⟨'\x7b', _, by rw [textAt]; rfl, by decide, by decide⟩

/-- Reading a number goes past the cases of the other values. -/
theorem readValue_number (fuel n : Nat) {rest : Text} (hrest : Delimited rest) :
    readValue (fuel + 1) (Text.ofNat n ++ rest) = some (number n, rest) := by
  have hread := readNumber_ofNat n hrest
  obtain ⟨c, t, hn, hc⟩ := Text.exists_ofNat_eq_cons n
  rw [hn, List.cons_append] at hread ⊢
  rw [readValue, dropSpace_cons (isSpace_eq_false_of_isDigit hc)]
  split
  case h_1 heq | h_2 heq | h_3 heq =>
    -- a quote, a bracket or a brace is no digit
    cases heq
    exact absurd hc (by decide)
  case h_4 =>
    have hnull : Text.after? "null".toList (c :: (t ++ rest)) = none := by
      refine if_neg ?_
      rintro rfl
      exact absurd hc (by decide)
    rw [hnull, hread]
    rfl

theorem readValue_array (fuel : Nat) {t : Text} (hne : afterChar? ']' t = none) :
    readValue (fuel + 1) ('[' :: t) = do
      let (item, t) ← readValue fuel t
      let (items, rest) ← readItems fuel t
      return (array (item :: items), rest) := by
  rw [readValue, dropSpace_cons (by decide)]
  simp only [hne]

theorem readValue_object (fuel : Nat) {t : Text} (hne : afterChar? '\x7d' t = none) :
    readValue (fuel + 1) ('\x7b' :: t) = do
      let (name, t) ← readName t
      let (value, t) ← readValue fuel t
      let (members, rest) ← readMembers fuel t
      return (object ((name, value) :: members), rest) := by
  rw [readValue, dropSpace_cons (by decide)]
  simp only [hne]

theorem readValue_string (fuel : Nat) (t rest : Text) :
    readValue (fuel + 1) (quote t ++ rest) = some (string t, rest) := by
  rw [quote_append, readValue, dropSpace_cons (by decide)]
  simp only [readString_flatMap_escapeChar]
  rfl

theorem delimited_moreItems (level close : Nat) (items : List Json) (t : Text) :
    Delimited (moreItems level items ++ (newLine close ++ t)) := by
  cases items with
  | nil => rw [moreItems]; exact delimited_cons (by decide) _
  | cons item items => rw [moreItems]; exact delimited_cons (by decide) _

theorem delimited_moreMembers (level close : Nat) (members : List (Text × Json)) (t : Text) :
    Delimited (moreMembers level members ++ (newLine close ++ t)) := by
  cases members with
  | nil => rw [moreMembers]; exact delimited_cons (by decide) _
  | cons member members => rw [moreMembers]; exact delimited_cons (by decide) _

mutual

/-- A value is read back from its text. -/
theorem readValue_textAt (level : Nat) :
    ∀ (v : Json) (fuel : Nat) (rest : Text), (v.textAt level).length < fuel → Delimited rest →
      readValue fuel (v.textAt level ++ rest) = some (v, rest)
  | _, 0, _, hfuel, _ => absurd hfuel (Nat.not_lt_zero _)
  | null, fuel + 1, rest, _, _ => by
    rw [textAt, readValue]
    rfl
  | number n, fuel + 1, rest, _, hrest => by
    rw [textAt]
    exact readValue_number fuel n hrest
  | string t, fuel + 1, rest, _, _ => by
    rw [textAt]
    exact readValue_string fuel t rest
  | array [], fuel + 1, rest, _, _ => by
    rw [textAt, readValue]
    rfl
  | array (item :: items), fuel + 1, rest, hfuel, _ => by
    rw [textAt] at hfuel ⊢
    simp only [List.cons_append, List.append_assoc, List.nil_append, List.length_cons,
      List.length_append] at hfuel ⊢
    have hitem := readValue_textAt (level + 1) item fuel _ (by omega)
      (delimited_moreItems (level + 1) level items (']' :: rest))
    have hitems := readItems_moreItems (level + 1) items fuel level rest (by omega)
    obtain ⟨c, t, htext, hspace, hclose⟩ := exists_textAt_eq_cons (level + 1) item
    rw [readValue_array fuel, readValue_append (isSpace_newLine _), hitem]
    · simp only [Option.bind_eq_bind, Option.bind_some, hitems]
      rfl
    · rw [afterChar?_newLine, htext, List.cons_append, afterChar?_ne hspace hclose.symm]
  | object [], fuel + 1, rest, _, _ => by
    rw [textAt, readValue]
    rfl
  | object ((name, value) :: members), fuel + 1, rest, hfuel, _ => by
    rw [textAt] at hfuel ⊢
    simp only [List.cons_append, List.append_assoc, List.nil_append, List.length_cons,
      List.length_append] at hfuel ⊢
    have hvalue := readValue_textAt (level + 1) value fuel _ (by omega)
      (delimited_moreMembers (level + 1) level members ('\x7d' :: rest))
    have hmembers := readMembers_moreMembers (level + 1) members fuel level rest (by omega)
    rw [readValue_object fuel, readName_quote]
    · simp only [Option.bind_eq_bind, Option.bind_some, readValue_space, hvalue, hmembers]
      rfl
    · rw [afterChar?_newLine, quote_append, afterChar?_ne (by decide) (by decide)]

theorem readItems_moreItems (level : Nat) :
    ∀ (items : List Json) (fuel close : Nat) (rest : Text),
      (moreItems level items).length < fuel →
      readItems fuel (moreItems level items ++ (newLine close ++ ']' :: rest)) = some (items, rest)
  | _, 0, _, _, hfuel => absurd hfuel (Nat.not_lt_zero _)
  | [], fuel + 1, close, rest, _ => by
    rw [moreItems, readItems, List.nil_append, afterChar?_newLine, afterChar?_self (by decide)]
  | item :: items, fuel + 1, close, rest, hfuel => by
    rw [moreItems] at hfuel ⊢
    simp only [List.cons_append, List.append_assoc, List.length_cons, List.length_append]
      at hfuel ⊢
    have hitem := readValue_textAt level item fuel _ (by omega)
      (delimited_moreItems level close items (']' :: rest))
    have hitems := readItems_moreItems level items fuel close rest (by omega)
    rw [readItems, afterChar?_ne (by decide) (by decide), afterChar?_self (by decide)]
    simp only [Option.bind_eq_bind, Option.bind_some, readValue_append (isSpace_newLine _), hitem,
      hitems]
    rfl

theorem readMembers_moreMembers (level : Nat) :
    ∀ (members : List (Text × Json)) (fuel close : Nat) (rest : Text),
      (moreMembers level members).length < fuel →
      readMembers fuel (moreMembers level members ++ (newLine close ++ '\x7d' :: rest)) =
        some (members, rest)
  | _, 0, _, _, hfuel => absurd hfuel (Nat.not_lt_zero _)
  | [], fuel + 1, close, rest, _ => by
    rw [moreMembers, readMembers, List.nil_append, afterChar?_newLine,
      afterChar?_self (by decide)]
  | (name, value) :: members, fuel + 1, close, rest, hfuel => by
    rw [moreMembers] at hfuel ⊢
    simp only [List.cons_append, List.append_assoc, List.length_cons, List.length_append]
      at hfuel ⊢
    have hvalue := readValue_textAt level value fuel _ (by omega)
      (delimited_moreMembers level close members ('\x7d' :: rest))
    have hmembers := readMembers_moreMembers level members fuel close rest (by omega)
    rw [readMembers, afterChar?_ne (by decide) (by decide), afterChar?_self (by decide)]
    simp only [Option.bind_eq_bind, Option.bind_some, readName_quote, readValue_space, hvalue,
      hmembers]
    rfl

end

/-- A text that is a value followed by spaces is read as that value. -/
theorem ofText?_text (v : Json) (blanks : Text) (h : ∀ c ∈ blanks, isSpace c = true) :
    ofText? (v.text ++ blanks) = some v := by
  have hblanks : Delimited blanks := by
    intro c hc
    refine Bool.eq_false_iff.mpr fun hdigit => ?_
    have hspace := h c (List.mem_of_mem_head? hc)
    rw [isSpace_eq_false_of_isDigit hdigit] at hspace
    cases hspace
  have hfuel : v.text.length < (v.text ++ blanks).length + 1 := by
    rw [List.length_append]
    omega
  have hend : dropSpace blanks = [] := by
    have := dropSpace_append h []
    rwa [List.append_nil] at this
  have hread := readValue_textAt 0 v _ blanks hfuel hblanks
  rw [← text] at hread
  rw [ofText?, hread]
  exact if_pos hend

end Json

end PostureAudit
