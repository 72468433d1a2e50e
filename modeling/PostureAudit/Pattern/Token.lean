import PostureAudit.Pattern.Basic
import PostureAudit.Text.Scan

set_option autoImplicit false

/-! # Tokens of a written pattern

A written pattern is read in two steps. This one cuts it into tokens: single characters and
classes, assertions, repetition counts, bars, and what opens and closes a group. Every token is
read from the start of the text that is left. The text is refused if an escape, a class, a count
or a flag is malformed, and if it asks for look-around, a back-reference or a property class,
which patterns do not have. -/

namespace PostureAudit.Pattern

/-- A unit of a written pattern. -/
inductive Token where
  | one (s : CharClass)
  | assert (a : Assertion)
  /-- Repeats what comes before it. -/
  | times (least : Nat) (most : Option Nat)
  | bar
  /-- Opens a group, with its name if it has one, and the case flag it sets. -/
  | groupOpen (name : Option Text) (ignoreCase : Option Bool)
  | groupClose
  /-- Sets the case flag for the rest of the group. -/
  | flags (ignoreCase : Option Bool)
  deriving DecidableEq, Repr

/-! ## Escapes -/

/-- The characters that mean something unless they are escaped. -/
def isMeta (c : Char) : Bool :=
  ['\\', '.', '+', '*', '?', '(', ')', '|', '[', ']', '\x7B', '\x7D', '^', '$', '#', '&', '-',
    '~'].contains c

/-- The written form of a text that matches just that text. -/
def escape (t : Text) : Text := t.flatMap fun c => if isMeta c then ['\\', c] else [c]

/-- The ASCII characters that a backslash turns into themselves. -/
def isEscapable (c : Char) : Bool :=
  isMeta c || (c.toNat < 0x80 && !c.isAlphanum && c != '<' && c != '>')

/-- The value of a hexadecimal digit. -/
def hexValue? (c : Char) : Option Nat :=
  if '0' ≤ c && c ≤ '9' then some (c.toNat - '0'.toNat)
  else if 'a' ≤ c && c ≤ 'f' then some (c.toNat - 'a'.toNat + 10)
  else if 'A' ≤ c && c ≤ 'F' then some (c.toNat - 'A'.toNat + 10)
  else none

/-- The character with a code point written in hexadecimal. -/
def hexChar? (digits : Text) : Option Char := do
  let values ← digits.mapM hexValue?
  let n := values.foldl (fun n d => n * 16 + d) 0
  if values.isEmpty || !n.isValidChar then none else some (Char.ofNat n)

/-- Reads the digits of a hexadecimal escape: `count` of them, or any number in braces. -/
def readHex (count : Nat) : Recogniser Char
  | '\x7B' :: t =>
    match t.dropWhile (· != '\x7D') with
    | _ :: rest => (hexChar? (t.takeWhile (· != '\x7D'))).map (·, rest)
    | [] => none
  | t => if t.length < count then none else (hexChar? (t.take count)).map (·, t.drop count)

/-- Reads the name in braces that makes a word boundary one-sided. Anything else after a word
    boundary is left alone. -/
def readBoundary (t : Text) : Option (Assertion × Text) :=
  match t with
  | '\x7B' :: r =>
    let name := r.takeWhile fun c => c.isAlpha || c == '-'
    if name.isEmpty then some (.wordBoundary, t)
    else match String.ofList name, r.drop name.length with
      | "start", '\x7D' :: rest => some (.wordStart, rest)
      | "end", '\x7D' :: rest => some (.wordEnd, rest)
      | _, _ => none
  | _ => some (.wordBoundary, t)

/-- Reads what follows a backslash. -/
def readEscape : Text → Option (Token × Text)
  | [] => none
  | c :: t =>
    if isEscapable c then some (.one (.single c), t)
    else match c with
      | 'd' => some (.one (.named .digit), t)
      | 'D' => some (.one (.compl (.named .digit)), t)
      | 's' => some (.one (.named .space), t)
      | 'S' => some (.one (.compl (.named .space)), t)
      | 'w' => some (.one (.named .word), t)
      | 'W' => some (.one (.compl (.named .word)), t)
      | 'a' => some (.one (.single '\x07'), t)
      | 'f' => some (.one (.single '\x0C'), t)
      | 't' => some (.one (.single '\t'), t)
      | 'n' => some (.one (.single '\n'), t)
      | 'r' => some (.one (.single '\r'), t)
      | 'v' => some (.one (.single '\x0B'), t)
      | 'x' => (readHex 2 t).map fun (c, r) => (.one (.single c), r)
      | 'u' => (readHex 4 t).map fun (c, r) => (.one (.single c), r)
      | 'U' => (readHex 8 t).map fun (c, r) => (.one (.single c), r)
      | 'A' => some (.assert .textStart, t)
      | 'z' => some (.assert .textEnd, t)
      | 'b' => (readBoundary t).map fun (a, r) => (.assert a, r)
      | 'B' => some (.assert .noWordBoundary, t)
      | '<' => some (.assert .wordStart, t)
      | '>' => some (.assert .wordEnd, t)
      | _ => none

/-! ## Bracketed classes -/

/-- What combines the two sides of a class with an operator. -/
abbrev ClassOp := CharClass → CharClass → CharClass

/-- Reads one member of a bracketed class: a character, or a class written as an escape. -/
def readMember : Text → Option (CharClass × Text)
  | [] => none
  | '\\' :: t =>
    match readEscape t with
    | some (.one s, rest) => some (s, rest)
    | _ => none
  | c :: t => some (.single c, t)

/-- Reads one member of a bracketed class or a range of characters. A dash before the closing
    bracket or before another dash belongs to no range. -/
def readRange (t : Text) : Option (CharClass × Text) :=
  match readMember t with
  | none => none
  | some (first, rest) =>
    match rest with
    | [] => none
    | '-' :: [] => none
    | '-' :: ']' :: _ => some (first, rest)
    | '-' :: '-' :: _ => some (first, rest)
    | '-' :: more =>
      match first, readMember more with
      | .range a b _, some (.range a' b' _, rest) =>
        if a = b && a' = b' && a ≤ a' then some (.range a a' false, rest) else none
      | _, _ => none
    | _ => some (first, rest)

/-- Reads an ASCII class such as `[:alpha:]`, after its opening bracket. -/
def readAsciiClass : Text → Option (CharClass × Text)
  | ':' :: t =>
    let (negated, t) := match t with
      | '^' :: r => (true, r)
      | _ => (false, t)
    match t.takeWhile (· != ':'), t.dropWhile (· != ':') with
    | name, ':' :: ']' :: rest =>
      (CharClass.ofAsciiName? name).map fun s => (if negated then .compl s else s, rest)
    | _, _ => none
  | _ => none

/-- The class read so far: the left side of an operator, if there is one, joined with the right. -/
def closeClass (left : Option (ClassOp × CharClass)) (right : CharClass) : CharClass :=
  match left with
  | some (op, l) => op l right
  | none => right

/-- Reads the dashes that a class may start with, and a closing bracket that stands for itself. -/
def readClassHead (t : Text) : CharClass × Text :=
  match t.takeWhile (· == '-'), t.dropWhile (· == '-') with
  | [], ']' :: rest => (.single ']', rest)
  | [], rest => (.empty, rest)
  | _, rest => (.single '-', rest)

/-- Reads the members of a bracketed class up to its closing bracket. Nested classes use up fuel;
    the length of the text is enough. -/
def readMembers : Nat → Option (ClassOp × CharClass) → CharClass → Text →
    Option (CharClass × Text)
  | 0, _, _, _ => none
  | fuel + 1, left, right, t =>
    match t with
    | [] => none
    | ']' :: rest => some (closeClass left right, rest)
    | '[' :: inner =>
      match readAsciiClass inner with
      | some (s, rest) => readMembers fuel left (.union right s) rest
      | none =>
        let (negated, inner) := match inner with
          | '^' :: r => (true, r)
          | _ => (false, inner)
        let (head, body) := readClassHead inner
        match readMembers fuel none head body with
        | some (s, rest) =>
          readMembers fuel left (.union right (if negated then .compl s else s)) rest
        | none => none
    | '&' :: '&' :: rest => readMembers fuel (some (.inter, closeClass left right)) .empty rest
    | '-' :: '-' :: rest => readMembers fuel (some (.diff, closeClass left right)) .empty rest
    | '~' :: '~' :: rest => readMembers fuel (some (.symmDiff, closeClass left right)) .empty rest
    | _ =>
      match readRange t with
      | some (s, rest) => readMembers fuel left (.union right s) rest
      | none => none

/-- Reads a bracketed class after its opening bracket. -/
def readClass (t : Text) : Option (CharClass × Text) :=
  let (negated, t) := match t with
    | '^' :: r => (true, r)
    | _ => (false, t)
  let (head, body) := readClassHead t
  (readMembers (t.length + 1) none head body).map fun (s, rest) =>
    (if negated then .compl s else s, rest)

/-! ## Repetition counts -/

/-- The largest number that a repetition count may write. -/
def maxCount : Nat := Nat.pow 2 32 - 1

/-- Reads a number with blanks around it. -/
def readCount (t : Text) : Option (Nat × Text) :=
  let t := Text.dropBlanks t
  let digits := t.takeWhile (·.isDigit)
  let n := digits.foldl (fun n d => n * 10 + (d.toNat - '0'.toNat)) 0
  if digits.isEmpty || n > maxCount then none
  else some (n, Text.dropBlanks (t.drop digits.length))

/-- Drops the question mark that makes a repetition prefer the shorter match. -/
def dropLazy : Text → Text
  | '?' :: t => t
  | t => t

/-- Reads a repetition count after its opening brace. -/
def readBraces (t : Text) : Option (Token × Text) :=
  match readCount t with
  | none => none
  | some (least, rest) =>
    match rest with
    | '\x7D' :: rest => some (.times least (some least), dropLazy rest)
    | ',' :: '\x7D' :: rest => some (.times least none, dropLazy rest)
    | ',' :: rest =>
      match readCount rest with
      | some (most, '\x7D' :: rest) =>
        if least ≤ most then some (.times least (some most), dropLazy rest) else none
      | _ => none
    | _ => none

/-! ## Groups -/

/-- Reads flags up to a colon or a closing parenthesis. The answer is the flags that were set, the
    flags that were cleared, and the text from the end on. Only the case flag matters on a single
    line. -/
def readFlags : Bool → Text → Text → Text → Option (Text × Text × Text)
  | _, _, _, [] => none
  | clearing, on, off, c :: t =>
    if c = ')' || c = ':' then
      if clearing && off.isEmpty then none else some (on, off, c :: t)
    else if c = '-' then
      if clearing then none else readFlags true on off t
    else if on.contains c || off.contains c then none
    else if clearing then
      if ['i', 'm', 's', 'U'].contains c then readFlags true on (c :: off) t else none
    else
      if ['i', 'm', 's', 'U', 'u'].contains c then readFlags false (c :: on) off t else none

def caseFlag (on off : Text) : Option Bool :=
  if on.contains 'i' then some true else if off.contains 'i' then some false else none

def isGroupName : Text → Bool
  | [] => false
  | c :: t =>
    (c == '_' || (isWord c && !isDigit c)) &&
      t.all fun d => isWord d || d == '.' || d == '[' || d == ']'

/-- Reads the name of a group, up to and with its closing angle bracket. -/
def readGroupName (t : Text) : Option (Token × Text) :=
  let name := t.takeWhile (· != '>')
  match t.drop name.length with
  | _ :: rest => if isGroupName name then some (.groupOpen (some name) none, rest) else none
  | [] => none

/-- Reads what follows an opening parenthesis. -/
def readGroup : Text → Option (Token × Text)
  | '?' :: '=' :: _ => none
  | '?' :: '!' :: _ => none
  | '?' :: '<' :: '=' :: _ => none
  | '?' :: '<' :: '!' :: _ => none
  | '?' :: 'P' :: '<' :: t => readGroupName t
  | '?' :: '<' :: t => readGroupName t
  | '?' :: t =>
    match readFlags false [] [] t with
    | some (on, off, ':' :: rest) => some (.groupOpen none (caseFlag on off), rest)
    | some (on, off, ')' :: rest) =>
      if on.isEmpty && off.isEmpty then none else some (.flags (caseFlag on off), rest)
    | _ => none
  | t => some (.groupOpen none none, t)

/-! ## The tokens of a text -/

/-- Reads the first token of a text that is not empty. -/
def readToken (c : Char) (t : Text) : Option (Token × Text) :=
  match c with
  | '\\' => readEscape t
  | '[' => (readClass t).map fun (s, rest) => (.one s, rest)
  | '(' => readGroup t
  | ')' => some (.groupClose, t)
  | '|' => some (.bar, t)
  | '*' => some (.times 0 none, dropLazy t)
  | '+' => some (.times 1 none, dropLazy t)
  | '?' => some (.times 0 (some 1), dropLazy t)
  | '\x7B' => readBraces t
  | '^' => some (.assert .textStart, t)
  | '$' => some (.assert .textEnd, t)
  | '.' => some (.one (.compl (.single '\n')), t)
  | c => some (.one (.single c), t)

/-- Reads tokens until the text ends. Every token takes a character at least, so the length of the
    text is fuel enough. -/
def readTokens : Nat → Text → Option (List Token)
  | _, [] => some []
  | 0, _ :: _ => none
  | fuel + 1, c :: t =>
    match readToken c t with
    | some (token, rest) => (readTokens fuel rest).map (token :: ·)
    | none => none

def tokens? (t : Text) : Option (List Token) := readTokens t.length t

end PostureAudit.Pattern
