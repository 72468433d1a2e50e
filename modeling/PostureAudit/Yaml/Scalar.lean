import PostureAudit.Yaml.Source

set_option autoImplicit false

/-! # Scalars

The value of a scalar, in each of the styles: plain, quoted and block. What stands between two
words of a plain or quoted scalar is a gap; a gap with line breaks folds, so that one break reads
as a space and more breaks read as one less. Each reader answers with the value and with the
source after it; the loops run on fuel, for which the length of the source is enough. -/

namespace PostureAudit.Yaml

/-! ## Gaps -/

/-- A gap between two words: whether it holds a break, the spaces before the first break, that
    break, and the breaks after it. -/
structure Gap where
  folds : Bool
  spaces : Text
  firstBreak : Text
  moreBreaks : Text
  deriving DecidableEq, Repr

namespace Gap

def none : Gap := ⟨false, [], [], []⟩

def text (g : Gap) : Text :=
  if g.folds then
    if g.firstBreak = ['\n'] then (if g.moreBreaks = [] then [' '] else g.moreBreaks)
    else g.firstBreak ++ g.moreBreaks
  else g.spaces

/-- Adds the space or tab at hand. It counts only before the first break. -/
def addSpace (g : Gap) (c : Char) : Gap :=
  if g.folds then g else { g with spaces := g.spaces ++ [c] }

def addBreak (g : Gap) (b : Text) : Gap :=
  if g.folds then { g with moreBreaks := g.moreBreaks ++ b }
  else { g with folds := true, spaces := [], firstBreak := b }

end Gap

/-- Reads a gap. A tab that stands where a line has to be indented is refused; `indent` is the
    column up to which it has to be. -/
def readGap (indent : Nat) : Nat → Gap → Source → Option (Gap × Source)
  | 0, g, s => some (g, s)
  | fuel + 1, g, s =>
    match s.rest with
    | [] => some (g, s)
    | c :: _ =>
      if isBreak c then readGap indent fuel (g.addBreak s.breakText) s.skipBreak
      else if isSpace c then
        if g.folds && s.column < indent && c == '\t' then none
        else readGap indent fuel (g.addSpace c) (s.skip 1)
      else some (g, s)

/-! ## Quoted scalars -/

def hexValue? (c : Char) : Option Nat :=
  if c.isDigit then some (c.toNat - '0'.toNat)
  else if 'a' ≤ c && c ≤ 'f' then some (c.toNat - 'a'.toNat + 10)
  else if 'A' ≤ c && c ≤ 'F' then some (c.toNat - 'A'.toNat + 10)
  else none

/-- Reads a character given by `count` hexadecimal digits at the start of a text. -/
def hexChar? (count : Nat) (t : Text) : Option Char := do
  if t.length < count then none
  let values ← (t.take count).mapM hexValue?
  let n := values.foldl (fun n d => n * 16 + d) 0
  if n.isValidChar then some (Char.ofNat n) else none

/-- The character that an escape stands for, and how long the escape is, from the letter on. -/
def escape? : Text → Option (Char × Nat)
  | [] => none
  | c :: t =>
    match c with
    | '0' => some ('\x00', 1)
    | 'a' => some ('\x07', 1)
    | 'b' => some ('\x08', 1)
    | 't' => some ('\t', 1)
    | '\t' => some ('\t', 1)
    | 'n' => some ('\n', 1)
    | 'v' => some ('\x0B', 1)
    | 'f' => some ('\x0C', 1)
    | 'r' => some ('\r', 1)
    | 'e' => some ('\x1B', 1)
    | ' ' => some (' ', 1)
    | '"' => some ('"', 1)
    | '/' => some ('/', 1)
    | '\\' => some ('\\', 1)
    | 'N' => some ('\u0085', 1)
    | '_' => some ('\u00A0', 1)
    | 'L' => some ('\u2028', 1)
    | 'P' => some ('\u2029', 1)
    | 'x' => (hexChar? 2 t).map (·, 3)
    | 'u' => (hexChar? 4 t).map (·, 5)
    | 'U' => (hexChar? 8 t).map (·, 9)
    | _ => none

/-- Reads a word of a quoted scalar, up to a gap or the closing quote. The answer is the word, the
    gap that an escaped break opens, and the source after it. -/
def readQuotedWord (quote : Char) : Nat → Source → Option (Text × Gap × Source)
  | 0, _ => none
  | fuel + 1, s =>
    if atGap s.rest then some ([], .none, s)
    else match s.rest with
      | [] => none
      | c :: t =>
        if c == quote then
          if quote == '\'' && t.head? == some '\'' then
            (readQuotedWord quote fuel (s.skip 2)).map fun (word, more) => ('\'' :: word, more)
          else some ([], .none, s)
        else if c == '\\' && quote == '"' then
          if atBreak t then some ([], { Gap.none with folds := true }, (s.skip 1).skipBreak)
          else match escape? t with
            | some (d, n) =>
              (readQuotedWord quote fuel (s.skip (n + 1))).map fun (word, more) =>
                (d :: word, more)
            | none => none
        else (readQuotedWord quote fuel (s.skip 1)).map fun (word, more) => (c :: word, more)

/-- Reads a quoted scalar after its opening quote. -/
def readQuoted (quote : Char) : Nat → Source → Option (Text × Source)
  | 0, _ => none
  | fuel + 1, s =>
    if s.column == 0 && atDocumentMarker s.rest then none
    else if s.rest.isEmpty then none
    else match readQuotedWord quote (fuel + 1) s with
      | none => none
      | some (word, gap, s) =>
        if s.rest.head? == some quote then some (word, s.skip 1)
        else match readGap 0 (fuel + 1) gap s with
          | none => none
          | some (gap, s) =>
            (readQuoted quote fuel s).map fun (value, s) => (word ++ gap.text ++ value, s)

/-! ## Plain scalars -/

/-- Holds of the characters that structure a flow collection. -/
def isFlowIndicator (c : Char) : Bool :=
  c == ',' || c == '[' || c == ']' || c == '\x7B' || c == '\x7D'

/-- Reads a word of a plain scalar, up to a gap or an indicator that ends the scalar. In a flow
    collection a colon must not run into a flow indicator. -/
def readPlainWord (inFlow : Bool) : Text → Option Text
  | [] => some []
  | c :: t =>
    if isSpace c || isBreak c then some []
    else if inFlow && c == ':' && t.head?.any (fun d => isFlowIndicator d || d == '?') then none
    else if (c == ':' && atGap t) || (inFlow && isFlowIndicator c) then some []
    else (readPlainWord inFlow t).map (c :: ·)

/-- Reads a plain scalar. `indent` is the column that a continuation line has to reach. The answer
    is the value, whether a line break was the last thing passed, and the source after it. -/
def readPlain (inFlow : Bool) (indent : Nat) : Nat → Text → Gap → Source →
    Option (Text × Bool × Source)
  | 0, _, _, _ => none
  | fuel + 1, value, gap, s =>
    if (s.column == 0 && atDocumentMarker s.rest) || s.rest.head? == some '#' then
      some (value, gap.folds, s)
    else match readPlainWord inFlow s.rest with
      | none => none
      | some [] => some (value, gap.folds, s)
      | some word =>
        let s := s.skip word.length
        let value := value ++ gap.text ++ word
        if s.rest.isEmpty || !atGap s.rest then some (value, false, s)
        else match readGap indent (fuel + 1) .none s with
          | none => none
          | some (gap, s) =>
            if !inFlow && s.column < indent then some (value, gap.folds, s)
            else readPlain inFlow indent fuel value gap s

/-! ## Block scalars -/

/-- What happens to the breaks at the end of a block scalar. -/
inductive Chomping where
  | clip
  | strip
  | keep
  deriving DecidableEq, Repr

def chompingOf? (c : Char) : Option Chomping :=
  if c == '+' then some .keep else if c == '-' then some .strip else none

def indentationOf? (c : Char) : Option Nat :=
  if c.isDigit && c != '0' then some (c.toNat - '0'.toNat) else none

/-- Reads the header of a block scalar after its indicator: a chomping and an indentation, in
    either order and each of them optional. -/
def readBlockHeader (s : Source) : Option (Chomping × Option Nat × Source) :=
  match s.rest with
  | [] => some (.clip, none, s)
  | c :: t =>
    match chompingOf? c with
    | some chomping =>
      match t.head? with
      | some d =>
        if d.isDigit then (indentationOf? d).map fun n => (chomping, some n, s.skip 2)
        else some (chomping, none, s.skip 1)
      | none => some (chomping, none, s.skip 1)
    | none =>
      if c.isDigit then
        match indentationOf? c with
        | none => none
        | some n =>
          match t.head?.bind chompingOf? with
          | some chomping => some (chomping, some n, s.skip 2)
          | none => some (.clip, some n, s.skip 1)
      else some (.clip, none, s)

/-- Passes the indentation of the next line that is not blank, and collects the breaks before it.
    Without a known indentation all spaces are indentation. The answer is the breaks, the largest
    column reached, and the source after it. -/
def readIndentation (indent : Option Nat) : Nat → Text → Nat → Source →
    Option (Text × Nat × Source)
  | 0, breaks, most, s => some (breaks, most, s)
  | fuel + 1, breaks, most, s =>
    let blanks := (s.rest.takeWhile (· == ' ')).length
    let s := match indent with
      | some n => s.skip (min blanks (n - s.column))
      | none => s.skip blanks
    let most := max most s.column
    if s.rest.head? == some '\t' && (indent.map fun n => decide (s.column < n)).getD true then none
    else if atBreak s.rest then
      readIndentation indent fuel (breaks ++ s.breakText) most s.skipBreak
    else some (breaks, most, s)

/-- The state of a block scalar between two lines: the value so far, the break of the latest line,
    the breaks of the blank lines after it, and whether the latest line began with a blank. -/
structure BlockText where
  value : Text
  lineBreak : Text
  moreBreaks : Text
  ledByBlank : Bool
  deriving DecidableEq, Repr

/-- The value before the next line is appended, which begins with a blank if `blank` holds. -/
def BlockText.joined (b : BlockText) (literal blank : Bool) : Text :=
  if !literal && b.lineBreak == ['\n'] && !b.ledByBlank && !blank then
    b.value ++ (if b.moreBreaks = [] then [' '] else []) ++ b.moreBreaks
  else b.value ++ b.lineBreak ++ b.moreBreaks

def readBlockLines (literal : Bool) (indent : Nat) : Nat → BlockText → Source →
    Option (BlockText × Source)
  | 0, b, s => some (b, s)
  | fuel + 1, b, s =>
    if s.column != indent || s.rest.isEmpty then some (b, s)
    else
      let blank := s.rest.head?.any isSpace
      let line := s.rest.takeWhile fun c => !isBreak c
      let value := b.joined literal blank ++ line
      let s := s.skip line.length
      let lineBreak := s.breakText
      let s := if atBreak s.rest then s.skipBreak else s
      match readIndentation (some indent) (fuel + 1) [] 0 s with
      | none => none
      | some (breaks, _, s) =>
        readBlockLines literal indent fuel ⟨value, lineBreak, breaks, blank⟩ s

/-- Reads a block scalar after its indicator. `parent` is the indentation of the collection around
    it, below zero outside all collections. -/
def readBlock (literal : Bool) (parent : Int) (s : Source) : Option (Text × Source) :=
  match readBlockHeader s with
  | none => none
  | some (chomping, increment, s) =>
    let s := s.skipWhile isSpace
    let s := if s.rest.head? == some '#' then s.skipLine else s
    if !atLineEnd s.rest then none
    else
      let s := if atBreak s.rest then s.skipBreak else s
      let given := increment.map fun (n : Nat) =>
        if 0 ≤ parent then parent.toNat + n else n
      match readIndentation given (s.rest.length + 1) [] 0 s with
      | none => none
      | some (breaks, most, s) =>
        let indent := given.getD (max most (max (parent + 1).toNat 1))
        match readBlockLines literal indent (s.rest.length + 1) ⟨[], [], breaks, false⟩ s with
        | none => none
        | some (b, s) =>
          match chomping with
          | .strip => some (b.value, s)
          | .clip => some (b.value ++ b.lineBreak, s)
          | .keep => some (b.value ++ b.lineBreak ++ b.moreBreaks, s)

end PostureAudit.Yaml
