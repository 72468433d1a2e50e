import PostureAudit.Yaml.Scalar

set_option autoImplicit false

/-! # Tokens

A source is cut into tokens. Indentation becomes tokens of its own, which open and close the block
collections. A colon after a node makes that node a key: the key token goes in front of the node,
so the scanner remembers for every open collection where a key could have begun. Such a key has to
stand on one line and within 1024 characters, and where the indentation asks for one it must not
fail to appear. -/

namespace PostureAudit.Yaml

/-- How a scalar is written. -/
inductive ScalarStyle where
  | plain
  | quoted
  | block
  deriving DecidableEq, Repr

/-- A token of a source. -/
inductive Token where
  | streamEnd
  | versionDirective (major minor : Nat)
  | tagDirective (handle start : Text)
  | documentStart
  | documentEnd
  | blockSequenceStart
  | blockMappingStart
  | blockEnd
  | flowSequenceStart
  | flowSequenceEnd
  | flowMappingStart
  | flowMappingEnd
  | blockEntry
  | flowEntry
  | key
  | value
  | anchor (name : Text)
  | alias (name : Text)
  | tag (handle suffix : Text)
  | scalar (style : ScalarStyle) (value : Text)
  deriving DecidableEq, Repr

/-- A place where a key may have begun: the number of tokens before it and its position, and
    whether the indentation asks for a key there. -/
structure PossibleKey where
  required : Bool
  tokenCount : Nat
  index : Nat
  line : Nat
  column : Nat
  deriving DecidableEq, Repr

/-- The scanner between two tokens: the tokens so far; the indentation of the innermost block
    collection, below zero outside all of them, and of those around it; whether a key may begin
    here; and the possible key of every open flow collection, innermost first, and of the block
    context around them. -/
structure Scanner where
  source : Source
  tokens : List Token
  indent : Int
  outerIndents : List Int
  keyAllowed : Bool
  keys : List (Option PossibleKey)
  deriving DecidableEq, Repr

namespace Scanner

/-- A scanner before the first token. -/
def ofText (t : Text) : Scanner := ⟨.ofText t, [], -1, [], true, [none]⟩

/-- Holds inside a flow collection. -/
def inFlow (s : Scanner) : Bool := 1 < s.keys.length

def emit (s : Scanner) (t : Token) : Scanner := { s with tokens := s.tokens ++ [t] }

/-- Appends a token that is `n` characters long. -/
def emitSkip (s : Scanner) (n : Nat) (t : Token) : Scanner :=
  { s.emit t with source := s.source.skip n }

/-- Inserts a token after the first `n`. -/
def insert (s : Scanner) (n : Nat) (t : Token) : Scanner :=
  { s with tokens := s.tokens.take n ++ t :: s.tokens.drop n }

/-- Says whether a key may begin at the next token. -/
def allowKey (s : Scanner) (allowed : Bool) : Scanner := { s with keyAllowed := allowed }

/-! ## Possible keys -/

/-- Drops the possible keys that are too far away. One that is required must not be dropped. -/
def dropStaleKeys (s : Scanner) : Option Scanner := do
  let keys ← s.keys.mapM fun k =>
    match k with
    | none => some none
    | some key =>
      if key.line < s.source.line || key.index + 1024 < s.source.index then
        if key.required then none else some none
      else some (some key)
  return { s with keys := keys }

/-- Drops the possible key of the innermost collection. -/
def dropKey (s : Scanner) : Option Scanner :=
  match s.keys with
  | some key :: keys => if key.required then none else some { s with keys := none :: keys }
  | _ => some s

/-- Remembers the place at hand as a possible key, if a key may begin here. -/
def saveKey (s : Scanner) : Option Scanner :=
  if s.keyAllowed then do
    let s ← s.dropKey
    let key : PossibleKey :=
      ⟨!s.inFlow && s.indent == s.source.column, s.tokens.length, s.source.index, s.source.line,
        s.source.column⟩
    return { s with keys := some key :: s.keys.tail }
  else some s

/-! ## Indentation -/

/-- Opens a block collection at a column that is deeper than the one at hand. Its token goes after
    the first `n`. -/
def rollIndent (s : Scanner) (column n : Nat) (t : Token) : Scanner :=
  if !s.inFlow && s.indent < column then
    { s.insert n t with indent := column, outerIndents := s.indent :: s.outerIndents }
  else s

/-- Closes block collections while the indentation at hand is above a limit. -/
def unrollTo (limit : Int) : Int → List Int → List Token × Int × List Int
  | indent, [] => ([], indent, [])
  | indent, outer :: rest =>
    if limit < indent then
      let (tokens, indent, rest) := unrollTo limit outer rest
      (.blockEnd :: tokens, indent, rest)
    else ([], indent, outer :: rest)

/-- Closes the block collections that are deeper than a column. -/
def unrollIndent (s : Scanner) (column : Int) : Scanner :=
  if s.inFlow then s
  else
    let (tokens, indent, outer) := unrollTo column s.indent s.outerIndents
    { s with tokens := s.tokens ++ tokens, indent := indent, outerIndents := outer }

/-! ## Between tokens -/

/-- Passes spaces, comments, line breaks and the byte order marks in front of lines. A tab is a
    space where no key may begin. After a break in the block context a key may begin. -/
def toNextToken : Nat → Scanner → Scanner
  | 0, s => s
  | fuel + 1, s =>
    let tabs := s.inFlow || !s.keyAllowed
    let source := s.source.skipMark.skipWhile fun c => c == ' ' || (tabs && c == '\t')
    let source := if source.rest.head? == some '#' then source.skipLine else source
    if atBreak source.rest then
      toNextToken fuel
        { s with source := source.skipBreak, keyAllowed := s.keyAllowed || !s.inFlow }
    else { s with source := source }

/-! ## The tokens -/

/-- The end of the source: all block collections are closed. -/
def fetchStreamEnd (s : Scanner) : Option Scanner := do
  let s ← (s.unrollIndent (-1)).dropKey
  return (s.allowKey false).emit .streamEnd

/-- A document marker: all block collections are closed. -/
def fetchMarker (s : Scanner) (t : Token) : Option Scanner := do
  let s ← (s.unrollIndent (-1)).dropKey
  return (s.allowKey false).emitSkip 3 t

/-- The start of a flow collection, which may itself be a key. -/
def fetchFlowStart (s : Scanner) (t : Token) : Option Scanner := do
  let s ← s.saveKey
  return ({ s with keys := none :: s.keys }.allowKey true).emitSkip 1 t

def fetchFlowEnd (s : Scanner) (t : Token) : Option Scanner := do
  let s ← s.dropKey
  let keys := if s.inFlow then s.keys.tail else s.keys
  return ({ s with keys := keys }.allowKey false).emitSkip 1 t

/-- The comma between the members of a flow collection. -/
def fetchFlowEntry (s : Scanner) : Option Scanner := do
  let s ← s.dropKey
  return (s.allowKey true).emitSkip 1 .flowEntry

/-- The dash in front of a member of a block sequence. -/
def fetchBlockEntry (s : Scanner) : Option Scanner := do
  if !s.inFlow && !s.keyAllowed then none
  let s ← (s.rollIndent s.source.column s.tokens.length .blockSequenceStart).dropKey
  return (s.allowKey true).emitSkip 1 .blockEntry

/-- The question mark in front of a key. -/
def fetchKey (s : Scanner) : Option Scanner := do
  if !s.inFlow && !s.keyAllowed then none
  let s ← (s.rollIndent s.source.column s.tokens.length .blockMappingStart).dropKey
  return (s.allowKey (!s.inFlow)).emitSkip 1 .key

/-- The colon after a key. A possible key becomes a key; without one, the key is the one that a
    question mark announced, or empty. -/
def fetchValue (s : Scanner) : Option Scanner :=
  match s.keys with
  | some key :: keys =>
    let s := (s.insert key.tokenCount .key).rollIndent key.column key.tokenCount
      .blockMappingStart
    some (({ s with keys := none :: keys }.allowKey false).emitSkip 1 .value)
  | _ =>
    if !s.inFlow && !s.keyAllowed then none
    else
      let s := s.rollIndent s.source.column s.tokens.length .blockMappingStart
      some ((s.allowKey (!s.inFlow)).emitSkip 1 .value)

def fetchAnchor (s : Scanner) (make : Text → Token) : Option Scanner := do
  let s ← s.saveKey
  let source := s.source.skip 1
  let name := source.rest.takeWhile isNameChar
  let source := source.skip name.length
  if name.isEmpty then none
  if atGap source.rest || source.rest.head?.any (['?', ':', ',', ']', '\x7D', '%', '@',
      '\x60'].contains ·) then
    return ({ s with source := source }.allowKey false).emit (make name)
  else none

/-- Holds of the characters that a tag may hold. -/
def isTagChar (verbatim : Bool) (c : Char) : Bool :=
  isNameChar c ||
    [';', '/', '?', ':', '@', '&', '=', '+', '$', '.', '%', '!', '~', '*', '\'', '(', ')'].contains
      c || (verbatim && (c == ',' || c == '[' || c == ']'))

/-- Reads the escaped bytes of one character of a tag: how many, and which character. -/
def readTagEscape (t : Text) : Option (Char × Nat) :=
  let byteAt (k : Nat) : Option Nat :=
    match t.drop (3 * k) with
    | '%' :: h :: l :: _ => do return (← hexValue? h) * 16 + (← hexValue? l)
    | _ => none
  match byteAt 0 with
  | none => none
  | some b =>
    let width := if b < 0x80 then 1 else if b / 0x20 == 6 then 2 else if b / 0x10 == 14 then 3
      else if b / 8 == 30 then 4 else 0
    let lead := if width == 1 then b else b % Nat.pow 2 (7 - width)
    let more := (List.range (width - 1)).mapM fun k => (byteAt (k + 1)).bind fun d =>
      if d / 0x40 == 2 then some (d % 0x40) else none
    match more with
    | none => none
    | some ds =>
      let n := ds.foldl (fun n d => n * 0x40 + d) lead
      if width == 0 then none else some (Char.ofNat n, 3 * width)

/-- Reads the characters of a tag, escaped or not, and says how many characters were read. -/
def readTagText (verbatim : Bool) : Nat → Text → Option (Text × Nat)
  | 0, _ => some ([], 0)
  | _, [] => some ([], 0)
  | fuel + 1, c :: t =>
    if c == '%' then
      match readTagEscape (c :: t) with
      | none => none
      | some (d, n) =>
        (readTagText verbatim fuel ((c :: t).drop n)).map fun (ds, m) => (d :: ds, n + m)
    else if isTagChar verbatim c then
      (readTagText verbatim fuel t).map fun (ds, m) => (c :: ds, m + 1)
    else some ([], 0)

/-- Reads a tag: its handle, its suffix, and how many characters it takes. -/
def readTag (t : Text) : Option (Text × Text × Nat) :=
  match t with
  | '!' :: '<' :: body =>
    match readTagText true body.length body with
    | some (suffix, n) =>
      if n == 0 || (body.drop n).head? != some '>' then none else some ([], suffix, n + 3)
    | none => none
  | '!' :: body =>
    let name := body.takeWhile isNameChar
    if (body.drop name.length).head? == some '!' then
      let rest := body.drop (name.length + 1)
      match readTagText false rest.length rest with
      | some (suffix, n) =>
        if n == 0 then none else some ('!' :: name ++ ['!'], suffix, name.length + 2 + n)
      | none => none
    else
      match readTagText false body.length (body.drop name.length) with
      | some (suffix, n) =>
        let suffix := name ++ suffix
        if suffix.isEmpty then some ([], ['!'], 1)
        else some (['!'], suffix, name.length + 1 + n)
      | none => none
  | _ => none

/-- A tag. A gap has to follow, or in a flow collection a comma. -/
def fetchTag (s : Scanner) : Option Scanner := do
  let s ← s.saveKey
  let (handle, suffix, n) ← readTag s.source.rest
  let source := s.source.skip n
  if atGap source.rest || (s.inFlow && source.rest.head? == some ',') then
    return ({ s with source := source }.allowKey false).emit (.tag handle suffix)
  else none

/-! ## Directives -/

/-- Reads a number of a version, which has at most nine digits. -/
def readVersionNumber (s : Source) : Option (Nat × Source) :=
  let digits := s.rest.takeWhile Char.isDigit
  if digits.isEmpty || 9 < digits.length then none
  else some (digits.foldl (fun n d => n * 10 + (d.toNat - '0'.toNat)) 0, s.skip digits.length)

/-- Reads the version that a directive asks for. -/
def readVersion (s : Source) : Option (Token × Source) := do
  let (major, s) ← readVersionNumber s
  if s.rest.head? != some '.' then none
  let (minor, s) ← readVersionNumber (s.skip 1)
  return (.versionDirective major minor, s)

/-- The handle at the start of a text: an exclamation mark, or a name between two of them. -/
def tagHandle? : Text → Option Text
  | '!' :: t =>
    let name := t.takeWhile isNameChar
    if (t.drop name.length).head? == some '!' then some ('!' :: name ++ ['!'])
    else if name.isEmpty then some ['!']
    else none
  | _ => none

/-- Reads the handle that a directive declares, and what tags with that handle start with. -/
def readTagStart (s : Source) : Option (Token × Source) := do
  let handle ← tagHandle? s.rest
  let s := s.skip handle.length
  if !s.rest.head?.any isSpace then none
  let s := s.skipWhile isSpace
  let (start, n) ← readTagText true s.rest.length s.rest
  let s := s.skip n
  if n == 0 || !atGap s.rest then none
  return (.tagDirective handle start, s)

/-- Reads what a directive of a name says. -/
def readDirective (name : Text) (s : Source) : Option (Token × Source) :=
  if name = "YAML".toList then readVersion s
  else if name = "TAG".toList then readTagStart s
  else none

/-- A directive, which takes a line of its own. -/
def fetchDirective (s : Scanner) : Option Scanner := do
  let s ← (s.unrollIndent (-1)).dropKey
  let source := s.source.skip 1
  let name := source.rest.takeWhile isNameChar
  let source := source.skip name.length
  if !atGap source.rest then none
  let (token, source) ← readDirective name (source.skipWhile isSpace)
  let source := source.skipWhile isSpace
  let source := if source.rest.head? == some '#' then source.skipLine else source
  if !atLineEnd source.rest then none
  return { (s.allowKey false).emit token with source := source.skipBreak }

/-! ## Scalars -/

/-- A block scalar. After it a key may begin. -/
def fetchBlock (s : Scanner) (literal : Bool) : Option Scanner := do
  let s ← s.dropKey
  let (value, source) ← readBlock literal s.indent (s.source.skip 1)
  return ({ s with source := source }.allowKey true).emit (.scalar .block value)

def fetchQuoted (s : Scanner) (quote : Char) : Option Scanner := do
  let s ← s.saveKey
  let (value, source) ← readQuoted quote (s.source.rest.length + 1) (s.source.skip 1)
  return ({ s with source := source }.allowKey false).emit (.scalar .quoted value)

/-- A plain scalar. If it ends after a line break, a key may begin. -/
def fetchPlain (s : Scanner) : Option Scanner := do
  let s ← s.saveKey
  let (value, folded, source) ← readPlain s.inFlow (s.indent + 1).toNat
    (s.source.rest.length + 1) [] .none s.source
  return ({ s with source := source }.allowKey folded).emit (.scalar .plain value)

/-- Holds of the characters that no plain scalar begins with. -/
def isIndicator (c : Char) : Bool :=
  ['-', '?', ':', ',', '[', ']', '\x7B', '\x7D', '#', '&', '*', '!', '|', '>', '\'', '"', '%',
    '@', '\x60'].contains c

/-- Holds where a plain scalar begins. -/
def startsPlain (inFlow : Bool) (c : Char) (t : Text) : Bool :=
  !(isSpace c || isBreak c || isIndicator c) ||
    (c == '-' && !t.head?.any isSpace) ||
    (!inFlow && (c == '?' || c == ':') && !atGap t)

/-! ## The next token -/

/-- Appends the next token, with the tokens that indentation puts before it. What stands between
    two tokens is passed in at most `fuel` lines. -/
def fetch (fuel : Nat) (s : Scanner) : Option Scanner := do
  let s ← (toNextToken fuel s).dropStaleKeys
  let s := s.unrollIndent s.source.column
  match s.source.rest with
  | [] => s.fetchStreamEnd
  | c :: t =>
    if s.source.column == 0 && c == '%' then s.fetchDirective
    else if s.source.column == 0 && atMarker '-' (c :: t) then s.fetchMarker .documentStart
    else if s.source.column == 0 && atMarker '.' (c :: t) then s.fetchMarker .documentEnd
    else if c == '[' then s.fetchFlowStart .flowSequenceStart
    else if c == '\x7B' then s.fetchFlowStart .flowMappingStart
    else if c == ']' then s.fetchFlowEnd .flowSequenceEnd
    else if c == '\x7D' then s.fetchFlowEnd .flowMappingEnd
    else if c == ',' then s.fetchFlowEntry
    else if c == '-' && atGap t then s.fetchBlockEntry
    else if c == '?' && (s.inFlow || atGap t) then s.fetchKey
    else if c == ':' && (s.inFlow || atGap t) then s.fetchValue
    else if c == '*' then s.fetchAnchor .alias
    else if c == '&' then s.fetchAnchor .anchor
    else if c == '!' then s.fetchTag
    else if c == '|' && !s.inFlow then s.fetchBlock true
    else if c == '>' && !s.inFlow then s.fetchBlock false
    else if c == '\'' || c == '"' then s.fetchQuoted c
    else if startsPlain s.inFlow c t then s.fetchPlain
    else none

/-- Appends tokens up to the end of the source. -/
def fetchAll : Nat → Scanner → Option Scanner
  | 0, _ => none
  | fuel + 1, s =>
    match s.fetch (fuel + 1) with
    | none => none
    | some s => if s.tokens.getLast? = some .streamEnd then some s else fetchAll fuel s

end Scanner

/-- The tokens of a source, if it is well-formed as far as tokens go. -/
def tokens? (t : Text) : Option (List Token) :=
  if t.all isAllowed then (Scanner.fetchAll (t.length + 2) (.ofText t)).map (·.tokens) else none

end PostureAudit.Yaml
