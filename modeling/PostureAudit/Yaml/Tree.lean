import PostureAudit.Yaml.Token

set_option autoImplicit false

/-! # Trees

The tokens of a document build up a tree, in which aliases and anchors are numbers. The number of
an anchor is how many names there are before it. So a name that is given again gets the number that
the next new name gets as well. Of several trees with one number an alias means the last, which may
come later than the alias itself or lie around it.

A source holds one document at most: an empty source reads as an empty plain scalar, and anything
after the first document is refused. -/

namespace PostureAudit.Yaml

/-- What stands in front of the content of a tree: the number of its anchor, and its tag. -/
structure Properties where
  anchor : Option Nat
  tag : Option Text
  deriving DecidableEq, Repr

/-- A document, or a part of one, as it is written. -/
inductive Tree where
  | alias (number : Nat)
  | scalar (properties : Properties) (style : ScalarStyle) (value : Text)
  | sequence (properties : Properties) (items : List Tree)
  | mapping (properties : Properties) (entries : List (Tree × Tree))
  deriving Repr

namespace Tree

/-- The tree that is left out. -/
def missing : Tree := .scalar ⟨none, none⟩ .plain []

def anchor? : Tree → Option Nat
  | .alias _ => none
  | .scalar p _ _ => p.anchor
  | .sequence p _ => p.anchor
  | .mapping p _ => p.anchor

/-- How much a tree weighs without its members: a collection has a start and an end. -/
def ownWeight : Tree → Nat
  | .alias _ => 1
  | .scalar _ _ _ => 1
  | .sequence _ _ => 2
  | .mapping _ _ => 2

mutual

/-- A tree and all trees in it, in the order in which they begin. -/
def parts : Tree → List Tree
  | .alias n => [.alias n]
  | .scalar p style value => [.scalar p style value]
  | .sequence p items => .sequence p items :: itemsParts items
  | .mapping p entries => .mapping p entries :: entriesParts entries

def itemsParts : List Tree → List Tree
  | [] => []
  | t :: rest => t.parts ++ itemsParts rest

/-- The parts of the keys and values of some entries. -/
def entriesParts : List (Tree × Tree) → List Tree
  | [] => []
  | (k, v) :: rest => k.parts ++ v.parts ++ entriesParts rest

end

/-- How much a tree weighs. -/
def weight (t : Tree) : Nat := t.parts.foldl (fun n part => n + part.ownWeight) 0

/-- The parts of a tree that have an anchor, with its number, the last one first. -/
def anchored (t : Tree) : List (Nat × Tree) :=
  t.parts.reverse.filterMap fun part => part.anchor?.map (·, part)

end Tree

/-! ## Anchors -/

/-- The names of the anchors met so far, each of them once, with their numbers. -/
abbrev Anchors := List (Text × Nat)

/-- Gives a name the next number. -/
def Anchors.define (anchors : Anchors) (name : Text) : Anchors :=
  (name, anchors.length) :: anchors.filter (·.1 ≠ name)

/-! ## Reading trees -/

/-- What has been read, with the anchors so far and the tokens after it. -/
abbrev TreeAnswer (α : Type) := Option (α × Anchors × List Token)

/-- Reads an anchor and a tag, in either order and each of them optional. Tags are written out. -/
def readProperties (anchors : Anchors) : List Token → Properties × Anchors × List Token
  | .anchor a :: .tag _ t :: rest => (⟨some anchors.length, some t⟩, anchors.define a, rest)
  | .tag _ t :: .anchor a :: rest => (⟨some anchors.length, some t⟩, anchors.define a, rest)
  | .anchor a :: rest => (⟨some anchors.length, none⟩, anchors.define a, rest)
  | .tag _ t :: rest => (⟨none, some t⟩, anchors, rest)
  | rest => (⟨none, none⟩, anchors, rest)

/-- Holds where a block collection has no tree. -/
def atBlockGap : List Token → Bool
  | .key :: _ => true
  | .value :: _ => true
  | .blockEnd :: _ => true
  | _ => false

/-- Holds where a member of a block sequence has no tree. -/
def atEntryGap : List Token → Bool
  | .blockEntry :: _ => true
  | .blockEnd :: _ => true
  | _ => false

/-- Holds where a member of a flow sequence has no tree. -/
def atFlowSequenceGap : List Token → Bool
  | .flowEntry :: _ => true
  | .flowSequenceEnd :: _ => true
  | _ => false

/-- Holds where a value of a flow mapping has no tree. -/
def atFlowMappingGap : List Token → Bool
  | .flowEntry :: _ => true
  | .flowMappingEnd :: _ => true
  | _ => false

/-- Holds where a key is followed by its value at once. -/
def atValue : List Token → Bool
  | .value :: _ => true
  | _ => false

mutual

/-- Reads a tree. Block collections are read where `block` holds; a block sequence that is not
    indented, where `indentless` holds as well. -/
def readTree : Nat → Bool → Bool → Anchors → List Token → TreeAnswer Tree
  | 0, _, _, _, _ => none
  | fuel + 1, block, indentless, anchors, tokens =>
    match tokens with
    | .alias name :: rest => (anchors.lookup name).map fun n => (.alias n, anchors, rest)
    | _ =>
      let (p, anchors, tokens) := readProperties anchors tokens
      readContent fuel block indentless p anchors tokens

/-- Reads the content of a tree after its properties. A tree with properties may be left out. -/
def readContent : Nat → Bool → Bool → Properties → Anchors → List Token → TreeAnswer Tree
  | 0, _, _, _, _, _ => none
  | fuel + 1, block, indentless, p, anchors, tokens =>
    match tokens with
    | .scalar style value :: rest => some (.scalar p style value, anchors, rest)
    | .flowSequenceStart :: rest =>
      (readFlowSequence fuel true anchors rest).map fun (items, more) =>
        (.sequence p items, more)
    | .flowMappingStart :: rest =>
      (readFlowMapping fuel true anchors rest).map fun (entries, more) =>
        (.mapping p entries, more)
    | .blockEntry :: _ =>
      if indentless then
        (readIndentless fuel anchors tokens).map fun (items, more) => (.sequence p items, more)
      else if p.anchor.isSome || p.tag.isSome then
        some (.scalar p .plain [], anchors, tokens)
      else none
    | .blockSequenceStart :: rest =>
      if block then
        (readBlockSequence fuel anchors rest).map fun (items, more) =>
          (.sequence p items, more)
      else if p.anchor.isSome || p.tag.isSome then
        some (.scalar p .plain [], anchors, tokens)
      else none
    | .blockMappingStart :: rest =>
      if block then
        (readBlockMapping fuel anchors rest).map fun (entries, more) =>
          (.mapping p entries, more)
      else if p.anchor.isSome || p.tag.isSome then
        some (.scalar p .plain [], anchors, tokens)
      else none
    | _ =>
      if p.anchor.isSome || p.tag.isSome then some (.scalar p .plain [], anchors, tokens)
      else none

/-- Reads the members of a block sequence up to its end. -/
def readBlockSequence : Nat → Anchors → List Token → TreeAnswer (List Tree)
  | 0, _, _ => none
  | fuel + 1, anchors, tokens =>
    match tokens with
    | .blockEnd :: rest => some ([], anchors, rest)
    | .blockEntry :: rest =>
      if atEntryGap rest then
        (readBlockSequence fuel anchors rest).map fun (items, more) => (.missing :: items, more)
      else match readTree fuel true false anchors rest with
        | some (tree, anchors, rest) =>
          (readBlockSequence fuel anchors rest).map fun (items, more) => (tree :: items, more)
        | none => none
    | _ => none

/-- Reads the members of a block sequence that is not indented. It has no end token. -/
def readIndentless : Nat → Anchors → List Token → TreeAnswer (List Tree)
  | 0, _, _ => none
  | fuel + 1, anchors, tokens =>
    match tokens with
    | .blockEntry :: rest =>
      if atEntryGap rest || atBlockGap rest then
        (readIndentless fuel anchors rest).map fun (items, more) => (.missing :: items, more)
      else match readTree fuel true false anchors rest with
        | some (tree, anchors, rest) =>
          (readIndentless fuel anchors rest).map fun (items, more) => (tree :: items, more)
        | none => none
    | _ => some ([], anchors, tokens)

/-- Reads the entries of a block mapping up to its end. A value may be left out, and so may a key
    that a question mark announces. -/
def readBlockMapping : Nat → Anchors → List Token → TreeAnswer (List (Tree × Tree))
  | 0, _, _ => none
  | fuel + 1, anchors, tokens =>
    match tokens with
    | .blockEnd :: rest => some ([], anchors, rest)
    | .key :: rest =>
      let answer :=
        if atBlockGap rest then some (.missing, anchors, rest)
        else readTree fuel true true anchors rest
      match answer with
      | none => none
      | some (key, anchors, rest) => readBlockValue fuel key anchors rest
    | _ => none

/-- Reads the value of an entry of a block mapping, and the entries after it. -/
def readBlockValue : Nat → Tree → Anchors → List Token → TreeAnswer (List (Tree × Tree))
  | 0, _, _, _ => none
  | fuel + 1, key, anchors, tokens =>
    let answer :=
      match tokens with
      | .value :: rest =>
        if atBlockGap rest then some (.missing, anchors, rest)
        else readTree fuel true true anchors rest
      | _ => some (.missing, anchors, tokens)
    match answer with
    | none => none
    | some (value, anchors, rest) =>
      (readBlockMapping fuel anchors rest).map fun (entries, more) =>
        ((key, value) :: entries, more)

/-- Reads the members of a flow sequence up to its end. A member with a key is a mapping of one
    entry. -/
def readFlowSequence : Nat → Bool → Anchors → List Token → TreeAnswer (List Tree)
  | 0, _, _, _ => none
  | fuel + 1, first, anchors, tokens =>
    match tokens with
    | .flowSequenceEnd :: rest => some ([], anchors, rest)
    | _ =>
      let start :=
        if first then some tokens
        else match tokens with
          | .flowEntry :: rest => some rest
          | _ => none
      match start with
      | none => none
      | some (.flowSequenceEnd :: rest) => some ([], anchors, rest)
      | some (.key :: rest) =>
        match readFlowPair fuel anchors rest with
        | some (entry, anchors, rest) =>
          (readFlowSequence fuel false anchors rest).map fun (items, more) =>
            (.mapping ⟨none, none⟩ [entry] :: items, more)
        | none => none
      | some rest =>
        match readTree fuel false false anchors rest with
        | some (tree, anchors, rest) =>
          (readFlowSequence fuel false anchors rest).map fun (items, more) => (tree :: items, more)
        | none => none

/-- Reads the one entry of a mapping that is a member of a flow sequence, after its key token.
    Where the key is left out, the token in its place is passed over. -/
def readFlowPair : Nat → Anchors → List Token → TreeAnswer (Tree × Tree)
  | 0, _, _ => none
  | fuel + 1, anchors, tokens =>
    let answer :=
      if atValue tokens || atFlowSequenceGap tokens then
        some (.missing, anchors, tokens.drop 1)
      else readTree fuel false false anchors tokens
    match answer with
    | none => none
    | some (key, anchors, rest) =>
      match rest with
      | .value :: rest =>
        if atFlowSequenceGap rest then some ((key, .missing), anchors, rest)
        else (readTree fuel false false anchors rest).map fun (value, more) =>
          ((key, value), more)
      | _ => some ((key, .missing), anchors, rest)

/-- Reads the entries of a flow mapping up to its end. -/
def readFlowMapping : Nat → Bool → Anchors → List Token → TreeAnswer (List (Tree × Tree))
  | 0, _, _, _ => none
  | fuel + 1, first, anchors, tokens =>
    match tokens with
    | .flowMappingEnd :: rest => some ([], anchors, rest)
    | _ =>
      let start :=
        if first then some tokens
        else match tokens with
          | .flowEntry :: rest => some rest
          | _ => none
      match start with
      | none => none
      | some (.flowMappingEnd :: rest) => some ([], anchors, rest)
      | some (.key :: rest) =>
        let answer :=
          if atValue rest || atFlowMappingGap rest then some (.missing, anchors, rest)
          else readTree fuel false false anchors rest
        match answer with
        | none => none
        | some (key, anchors, rest) => readFlowValue fuel key anchors rest
      | some rest =>
        match readTree fuel false false anchors rest with
        | some (key, anchors, rest) =>
          (readFlowMapping fuel false anchors rest).map fun (entries, more) =>
            ((key, .missing) :: entries, more)
        | none => none

/-- Reads the value of an entry of a flow mapping, and the entries after it. -/
def readFlowValue : Nat → Tree → Anchors → List Token → TreeAnswer (List (Tree × Tree))
  | 0, _, _, _ => none
  | fuel + 1, key, anchors, tokens =>
    let answer :=
      match tokens with
      | .value :: rest =>
        if atFlowMappingGap rest then some (.missing, anchors, rest)
        else readTree fuel false false anchors rest
      | _ => some (.missing, anchors, tokens)
    match answer with
    | none => none
    | some (value, anchors, rest) =>
      (readFlowMapping fuel false anchors rest).map fun (entries, more) =>
        ((key, value) :: entries, more)

end

/-! ## Directives -/

/-- What the tags of each handle start with. -/
abbrev TagStarts := List (Text × Text)

/-- The two handles that every document has, unless it declares them itself. -/
def TagStarts.standard : TagStarts :=
  [(['!'], ['!']), (['!', '!'], "tag:yaml.org,2002:".toList)]

/-- Reads the directives in front of a document: at most one version, which has to be one of those
    that are understood, and the handles, none of them twice. -/
def readDirectives (versioned : Bool) (starts : TagStarts) :
    List Token → Option (TagStarts × List Token)
  | .versionDirective major minor :: rest =>
    if versioned || major ≠ 1 || (minor ≠ 1 && minor ≠ 2) then none
    else readDirectives true starts rest
  | .tagDirective handle start :: rest =>
    if (starts.lookup handle).isSome then none
    else readDirectives versioned ((handle, start) :: starts) rest
  | tokens => some (starts, tokens)

/-- Writes a tag out. Its handle has to be known. -/
def writeOut? (starts : TagStarts) : Token → Option Token
  | .tag handle suffix =>
    if handle = [] then some (.tag [] suffix)
    else (starts.lookup handle).map fun start => .tag [] (start ++ suffix)
  | token => some token

/-! ## The document -/

/-- Holds where the content of a document is left out. -/
def atDocumentGap : List Token → Bool
  | .versionDirective _ _ :: _ => true
  | .tagDirective _ _ :: _ => true
  | .documentStart :: _ => true
  | .documentEnd :: _ => true
  | .streamEnd :: _ => true
  | _ => false

/-- The tree of the only document of a source. After directives the document has to be marked. -/
def Tree.ofTokens? (tokens : List Token) : Option Tree := do
  let (starts, document) ← readDirectives false [] tokens
  if document ≠ tokens && document.head? ≠ some .documentStart then none
  let document ← document.mapM (writeOut? (starts ++ .standard))
  let fuel := 4 * document.length + 4
  let (tree, _, rest) ←
    match document with
    | .streamEnd :: _ => some (missing, [], document)
    | .documentStart :: rest =>
      if atDocumentGap rest then some (missing, [], rest) else readTree fuel true false [] rest
    | _ => readTree fuel true false [] document
  if rest.dropWhile (· = .documentEnd) = [.streamEnd] then some tree else none

end PostureAudit.Yaml
