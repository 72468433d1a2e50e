import PostureAudit.Yaml.Node

set_option autoImplicit false

/-! # What scalars stand for

A plain scalar without a tag stands for nothing, a truth value, a number or its own text, by its
spelling. A quoted or block scalar stands for its text. The standard tags ask for one of the kinds
and refuse a spelling that is none of it. A number that starts with a needless zero is a text, and
so is a decimal number that is too large for a double. -/

namespace PostureAudit.Yaml

/-- What a scalar stands for. -/
inductive ScalarValue where
  | null
  | boolean
  /-- A whole number from zero up, below 2^64. -/
  | natural (n : Nat)
  /-- A negative whole number, or a number that is not whole. -/
  | number
  | text (t : Text)
  deriving DecidableEq, Repr

def isNullWord (t : Text) : Bool :=
  ["~", "null", "Null", "NULL"].any (·.toList = t)

/-- Holds of the words for a truth value. -/
def isBooleanWord (t : Text) : Bool :=
  ["true", "True", "TRUE", "false", "False", "FALSE"].any (·.toList = t)

/-! ## Whole numbers -/

/-- The value of a digit. Sixteen is the largest base. -/
def digitValue? (base : Nat) (c : Char) : Option Nat :=
  let value :=
    if '0' ≤ c && c ≤ '9' then c.toNat - 48
    else if 'a' ≤ c && c ≤ 'f' then c.toNat - 87
    else if 'A' ≤ c && c ≤ 'F' then c.toNat - 55
    else base
  if value < base then some value else none

/-- The number that digits write, most significant first, after `high`. -/
def digitsValue? (base : Nat) : Nat → Text → Option Nat
  | high, [] => some high
  | high, c :: t =>
    match digitValue? base c with
    | some d => digitsValue? base (high * base + d) t
    | none => none

/-- The number that at least one digit writes. -/
def numberOf? (base : Nat) (digits : Text) : Option Nat :=
  if digits = [] then none else digitsValue? base 0 digits

/-- A text without the first of the two signs, if it starts with one. -/
def dropSign : Text → Text
  | '+' :: t => t
  | '-' :: t => t
  | t => t

/-- Holds of digits, with or without a sign, that start with a needless zero. -/
def hasNeedlessZero (t : Text) : Bool :=
  match dropSign t with
  | '0' :: c :: rest => (c :: rest).all Char.isDigit
  | _ => false

/-- The number of a written magnitude: hexadecimal, octal, binary or decimal. -/
def magnitude? : Text → Option Nat
  | '0' :: 'x' :: digits => numberOf? 16 digits
  | '0' :: 'o' :: digits => numberOf? 8 digits
  | '0' :: 'b' :: digits => numberOf? 2 digits
  | digits => if hasNeedlessZero digits then none else numberOf? 10 digits

/-- How a whole number is read: as a value, or not at all because it is too large, although it is
    a whole number. -/
inductive WholeNumber where
  | value (v : ScalarValue)
  | tooLarge
  deriving DecidableEq, Repr

/-- The whole number that a text writes. Beyond 128 bits a text writes none. -/
def wholeNumber? : Text → Option WholeNumber
  | '-' :: t =>
    match magnitude? t with
    | some n =>
      if n ≤ Nat.pow 2 63 then some (.value .number)
      else if n ≤ Nat.pow 2 127 then some .tooLarge
      else none
    | none => none
  | t =>
    match magnitude? (match t with | '+' :: rest => rest | _ => t) with
    | some n =>
      if n < Nat.pow 2 64 then some (.value (.natural n))
      else if n < Nat.pow 2 128 then some .tooLarge
      else none
    | none => none

/-! ## Other numbers -/

/-- Holds if a whole number times a power of ten is less than the least number that rounds to an
    infinite double. -/
def isFiniteDouble (digits : Nat) (exponent : Int) : Bool :=
  let bound := Nat.pow 2 1024 - Nat.pow 2 970
  let width : Int := (Nat.toDigits 10 digits).length
  if digits = 0 || width + exponent ≤ 0 then true
  else if 310 < width + exponent then false
  else if 0 ≤ exponent then digits * Nat.pow 10 exponent.toNat < bound
  else digits < bound * Nat.pow 10 (-exponent).toNat

/-- The exponent at the end of a decimal number; nothing stands for zero. -/
def exponent? : Text → Option Int
  | [] => some 0
  | c :: t =>
    if c = 'e' || c = 'E' then
      match t with
      | '-' :: digits => (numberOf? 10 digits).map fun n => -(n : Int)
      | '+' :: digits => (numberOf? 10 digits).map Int.ofNat
      | digits => (numberOf? 10 digits).map Int.ofNat
    else none

/-- Holds of the decimal numbers, with or without a point and an exponent, that a double can
    hold. -/
def isDecimal (t : Text) : Bool :=
  let t := dropSign t
  let whole := t.takeWhile Char.isDigit
  let rest := t.dropWhile Char.isDigit
  let (fraction, rest) :=
    match rest with
    | '.' :: more => (more.takeWhile Char.isDigit, more.dropWhile Char.isDigit)
    | _ => ([], rest)
  match numberOf? 10 (whole ++ fraction), exponent? rest with
  | some digits, some exponent => isFiniteDouble digits (exponent - fraction.length)
  | _, _ => false

/-- Holds of the numbers that need not be whole, and of the words for an infinite number and for
    no number. -/
def isFloat (t : Text) : Bool :=
  [".inf", ".Inf", ".INF", "+.inf", "+.Inf", "+.INF", "-.inf", "-.Inf", "-.INF", ".nan", ".NaN",
    ".NAN"].any (·.toList = t) || isDecimal t

/-! ## Resolving scalars -/

/-- What a plain scalar without a tag stands for, if anything. -/
def resolvePlain? (t : Text) : Option ScalarValue :=
  if t = [] || isNullWord t then some .null
  else if isBooleanWord t then some .boolean
  else match wholeNumber? t with
    | some (.value v) => some v
    | some .tooLarge => none
    | none => if !hasNeedlessZero t && isFloat t then some .number else some (.text t)

def standardTag (kind : String) : Text := "tag:yaml.org,2002:".toList ++ kind.toList

/-- Holds of the tags that only the application gives a meaning. -/
def isOwnTag : Option Text → Bool
  | some ('!' :: _) => true
  | _ => false

/-- What a scalar stands for, if anything. -/
def resolve? (tag : Option Text) (style : ScalarStyle) (t : Text) : Option ScalarValue :=
  if isOwnTag tag then none
  else if tag = some (standardTag "bool") then (if isBooleanWord t then some .boolean else none)
  else if tag = some (standardTag "null") then (if isNullWord t then some .null else none)
  else if tag = some (standardTag "float") then (if isFloat t then some .number else none)
  else if tag = some (standardTag "int") then
    match wholeNumber? t with
    | some (.value v) => some v
    | _ => none
  else if tag = none && style = .plain then resolvePlain? t
  else some (.text t)

end PostureAudit.Yaml
