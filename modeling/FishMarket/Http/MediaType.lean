import FishMarket.Http.Message

/-! # Media types

A request says with a media type what its body is: a type and a subtype with a slash between them,
and parameters after semicolons. JSON is `application/json`, and any subtype of `application` with
`json` in front of its last plus sign or after it. Letters may be of either case.
-/

namespace FishMarket.Http.MediaType

/-- Whether a character may stand in a token. -/
def isTokenChar (c : Char) : Bool :=
  c.isAlphanum || "!#$%&'*+-.^_`|~".toList.contains c

/-- Where the reading of parameters stands. -/
inductive ParameterState where
  /-- In front of a name. -/
  | start
  | name
  /-- In front of a value. -/
  | equals
  | value
  /-- Right after the opening mark of a quoted value. -/
  | opened
  | quoted
  /-- After the closing mark. -/
  | closed
deriving DecidableEq, Repr

/-- Whether a character may stand in a quoted value. -/
def isQuotedChar (c : Char) : Bool :=
  31 < c.toNat && c.toNat ≠ 127

/-- Reads one character of the parameters. -/
def ParameterState.step : ParameterState → Char → Option ParameterState
  | start, c => if c = ' ' then some start else if isTokenChar c then some name else none
  | name, c => if c = '=' then some equals else if isTokenChar c then some name else none
  | equals, c => if c = '"' then some opened else if isTokenChar c then some value else none
  | value, c => if c = ';' then some start else if isTokenChar c then some value else none
  | opened, c => if isQuotedChar c then some quoted else none
  | quoted, c => if c = '"' then some closed else if isQuotedChar c then some quoted else none
  | closed, c => if c = ';' then some start else if c = ' ' then some closed else none

/-- Whether parameters may end here. -/
def ParameterState.isFinal : ParameterState → Bool
  | start => true
  | equals => true
  | value => true
  | closed => true
  | name => false
  | opened => false
  | quoted => false

/-- Whether a text consists of parameters. -/
def areParameters (text : List Char) : Bool :=
  match text.foldlM ParameterState.step .start with
  | some state => state.isFinal
  | none => false

/-- Divides a text at the first character that satisfies a condition, which belongs to neither part;
the second part is missing if there is none. -/
def divideAt (divides : Char → Bool) (text : List Char) : List Char × Option (List Char) :=
  let front := text.takeWhile fun c => !divides c
  match text.drop front.length with
  | [] => (front, none)
  | _ :: rest => (front, some rest)

/-- The part of a subtype in front of its last plus sign and the one after it. A plus sign at the
very front divides nothing. -/
def divideSuffix (subtype : List Char) : List Char × Option (List Char) :=
  match divideAt (· = '+') subtype.reverse with
  | (suffix, some (c :: rest)) => ((c :: rest).reverse, some suffix.reverse)
  | _ => (subtype, none)

/-- Whether a media type stands for JSON. -/
def isJson (text : String) : Bool :=
  match divideAt (· = '/') text.toList with
  | (_, none) => false
  | (type, some rest) =>
    let (subtype, parameters?) := divideAt (· = ';') rest
    let (base, suffix?) := divideSuffix (subtype.map Char.toLower)
    type.all isTokenChar && subtype.all isTokenChar && areParameters (parameters?.getD []) &&
      (type.map Char.toLower = "application".toList &&
        (base = "json".toList || suffix? = some "json".toList))

end FishMarket.Http.MediaType
