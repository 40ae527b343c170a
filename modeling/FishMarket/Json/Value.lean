import FishMarket.Json.Token

/-! # The extent of a value

Finding where a value ends without keeping it, as a machine that reads token by token and remembers
which brackets are open. A value that is skipped has to follow the grammar and nothing more; one
that is kept for later needs strings that denote characters, numbers of double precision and a
bounded nesting.
-/

namespace FishMarket.Json

/-- Why a text cannot be read as the value that is wanted. -/
inductive Fault where
  /-- The text is no JSON, or ends too early. -/
  | malformed
  /-- The text is JSON so far, but not of the wanted shape. -/
  | mismatch
deriving DecidableEq, Repr

namespace Value

/-- What becomes of a value. -/
inductive Care where
  /-- It is passed over. -/
  | skipped
  /-- It is kept; at most so many brackets may be open at once. -/
  | kept (nesting : Nat)
deriving DecidableEq, Repr

/-- Whether a string may stand in the value. -/
def Care.acceptsString : Care → Option (List Char) → Bool
  | .skipped, _ => true
  | .kept _, content? => content?.isSome

/-- Whether a number may stand in the value. -/
def Care.acceptsNumber : Care → Number → Bool
  | .skipped, _ => true
  | .kept _, number => !number.beyondDouble

/-- An open bracket. -/
inductive Bracket where
  | array
  | object
deriving DecidableEq, Repr

/-- Whether another bracket may be opened within the given ones. -/
def Care.mayOpen : Care → List Bracket → Bool
  | .skipped, _ => true
  | .kept nesting, stack => stack.length < nesting

/-- What may come next. -/
inductive Expected where
  | value
  | valueOrClose
  | key
  | keyOrClose
  | colon
  | commaOrClose
deriving DecidableEq, Repr

/-- Reads a token where a value is due. -/
def stepValue (care : Care) (stack : List Bracket) : Token → Option (List Bracket × Expected)
  | .null => some (stack, .commaOrClose)
  | .bool _ => some (stack, .commaOrClose)
  | .number number => if care.acceptsNumber number then some (stack, .commaOrClose) else none
  | .string content? => if care.acceptsString content? then some (stack, .commaOrClose) else none
  | .openBracket =>
    if care.mayOpen stack then some (.array :: stack, .valueOrClose) else none
  | .openBrace =>
    if care.mayOpen stack then some (.object :: stack, .keyOrClose) else none
  | _ => none

/-- Reads a token where a key is due. -/
def stepKey (care : Care) (stack : List Bracket) : Token → Option (List Bracket × Expected)
  | .string content? => if care.acceptsString content? then some (stack, .colon) else none
  | _ => none

/-- Reads one token. -/
def step (care : Care) : List Bracket → Expected → Token → Option (List Bracket × Expected)
  | .array :: stack, .valueOrClose, .closeBracket => some (stack, .commaOrClose)
  | .object :: stack, .keyOrClose, .closeBrace => some (stack, .commaOrClose)
  | .array :: stack, .commaOrClose, .closeBracket => some (stack, .commaOrClose)
  | .object :: stack, .commaOrClose, .closeBrace => some (stack, .commaOrClose)
  | .array :: stack, .commaOrClose, .comma => some (.array :: stack, .value)
  | .object :: stack, .commaOrClose, .comma => some (.object :: stack, .key)
  | stack, .colon, .colon => some (stack, .value)
  | stack, .value, token => stepValue care stack token
  | stack, .valueOrClose, token => stepValue care stack token
  | stack, .key, token => stepKey care stack token
  | stack, .keyOrClose, token => stepKey care stack token
  | _, _, _ => none

/-- Reads tokens until no bracket is open and a value is complete, and says which tokens are
left. -/
def run (care : Care) : List Bracket → Expected → List Token → Option (List Token)
  | _, _, [] => none
  | stack, expected, token :: rest =>
    match step care stack expected token with
    | none => none
    | some ([], .commaOrClose) => some rest
    | some (stack, expected) => run care stack expected rest

theorem run_length {care : Care} {stack : List Bracket} {expected : Expected}
    {tokens rest : List Token} (hrun : run care stack expected tokens = some rest) :
    rest.length < tokens.length := by
  induction tokens generalizing stack expected with
  | nil => cases hrun
  | cons token tokens ih =>
      simp only [run] at hrun
      split at hrun
      next => cases hrun
      next =>
        obtain rfl := Option.some.inj hrun
        exact Nat.lt_succ_self _
      next => exact Nat.lt_succ_of_lt (ih hrun)

/-- The tokens after the value at the front. -/
def after? (care : Care) (tokens : List Token) : Option (List Token) :=
  run care [] .value tokens

end Value

end FishMarket.Json
