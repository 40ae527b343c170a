/-! # Requests and responses

What passes over HTTP, as far as the service looks at it: names of headers do not depend on the
case of their letters, and of several headers of one name the first counts.
-/

namespace FishMarket.Http

/-- The method of a request. -/
inductive Method where
  | get
  | head
  | post
  | patch
  | delete
  | options
  | other (name : String)
deriving DecidableEq, Repr

/-- The method of the given name. -/
def Method.ofName (name : String) : Method :=
  if name = "GET" then .get
  else if name = "HEAD" then .head
  else if name = "POST" then .post
  else if name = "PATCH" then .patch
  else if name = "DELETE" then .delete
  else if name = "OPTIONS" then .options
  else .other name

/-- A request. -/
structure Request where
  method : Method
  /-- What is asked for: a path, perhaps behind a scheme and a server, and perhaps followed by a
  query and a fragment. -/
  target : String
  headers : List (String × String)
  body : ByteArray

/-- A header name with small letters only. -/
def lowered (name : String) : List Char :=
  name.toList.map Char.toLower

/-- The first header of a name. -/
def Request.header? (request : Request) (name : String) : Option String :=
  (request.headers.find? fun header => lowered header.1 = lowered name).map (·.2)

/-- Whether a header consists of visible characters of ASCII, blanks and tabs; others cannot be read
as text. -/
def isVisibleText (value : String) : Bool :=
  value.toList.all fun c => c = '\t' || (32 ≤ c.toNat && c.toNat < 127)

/-! ## Targets -/

/-- Whether a character may stand in the name of a scheme. -/
def isSchemeChar (c : Char) : Bool :=
  c.isAlphanum || c = '+' || c = '-' || c = '.'

/-- What follows the scheme of a target, if it names one. -/
def afterScheme? (target : List Char) : Option (List Char) :=
  match target.dropWhile isSchemeChar with
  | ':' :: '/' :: '/' :: rest => some rest
  | _ => none

/-- Whether a character begins the query or the fragment. -/
def endsPath (c : Char) : Bool :=
  c = '?' || c = '#'

/-- Whether a character ends the name of a server. -/
def endsServer (c : Char) : Bool :=
  c = '/' || endsPath c

/-- What stands in front of the query and the fragment. -/
def beforeQuery (target : List Char) : List Char :=
  target.takeWhile fun c => !endsPath c

/-- The path that follows the name of a server. It is that of the root where it is left out. -/
def pathAfterServer (target : List Char) : List Char :=
  match beforeQuery (target.dropWhile fun c => !endsServer c) with
  | [] => ['/']
  | path => path

/-- The path of a target, which stands alone or behind a scheme and a server. A target that names
a server and nothing else has no path. -/
def pathOf (target : List Char) : List Char :=
  match target with
  | '/' :: _ => beforeQuery target
  | _ =>
    match afterScheme? target with
    | some rest => pathAfterServer rest
    | none => []

/-- The path of a request. -/
def Request.path (request : Request) : List Char :=
  pathOf request.target.toList

/-! ## Responses -/

/-- A response. -/
structure Response where
  status : Nat
  headers : List (String × String)
  body : String
deriving DecidableEq, Repr

end FishMarket.Http
