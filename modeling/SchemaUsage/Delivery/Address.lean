import SchemaUsage.Text.Digits
import SchemaUsage.Text.Lines

/-!
# Addresses

The absolute addresses of the schemes `http` and `https`, as the client that posts reports reads its
endpoint, as far as a request needs them: where it goes, and the path with the query that it asks
for, percent-encoded.

Out of scope: hosts that are written in other scripts, as addresses of the network layer or in
capitals, and user names and passwords.
-/

namespace SchemaUsage.Delivery

open SchemaUsage.Text

/-- Where a request goes, and what it asks for. -/
structure Address where
  secure : Bool
  authority : String
  target : String
  deriving Repr, DecidableEq, Inhabited

/-! ## Percent encoding -/

/-- A byte as percent sign and two upper-case digits. -/
def encodeByte (n : Nat) : List Char :=
  '%' :: (hexOfWidth n 2).map Char.toUpper

/-- A character as it is written in an address: those of the set by their bytes. -/
def encodeChar (inSet : Char → Bool) (c : Char) : List Char :=
  if inSet c then (String.singleton c).toUTF8.toList.flatMap fun b => encodeByte b.toNat else [c]

/-- The grave accent. -/
def graveAccent : Char := Char.ofNat 0x60

/-- Control characters and all beyond ASCII. -/
def isControlOrForeign (c : Char) : Bool := c.toNat < 0x20 || 0x7E < c.toNat

/-- The characters that a query encodes. -/
def inQuerySet (c : Char) : Bool :=
  isControlOrForeign c || [' ', '"', '#', '<', '>', '\''].contains c

/-- The characters that a path encodes. -/
def inPathSet (c : Char) : Bool :=
  isControlOrForeign c || [' ', '"', '#', '<', '>', '?', '^', graveAccent, '{', '}'].contains c

/-! ## Paths -/

/-- The segments that mean "here". -/
def isHere (segment : List Char) : Bool :=
  [".", "%2e"].contains (String.ofList (segment.map Char.toLower))

/-- The segments that mean "one up". -/
def isUp (segment : List Char) : Bool :=
  ["..", ".%2e", "%2e.", "%2e%2e"].contains (String.ofList (segment.map Char.toLower))

/-- Resolves the segments that mean "here" and "one up"; `done` is reversed. -/
def resolveSegments (done : List (List Char)) : List (List Char) → List (List Char)
  | [] => done.reverse
  | [segment] =>
    if isUp segment then ([] :: done.drop 1).reverse
    else if isHere segment then ([] :: done).reverse
    else (segment :: done).reverse
  | segment :: segments =>
    if isUp segment then resolveSegments (done.drop 1) segments
    else if isHere segment then resolveSegments done segments
    else resolveSegments (segment :: done) segments

/-- The written path of the text between authority and query. -/
def writtenPath (cs : List Char) : List Char :=
  let cs := cs.map fun c => if c = '\\' then '/' else c
  let segments := split '/' (if cs.head? = some '/' then cs.drop 1 else cs)
  '/' :: join ['/'] ((resolveSegments [] segments).map fun segment =>
    segment.flatMap (encodeChar inPathSet))

/-! ## Reading -/

/-- Takes the scheme off the front: whether it is the secure one, and the rest. -/
def takeScheme? (cs : List Char) : Option (Bool × List Char) :=
  let scheme := String.ofList ((cs.takeWhile (· != ':')).map Char.toLower)
  let rest := cs.dropWhile (· != ':')
  if rest.isEmpty then none
  else if scheme == "http" then some (false, rest.drop 1)
  else if scheme == "https" then some (true, rest.drop 1)
  else none

/-- The characters that no host contains. -/
def isForbiddenInHost (c : Char) : Bool :=
  c.toNat ≤ 0x20 || c.toNat = 0x7F || ['<', '>', '^', '|', '%', '"', graveAccent, '{', '}'].contains c

/-- Whether a text names a host, perhaps with a number behind a colon. -/
def isAuthority (cs : List Char) : Bool :=
  let host := cs.takeWhile (· != ':')
  let number := (cs.dropWhile (· != ':')).drop 1
  !host.isEmpty && !host.any isForbiddenInHost && number.all isDigit && decimalValue number < 65536

/-- **Reads an address.** Blanks around it and line ends within it do not count; the fragment is
dropped. -/
def Address.ofText? (text : String) : Option Address := do
  let isEdge (c : Char) : Bool := c.toNat ≤ 0x20
  let cs := ((text.toList.dropWhile isEdge).reverse.dropWhile isEdge).reverse.filter
    fun c => c != '\t' && c != '\n' && c != '\r'
  let (secure, rest) ← takeScheme? cs
  let isSlash (c : Char) : Bool := c == '/' || c == '\\'
  let rest := rest.dropWhile isSlash
  let endsAuthority (c : Char) : Bool := isSlash c || c == '?' || c == '#'
  let authority := rest.takeWhile fun c => !endsAuthority c
  let host := (authority.reverse.takeWhile (· != '@')).reverse
  if !isAuthority host then none
  else
    let rest := (rest.dropWhile fun c => !endsAuthority c).takeWhile (· != '#')
    let path := writtenPath (rest.takeWhile (· != '?'))
    let query := (rest.dropWhile (· != '?')).flatMap (encodeChar inQuerySet)
    pure ⟨secure, String.ofList host, String.ofList (path ++ query)⟩

end SchemaUsage.Delivery
