import ApiReference.Text.Utf8
import ApiReference.Text.Digit

/-! # Request targets

Where a request goes.  A target is an address or a part of one: a scheme, a host and a path, each of
which can be left out, and what follows the path.  The characters of a path may be escaped as percent
signs with two digits each. -/

namespace ApiReference.Service

/-- The address that a target writes, without what follows the path. -/
structure Target where
  hasScheme : Bool
  host : Text
  path : Text
deriving DecidableEq, Inhabited, Repr

/-! ### Reading an address -/

/-- The character can stand in a scheme. -/
def isSchemeChar (c : Char) : Bool := c.isAlphanum || c == '+' || c == '-' || c == '.'

/-- Whether an address has a scheme, and what follows the colon after it.  A scheme begins with a
letter; a colon without a scheme before it is dropped too. -/
def splitScheme (x : Text) : Bool × Text :=
  match x.dropWhile isSchemeChar, x.head? with
  | ':' :: rest, some c =>
    if c.isAlpha then (true, rest) else if c == ':' then (false, rest) else (false, x)
  | _, _ => (false, x)

/-- The character ends the host or the path of an address. -/
def startsQuery (c : Char) : Bool := c == '?' || c == '#'

/-- The host after two slashes, which may be empty, and what follows it. -/
def splitHost (x : Text) : Text × Text :=
  match Text.dropStart? ['/', '/'] x with
  | none => ([], x)
  | some rest =>
    let inHost := fun c => c != '/' && !startsQuery c
    (rest.takeWhile inHost, rest.dropWhile inHost)

/-- The most characters that a target can have. -/
def longestTarget : Nat := 65536

/-- Reads a target.  It holds no control characters, and a path alone begins neither with a colon nor
with two slashes. -/
def Target.ofText? (x : Text) : Option Target :=
  let (hasScheme, rest) := splitScheme x
  let (host, rest) := splitHost rest
  let path := rest.takeWhile fun c => !startsQuery c
  let isControl := fun (c : Char) => c.toNat < 0x20 || c.toNat == 0x7f
  let isAlone := !hasScheme && host.isEmpty
  if longestTarget < x.length || x.any isControl then none
  else if isAlone && (Text.startsWith path [':'] || Text.startsWith path ['/', '/']) then none
  else some { hasScheme, host, path }

/-! ### Paths -/

/-- Takes one part of a path after those before it, the last one first: a dot stays where it is, and
two dots lead back, but not before the start. -/
def takeStep (before : List Text) (part : Text) : List Text :=
  if part == ['.'] then before
  else if part == ['.', '.'] then if before == [[]] then before else before.drop 1
  else part :: before

/-- The path without its dots. -/
def dropDots (path : Text) : Text :=
  Text.joinWith ['/'] ((Text.split '/' path).foldl takeStep []).reverse

/-- The byte that a percent sign and two digits write. -/
def escapedByte? : Text → Option UInt8
  | '%' :: a :: b :: _ => do return UInt8.ofNat (16 * (← hexValue? a) + (← hexValue? b))
  | _ => none

/-- The bytes of a path, its escapes resolved; the first `used` characters belong to an escape
before them. -/
def pathBytes (used : Nat) : Text → List UInt8
  | [] => []
  | c :: rest =>
    if 0 < used then pathBytes (used - 1) rest
    else
      match escapedByte? (c :: rest) with
      | some byte => byte :: pathBytes 2 rest
      | none => Utf8.encodeChar c ++ pathBytes 0 rest

/-- The path with its escapes resolved, unless they write no text. -/
def unescapePath? (path : Text) : Option Text := Utf8.decode? (pathBytes 0 path)

namespace Target

/-- The path from the root.  A target that lacks a scheme or a host goes on from there. -/
def rootedPath (target : Target) : Text :=
  if target.hasScheme && !target.host.isEmpty then
    if target.path.isEmpty then ['/'] else target.path
  else
    let isAlone := !target.hasScheme && target.host.isEmpty
    let path := if isAlone then target.path else dropDots target.path
    '/' :: path.dropWhile (· == '/')

/-- The path that a target asks for.  Escapes are resolved on sending and again on receiving. -/
def asked? (target : Target) : Option Text :=
  (unescapePath? (dropDots target.rootedPath)).bind unescapePath?

end Target

end ApiReference.Service
