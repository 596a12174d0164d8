import MetricQuery.Text.Digit
import MetricQuery.Text.Display
import MetricQuery.Text.Punycode

/-!
# Addresses

An address names a server and a path on it, and may have a query and a fragment. `Url.ofText` takes
an address apart, and `Url.sent` is the text before its query as it goes out: scheme and host in
lower case, the port only where the scheme does not imply it, a path without dot segments, and
visible ASCII characters alone.
-/

namespace MetricQuery

/-- The parts of an address. -/
structure Url where
  scheme : List Char
  user : List Char
  host : List Char
  port : Option Nat
  path : List Char
  query : Option (List (String × String))
  fragment : Option (List Char)

namespace Url

/-- A text without slashes at its end. -/
def withoutTrailingSlashes (s : String) : String :=
  String.ofList (s.toList.reverse.dropWhile (· == '/')).reverse

/-! ### The query -/

/-- The bytes that a part of a query writes: a plus is a space, and a percent sign and two
hexadecimal digits are a byte. -/
def partBytes : List Char → List UInt8
  | [] => []
  | '+' :: rest => 0x20 :: partBytes rest
  | '%' :: a :: b :: rest =>
    match Digit.hexadecimal? a, Digit.hexadecimal? b with
    | some high, some low => UInt8.ofNat (16 * high + low) :: partBytes rest
    | _, _ => 0x25 :: partBytes (a :: b :: rest)
  | c :: rest => String.utf8EncodeChar c ++ partBytes rest

/-- The text that a part of a query writes, or a replacement character where its bytes write
none. -/
def readPart (cs : List Char) : String :=
  (String.fromUTF8? ⟨(partBytes cs).toArray⟩).getD "\ufffd"

/-- The pairs of names and values in a query. -/
def readPairs (cs : List Char) : List (String × String) :=
  ((cs.splitOn '&').filter (!·.isEmpty)).map fun pair =>
    (readPart (pair.takeWhile (· != '=')), readPart ((pair.dropWhile (· != '=')).drop 1))

/-! ### The parts of an address -/

/-- What comes before the first mark in a text, and what comes after it. -/
def cut (mark : Char) (cs : List Char) : List Char × Option (List Char) :=
  match cs.span (· != mark) with
  | (before, _ :: rest) => (before, some rest)
  | (before, []) => (before, none)

def isSchemeChar (c : Char) : Bool := c.isAlphanum || c == '+' || c == '.' || c == '-'

/-- The scheme at the front of a text, and what follows its colon. -/
def readScheme (cs : List Char) : List Char × List Char :=
  match cs.span isSchemeChar with
  | (c :: scheme, ':' :: rest) => if c.isAlpha then (c :: scheme, rest) else ([], cs)
  | _ => ([], cs)

/-- The authority after two slashes at the front of a text, and what follows it. -/
def readAuthority : List Char → List Char × List Char
  | '/' :: '/' :: rest => rest.span (· != '/')
  | cs => ([], cs)

/-- The host and the port at the end of an authority. -/
def readPort (cs : List Char) : List Char × Option Nat :=
  match cs.reverse.span fun c => (Digit.ascii? c).isSome with
  | ([], ':' :: host) => (host.reverse, none)
  | (digits, ':' :: host) =>
    (host.reverse, some (Digit.number (digits.reverse.filterMap Digit.ascii?)))
  | _ => (cs, none)

def ofText (s : String) : Url :=
  let (address, fragment) := cut '#' s.toList
  let (location, query) := cut '?' address
  let (scheme, rest) := readScheme location
  let (authority, path) := readAuthority rest
  let (user, server) := match cut '@' authority with
    | (user, some server) => (user, server)
    | (server, none) => ([], server)
  let (host, port) := readPort server
  ⟨scheme, user, host, port, path, query.map readPairs, fragment⟩

/-! ### The form in which an address goes out -/

/-- A byte as a percent sign and two digits. -/
def percent (b : UInt8) : List Char :=
  '%' :: (Display.hexadecimal 2 b.toNat).map Char.toUpper

/-- A text with its forbidden characters, and all that are not visible ASCII characters, written as
the bytes of their UTF-8 form. -/
def encode (forbidden : List Char) (cs : List Char) : List Char :=
  cs.flatMap fun c =>
    if 0x20 < c.toNat && c.toNat < 0x7f && !forbidden.contains c then [c]
    else (String.utf8EncodeChar c).flatMap percent

/-- The visible characters that may not stand in a fragment. -/
def notInFragment : List Char := ['\x22', '<', '>', '\x60']

/-- The visible characters that may not stand in a path. -/
def notInPath : List Char := notInFragment ++ ['#', '?', '\x7b', '\x7d']

/-- The visible characters that may not stand in the name of a user. -/
def notInUser : List Char := notInPath ++ ['/', ';', '=', '@', '[', '\\', ']', '^', '|']

/-- The visible characters that may not stand in the name of a host. -/
def notInHost : List Char := ['#', '/', ':', '<', '>', '?', '@', '[', ']', '^']

/-- A label of a host in ASCII. -/
def writeLabel (cs : List Char) : List Char :=
  if cs.all Punycode.isAscii then cs else "xn--".toList ++ Punycode.encode cs

/-- The dots that may divide the labels of a host. -/
def isDot (c : Char) : Bool := c == '.' || c == '\u3002' || c == '\uff0e' || c == '\uff61'

/-- The name of a host in lower case and in ASCII; a number in brackets stays as it is. -/
def writeHost (cs : List Char) : List Char :=
  let name := cs.map Char.toLower
  if cs.head? = some '[' then cs
  else if cs.all Punycode.isAscii then encode notInHost name
  else ['.'].intercalate ((name.splitOnP isDot).map writeLabel)

/-- The port that a scheme implies. -/
def impliedPort? (scheme : List Char) : Option Nat :=
  match String.ofList scheme with
  | "http" => some 80
  | "https" => some 443
  | _ => none

/-- The port with a colon before it, unless the scheme implies it. -/
def writePort (u : Url) : List Char :=
  match u.port with
  | some n => if impliedPort? u.scheme = some n then [] else ':' :: Digit.write n
  | none => []

/-- The segments of a path without dots. Two dots take back the segment before them, if there is
one after the slash at the front. The segments that are kept come first, the last of them first. -/
def resolve (kept : List (List Char)) : List (List Char) → List (List Char)
  | [] => kept.reverse
  | segment :: rest =>
    if segment = ['.'] then resolve kept rest
    else if segment = ['.', '.'] then resolve (if kept = [[]] then kept else kept.tail) rest
    else resolve (segment :: kept) rest

/-- A path without dot segments. -/
def withoutDots (path : List Char) : List Char :=
  ['/'].intercalate (resolve [] (path.splitOn '/'))

/-- The path as it goes out; dots have their meaning only below a scheme or a server. -/
def writePath (u : Url) : List Char :=
  let isBare := u.scheme = [] ∧ u.user = [] ∧ u.host = [] ∧ u.port = none
  encode notInPath (if isBare then u.path else withoutDots u.path)

/-- The fragment with its mark. It follows the query, so that the text before a query has none. -/
def writeFragment (u : Url) : List Char :=
  match u.query, u.fragment with
  | none, some cs => '#' :: encode notInFragment cs
  | _, _ => []

/-- The text of an address up to a question mark, as it goes out. Of an address that names no
server, the path alone goes out. -/
def sent (u : Url) : String :=
  String.ofList (
    if u.scheme = [] ∨ u.host = [] then '/' :: u.writePath.dropWhile (· == '/')
    else
      let user := if u.user = [] then [] else encode notInUser u.user ++ ['@']
      u.scheme.map Char.toLower ++ "://".toList ++ user ++ writeHost u.host ++ u.writePort ++
        u.writePath ++ u.writeFragment.takeWhile (· != '?'))

end Url
end MetricQuery
