import FormatServer.Failure
import FormatServer.Uri.Authority
import FormatServer.Uri.Percent

/-!
# URIs

A URI is split into scheme, authority and path; parameters, query and fragment are dropped. What is
left is percent-decoded.
-/

set_option autoImplicit false

namespace FormatServer

/-- The parts of a URI that locate a document, decoded. -/
structure Uri where
  scheme : List Char
  authority : List Char
  path : List Char
  deriving DecidableEq, Repr

namespace Uri

/-- An ASCII letter. -/
def isLetter (c : Char) : Bool := c.isAlpha

/-- A character of a scheme. -/
def isSchemeChar (c : Char) : Bool :=
  isLetter c || c.isDigit || c == '+' || c == '-' || c == '.'

/-- Schemes whose last path segment may carry parameters after a semicolon. -/
def parameterSchemes : List String :=
  ["", "ftp", "hdl", "prospero", "http", "imap", "https", "shttp", "rtsp", "rtspu", "sip", "sips",
   "mms", "sftp", "tel"]

/-- Without leading controls and blanks, and without tabs and line breaks anywhere. -/
def clean (cs : List Char) : List Char :=
  (cs.dropWhile (·.toNat ≤ 0x20)).filter fun c => c ≠ '\t' ∧ c ≠ '\n' ∧ c ≠ '\r'

/-- The scheme in lower case and the rest; no scheme unless letters come before the first colon. -/
def splitScheme (cs : List Char) : List Char × List Char :=
  match Text.cut? ':' cs with
  | some (scheme, rest) =>
    if (scheme.head?.map isLetter).getD false && scheme.all isSchemeChar then
      (scheme.map Char.toLower, rest)
    else ([], cs)
  | none => ([], cs)

/-- The authority after two slashes, and the rest. -/
def splitAuthority (cs : List Char) : List Char × List Char :=
  match cs with
  | '/' :: '/' :: r => r.span fun c => c ≠ '/' ∧ c ≠ '?' ∧ c ≠ '#'
  | _ => ([], cs)

/-- The path without the parameters of its last segment. -/
def dropParameters (cs : List Char) : List Char :=
  let last := (cs.reverse.takeWhile (· ≠ '/')).reverse
  let before := (cs.reverse.dropWhile (· ≠ '/')).reverse
  before ++ last.takeWhile (· ≠ ';')

/-- The parts of a URI. -/
def parse (s : String) : Except Fault Uri :=
  let (scheme, rest) := splitScheme (clean s.toList)
  let (authority, rest) := splitAuthority rest
  if !isAuthority authority then .error .malformedUri
  else
    let path := (Text.cut '?' (Text.cut '#' rest).1).1
    let path := if parameterSchemes.contains (String.ofList scheme) then dropParameters path
      else path
    .ok ⟨scheme, decode authority, decode path⟩

/-- A slash, a letter and a colon. -/
def hasDrive (path : List Char) : Bool :=
  match path with
  | '/' :: c :: ':' :: _ => isLetter c
  | _ => false

/-- The file system path of a URI: `//authority/path` for a file on a host, the path with its drive
letter in lower case and no leading slash, or the path. -/
def fileSystemPath (u : Uri) : String :=
  if !u.authority.isEmpty && !u.path.isEmpty && u.scheme == "file".toList then
    String.ofList ('/' :: '/' :: u.authority ++ u.path)
  else
    match u.path with
    | '/' :: c :: ':' :: r =>
      if isLetter c then String.ofList (c.toLower :: ':' :: r) else String.ofList u.path
    | path => String.ofList path

/-- The file system path that a URI stands for. -/
def toPath (uri : String) : Except Fault String := (parse uri).map fileSystemPath

/-- Host and path of a file system path; the path starts with a slash and has its drive letter in
lower case. -/
def hostAndPath (cs : List Char) : Except Fault (List Char × List Char) := do
  let (host, path) ← match cs with
    | '/' :: '/' :: r =>
      match Text.cut? '/' r with
      | some (host, rest) => .ok (host, '/' :: rest)
      | none => .error .hostWithoutPath
    | _ => .ok ([], cs)
  let path := if path.head? = some '/' then path else '/' :: path
  match path with
  | '/' :: c :: ':' :: r =>
    .ok (host, if isLetter c then '/' :: c.toLower :: ':' :: r else path)
  | _ => .ok (host, path)

/-- A path as a URI shows it. A drive's colon is not escaped. -/
def encodePath (path : List Char) : List Char :=
  if hasDrive path then path.take 3 ++ encode (path.drop 3) else encode path

/-- Host and path behind two slashes; a path that has them itself needs no others where there is no
host. -/
def locator (host path : List Char) : List Char :=
  if host.isEmpty && path.take 2 = ['/', '/'] then path else '/' :: '/' :: host ++ path

/-- The file URI of a file system path. -/
def ofPath (path : String) : Except Fault String := do
  let (host, path) ← hostAndPath path.toList
  .ok (String.ofList ("file:".toList ++ locator (encode host) (encodePath path)))

end Uri

end FormatServer
