import AssetHierarchy.Config.BaseUrl
import AssetHierarchy.Text.Percent
import AssetHierarchy.Number.Reading

/-! Addresses in the form in which they are requested. White space and controls around an address
are dropped, dot segments are resolved, a backslash counts as a slash, and characters that may not
stand in a path or query are percent-encoded; an existing escape is kept, the fragment is not. -/
namespace AssetHierarchy

structure Url where
  /-- The host and the port, without a user. -/
  authority : String
  segments : List (List Char)
  query : Option (List Char)

namespace Url

def isSlash (c : Char) : Bool := c == '/' || c == '\\'

def isControlOrSpace (c : Char) : Bool := c.toNat ≤ 0x20

def isTabOrNewline (c : Char) : Bool := c == '\t' || c == '\n' || c == '\r'

/-- Without what an address may carry around it and what it may be broken with. -/
def clean (cs : List Char) : List Char :=
  (Text.dropEndWhile isControlOrSpace (cs.dropWhile isControlOrSpace)).filter
    fun c => !isTabOrNewline c

/-! ### Hosts -/

/-- The part after the last `@`. -/
def withoutUser (cs : List Char) : List Char :=
  (cs.reverse.takeWhile (· != '@')).reverse

def isPort (cs : List Char) : Bool :=
  cs.all Double.isDigit && Double.appendDigits 0 cs ≤ 65535

/-- Nothing, or a colon and a port. -/
def isPortSuffix (cs : List Char) : Bool :=
  match cs with
  | [] => true
  | c :: port => c == ':' && isPort port

def isForbiddenInHost (c : Char) : Bool :=
  c.toNat ≤ 0x20 || c.toNat == 0x7F || "#/:<>?@[\\]^|%".toList.contains c

def isAddressCharacter (c : Char) : Bool :=
  Double.isDigit c || ('a' ≤ c && c ≤ 'f') || ('A' ≤ c && c ≤ 'F') || c == ':' || c == '.'

/-- A name, or an address in brackets, and perhaps a port. -/
def isAuthority (cs : List Char) : Bool :=
  match cs with
  | '[' :: rest =>
    let address := rest.takeWhile (· != ']')
    address.all isAddressCharacter && 2 ≤ address.count ':'
      && match rest.dropWhile (· != ']') with
         | [] => false
         | _ :: suffix => isPortSuffix suffix
  | _ =>
    let host := cs.takeWhile (· != ':')
    !host.isEmpty && !host.any isForbiddenInHost && isPortSuffix (cs.dropWhile (· != ':'))

/-! ### Paths and queries -/

/-- Percent-encodes each character outside ASCII, each control and each of the given ones. -/
def encodeCharacters (special : List Char) (cs : List Char) : List Char :=
  cs.flatMap fun c =>
    if c.toNat ≤ 0x1F || 0x7F ≤ c.toNat || special.contains c then
      (String.singleton c).toUTF8.toList.flatMap Text.Percent.escapeByte
    else [c]

def pathSpecials : List Char := " \"#<>?`".toList ++ ['\x7b', '\x7d']

def querySpecials : List Char := " \"#<>'".toList

/-- The pieces between the slashes; one more than there are slashes. -/
def splitSlashes : List Char → List (List Char)
  | [] => [[]]
  | c :: rest =>
    match splitSlashes rest with
    | [] => [[c]]
    | piece :: pieces => if isSlash c then [] :: piece :: pieces else (c :: piece) :: pieces

/-- With every spelling of a dot as a dot. -/
def plainDots : List Char → List Char
  | '%' :: '2' :: 'e' :: rest => '.' :: plainDots rest
  | '%' :: '2' :: 'E' :: rest => '.' :: plainDots rest
  | c :: rest => c :: plainDots rest
  | [] => []

/-- Resolves dot segments; the segments before are given in reverse. A dot segment at the end leaves
an empty one. -/
def resolveDots (before : List (List Char)) : List (List Char) → List (List Char)
  | [] => before.reverse
  | piece :: rest =>
    let dots := plainDots piece
    let before :=
      if dots = ['.'] then before
      else if dots = ['.', '.'] then before.tail
      else encodeCharacters pathSpecials piece :: before
    if rest.isEmpty && (dots = ['.'] || dots = ['.', '.']) then ([] :: before).reverse
    else resolveDots before rest

/-- The segments of a path, with or without its leading slash. -/
def segmentsOf (path : List Char) : List (List Char) :=
  resolveDots [] (splitSlashes (if path.head?.any isSlash then path.tail else path))

def parse? (text : String) : Option Url :=
  let cs := clean text.toList
  (BaseUrl.afterScheme? cs).bind fun rest =>
    let rest := rest.dropWhile isSlash
    let endsAuthority := fun c => isSlash c || c == '?' || c == '#'
    let authority := withoutUser (rest.takeWhile fun c => !endsAuthority c)
    if !isAuthority authority then none
    else
      let rest := (rest.dropWhile fun c => !endsAuthority c).takeWhile (· != '#')
      let query :=
        match rest.dropWhile (· != '?') with
        | [] => none
        | _ :: query => some (encodeCharacters querySpecials query)
      some { authority := String.ofList authority
             segments := segmentsOf (rest.takeWhile (· != '?')), query }

/-- The path and query that are asked for. -/
def target (u : Url) : String :=
  let path := u.segments.flatMap fun s => '/' :: s
  String.ofList (path ++ match u.query with
    | none => []
    | some q => '?' :: q)

end Url

end AssetHierarchy
