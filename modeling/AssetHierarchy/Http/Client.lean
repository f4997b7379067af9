import AssetHierarchy.Config.Basic
import AssetHierarchy.Http.Request
import AssetHierarchy.Http.Response
import AssetHierarchy.Http.Url

/-! The client of one project. It makes a request as often as the service asks for another try and
the request allows, waiting in between, and keeps a record of what went over the connection. The
other side of the connection is a state machine of any kind. -/
namespace AssetHierarchy

/-! ### Messages -/

/-- What one attempt sends. Of several headers with one name all are sent. -/
structure Message where
  url : String
  headers : List (String × String)
  body : Json

namespace Message

def isTokenCharacter (c : Char) : Bool :=
  c.isAlphanum || "!#$%&'*+-.^_`|~".toList.contains c

def isHeaderName (s : String) : Bool :=
  !s.isEmpty && s.toList.all isTokenCharacter

/-- Controls other than the tab cannot be sent. -/
def isHeaderValue (s : String) : Bool :=
  s.toList.all fun c => c == '\t' || (0x20 ≤ c.toNat && c.toNat != 0x7F)

/-- The address and the headers have a written form. -/
def isWritable (m : Message) : Bool :=
  (Url.parse? m.url).isSome && m.headers.all fun (k, v) => isHeaderName k && isHeaderValue v

end Message

/-- What comes back for a message. A reply has its headers as they were sent, and no text if this
breaks off. -/
inductive Answer where
  | reply (code : Nat) (headers : List (String × String)) (text : Option String)
  | fault (f : NetworkFault)

/-- The other side of a connection. -/
structure Peer (σ : Type) where
  answer : Message → σ → Answer × σ

structure Attempt where
  message : Message
  answer : Answer

/-- A connection over time: the state of the other side, and what happened so far. -/
structure Session (σ : Type) where
  peer : σ
  attempts : Array Attempt := #[]
  waits : Array Delay := #[]
  /-- The service asked for a wait of `2 ^ 64` seconds or more; nothing is sent after that. -/
  ended : Bool := false

namespace Session

variable {σ : Type}

/-- Why a session ends early. -/
def endReason : String :=
  "cannot convert float seconds to Duration: value is either too big or NaN"

/-- One attempt. What has no written form is not sent. -/
def send (peer : Peer σ) (m : Message) (s : Session σ) : Answer × Session σ :=
  if s.ended then (.fault .unreachable, s)
  else
    let (answer, state) :=
      if m.isWritable then peer.answer m s.peer else (.fault .unbuildable, s.peer)
    (answer, { s with peer := state, attempts := s.attempts.push ⟨m, answer⟩ })

def wait (d : Delay) (s : Session σ) : Session σ :=
  { s with waits := s.waits.push d }

end Session

/-! ### The client -/

structure Client where
  baseUri : String
  basePath : String
  defaultHeaders : List (String × String)

namespace Client

def clientVersion : String := "CogniteRustSdk:0.1.0"

def ofConfig (c : Config) : Client where
  baseUri := c.baseUrl.text
  basePath :=
    "/api/" ++ c.apiVersion.text ++ "/projects/" ++ Text.Percent.encode c.project.text
  defaultHeaders :=
    [("Accept", "application/json"), ("Authorization", c.token.authorization),
     ("x-cdp-app", c.clientName.text), ("x-cdp-sdk", clientVersion)]

/-- Sets a header. Names are told apart by their spelling, so two that differ in case only are both
kept. The places of headers with different spellings mean nothing: they may be sent in any order. -/
def setHeader (headers : List (String × String)) (key value : String) : List (String × String) :=
  if (headers.map (·.1)).contains key then
    headers.map fun (k, v) => if k = key then (k, value) else (k, v)
  else headers ++ [(key, value)]

variable (c : Client)

def headersFor (r : Request) : List (String × String) :=
  r.headers.foldl (fun hs (k, v) => setHeader hs k v)
    (setHeader c.defaultHeaders "Content-Type" "application/json")

/-- The address of a request: that of the project, a slash, and the path without slashes at its
front. -/
def urlFor (r : Request) : String :=
  c.baseUri ++ c.basePath ++ "/" ++ String.ofList (r.path.toList.dropWhile (· == '/'))

def message (r : Request) : Message where
  url := c.urlFor r
  headers := c.headersFor r
  body := r.body

/-- A printable character of plain ASCII, or a tab. -/
def isPlain (c : Char) : Bool := c == '\t' || (0x20 ≤ c.toNat && c.toNat < 0x7F)

def lowerCase (s : String) : String := s.map Char.toLower

/-- A header of a reply as the client keeps it. A value that is not plain ASCII is kept as an empty
one. -/
def readHeader (h : String × String) : String × String :=
  (lowerCase h.1, if h.2.toList.all isPlain then h.2 else "")

/-- A reply as the client sees it. A text that breaks off counts as an empty one. -/
def response (code : Nat) (headers : List (String × String)) (text : Option String) : Response where
  code
  headers := Response.groupHeaders (headers.map readHeader)
  body := Response.bodyOfText (text.getD "")

/-- Whether an answer settles a request or asks for another try. -/
inductive Verdict where
  | settled (result : Except HttpError Response)
  | again (r : Response)

def verdict : Answer → Verdict
  | .fault f => .settled (.error (.network f))
  | .reply code headers text =>
    let r := response code headers text
    if r.isOk then .settled (.ok r)
    else if r.isRetryable then .again r
    else .settled (.error (.response r.error))

/-- The error of a request whose last try was answered by asking for another. -/
def exhausted (tries : Nat) (r : Response) : HttpError :=
  if tries = 1 then .response r.error else .maxRetries tries r.error

variable {σ : Type}

/-- Attempts until one settles the request, with at most the given number more after the first. -/
def attempt (peer : Peer σ) (m : Message) (tries : Nat) :
    Nat → Session σ → Except HttpError Response × Session σ
  | left, s =>
    let (answer, s) := s.send peer m
    match verdict answer, left with
    | .settled result, _ => (result, s)
    | .again r, 0 => (.error (exhausted tries r), s)
    | .again r, left + 1 =>
      match Delay.beforeRetry? r.retryAfter? with
      | none => (.error (.network .lost), { s with ended := true })
      | some d => attempt peer m tries left (s.wait d)

/-- Makes a request and returns the reply if that is a success. -/
def request (peer : Peer σ) (r : Request) (s : Session σ) :
    Except HttpError Response × Session σ :=
  match r.verify with
  | .error e => (.error e, s)
  | .ok r => attempt peer (c.message r) r.tries (r.tries - 1) s

end Client

end AssetHierarchy
