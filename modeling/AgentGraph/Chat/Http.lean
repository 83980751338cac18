import AgentGraph.Causes

/-!
# Requests over the network

The few things about HTTP that a client of a chat-completion interface needs: the request that posts
a document, what comes back, which addresses can be posted to, and the names of the response codes.
-/

namespace AgentGraph.Http

/-- A request that posts a JSON document. -/
structure Request where
  url : String
  /-- The value of the `Authorization` header. -/
  authorization : Option String
  body : String
deriving DecidableEq, Repr

def Request.contentType : String := "application/json"

/-- What comes of a request. -/
inductive Exchange where
  | answered (status : Nat) (body : String)
  /-- There is no response. -/
  | failed (causes : Causes)
deriving DecidableEq, Repr

/-! ### Addresses -/

def isSchemeChar (c : Char) : Bool := c.isAlphanum || c = '+' || c = '-' || c = '.'

/-- The scheme of an absolute address, in lower case. -/
def scheme? (url : String) : Option String :=
  let name := url.toList.takeWhile isSchemeChar
  let rest := url.toList.drop name.length
  if (name.head?.any Char.isAlpha) && rest.head? = some ':' then
    some (String.ofList (name.map Char.toLower))
  else none

/-- The characters that end the name of the host and its port. -/
def isPathStart (c : Char) : Bool := c = '/' || c = '\\' || c = '?' || c = '#'

/-- The host of an address of the web and the port as written, and what follows them. Slashes in
front of the host do not count, and neither does the name of a user. -/
def hostAndRest (url : String) : List Char × List Char :=
  let afterScheme :=
    ((url.toList.dropWhile (· ≠ ':')).drop 1).dropWhile fun c => c = '/' || c = '\\'
  let authority := afterScheme.takeWhile fun c => !isPathStart c
  ((authority.reverse.takeWhile (· ≠ '@')).reverse, afterScheme.drop authority.length)

/-- What is wrong with a host and its port. Bracketed hosts are not looked into. -/
def hostFault? (host : List Char) : Option String :=
  if host.head? = some '[' then none
  else
    let name := host.takeWhile (· ≠ ':')
    let port := host.drop (name.length + 1)
    if name.isEmpty then some "empty host"
    else if !port.all Char.isDigit || 65535 < ((String.ofList port).toNat?).getD 0 then
      some "invalid port number"
    else none

/-- Requests can be posted to absolute addresses of the two schemes of the web. -/
def checkUrl (url : String) : Except Causes Unit :=
  match scheme? url with
  | none => .error ["builder error", "relative URL without a base"]
  | some scheme =>
    if scheme = "http" ∨ scheme = "https" then
      match hostFault? (hostAndRest url).1 with
      | some fault => .error ["builder error", fault]
      | none => .ok ()
    else .error [s!"builder error for url ({url})", "URL scheme is not allowed"]

/-- The part of an address after the host. -/
def pathOf (url : String) : String := String.ofList (hostAndRest url).2

/-- A header value holds no control characters but tabs. -/
def isHeaderValue (s : String) : Bool :=
  s.toList.all fun c => c = '\t' || (' ' ≤ c && c ≠ '\x7f')

/-! ### Responses -/

/-- The codes of success. -/
def isSuccess (status : Nat) : Bool := 200 ≤ status && status < 300

/-- The registered names of the response codes. -/
def reasons : List (Nat × String) := [
  (100, "Continue"), (101, "Switching Protocols"), (102, "Processing"), (103, "Early Hints"),
  (200, "OK"), (201, "Created"), (202, "Accepted"), (203, "Non Authoritative Information"),
  (204, "No Content"), (205, "Reset Content"), (206, "Partial Content"), (207, "Multi-Status"),
  (208, "Already Reported"), (226, "IM Used"),
  (300, "Multiple Choices"), (301, "Moved Permanently"), (302, "Found"), (303, "See Other"),
  (304, "Not Modified"), (305, "Use Proxy"), (307, "Temporary Redirect"),
  (308, "Permanent Redirect"),
  (400, "Bad Request"), (401, "Unauthorized"), (402, "Payment Required"), (403, "Forbidden"),
  (404, "Not Found"), (405, "Method Not Allowed"), (406, "Not Acceptable"),
  (407, "Proxy Authentication Required"), (408, "Request Timeout"), (409, "Conflict"),
  (410, "Gone"), (411, "Length Required"), (412, "Precondition Failed"),
  (413, "Payload Too Large"), (414, "URI Too Long"), (415, "Unsupported Media Type"),
  (416, "Range Not Satisfiable"), (417, "Expectation Failed"), (418, "I'm a teapot"),
  (421, "Misdirected Request"), (422, "Unprocessable Entity"), (423, "Locked"),
  (424, "Failed Dependency"), (425, "Too Early"), (426, "Upgrade Required"),
  (428, "Precondition Required"), (429, "Too Many Requests"),
  (431, "Request Header Fields Too Large"), (451, "Unavailable For Legal Reasons"),
  (500, "Internal Server Error"), (501, "Not Implemented"), (502, "Bad Gateway"),
  (503, "Service Unavailable"), (504, "Gateway Timeout"), (505, "HTTP Version Not Supported"),
  (506, "Variant Also Negotiates"), (507, "Insufficient Storage"), (508, "Loop Detected"),
  (510, "Not Extended"), (511, "Network Authentication Required")]

/-- A response code with its name. -/
def statusText (status : Nat) : String :=
  let name := (reasons.lookup status).getD "<unknown status code>"
  s!"{status} {name}"

end AgentGraph.Http
