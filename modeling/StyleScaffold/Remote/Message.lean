import StyleScaffold.Text.Basic

/-!
# Requests and replies

A request names a host, a path and the parameters of its query; it always fetches. A reply is
the status and the body that a server sent, or the reason why none came. Every registered status
has a phrase.

Where a request goes is found for the endpoint that is wanted, and there may be nothing to find.
-/

namespace StyleScaffold.Remote

/-- What is asked of a server. -/
structure Request where
  host : Text
  path : Text
  parameters : List (Text × Text)
  token : Text
  deriving DecidableEq

/-- Why a text cannot be used as an address. -/
inductive AddressFault where
  /-- The text does not have the form of an address. -/
  | malformed
  /-- Half of a surrogate pair has no bytes. -/
  | unencodable
  /-- No scheme says how to go on. -/
  | schemeless
  deriving DecidableEq, Repr

/-- Where a request goes. -/
structure Destination where
  host : Text
  path : Text
  parameters : List (Text × Text)
  /-- The address in full. -/
  address : Text
  /-- Whether the address starts with the name of a scheme. Otherwise no answer from there counts. -/
  isNamed : Bool

/-- Finds where a request for an endpoint goes, with parameters where they are given. -/
abbrev Locator :=
  (endpoint : Text) → (parameters : Option (List (Text × Text))) → Except AddressFault Destination

/-- What comes back. -/
inductive Reply where
  | answer (status : Int) (body : List UInt8)
  /-- Nothing came in time. -/
  | timedOut (reason : Text)
  /-- There was no connection. -/
  | unreachable (reason : Text)
  deriving DecidableEq

/-- The phrases of the registered statuses. -/
def phrases : List (Int × String) :=
  [(100, "Continue"), (101, "Switching Protocols"), (102, "Processing"), (103, "Early Hints"),
    (200, "OK"), (201, "Created"), (202, "Accepted"), (203, "Non-Authoritative Information"),
    (204, "No Content"), (205, "Reset Content"), (206, "Partial Content"),
    (207, "Multi-Status"), (208, "Already Reported"), (226, "IM Used"),
    (300, "Multiple Choices"), (301, "Moved Permanently"), (302, "Found"), (303, "See Other"),
    (304, "Not Modified"), (305, "Use Proxy"), (307, "Temporary Redirect"),
    (308, "Permanent Redirect"),
    (400, "Bad Request"), (401, "Unauthorized"), (402, "Payment Required"), (403, "Forbidden"),
    (404, "Not Found"), (405, "Method Not Allowed"), (406, "Not Acceptable"),
    (407, "Proxy Authentication Required"), (408, "Request Timeout"), (409, "Conflict"),
    (410, "Gone"), (411, "Length Required"), (412, "Precondition Failed"),
    (413, "Request Entity Too Large"), (414, "Request-URI Too Long"),
    (415, "Unsupported Media Type"), (416, "Requested Range Not Satisfiable"),
    (417, "Expectation Failed"), (418, "I'm a teapot"), (421, "Misdirected Request"),
    (422, "Unprocessable Entity"), (423, "Locked"), (424, "Failed Dependency"),
    (425, "Too Early"), (426, "Upgrade Required"), (428, "Precondition Required"),
    (429, "Too Many Requests"), (431, "Request Header Fields Too Large"),
    (451, "Unavailable For Legal Reasons"),
    (500, "Internal Server Error"), (501, "Not Implemented"), (502, "Bad Gateway"),
    (503, "Service Unavailable"), (504, "Gateway Timeout"), (505, "HTTP Version Not Supported"),
    (506, "Variant Also Negotiates"), (507, "Insufficient Storage"), (508, "Loop Detected"),
    (510, "Not Extended"), (511, "Network Authentication Required")]

/-- The phrase of a status, empty for a status that is not registered. -/
def phrase (status : Int) : Text := (phrases.lookup status).getD ""

end StyleScaffold.Remote
