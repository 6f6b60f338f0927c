import TabBoard.Text.Utf8

/-!
# Requests and replies

What goes out to other servers and what comes back. A reply that was cut short has a body that never
ends as announced.
-/

namespace TabBoard.Http

structure Outgoing where
  method : String
  url : String
  headers : List (String × String) := []
  body : String := ""
  deriving Repr, DecidableEq, Inhabited

/-- A reply, or as much of it as arrived. -/
structure Reply where
  status : Nat
  chunks : List Text.Utf8.Octets := []
  /-- The connection closed before the body had its announced length. -/
  cut : Bool := false
  deriving Repr, DecidableEq, Inhabited

def isHeaderValue (s : String) : Bool :=
  (Text.Utf8.encode s).all fun b => b == 9 || (32 ≤ b && b != 127)

def phrases : List (Nat × String) :=
  [(100, "Continue"), (101, "Switching Protocols"), (102, "Processing"),
    (200, "OK"), (201, "Created"), (202, "Accepted"), (203, "Non Authoritative Information"),
    (204, "No Content"), (205, "Reset Content"), (206, "Partial Content"), (207, "Multi-Status"),
    (208, "Already Reported"), (226, "IM Used"),
    (300, "Multiple Choices"), (301, "Moved Permanently"), (302, "Found"), (303, "See Other"),
    (304, "Not Modified"), (305, "Use Proxy"), (307, "Temporary Redirect"),
    (308, "Permanent Redirect"),
    (400, "Bad Request"), (401, "Unauthorized"), (402, "Payment Required"), (403, "Forbidden"),
    (404, "Not Found"), (405, "Method Not Allowed"), (406, "Not Acceptable"),
    (407, "Proxy Authentication Required"), (408, "Request Timeout"), (409, "Conflict"),
    (410, "Gone"), (411, "Length Required"), (412, "Precondition Failed"),
    (413, "Payload Too Large"), (414, "URI Too Long"), (415, "Unsupported Media Type"),
    (416, "Range Not Satisfiable"), (417, "Expectation Failed"), (418, "I'm a teapot"),
    (421, "Misdirected Request"), (422, "Unprocessable Entity"), (423, "Locked"),
    (424, "Failed Dependency"), (425, "Too Early"), (426, "Upgrade Required"),
    (428, "Precondition Required"), (429, "Too Many Requests"),
    (431, "Request Header Fields Too Large"), (451, "Unavailable For Legal Reasons"),
    (500, "Internal Server Error"), (501, "Not Implemented"), (502, "Bad Gateway"),
    (503, "Service Unavailable"), (504, "Gateway Timeout"), (505, "HTTP Version Not Supported"),
    (506, "Variant Also Negotiates"), (507, "Insufficient Storage"), (508, "Loop Detected"),
    (510, "Not Extended"), (511, "Network Authentication Required")]

/-- The usual words for a status, or else its number. -/
def phrase (status : Nat) : String := (phrases.lookup status).getD s!"HTTP {status}"

namespace Reply

def isSuccess (r : Reply) : Bool := 200 ≤ r.status && r.status < 300

def body (r : Reply) : Text.Utf8.Octets := r.chunks.flatten

end Reply

end TabBoard.Http
