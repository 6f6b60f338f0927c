import TabBoard.Text.Blank
import TabBoard.Text.Percent

/-!
# Form encoding

The pairs of a query: `&` between pairs, `=` between name and value, `+` for a space. Reading drops
empty pieces, takes a missing `=` for an empty value and puts U+FFFD where octets spell no
character. Writing encodes everything but letters, digits and four marks.
-/

namespace TabBoard.Form

open Text.Utf8 (Octets)

/-- The text that a piece of a query stands for. -/
def decodePiece (cs : List Char) : String :=
  let spaced := cs.map fun c => if c = '+' then ' ' else c
  Text.Utf8.decodeLossy (Text.Percent.decode (Text.Utf8.encode (String.ofList spaced)))

/-- The name and the value that a piece of a query stands for. -/
def decodePair (cs : List Char) : String × String :=
  match Text.splitOnce '=' cs with
  | some (name, value) => (decodePiece name, decodePiece value)
  | none => (decodePiece cs, "")

def pairs (query : String) : List (String × String) :=
  ((Text.splitAll '&' query.toList).filter (!·.isEmpty)).map decodePair

def isPlain (c : Char) : Bool := c.isAlphanum || c == '*' || c == '-' || c == '.' || c == '_'

def encodePiece (s : String) : List Char :=
  (Text.Percent.encode (fun c => !isPlain c && c != ' ') s.toList).map
    fun c => if c = ' ' then '+' else c

def encodePair (p : String × String) : List Char := encodePiece p.1 ++ '=' :: encodePiece p.2

def encode (ps : List (String × String)) : String :=
  String.ofList (List.intercalate ['&'] (ps.map encodePair))

end TabBoard.Form
