import Tenure.Decimal.Layout
import Tenure.Json.Escape

/-!
# Documents

A document is kept as it is written: strings in their escaped form and numbers
digit by digit, so that nothing is lost or refused before someone asks for the
value.
-/

set_option autoImplicit false

namespace Tenure

/-- A document or a part of one. Keys are escaped like strings. -/
inductive Json where
  | null
  | bool (value : Bool)
  | number (lexeme : String)
  | string (lexeme : String)
  | array (items : List Json)
  | object (members : List (String × Json))

namespace Json

def ofText (text : String) : Json := .string (escape text)

def ofNat (value : Nat) : Json := .number (toString value)

/-- A float as a part of a document; what is no number becomes null. -/
def ofFloat (value : Float) : Json := .number (Decimal.documentFormat.write value)

/-- An object with the given names, which need no escapes, and values. -/
def ofFields (fields : List (String × Json)) : Json := .object fields

/-! ## Writing -/

mutual

def compactOnto (written : String) : Json → String
  | .null => written ++ "null"
  | .bool true => written ++ "true"
  | .bool false => written ++ "false"
  | .number lexeme => written ++ lexeme
  | .string lexeme => written ++ "\"" ++ lexeme ++ "\""
  | .array [] => written ++ "[]"
  | .array (item :: items) => compactItems (compactOnto (written ++ "[") item) items ++ "]"
  | .object [] => written ++ "\x7b\x7d"
  | .object ((key, value) :: members) =>
    compactMembers (compactOnto (written ++ "\x7b\"" ++ key ++ "\":") value) members ++ "\x7d"

def compactItems (written : String) : List Json → String
  | [] => written
  | item :: items => compactItems (compactOnto (written ++ ",") item) items

def compactMembers (written : String) : List (String × Json) → String
  | [] => written
  | (key, value) :: members =>
    compactMembers (compactOnto (written ++ ",\"" ++ key ++ "\":") value) members

end

def compact (document : Json) : String := document.compactOnto ""

/-- The start of a line at a depth of nesting: two spaces for each level. -/
def indent (depth : Nat) : String := "\n" ++ "".pushn ' ' (2 * depth)

mutual

/-- Writes a document with one item or member on a line, behind what was written before. -/
def prettyOnto (written : String) (depth : Nat) : Json → String
  | .null => written ++ "null"
  | .bool true => written ++ "true"
  | .bool false => written ++ "false"
  | .number lexeme => written ++ lexeme
  | .string lexeme => written ++ "\"" ++ lexeme ++ "\""
  | .array [] => written ++ "[]"
  | .array (item :: items) =>
    let first := prettyOnto (written ++ "[" ++ indent (depth + 1)) (depth + 1) item
    prettyItems first (depth + 1) items ++ indent depth ++ "]"
  | .object [] => written ++ "\x7b\x7d"
  | .object ((key, value) :: members) =>
    let opened := written ++ "\x7b" ++ indent (depth + 1) ++ "\"" ++ key ++ "\": "
    let first := prettyOnto opened (depth + 1) value
    prettyMembers first (depth + 1) members ++ indent depth ++ "\x7d"

/-- Writes the items after the first one, each on a line of its own. -/
def prettyItems (written : String) (depth : Nat) : List Json → String
  | [] => written
  | item :: items =>
    prettyItems (prettyOnto (written ++ "," ++ indent depth) depth item) depth items

/-- Writes the members after the first one, each on a line of its own. -/
def prettyMembers (written : String) (depth : Nat) : List (String × Json) → String
  | [] => written
  | (key, value) :: members =>
    let opened := written ++ "," ++ indent depth ++ "\"" ++ key ++ "\": "
    prettyMembers (prettyOnto opened depth value) depth members

end

def pretty (document : Json) : String := document.prettyOnto "" 0

/-! ## Values -/

def text? : Json → Option String
  | .string lexeme => unescape? lexeme
  | _ => none

def member? (document : Json) (name : String) : Option Json :=
  match document with
  | .object members => members.findSome? fun member =>
      if unescape? member.1 = some name then some member.2 else none
  | _ => none

end Json

end Tenure
