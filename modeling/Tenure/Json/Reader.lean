import Tenure.Json
import Tenure.Json.Token

/-!
# Reading documents

Tokens are put together one by one. What is still open is kept on a stack, so
documents may be nested to any depth.
-/

set_option autoImplicit false

namespace Tenure.Json

/-- An array or object that is not closed yet, its parts in reverse. -/
inductive Frame where
  | array (items : List Json)
  | object (members : List (String × Json)) (key : String)

/-- What may come next. -/
inductive Stage where
  /-- A value; the bracket may also close if nothing stands in it yet. -/
  | value (mayClose : Bool)
  /-- A key of the object with these members; it may close if it has none. -/
  | key (members : List (String × Json)) (mayClose : Bool)
  | colon (members : List (String × Json)) (key : String)
  | after (value : Json)

/-- Puts tokens together from a stage on; the document must end with them. -/
def assemble? : Stage → List Frame → List Token → Option Json
  | .after value, [], [] => some value
  | .after value, .array items :: stack, .comma :: rest =>
      assemble? (.value false) (.array (value :: items) :: stack) rest
  | .after value, .array items :: stack, .closeBracket :: rest =>
      assemble? (.after (.array (value :: items).reverse)) stack rest
  | .after value, .object members key :: stack, .comma :: rest =>
      assemble? (.key ((key, value) :: members) false) stack rest
  | .after value, .object members key :: stack, .closeBrace :: rest =>
      assemble? (.after (.object ((key, value) :: members).reverse)) stack rest
  | .value _, stack, .null :: rest => assemble? (.after .null) stack rest
  | .value _, stack, .bool value :: rest => assemble? (.after (.bool value)) stack rest
  | .value _, stack, .number lexeme :: rest => assemble? (.after (.number lexeme)) stack rest
  | .value _, stack, .string lexeme :: rest => assemble? (.after (.string lexeme)) stack rest
  | .value _, stack, .openBracket :: rest => assemble? (.value true) (.array [] :: stack) rest
  | .value _, stack, .openBrace :: rest => assemble? (.key [] true) stack rest
  | .value true, .array [] :: stack, .closeBracket :: rest =>
      assemble? (.after (.array [])) stack rest
  | .key members _, stack, .string key :: rest => assemble? (.colon members key) stack rest
  | .key [] true, stack, .closeBrace :: rest => assemble? (.after (.object [])) stack rest
  | .colon members key, stack, .colon :: rest =>
      assemble? (.value false) (.object members key :: stack) rest
  | _, _, _ => none

/-- Reads a document; nothing but blanks may stand around it. -/
def read? (text : String) : Option Json := do
  let tokens ← tokens? text.toList
  assemble? (.value false) [] tokens

end Tenure.Json
