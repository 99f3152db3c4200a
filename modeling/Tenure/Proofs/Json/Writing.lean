import Tenure.Json.Reader
import Tenure.Proofs.Json.Numbers

/-!
# Documents are read as they were written

A written document is taken apart into its tokens again, whatever was written before it, and
the tokens are put together to the same document. The only place where one token could run
into the next is the end of a number, and there a mark or a blank follows.
-/

set_option autoImplicit false

namespace Tenure.Json

open Tenure.Decimal

/-- A text that may stand between quotation marks: it ends where the mark behind it does. -/
def IsString (lexeme : String) : Prop :=
  spanString? (lexeme.toList ++ ['"']) = some (lexeme.toList, [])

mutual

/-- The numbers and strings of a document are written as such. -/
def Readable : Json → Prop
  | .null => True
  | .bool _ => True
  | .number lexeme => IsNumber lexeme.toList
  | .string lexeme => IsString lexeme
  | .array items => ReadableItems items
  | .object members => ReadableMembers members

def ReadableItems : List Json → Prop
  | [] => True
  | item :: items => Readable item ∧ ReadableItems items

def ReadableMembers : List (String × Json) → Prop
  | [] => True
  | (key, value) :: members => IsString key ∧ Readable value ∧ ReadableMembers members

end

mutual

/-- The tokens of a document, from first to last. -/
def tokens : Json → List Token
  | .null => [.null]
  | .bool value => [.bool value]
  | .number lexeme => [.number lexeme]
  | .string lexeme => [.string lexeme]
  | .array [] => [.openBracket, .closeBracket]
  | .array (item :: items) => [.openBracket] ++ tokens item ++ itemTokens items ++ [.closeBracket]
  | .object [] => [.openBrace, .closeBrace]
  | .object ((key, value) :: members) =>
    [.openBrace] ++ [.string key, .colon] ++ tokens value ++ memberTokens members ++ [.closeBrace]

/-- The tokens of the items after the first one. -/
def itemTokens : List Json → List Token
  | [] => []
  | item :: items => [.comma] ++ tokens item ++ itemTokens items

/-- The tokens of the members after the first one. -/
def memberTokens : List (String × Json) → List Token
  | [] => []
  | (key, value) :: members =>
    [.comma] ++ [.string key, .colon] ++ tokens value ++ memberTokens members

end

/-! ## Tokens -/

theorem tokens?_blank {character : Char} (blank : isBlank character = true) (rest : List Char) :
    tokens? (character :: rest) = tokens? rest := by
  rw [tokens?, if_pos blank]

theorem tokens?_token {character : Char} {others rest : List Char} {token : Token}
    (visible : isBlank character = false)
    (scanned : Token.scan? (character :: others) = some (token, rest)) :
    tokens? (character :: others) = (tokens? rest).map (token :: ·) := by
  rw [tokens?, visible, if_neg Bool.false_ne_true]
  split
  · rename_i failed
    rw [scanned] at failed
    cases failed
  · rename_i found
    rw [scanned] at found
    cases found
    rfl

/-- What follows a string does not matter for where it ends. -/
theorem spanString?_append {input inner others : List Char}
    (scanned : spanString? input = some (inner, others)) (rest : List Char) :
    spanString? (input ++ rest) = some (inner, others ++ rest) := by
  fun_induction spanString? input generalizing inner others with
  | case1 => cases scanned
  | case2 later =>
      cases scanned
      rfl
  | case3 a b c d later isUnit ih =>
      rw [Option.map_eq_some_iff] at scanned
      obtain ⟨⟨before, after⟩, found, same⟩ := scanned
      cases same
      simp only [List.cons_append]
      rw [spanString?, if_pos isUnit, ih found]
      rfl
  | case4 => cases scanned
  | case5 character later _ isEscape ih =>
      rw [Option.map_eq_some_iff] at scanned
      obtain ⟨⟨before, after⟩, found, same⟩ := scanned
      cases same
      simp only [List.cons_append]
      rw [spanString?, if_pos isEscape, ih found]
      · rfl
      · rintro a b c d more rfl
        cases isEscape
  | case6 => cases scanned
  | case7 => cases scanned
  | case8 character later unquoted _ _ plain ih =>
      rw [Option.map_eq_some_iff] at scanned
      obtain ⟨⟨before, after⟩, found, same⟩ := scanned
      cases same
      have unescaped : character ≠ '\\' := by
        rintro rfl
        exact plain rfl
      simp only [List.cons_append]
      rw [spanString?, if_neg plain, ih found]
      · rfl
      · exact unquoted
      · exact fun _ _ _ _ _ same _ => unescaped same
      · exact fun _ _ same _ => unescaped same

/-! ## From a text to its tokens -/

/-- Whatever comes behind the text, these are the tokens in front. -/
def Lexes (written : String) (front : List Token) : Prop :=
  ∀ rest, tokens? (written.toList ++ rest) = (tokens? rest).map (front ++ ·)

/-- The same, as long as nothing prolongs a number at the end of the text. -/
def Settles (written : String) (front : List Token) : Prop :=
  ∀ rest, EndsNumber rest → tokens? (written.toList ++ rest) = (tokens? rest).map (front ++ ·)

variable {written more : String} {front others : List Token}

theorem lexes_empty : Lexes "" [] := by
  intro rest
  simp

theorem Lexes.settles (lexes : Lexes written front) : Settles written front :=
  fun rest _ => lexes rest

theorem Lexes.append (lexes : Lexes written front) (next : Lexes more others) :
    Lexes (written ++ more) (front ++ others) := by
  intro rest
  rw [String.toList_append, List.append_assoc, lexes, next, Option.map_map]
  simp [Function.comp_def]

theorem Lexes.append_settles (lexes : Lexes written front) (next : Settles more others) :
    Settles (written ++ more) (front ++ others) := by
  intro rest ends
  rw [String.toList_append, List.append_assoc, lexes, next rest ends, Option.map_map]
  simp [Function.comp_def]

/-- A character other than those of numbers makes an end of them. -/
theorem endsNumber_cons {character : Char} (noDigit : digit? character = none)
    (other : character ≠ '.' ∧ character ≠ 'e' ∧ character ≠ 'E') (rest : List Char) :
    EndsNumber (character :: rest) where
  noDigit := by
    rintro first ⟨⟩
    exact noDigit
  noPoint := by simpa using other.1
  noPower := by simpa using other.2

theorem endsNumber_nil : EndsNumber [] := ⟨by simp [NoDigit], by simp, by simp⟩

theorem Settles.append (settles : Settles written front) (next : Lexes more others)
    (ends : ∀ rest, EndsNumber (more.toList ++ rest)) :
    Lexes (written ++ more) (front ++ others) := by
  intro rest
  rw [String.toList_append, List.append_assoc, settles _ (ends rest), next, Option.map_map]
  simp [Function.comp_def]

theorem lexes_token (text : String) {character : Char} {chars : List Char} {token : Token}
    (starts : text.toList = character :: chars) (visible : isBlank character = false)
    (scanned : ∀ rest, Token.scan? (text.toList ++ rest) = some (token, rest)) :
    Lexes text [token] := by
  intro rest
  have found := scanned rest
  rw [starts, List.cons_append] at found ⊢
  rw [tokens?_token visible found]
  rfl

theorem lexes_blanks (text : String)
    (blanks : ∀ character ∈ text.toList, isBlank character = true) :
    Lexes text [] := by
  intro rest
  have skips : tokens? (text.toList ++ rest) = tokens? rest := by
    generalize text.toList = chars at blanks
    induction chars with
    | nil => rfl
    | cons character chars ih =>
        rw [List.cons_append, tokens?_blank (blanks character List.mem_cons_self)]
        exact ih fun other member => blanks other (List.mem_cons_of_mem _ member)
  rw [skips]
  simp

theorem lexes_indent (depth : Nat) : Lexes (indent depth) [] := by
  refine lexes_blanks _ fun character member => ?_
  rw [indent, String.toList_append, toList_pushn] at member
  rcases List.mem_append.mp member with newline | space
  · rw [List.mem_singleton.mp newline]
    rfl
  · rw [List.eq_of_mem_replicate space]
    rfl

theorem Lexes.newline (lexes : Lexes written front) (depth : Nat) :
    Lexes (written ++ indent depth) front := by
  simpa using lexes.append (lexes_indent depth)

theorem Settles.newline (settles : Settles written front) (depth : Nat) :
    Lexes (written ++ indent depth) front := by
  have ended : Lexes (written ++ indent depth) (front ++ []) := by
    refine settles.append (lexes_indent depth) fun rest => ?_
    rw [indent, String.toList_append]
    exact endsNumber_cons rfl (by decide) _
  rwa [List.append_nil] at ended

theorem Settles.comma (settles : Settles written front) :
    Lexes (written ++ ",") (front ++ [.comma]) :=
  settles.append (lexes_token _ rfl rfl fun _ => rfl) fun _ => endsNumber_cons rfl (by decide) _

theorem scan?_string {lexeme : String} (isString : IsString lexeme) (rest : List Char) :
    Token.scan? ('"' :: (lexeme.toList ++ '"' :: rest)) = some (.string lexeme, rest) := by
  have spanned := spanString?_append isString rest
  rw [List.append_assoc, List.nil_append, List.cons_append, List.nil_append] at spanned
  rw [Token.scan?, spanned]
  simp

theorem lexes_string {lexeme : String} (isString : IsString lexeme) :
    Lexes ("\"" ++ lexeme ++ "\"") [.string lexeme] := by
  have starts : ("\"" ++ lexeme ++ "\"").toList = '"' :: (lexeme.toList ++ ['"']) := by
    simp [String.toList_append]
  refine lexes_token _ starts rfl fun rest => ?_
  rw [starts]
  simpa using scan?_string isString rest

theorem Lexes.key (lexes : Lexes written front) {key : String} (isString : IsString key) :
    Lexes (written ++ "\"" ++ key ++ "\": ") (front ++ [.string key, .colon]) := by
  have blank : Lexes " " [] := by
    refine lexes_blanks " " fun character member => ?_
    rw [List.mem_singleton.mp member]
    rfl
  have colon : Lexes ": " [.colon] := (lexes_token ":" rfl rfl fun _ => rfl).append blank
  have parts := lexes.append ((lexes_string isString).append colon)
  have order : "\"" ++ key ++ "\"" ++ ": " = "\"" ++ (key ++ "\": ") := by
    simp only [String.append_assoc]
    rfl
  rw [order, ← String.append_assoc, ← String.append_assoc] at parts
  exact parts

theorem not_blank_of_digit {character : Char} (digit : (digit? character).isSome = true) :
    isBlank character = false := by
  rw [← Bool.not_eq_true]
  intro blank
  simp only [isBlank, Bool.or_eq_true, decide_eq_true_eq] at blank
  rcases blank with ((rfl | rfl) | rfl) | rfl <;> cases digit

theorem settles_number {lexeme : String} (isNumber : IsNumber lexeme.toList) :
    Settles lexeme [.number lexeme] := by
  intro rest ends
  have scanned := scan?_number isNumber ends
  obtain ⟨first, others, split, starts⟩ := isNumber.exists_first
  have visible : isBlank first = false := by
    rcases starts with rfl | digit
    · rfl
    · exact not_blank_of_digit digit
  rw [String.ofList_toList, split, List.cons_append] at scanned
  rw [split, List.cons_append, tokens?_token visible scanned]
  rfl

/-! ## Written documents -/

mutual

/-- A document that is written behind a text adds its tokens. -/
theorem settles_prettyOnto {written : String} {front : List Token}
    (lexes : Lexes written front) (depth : Nat) : (document : Json) → document.Readable →
      Settles (prettyOnto written depth document) (front ++ document.tokens)
  | .null, _ => by
    rw [prettyOnto, tokens]
    exact (lexes.append (lexes_token _ rfl rfl fun _ => rfl)).settles
  | .bool true, _ => by
    rw [prettyOnto, tokens]
    exact (lexes.append (lexes_token _ rfl rfl fun _ => rfl)).settles
  | .bool false, _ => by
    rw [prettyOnto, tokens]
    exact (lexes.append (lexes_token _ rfl rfl fun _ => rfl)).settles
  | .number lexeme, readable => by
    rw [prettyOnto, tokens]
    exact lexes.append_settles (settles_number readable)
  | .string lexeme, readable => by
    have added := (lexes.append (lexes_string readable)).settles
    rw [← String.append_assoc, ← String.append_assoc] at added
    rw [prettyOnto, tokens]
    exact added
  | .array [], _ => by
    have opened := lexes.append (lexes_token "[" rfl rfl fun _ => rfl)
    have closed := opened.append (lexes_token "]" rfl rfl fun _ => rfl)
    rw [String.append_assoc, List.append_assoc] at closed
    rw [prettyOnto, tokens]
    exact closed.settles
  | .array (item :: items), readable => by
    have opened := (lexes.append (lexes_token "[" rfl rfl fun _ => rfl)).newline
      (depth + 1)
    have first := settles_prettyOnto opened (depth + 1) item readable.1
    have later := settles_prettyItems first (depth + 1) items readable.2
    have closed := (later.newline depth).append (lexes_token "]" rfl rfl fun _ => rfl)
    rw [prettyOnto, tokens]
    simpa only [List.append_assoc] using closed.settles
  | .object [], _ => by
    have opened := lexes.append (lexes_token "\x7b" rfl rfl fun _ => rfl)
    have closed := opened.append (lexes_token "\x7d" rfl rfl fun _ => rfl)
    rw [String.append_assoc, List.append_assoc] at closed
    rw [prettyOnto, tokens]
    exact closed.settles
  | .object ((key, value) :: members), readable => by
    obtain ⟨isString, readable, others⟩ := readable
    have opened := (lexes.append (lexes_token "\x7b" rfl rfl fun _ => rfl)).newline
      (depth + 1)
    have first := settles_prettyOnto (opened.key isString) (depth + 1) value readable
    have later := settles_prettyMembers first (depth + 1) members others
    have closed := (later.newline depth).append (lexes_token "\x7d" rfl rfl fun _ => rfl)
    rw [prettyOnto, tokens]
    simpa only [List.append_assoc] using closed.settles

theorem settles_prettyItems {written : String} {front : List Token}
    (settles : Settles written front) (depth : Nat) : (items : List Json) → ReadableItems items →
      Settles (prettyItems written depth items) (front ++ itemTokens items)
  | [], _ => by
    rw [prettyItems, itemTokens, List.append_nil]
    exact settles
  | item :: items, readable => by
    have next := settles_prettyOnto (settles.comma.newline depth) depth item readable.1
    have later := settles_prettyItems next depth items readable.2
    rw [prettyItems, itemTokens]
    simpa only [List.append_assoc] using later

theorem settles_prettyMembers {written : String} {front : List Token}
    (settles : Settles written front) (depth : Nat) :
    (members : List (String × Json)) → ReadableMembers members →
      Settles (prettyMembers written depth members) (front ++ memberTokens members)
  | [], _ => by
    rw [prettyMembers, memberTokens, List.append_nil]
    exact settles
  | (key, value) :: members, readable => by
    obtain ⟨isString, readable, others⟩ := readable
    have next :=
      settles_prettyOnto ((settles.comma.newline depth).key isString) depth value readable
    have later := settles_prettyMembers next depth members others
    rw [prettyMembers, memberTokens]
    simpa only [List.append_assoc] using later

end

/-! ## From the tokens to the document -/

mutual

theorem assemble?_tokens (mayClose : Bool) (stack : List Frame) (rest : List Token) :
    (document : Json) → assemble? (.value mayClose) stack (document.tokens ++ rest) =
      assemble? (.after document) stack rest
  | .null => by
    rw [tokens, List.singleton_append, assemble?]
  | .bool value => by
    rw [tokens, List.singleton_append, assemble?]
  | .number lexeme => by
    rw [tokens, List.singleton_append, assemble?]
  | .string lexeme => by
    rw [tokens, List.singleton_append, assemble?]
  | .array [] => by
    rw [tokens, List.cons_append, List.singleton_append, assemble?, assemble?]
  | .array (item :: items) => by
    have first := assemble?_tokens true (.array [] :: stack)
      (itemTokens items ++ .closeBracket :: rest) item
    have later := assemble?_itemTokens [] item stack rest items
    rw [tokens]
    simp only [List.append_assoc, List.cons_append, List.nil_append, assemble?]
    rw [first, later]
    rfl
  | .object [] => by
    rw [tokens, List.cons_append, List.singleton_append, assemble?, assemble?]
  | .object ((key, value) :: members) => by
    have first := assemble?_tokens false (.object [] key :: stack)
      (memberTokens members ++ .closeBrace :: rest) value
    have later := assemble?_memberTokens [] key value stack rest members
    rw [tokens]
    simp only [List.append_assoc, List.cons_append, List.nil_append, assemble?]
    rw [first, later]
    rfl

theorem assemble?_itemTokens (seen : List Json) (last : Json) (stack : List Frame)
    (rest : List Token) : (items : List Json) →
      assemble? (.after last) (.array seen :: stack)
          (itemTokens items ++ .closeBracket :: rest) =
        assemble? (.after (.array (seen.reverse ++ last :: items))) stack rest
  | [] => by
    rw [itemTokens, List.nil_append, assemble?, List.reverse_cons]
  | item :: items => by
    have next := assemble?_tokens false (.array (last :: seen) :: stack)
      (itemTokens items ++ .closeBracket :: rest) item
    have later := assemble?_itemTokens (last :: seen) item stack rest items
    rw [itemTokens]
    simp only [List.append_assoc, List.cons_append, List.nil_append, assemble?]
    rw [next, later, List.reverse_cons, List.append_assoc]
    rfl

theorem assemble?_memberTokens (seen : List (String × Json)) (key : String) (last : Json)
    (stack : List Frame) (rest : List Token) : (members : List (String × Json)) →
      assemble? (.after last) (.object seen key :: stack)
          (memberTokens members ++ .closeBrace :: rest) =
        assemble? (.after (.object (seen.reverse ++ (key, last) :: members))) stack rest
  | [] => by
    rw [memberTokens, List.nil_append, assemble?, List.reverse_cons]
  | (other, value) :: members => by
    have next := assemble?_tokens false (.object ((key, last) :: seen) other :: stack)
      (memberTokens members ++ .closeBrace :: rest) value
    have later := assemble?_memberTokens ((key, last) :: seen) other value stack rest members
    rw [memberTokens]
    simp only [List.append_assoc, List.cons_append, List.nil_append, assemble?]
    rw [next, later, List.reverse_cons, List.append_assoc]
    rfl

end

/-- A document whose numbers and strings are written as such is read as it is. -/
theorem read?_pretty {document : Json} (readable : document.Readable) :
    read? document.pretty = some document := by
  have lexed := settles_prettyOnto lexes_empty 0 document readable [] endsNumber_nil
  have assembled := assemble?_tokens false [] [] document
  rw [List.append_nil] at lexed assembled
  rw [read?, pretty, lexed, tokens?]
  simpa [assemble?] using assembled

end Tenure.Json
