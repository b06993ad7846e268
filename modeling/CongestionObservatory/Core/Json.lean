import CongestionObservatory.Lib.OrdMap
import CongestionObservatory.Core.Limits
import CongestionObservatory.Core.Number

/-!
# `CongestionObservatory.Core.Json`: JSON values, their texts and the strict parser

`JsonValue` and `JsonObject` (`core/json.hpp`) are what the wire protocol and the exports are made
of. An object keeps its members in insertion order and finds a key through an index.

`dump` writes a value. `parseJson` reads one document. A parser is a function of a `Scanner`, the
text that is left and the number of values counted so far. The recursion of the source stops at
`max_json_depth`; here it runs on the number of levels that are left. A loop over items or members
takes at least a comma in each round, so the length of the text bounds its rounds.
-/

set_option autoImplicit false

namespace CongestionObservatory

open Lib

/-- `JsonValue`. An object is its members: the index is the one `reindex` builds. -/
inductive JsonValue where
  | null
  | bool (value : Bool)
  | int (value : Int64)
  | double (value : Double)
  | string (value : Text)
  | array (items : List JsonValue)
  | object (members : List (Text × JsonValue))

/-! ### Objects -/

/-- `JsonObject`. -/
structure JsonObject where
  members : List (Text × JsonValue) := []
  index : OrdMap Text Nat := OrdMap.empty

namespace JsonObject

/-- `JsonObject::reindex`: the index of the members. -/
def indexOf (members : List (Text × JsonValue)) : OrdMap Text Nat :=
  (members.zipIdx).foldl (fun index member => index.emplace member.1.1 member.2) OrdMap.empty

/-- `JsonObject::reindex`, where the sizes differ. -/
def reindexed (o : JsonObject) : JsonObject :=
  if o.index.size ≠ o.members.length then { o with index := indexOf o.members } else o

/-- The member is added behind the others. -/
def append (o : JsonObject) (key : Text) (value : JsonValue) : JsonObject :=
  { members := o.members ++ [(key, value)], index := o.index.emplace key o.members.length }

/-- `JsonObject::try_insert`: `none` where it returns `false`. -/
def tryInsert (o : JsonObject) (key : Text) (value : JsonValue) : Option JsonObject :=
  let o := o.reindexed
  if o.index.contains key then none else some (o.append key value)

/-- `JsonObject::set`. -/
def set (o : JsonObject) (key : Text) (value : JsonValue) : JsonObject :=
  let o := o.reindexed
  match o.index.find? key with
  | none => o.append key value
  | some i =>
    if i < o.members.length then
      { o with members := o.members.modify i (fun member => (member.1, value)) }
    else o.append key value

/-- `JsonObject::find`. -/
def find (o : JsonObject) (key : Text) : Option JsonValue :=
  if o.index.size ≠ o.members.length then none
  else match o.index.find? key with
  | none => none
  | some i => (o.members[i]?).map Prod.snd

/-- A sequence of calls of `set` on an empty object. -/
def ofMembers (members : List (Text × JsonValue)) : JsonObject :=
  members.foldl (fun o member => o.set member.1 member.2) {}

end JsonObject

namespace JsonValue

/-- The constructor from a `JsonObject`. -/
def ofObject (o : JsonObject) : JsonValue := .object o.members

/-- `JsonValue::is_object`. -/
def isObject : JsonValue → Bool
  | .object _ => true
  | _ => false

/-- `JsonValue::as_int`. -/
def asInt (fallback : Int64) : JsonValue → Int64
  | .int value => value
  | .double value => value.toInt64
  | _ => fallback

/-- `JsonValue::as_double`. -/
def asDouble (fallback : Double) : JsonValue → Double
  | .double value => value
  | .int value => Double.ofInt value.toInt
  | _ => fallback

/-- `JsonValue::as_string`. -/
def asString : JsonValue → Text
  | .string value => value
  | _ => []

/-- `JsonValue::member`. -/
def member (key : Text) : JsonValue → Option JsonValue
  | .object members => ({ members := members, index := JsonObject.indexOf members } :
      JsonObject).find key
  | _ => none

end JsonValue

/-! ### Writing -/

namespace Json

/-- `append_indent`. -/
def appendIndent (indent : Int) (level : Nat) : Text :=
  if indent ≤ 0 then [] else 0x0a :: List.replicate (indent * level).toNat 0x20

/-- `write_double`. -/
def writeDouble (value : Double) : Text := if value.isFinite then value.toChars else ascii "null"

/-- A lower case hexadecimal digit. -/
def hexDigit (n : Nat) : UInt8 := UInt8.ofNat (if n < 10 then 0x30 + n else 0x61 + (n - 10))

/-- The escape of one byte. -/
def escapeByte (c : UInt8) : Text :=
  if c = 0x22 then [0x5c, 0x22]
  else if c = 0x5c then [0x5c, 0x5c]
  else if c = 0x0a then [0x5c, 0x6e]
  else if c = 0x0d then [0x5c, 0x72]
  else if c = 0x09 then [0x5c, 0x74]
  else if c = 0x08 then [0x5c, 0x62]
  else if c = 0x0c then [0x5c, 0x66]
  else if c < 0x20 then
    [0x5c, 0x75, 0x30, 0x30, hexDigit (c.toNat / 16), hexDigit (c.toNat % 16)]
  else [c]

/-- `json_escape`. -/
def jsonEscape (text : Text) : Text := text.flatMap escapeByte

/-- A string between quotes. -/
def quoted (text : Text) : Text := 0x22 :: (jsonEscape text ++ [0x22])

mutual

/-- `write_value`. -/
def writeValue (indent : Int) (level : Nat) : JsonValue → Text
  | .null => ascii "null"
  | .bool value => if value then ascii "true" else ascii "false"
  | .int value => toCharsInt64 value
  | .double value => writeDouble value
  | .string value => quoted value
  | .array [] => ascii "[]"
  | .array (item :: items) =>
    0x5b :: (appendIndent indent (level + 1) ++ writeValue indent (level + 1) item
      ++ (writeItems indent (level + 1) items ++ (appendIndent indent level ++ [0x5d])))
  | .object [] => ascii "{}"
  | .object (member :: members) =>
    0x7b :: (appendIndent indent (level + 1) ++ writeMember indent (level + 1) member
      ++ (writeMembers indent (level + 1) members ++ (appendIndent indent level ++ [0x7d])))

/-- The items after the first one. -/
def writeItems (indent : Int) (level : Nat) : List JsonValue → Text
  | [] => []
  | item :: items =>
    0x2c :: (appendIndent indent level ++ writeValue indent level item
      ++ writeItems indent level items)

/-- A member: its key, a colon and its value. -/
def writeMember (indent : Int) (level : Nat) : Text × JsonValue → Text
  | (key, value) =>
    quoted key ++ 0x3a :: ((if indent > 0 then [0x20] else []) ++ writeValue indent level value)

/-- The members after the first one. -/
def writeMembers (indent : Int) (level : Nat) : List (Text × JsonValue) → Text
  | [] => []
  | member :: members =>
    0x2c :: (appendIndent indent level ++ writeMember indent level member
      ++ writeMembers indent level members)

end

end Json

/-- `JsonValue::dump`. -/
def JsonValue.dump (value : JsonValue) (indent : Int) : Text := Json.writeValue indent 0 value

namespace Json

/-! ### Scanning -/

/-- Where the parser stands: the text that is left and the values counted. -/
structure Scanner where
  rest : Text
  nodes : Nat := 0

/-- A parser of `α`. -/
abbrev JsonParser (α : Type) := StateT Scanner (Except Error) α

/-- The whitespace of JSON. -/
def isWhitespace (c : UInt8) : Bool := c == 0x20 || c == 0x09 || c == 0x0a || c == 0x0d

/-- `skip_whitespace`. -/
def skipWhitespace : JsonParser Unit := fun s =>
  .ok ((), { s with rest := s.rest.dropWhile isWhitespace })

/-- `peek`. -/
def peek : JsonParser UInt8 := fun s =>
  match s.rest with
  | [] => .error (makeError .invalidArgument "unexpected end of JSON input")
  | c :: _ => .ok (c, s)

/-- `++position_`. -/
def advance : JsonParser Unit := fun s => .ok ((), { s with rest := s.rest.drop 1 })

/-- The offset of the scanner in a text of `total` bytes, as the errors give it. -/
def offsetText (total : Nat) (s : Scanner) : Text :=
  ascii "offset=" ++ decimal (total - s.rest.length)

/-- `expect`. -/
def expect (total : Nat) (expected : UInt8) : JsonParser Unit := fun s =>
  match s.rest with
  | c :: rest =>
    if c = expected then .ok ((), { s with rest := rest })
    else .error (makeError .invalidArgument "unexpected JSON token"
      (ascii "expected=" ++ expected :: ascii " " ++ offsetText total s))
  | [] => .error (makeError .invalidArgument "unexpected JSON token"
      (ascii "expected=" ++ expected :: ascii " " ++ offsetText total s))

/-- `count_node`. -/
def countNode (limits : Limits) : JsonParser Unit := fun s =>
  if s.nodes + 1 > limits.maxJsonNodes then
    .error (makeError .limitExceeded "JSON node budget exhausted")
  else .ok ((), { s with nodes := s.nodes + 1 })

/-! ### Scalars -/

/-- `parse_literal`. -/
def parseLiteral (total : Nat) (literal : Text) (value : JsonValue) : JsonParser JsonValue :=
  fun s =>
    if s.rest.take literal.length = literal then
      .ok (value, { s with rest := s.rest.drop literal.length })
    else .error (makeError .invalidArgument "invalid JSON literal" (offsetText total s))

/-- A character that the number scanner takes behind a leading minus. -/
def isNumberChar (c : UInt8) : Bool :=
  isDigit c || c == 0x2e || c == 0x65 || c == 0x45 || c == 0x2b || c == 0x2d

/-- The value of a number token. The token is an integer when only digits follow its sign. -/
def readNumber (token digits : Text) : Result JsonValue :=
  if digits.all isDigit then
    match fromCharsInt64 token with
    | .ok value => .ok (.int value)
    | .error .resultOutOfRange =>
      .error (makeError .outOfRange "JSON integer literal out of range" token)
    | .error .invalidArgument => .error (makeError .invalidArgument "invalid JSON integer" token)
  else match Double.fromChars token with
  | none => .error (makeError .invalidArgument "invalid JSON number" token)
  | some value =>
    if value.isFinite then .ok (.double value)
    else .error (makeError .outOfRange "JSON number is not finite" token)

/-- `parse_number`. -/
def parseNumber (total : Nat) : JsonParser JsonValue := fun s =>
  let (negative, text) := splitSign s.rest
  let digits := text.takeWhile isNumberChar
  if digits.any isDigit then do
    let value ← readNumber (if negative then 0x2d :: digits else digits) digits
    pure (value, { s with rest := text.dropWhile isNumberChar })
  else .error (makeError .invalidArgument "invalid JSON number" (offsetText total s))

/-! ### Strings -/

/-- The value of a hexadecimal digit. -/
def hexValue (c : UInt8) : Option Nat :=
  if 0x30 ≤ c ∧ c ≤ 0x39 then some (c.toNat - 0x30)
  else if 0x61 ≤ c ∧ c ≤ 0x66 then some (c.toNat - 0x61 + 10)
  else if 0x41 ≤ c ∧ c ≤ 0x46 then some (c.toNat - 0x41 + 10)
  else none

/-- The loop of `parse_hex4`. -/
def hexNumber (digits : Text) : Result Nat :=
  match digits.mapM hexValue with
  | none => .error (makeError .invalidArgument "invalid hexadecimal digit in escape")
  | some values => .ok (values.foldl (fun v d => v * 16 + d) 0)

/-- The error of `parse_hex4` at the end of the text. -/
def truncatedEscape : Error := makeError .invalidArgument "truncated unicode escape"

/-- `append_utf8`. -/
def utf8 (codePoint : Nat) : Text :=
  if codePoint ≤ 0x7f then [UInt8.ofNat codePoint]
  else if codePoint ≤ 0x7ff then
    [UInt8.ofNat (0xc0 ||| codePoint >>> 6), UInt8.ofNat (0x80 ||| (codePoint &&& 0x3f))]
  else if codePoint ≤ 0xffff then
    [UInt8.ofNat (0xe0 ||| codePoint >>> 12), UInt8.ofNat (0x80 ||| (codePoint >>> 6 &&& 0x3f)),
      UInt8.ofNat (0x80 ||| (codePoint &&& 0x3f))]
  else
    [UInt8.ofNat (0xf0 ||| codePoint >>> 18), UInt8.ofNat (0x80 ||| (codePoint >>> 12 &&& 0x3f)),
      UInt8.ofNat (0x80 ||| (codePoint >>> 6 &&& 0x3f)), UInt8.ofNat (0x80 ||| (codePoint &&& 0x3f))]

/-- The escapes of one letter. -/
def unescape (c : UInt8) : Option UInt8 :=
  if c = 0x22 then some 0x22
  else if c = 0x5c then some 0x5c
  else if c = 0x2f then some 0x2f
  else if c = 0x62 then some 0x08
  else if c = 0x66 then some 0x0c
  else if c = 0x6e then some 0x0a
  else if c = 0x72 then some 0x0d
  else if c = 0x74 then some 0x09
  else none

/-- The bytes in front of those that the rest of a string gives. -/
def prepend (out : Text) (result : Result (Text × Text)) : Result (Text × Text) := do
  let (text, rest) ← result
  pure (out ++ text, rest)

/-- The loop of `parse_string` behind the opening quote: the bytes of the string and the text
behind its closing quote. -/
def stringBody : Text → Result (Text × Text)
  | [] => .error (makeError .invalidArgument "unterminated JSON string")
  | c :: rest =>
    if c = 0x22 then .ok ([], rest)
    else if c ≠ 0x5c then
      if c < 0x20 then .error (makeError .invalidArgument "control character in JSON string")
      else prepend [c] (stringBody rest)
    else match rest with
    | [] => .error (makeError .invalidArgument "unterminated JSON escape")
    | escape :: rest =>
      if escape = 0x75 then
        match rest with
        | a :: b :: c :: d :: rest =>
          match hexNumber [a, b, c, d] with
          | .error e => .error e
          | .ok value =>
            if 0xd800 ≤ value ∧ value ≤ 0xdbff then
              match rest with
              | slash :: u :: rest =>
                if slash ≠ 0x5c ∨ u ≠ 0x75 then
                  .error (makeError .invalidArgument "high surrogate without a low surrogate")
                else match rest with
                | a :: b :: c :: d :: rest =>
                  match hexNumber [a, b, c, d] with
                  | .error e => .error e
                  | .ok low =>
                    if low < 0xdc00 ∨ low > 0xdfff then
                      .error (makeError .invalidArgument "invalid low surrogate")
                    else prepend (utf8 (0x10000 + (value - 0xd800) * 1024 + (low - 0xdc00)))
                      (stringBody rest)
                | _ => .error truncatedEscape
              | _ => .error (makeError .invalidArgument "high surrogate without a low surrogate")
            else if 0xdc00 ≤ value ∧ value ≤ 0xdfff then
              .error (makeError .invalidArgument "unexpected low surrogate")
            else prepend (utf8 value) (stringBody rest)
        | _ => .error truncatedEscape
      else match unescape escape with
      | none => .error (makeError .invalidArgument "unknown JSON escape sequence")
      | some c => prepend [c] (stringBody rest)

/-- `parse_string`. -/
def parseString (total : Nat) : JsonParser Text := do
  expect total 0x22
  fun s => do
    let (text, rest) ← stringBody s.rest
    pure (text, { s with rest := rest })

/-! ### Arrays, objects and documents -/

section

variable (total : Nat) (value : JsonParser JsonValue)

/-- The loop of `parse_array`. -/
def parseItems : Nat → List JsonValue → JsonParser JsonValue
  | 0, _ => throw (makeError .internal "unreachable: an item without its comma")
  | rounds + 1, items => do
    skipWhitespace
    let item ← value
    skipWhitespace
    let token ← peek
    if token = 0x2c then
      advance
      parseItems rounds (items ++ [item])
    else if token = 0x5d then
      advance
      pure (.array (items ++ [item]))
    else throw (makeError .invalidArgument "expected a comma or array terminator")

/-- `parse_array`. -/
def parseArray : JsonParser JsonValue := do
  expect total 0x5b
  skipWhitespace
  let next ← peek
  if next = 0x5d then
    advance
    pure (.array [])
  else fun s => parseItems value s.rest.length [] s

/-- The loop of `parse_object`. -/
def parseMembers : Nat → JsonObject → JsonParser JsonValue
  | 0, _ => throw (makeError .internal "unreachable: a member without its comma")
  | rounds + 1, object => do
    skipWhitespace
    let key ← parseString total
    skipWhitespace
    expect total 0x3a
    skipWhitespace
    let member ← value
    match object.tryInsert key member with
    | none => throw (makeError .invalidArgument "duplicate JSON object key")
    | some object =>
      skipWhitespace
      let token ← peek
      if token = 0x2c then
        advance
        parseMembers rounds object
      else if token = 0x7d then
        advance
        pure (.ofObject object)
      else throw (makeError .invalidArgument "expected a comma or object terminator")

/-- `parse_object`. -/
def parseObject : JsonParser JsonValue := do
  expect total 0x7b
  skipWhitespace
  let next ← peek
  if next = 0x7d then
    advance
    pure (.object [])
  else fun s => parseMembers total value s.rest.length {} s

end

/-- `parse_value`, with the number of levels that are left. -/
def parseValue (limits : Limits) (total : Nat) : Nat → JsonParser JsonValue
  | 0 => throw (makeError .limitExceeded "JSON nesting depth exceeded")
  | levels + 1 => do
    countNode limits
    let next ← peek
    if next = 0x7b then parseObject total (parseValue limits total levels)
    else if next = 0x5b then parseArray total (parseValue limits total levels)
    else if next = 0x22 then JsonValue.string <$> parseString total
    else if next = 0x74 then parseLiteral total (ascii "true") (.bool true)
    else if next = 0x66 then parseLiteral total (ascii "false") (.bool false)
    else if next = 0x6e then parseLiteral total (ascii "null") .null
    else parseNumber total

/-- A value between whitespace. -/
def document (limits : Limits) (total levels : Nat) : JsonParser JsonValue := do
  skipWhitespace
  let value ← parseValue limits total levels
  skipWhitespace
  pure value

end Json

/-- The levels that `depth > static_cast<int>(max_json_depth)` admits. The bound is a
`std::size_t` and loses its upper bits in the cast. -/
def Limits.jsonLevels (limits : Limits) : Nat := ((Int32.ofNat limits.maxJsonDepth).toInt + 1).toNat

/-- `parse_json`. -/
def parseJson (text : Text) (limits : Limits) : Result JsonValue := do
  failIf (text.length > limits.maxDocumentBytes)
    (makeError .limitExceeded "document exceeds the configured size bound"
      (ascii "bytes=" ++ decimal text.length))
  let (value, s) ← Json.document limits text.length limits.jsonLevels { rest := text }
  failIf (s.rest ≠ [])
    (makeError .invalidArgument "trailing content after the JSON document"
      (Json.offsetText text.length s))
  pure value

end CongestionObservatory
