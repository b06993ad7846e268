import CongestionObservatory.Core.Json

/-!
# `CongestionObservatory.Core.JsonGrammar`: what a JSON document is

The header of `core/json.hpp` promises a strict parser: "The input must be a single well formed
JSON document". This module says what that is, after the grammar of RFC 8259. A relation of the
grammar takes a text and leaves a text: `Derives number (.value v) text rest` says that `text`
starts with a value `v` and goes on with `rest`.

Two things are not the RFC's. Bytes from `0x20` on are taken as they are inside strings, so the
encoding of the text plays no part. And what counts as a number is a parameter: `IsNumber` is the
rule of the grammar.

`words` cuts out of a text what stands outside its strings and between its punctuation.
-/

set_option autoImplicit false

namespace CongestionObservatory

namespace Json.Grammar

/-! ### Whitespace and numbers -/

/-- `ws`. -/
inductive Ws : Text → Text → Prop
  | nil {t : Text} : Ws t t
  | cons {c : UInt8} {t rest : Text} (hc : c ∈ [0x20, 0x09, 0x0a, 0x0d]) (h : Ws t rest) :
      Ws (c :: t) rest

/-- `1*DIGIT`. -/
def IsDigits (t : Text) : Prop := t ≠ [] ∧ ∀ c ∈ t, 0x30 ≤ c ∧ c ≤ 0x39

/-- `int`: a zero, or digits that start with another digit. -/
def IsInt (t : Text) : Prop := t = [0x30] ∨ IsDigits t ∧ t.head? ≠ some 0x30

/-- `frac`. -/
def IsFrac (t : Text) : Prop := ∃ digits, t = 0x2e :: digits ∧ IsDigits digits

/-- `exp`. -/
def IsExp (t : Text) : Prop :=
  ∃ e sign digits, t = e :: (sign ++ digits) ∧ (e = 0x65 ∨ e = 0x45) ∧
    (sign = [] ∨ sign = [0x2d] ∨ sign = [0x2b]) ∧ IsDigits digits

/-- `number = [ minus ] int [ frac ] [ exp ]`. -/
def IsNumber (t : Text) : Prop :=
  ∃ minus int frac exp, t = minus ++ (int ++ (frac ++ exp)) ∧ (minus = [] ∨ minus = [0x2d]) ∧
    IsInt int ∧ (frac = [] ∨ IsFrac frac) ∧ (exp = [] ∨ IsExp exp)

/-! ### Strings -/

/-- The letters that stand behind a backslash, and what they stand for: a quotation mark, a reverse
solidus, a solidus, a backspace, a form feed, a line feed, a carriage return and a tab. -/
def escapes : List (UInt8 × UInt8) :=
  [(0x22, 0x22), (0x5c, 0x5c), (0x2f, 0x2f), (0x62, 0x08), (0x66, 0x0c), (0x6e, 0x0a), (0x72, 0x0d),
    (0x74, 0x09)]

/-- `HEXDIG`, and the value of the digit. -/
inductive HexDigit : UInt8 → Nat → Prop
  | digit {c : UInt8} (hlow : 0x30 ≤ c) (hhigh : c ≤ 0x39) : HexDigit c (c.toNat - 0x30)
  | lower {c : UInt8} (hlow : 0x61 ≤ c) (hhigh : c ≤ 0x66) : HexDigit c (c.toNat - 0x61 + 10)
  | upper {c : UInt8} (hlow : 0x41 ≤ c) (hhigh : c ≤ 0x46) : HexDigit c (c.toNat - 0x41 + 10)

/-- An escape `\uXXXX` of the number. -/
def IsUnicode (number : Nat) (t rest : Text) : Prop :=
  ∃ a b c d w x y z, t = 0x5c :: 0x75 :: a :: b :: c :: d :: rest ∧ HexDigit a w ∧ HexDigit b x ∧
    HexDigit c y ∧ HexDigit d z ∧ number = w * 4096 + x * 256 + y * 16 + z

/-- The number is a high surrogate. -/
def IsHigh (number : Nat) : Prop := 0xd800 ≤ number ∧ number ≤ 0xdbff

/-- The number is a low surrogate. -/
def IsLow (number : Nat) : Prop := 0xdc00 ≤ number ∧ number ≤ 0xdfff

/-- `*char`, and the bytes that the characters stand for. -/
inductive Chars : Text → Text → Text → Prop
  | nil {t : Text} : Chars t [] t
  | unescaped {c : UInt8} {t s rest : Text} (hc : 0x20 ≤ c) (hquote : c ≠ 0x22)
      (hslash : c ≠ 0x5c) (h : Chars t s rest) : Chars (c :: t) (c :: s) rest
  | escaped {e c : UInt8} {t s rest : Text} (he : (e, c) ∈ escapes) (h : Chars t s rest) :
      Chars (0x5c :: e :: t) (c :: s) rest
  | unicode {number : Nat} {t t' s rest : Text} (hnumber : IsUnicode number t t')
      (hhigh : ¬ IsHigh number) (h : Chars t' s rest) : Chars t (utf8 number ++ s) rest
  | surrogates {high low : Nat} {t t' t'' s rest : Text} (hhigh : IsUnicode high t t')
      (hlow : IsUnicode low t' t'') (hh : IsHigh high) (hl : IsLow low) (h : Chars t'' s rest) :
      Chars t (utf8 (0x10000 + (high - 0xd800) * 1024 + (low - 0xdc00)) ++ s) rest
  | loneSurrogate {high : Nat} {t t' s rest : Text} (hhigh : IsUnicode high t t')
      (hh : IsHigh high) (hlone : ∀ low t'', IsUnicode low t' t'' → ¬ IsLow low)
      (h : Chars t' s rest) : Chars t (utf8 high ++ s) rest

/-- `string`. -/
def StringLit (t s rest : Text) : Prop := ∃ t', t = 0x22 :: t' ∧ Chars t' s (0x22 :: rest)

/-! ### Values -/

/-- What a part of a text is: a value, or one of the lists inside brackets. An element is a value
between whitespace. -/
inductive Phrase where
  | value (v : JsonValue)
  | element (v : JsonValue)
  | elements (items : List JsonValue)
  | member (member : Text × JsonValue)
  | members (members : List (Text × JsonValue))

/-- The value is a number. -/
def isNumeric : JsonValue → Bool
  | .int _ | .double _ => true
  | _ => false

/-- `value`, and the lists of `array` and `object`. No object has two members with one name. -/
inductive Derives (number : Text → Prop) : Phrase → Text → Text → Prop
  | literalNull {rest : Text} : Derives number (.value .null) (ascii "null" ++ rest) rest
  | literalTrue {rest : Text} : Derives number (.value (.bool true)) (ascii "true" ++ rest) rest
  | literalFalse {rest : Text} : Derives number (.value (.bool false)) (ascii "false" ++ rest) rest
  | number {t rest : Text} {v : JsonValue} (ht : number t) (hv : isNumeric v = true) :
      Derives number (.value v) (t ++ rest) rest
  | string {t s rest : Text} (h : StringLit t s rest) : Derives number (.value (.string s)) t rest
  | emptyArray {t rest : Text} (h : Ws t (0x5d :: rest)) :
      Derives number (.value (.array [])) (0x5b :: t) rest
  | array {t rest : Text} {items : List JsonValue}
      (h : Derives number (.elements items) t (0x5d :: rest)) :
      Derives number (.value (.array items)) (0x5b :: t) rest
  | emptyObject {t rest : Text} (h : Ws t (0x7d :: rest)) :
      Derives number (.value (.object [])) (0x7b :: t) rest
  | object {t rest : Text} {members : List (Text × JsonValue)}
      (hnames : (members.map Prod.fst).Nodup)
      (h : Derives number (.members members) t (0x7d :: rest)) :
      Derives number (.value (.object members)) (0x7b :: t) rest
  | element {a b c d : Text} {v : JsonValue} (hfront : Ws a b)
      (h : Derives number (.value v) b c) (hback : Ws c d) : Derives number (.element v) a d
  | lastElement {t rest : Text} {v : JsonValue} (h : Derives number (.element v) t rest) :
      Derives number (.elements [v]) t rest
  | nextElement {t t' rest : Text} {v : JsonValue} {items : List JsonValue}
      (h : Derives number (.element v) t (0x2c :: t'))
      (hrest : Derives number (.elements items) t' rest) :
      Derives number (.elements (v :: items)) t rest
  | member {a b c d rest : Text} {name : Text} {v : JsonValue} (hfront : Ws a b)
      (hname : StringLit b name c) (hcolon : Ws c (0x3a :: d))
      (h : Derives number (.element v) d rest) : Derives number (.member (name, v)) a rest
  | lastMember {t rest : Text} {member : Text × JsonValue}
      (h : Derives number (.member member) t rest) : Derives number (.members [member]) t rest
  | nextMember {t t' rest : Text} {member : Text × JsonValue}
      {members : List (Text × JsonValue)} (h : Derives number (.member member) t (0x2c :: t'))
      (hrest : Derives number (.members members) t' rest) :
      Derives number (.members (member :: members)) t rest

/-- `JSON-text = ws value ws`. -/
def IsDocument (v : JsonValue) (text : Text) : Prop := Derives IsNumber (.element v) text []

/-! ### Words -/

/-- A byte of a word: no whitespace, no punctuation and no quote. -/
def isWordChar (c : UInt8) : Bool :=
  !([0x20, 0x09, 0x0a, 0x0d, 0x5b, 0x5d, 0x7b, 0x7d, 0x2c, 0x3a, 0x22] : Text).contains c

/-- Where a scan for words is: outside of strings behind a part of a word, in a string, or in a
string behind a backslash. -/
inductive Place where
  | outside (word : Text)
  | inside
  | escape

/-- A word, when there is one. -/
def flush (word : Text) : List Text := if word = [] then [] else [word]

/-- The words from a place on. -/
def wordsFrom : Place → Text → List Text
  | .outside word, [] => flush word
  | .outside word, c :: rest =>
    if isWordChar c then wordsFrom (.outside (word ++ [c])) rest
    else flush word ++ wordsFrom (if c = 0x22 then .inside else .outside []) rest
  | .inside, [] => []
  | .inside, c :: rest =>
    wordsFrom (if c = 0x5c then .escape else if c = 0x22 then .outside [] else .inside) rest
  | .escape, [] => []
  | .escape, _ :: rest => wordsFrom .inside rest

/-- The longest runs of word bytes outside of strings: in a document, its literals and its
numbers. -/
def words (text : Text) : List Text := wordsFrom (.outside []) text

/-- `false`, `null` and `true`. -/
def literals : List Text := [ascii "false", ascii "null", ascii "true"]

end Json.Grammar

end CongestionObservatory
