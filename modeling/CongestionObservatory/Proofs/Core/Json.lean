import CongestionObservatory.Core.Json
import CongestionObservatory.Proofs.Core.Number

/-!
# `CongestionObservatory.Proofs.Core.Json`: JSON texts read back

What `dump` writes, `parseJson` reads. `Reads v w` says that the parser makes `w` of the text of
`v`, at every level and whatever follows, as long as its bounds on depth and nodes are respected. A
scalar reads as itself, with the exception of some `double` values, and the rules `Reads.array` and
`Reads.object` put values together.

`parseJson_dump` is the result for a whole document.
-/

set_option autoImplicit false

namespace CongestionObservatory

open Lib

/-! ### Objects and their index -/

namespace JsonObject

/-- The keys of the members, in their order. -/
def keys (members : List (Text × JsonValue)) : List Text := members.map Prod.fst

theorem indexOf_concat (members : List (Text × JsonValue)) (member : Text × JsonValue) :
    indexOf (members ++ [member]) = (indexOf members).emplace member.1 members.length := by
  rw [indexOf, List.zipIdx_append, List.foldl_append]
  simp [indexOf]

/-- The index gives the first position of a key. -/
theorem find?_indexOf (members : List (Text × JsonValue)) (key : Text) :
    (indexOf members).find? key = members.findIdx? fun member => member.1 = key := by
  induction members using List.reverseRecOn with
  | nil => rfl
  | append_singleton members member ih =>
      rw [indexOf_concat, OrdMap.find?_emplace, List.findIdx?_append, ← ih]
      by_cases h : key = member.1
      · subst h
        cases (indexOf members).find? member.1 <;> simp
      · rw [if_neg h]
        simp [Ne.symm h]

/-- A key that no member has. -/
theorem find?_indexOf_eq_none {members : List (Text × JsonValue)} {key : Text} :
    (indexOf members).find? key = none ↔ key ∉ keys members := by
  rw [find?_indexOf, List.findIdx?_eq_none_iff, keys, List.mem_map]
  constructor
  · rintro h ⟨member, hmem, hkey⟩
    exact absurd (h member hmem) (by simpa using hkey)
  · intro h member hmem
    exact decide_eq_false fun hkey => h ⟨member, hmem, hkey⟩

theorem size_indexOf {members : List (Text × JsonValue)} (h : (keys members).Nodup) :
    (indexOf members).size = members.length := by
  induction members using List.reverseRecOn with
  | nil => rfl
  | append_singleton members member ih =>
      rw [keys, List.map_append, List.nodup_append] at h
      have hnew : member.1 ∉ keys members := fun hmem => h.2.2 _ hmem _ (by simp) rfl
      rw [indexOf_concat, OrdMap.emplace_of_new (find?_indexOf_eq_none.mpr hnew),
        OrdMap.size_insert_of_none (find?_indexOf_eq_none.mpr hnew), ih h.1, List.length_append]
      rfl

/-- An object whose index is the one of its members, which have different keys. -/
structure Indexed (o : JsonObject) : Prop where
  index : o.index = indexOf o.members
  nodup : (keys o.members).Nodup

theorem Indexed.empty : Indexed {} := ⟨rfl, List.nodup_nil⟩

theorem Indexed.reindexed {o : JsonObject} (h : o.Indexed) : o.reindexed = o := by
  rw [JsonObject.reindexed, h.index, if_neg (by simp [size_indexOf h.nodup])]

/-- A member with a new key keeps the index right. -/
theorem Indexed.append {o : JsonObject} (h : o.Indexed) {key : Text} (hnew : key ∉ keys o.members)
    (value : JsonValue) : (o.append key value).Indexed where
  index := by
    show o.index.emplace key o.members.length = indexOf (o.members ++ [(key, value)])
    rw [indexOf_concat, h.index]
  nodup := by
    show (keys (o.members ++ [(key, value)])).Nodup
    rw [keys, List.map_append, List.nodup_append]
    refine ⟨h.nodup, List.nodup_singleton _, ?_⟩
    intro a ha b hb hab
    rw [hab, List.mem_singleton.mp hb] at ha
    exact hnew ha

/-- `try_insert` adds a member with a new key, and only such a one. -/
theorem Indexed.tryInsert {o : JsonObject} (h : o.Indexed) (key : Text) (value : JsonValue) :
    o.tryInsert key value = if key ∈ keys o.members then none else some (o.append key value) := by
  have hcontains : o.index.contains key = decide (key ∈ keys o.members) := by
    rw [OrdMap.contains, h.index]
    by_cases hmem : key ∈ keys o.members
    · have hsome : (indexOf o.members).find? key ≠ none := fun hnone =>
        find?_indexOf_eq_none.mp hnone hmem
      rw [decide_eq_true hmem, Option.isSome_iff_ne_none]
      exact hsome
    · rw [find?_indexOf_eq_none.mpr hmem, decide_eq_false hmem]
      rfl
  rw [JsonObject.tryInsert, h.reindexed]
  simp only [hcontains, decide_eq_true_eq]

/-- `set` adds a member with a new key. -/
theorem Indexed.set_new {o : JsonObject} (h : o.Indexed) {key : Text} (hnew : key ∉ keys o.members)
    (value : JsonValue) : o.set key value = o.append key value := by
  rw [set, h.reindexed, h.index]
  simp only [find?_indexOf_eq_none.mpr hnew]

/-- Members with different keys, set one after the other, make up the object. -/
theorem ofMembers_spec {members : List (Text × JsonValue)} (h : (keys members).Nodup) :
    (ofMembers members).members = members ∧ (ofMembers members).Indexed := by
  induction members using List.reverseRecOn with
  | nil => exact ⟨rfl, Indexed.empty⟩
  | append_singleton members member ih =>
      rw [keys, List.map_append, List.nodup_append] at h
      have hnew : member.1 ∉ keys members := fun hmem => h.2.2 _ hmem _ (by simp) rfl
      obtain ⟨hmembers, hindexed⟩ := ih h.1
      have hset : ofMembers (members ++ [member])
          = (ofMembers members).append member.1 member.2 := by
        rw [ofMembers, List.foldl_append, List.foldl_cons, List.foldl_nil]
        exact hindexed.set_new (by rwa [hmembers]) member.2
      rw [hset]
      refine ⟨?_, hindexed.append (by rwa [hmembers]) member.2⟩
      show (ofMembers members).members ++ [(member.1, member.2)] = members ++ [member]
      rw [hmembers]

/-- `find` gives the value of the member with the key. -/
theorem Indexed.find {o : JsonObject} (h : o.Indexed) (key : Text) :
    o.find key = (o.members.find? fun member => member.1 = key).map Prod.snd := by
  rw [JsonObject.find, h.index, if_neg (by simp [size_indexOf h.nodup]), find?_indexOf,
    List.find?_eq_bind_findIdx?_getElem?]
  cases o.members.findIdx? fun member => member.1 = key <;> rfl

end JsonObject

/-- The members of an object value are found by their keys. -/
theorem JsonValue.member_object {members : List (Text × JsonValue)}
    (h : (JsonObject.keys members).Nodup) (key : Text) :
    (JsonValue.object members).member key
      = (members.find? fun member => member.1 = key).map Prod.snd :=
  JsonObject.Indexed.find (o := ⟨members, JsonObject.indexOf members⟩) ⟨rfl, h⟩ key

/-- A member of an object value is found, as no other one has its key. -/
theorem JsonValue.member_of_mem {members : List (Text × JsonValue)}
    (h : (JsonObject.keys members).Nodup) {key : Text} {value : JsonValue}
    (hmem : (key, value) ∈ members) : (JsonValue.object members).member key = some value := by
  rw [JsonValue.member_object h]
  cases hfind : members.find? fun member => member.1 = key with
  | none => exact absurd (List.find?_eq_none.mp hfind _ hmem) (by simp)
  | some found =>
      have hkey : found.1 = key := by simpa using List.find?_some hfind
      have hsame := List.inj_on_of_nodup_map h (List.mem_of_find?_eq_some hfind) hmem hkey
      rw [hsame, Option.map_some]

/-! ### The size of a value -/

mutual

/-- How deep the arrays and objects of a value are nested. -/
def JsonValue.depth : JsonValue → Nat
  | .array items => JsonValue.depthItems items
  | .object members => JsonValue.depthMembers members
  | _ => 0

/-- The depth of an array with these items. -/
def JsonValue.depthItems : List JsonValue → Nat
  | [] => 0
  | item :: items => max (item.depth + 1) (JsonValue.depthItems items)

/-- The depth that a member gives its object. -/
def JsonValue.depthMember : Text × JsonValue → Nat
  | (_, value) => value.depth + 1

/-- The depth of an object with these members. -/
def JsonValue.depthMembers : List (Text × JsonValue) → Nat
  | [] => 0
  | member :: members => max (JsonValue.depthMember member) (JsonValue.depthMembers members)

end

mutual

/-- The number of values that a value consists of. -/
def JsonValue.nodes : JsonValue → Nat
  | .array items => 1 + JsonValue.nodesItems items
  | .object members => 1 + JsonValue.nodesMembers members
  | _ => 1

/-- The number of values in a list of items. -/
def JsonValue.nodesItems : List JsonValue → Nat
  | [] => 0
  | item :: items => item.nodes + JsonValue.nodesItems items

/-- The number of values in a member. -/
def JsonValue.nodesMember : Text × JsonValue → Nat
  | (_, value) => value.nodes

/-- The number of values in a list of members. -/
def JsonValue.nodesMembers : List (Text × JsonValue) → Nat
  | [] => 0
  | member :: members => JsonValue.nodesMember member + JsonValue.nodesMembers members

end

mutual

/-- No number of the value is a `double`, and no object has two members with one key. -/
def JsonValue.Plain : JsonValue → Prop
  | .double _ => False
  | .array items => JsonValue.PlainItems items
  | .object members => (JsonObject.keys members).Nodup ∧ JsonValue.PlainMembers members
  | _ => True

/-- The items are plain. -/
def JsonValue.PlainItems : List JsonValue → Prop
  | [] => True
  | item :: items => item.Plain ∧ JsonValue.PlainItems items

/-- The value of a member is plain. -/
def JsonValue.PlainMember : Text × JsonValue → Prop
  | (_, value) => value.Plain

/-- The values of the members are plain. -/
def JsonValue.PlainMembers : List (Text × JsonValue) → Prop
  | [] => True
  | member :: members => JsonValue.PlainMember member ∧ JsonValue.PlainMembers members

end

theorem JsonValue.plainItems_iff {items : List JsonValue} :
    PlainItems items ↔ ∀ item ∈ items, item.Plain := by
  induction items with
  | nil => simp [PlainItems]
  | cons item items ih => simp [PlainItems, ih]

theorem JsonValue.plainMembers_iff {members : List (Text × JsonValue)} :
    PlainMembers members ↔ ∀ member ∈ members, member.2.Plain := by
  induction members with
  | nil => simp [PlainMembers]
  | cons member members ih =>
      obtain ⟨key, value⟩ := member
      rw [PlainMembers, PlainMember, ih, List.forall_mem_cons]

namespace Json

/-! ### One step of a parser -/

/-- A parser that succeeded hands its value and its scanner on. -/
theorem bind_run {α β : Type} {p : JsonParser α} {k : α → JsonParser β} {s s' : Scanner} {a : α}
    (h : p s = .ok (a, s')) : (p >>= k) s = k a s' := by
  show Except.bind (p s) (fun r => k r.1 r.2) = _
  rw [h]
  rfl

theorem map_run {α β : Type} {p : JsonParser α} {f : α → β} {s s' : Scanner} {a : α}
    (h : p s = .ok (a, s')) : (f <$> p) s = .ok (f a, s') :=
  bind_run (k := fun a => pure (f a)) h

/-- Whitespace. -/
def Blank (text : Text) : Prop := ∀ c ∈ text, isWhitespace c = true

/-- A text that starts with something else. -/
def Solid (text : Text) : Prop := ∃ c rest, text = c :: rest ∧ isWhitespace c = false

/-- A text that starts like a value: not with whitespace and not with the end of an array. -/
def Starts (text : Text) : Prop :=
  ∃ c rest, text = c :: rest ∧ isWhitespace c = false ∧ c ≠ 0x5d

theorem Starts.solid {text : Text} (h : Starts text) : Solid text := by
  obtain ⟨c, rest, rfl, hc, -⟩ := h
  exact ⟨c, rest, rfl, hc⟩

theorem Solid.append {text : Text} (h : Solid text) (rest : Text) : Solid (text ++ rest) := by
  obtain ⟨c, tail, rfl, hc⟩ := h
  exact ⟨c, tail ++ rest, rfl, hc⟩

theorem solid_cons {c : UInt8} {rest : Text} (h : isWhitespace c = false) : Solid (c :: rest) :=
  ⟨c, rest, rfl, h⟩

/-- A text whose first byte ends a number. -/
def Stops (text : Text) : Prop := ∀ c ∈ text.head?, isNumberChar c = false

theorem appendIndent_blank (indent : Int) (level : Nat) : Blank (appendIndent indent level) := by
  unfold appendIndent
  split
  · intro c hc
    cases hc
  · intro c hc
    rcases List.mem_cons.mp hc with rfl | hc
    · rfl
    · rw [List.eq_of_mem_replicate hc]
      rfl

theorem stops_cons {c : UInt8} {rest : Text} (h : isNumberChar c = false) : Stops (c :: rest) := by
  intro d hd
  cases hd
  exact h

/-- Whitespace in front of a byte that ends a number. -/
theorem Blank.stops {blank rest : Text} (hblank : Blank blank) (h : Stops rest) :
    Stops (blank ++ rest) := by
  cases blank with
  | nil => exact h
  | cons c tail =>
      have hspace := hblank c List.mem_cons_self
      refine stops_cons ?_
      simp only [isWhitespace, Bool.or_eq_true, beq_iff_eq] at hspace
      rcases hspace with ((rfl | rfl) | rfl) | rfl <;> decide

theorem skipWhitespace_run {blank rest : Text} (hblank : Blank blank) (hrest : Solid rest)
    (nodes : Nat) : skipWhitespace ⟨blank ++ rest, nodes⟩ = .ok ((), ⟨rest, nodes⟩) := by
  obtain ⟨c, tail, rfl, hc⟩ := hrest
  show Except.ok ((), (⟨(blank ++ c :: tail).dropWhile isWhitespace, nodes⟩ : Scanner)) = _
  rw [List.dropWhile_append_of_pos hblank, List.dropWhile_cons_of_neg (by simp [hc])]

/-- Where there is no whitespace, none is skipped. -/
theorem skipWhitespace_solid {rest : Text} (hrest : Solid rest) (nodes : Nat) :
    skipWhitespace ⟨rest, nodes⟩ = .ok ((), ⟨rest, nodes⟩) :=
  skipWhitespace_run (show Blank [] from fun _ hc => absurd hc List.not_mem_nil) hrest nodes

theorem peek_run (c : UInt8) (rest : Text) (nodes : Nat) :
    peek ⟨c :: rest, nodes⟩ = .ok (c, ⟨c :: rest, nodes⟩) := rfl

theorem advance_run (c : UInt8) (rest : Text) (nodes : Nat) :
    advance ⟨c :: rest, nodes⟩ = .ok ((), ⟨rest, nodes⟩) := rfl

theorem expect_run (total : Nat) (c : UInt8) (rest : Text) (nodes : Nat) :
    expect total c ⟨c :: rest, nodes⟩ = .ok ((), ⟨rest, nodes⟩) := if_pos rfl

theorem countNode_run {limits : Limits} {nodes : Nat} (h : nodes + 1 ≤ limits.maxJsonNodes)
    (rest : Text) : countNode limits ⟨rest, nodes⟩ = .ok ((), ⟨rest, nodes + 1⟩) :=
  if_neg (Nat.not_lt.mpr h)

/-! ### Strings -/

theorem hexValue_hexDigit : ∀ n, n < 16 → hexValue (hexDigit n) = some n := by decide

/-- The escape of a control character is read as the character. -/
theorem hexNumber_escape (c : UInt8) :
    hexNumber [0x30, 0x30, hexDigit (c.toNat / 16), hexDigit (c.toNat % 16)] = .ok c.toNat := by
  have hbyte := c.toNat_lt
  have hzero : hexValue 0x30 = some 0 := by decide
  have hhigh := hexValue_hexDigit (c.toNat / 16) (by omega)
  have hlow := hexValue_hexDigit (c.toNat % 16) (by omega)
  simp only [hexNumber, List.mapM_cons, List.mapM_nil, hzero, hhigh, hlow, Option.pure_def,
    Option.bind_eq_bind, Option.bind_some, List.foldl_cons, List.foldl_nil, Except.ok.injEq]
  omega

/-- An escape of one letter. -/
theorem stringBody_letter {escape c : UInt8} (hletter : escape ≠ 0x75)
    (h : unescape escape = some c) (rest : Text) :
    stringBody (0x5c :: escape :: rest) = prepend [c] (stringBody rest) := by
  rw [stringBody.eq_def]
  dsimp only
  rw [if_neg (by decide), if_neg (by decide), if_neg hletter, h]

/-- An escape of a control character. -/
theorem stringBody_control {c : UInt8} (h : c < 0x20) (rest : Text) :
    stringBody (0x5c :: 0x75 :: 0x30 :: 0x30 :: hexDigit (c.toNat / 16) :: hexDigit (c.toNat % 16)
      :: rest) = prepend [c] (stringBody rest) := by
  have hsmall : c.toNat < 0x20 := UInt8.lt_iff_toNat_lt.mp h
  -- The parser turns the number of an escape into UTF-8, which is one byte below 0x80.
  have hutf8 : utf8 c.toNat = [c] := by
    rw [utf8, if_pos (by omega), UInt8.ofNat_toNat]
  rw [stringBody.eq_def]
  dsimp only
  rw [if_neg (by decide), if_neg (by decide), if_pos rfl, hexNumber_escape]
  dsimp only
  rw [if_neg (by omega), if_neg (by omega), hutf8]

/-- A byte that stands for itself. -/
theorem stringBody_plain {c : UInt8} (hquote : c ≠ 0x22) (hslash : c ≠ 0x5c) (h : ¬ c < 0x20)
    (rest : Text) : stringBody (c :: rest) = prepend [c] (stringBody rest) := by
  rw [stringBody.eq_def]
  dsimp only
  rw [if_neg hquote, if_pos hslash, if_neg h]

/-- One byte of a string is read back from its escape. -/
theorem stringBody_escapeByte (c : UInt8) (rest : Text) :
    stringBody (escapeByte c ++ rest) = prepend [c] (stringBody rest) := by
  -- The bytes with an escape of one letter, then the other control characters, then the rest.
  by_cases hletter : c = 0x22 ∨ c = 0x5c ∨ c = 0x0a ∨ c = 0x0d ∨ c = 0x09 ∨ c = 0x08 ∨ c = 0x0c
  · rcases hletter with rfl | rfl | rfl | rfl | rfl | rfl | rfl <;>
      exact stringBody_letter (by decide) (by decide) rest
  · simp only [not_or] at hletter
    obtain ⟨hquote, hslash, hn, hr, ht, hb, hf⟩ := hletter
    by_cases hcontrol : c < 0x20
    · have hescape : escapeByte c
          = [0x5c, 0x75, 0x30, 0x30, hexDigit (c.toNat / 16), hexDigit (c.toNat % 16)] := by
        simp [escapeByte, hquote, hslash, hn, hr, ht, hb, hf, hcontrol]
      rw [hescape]
      exact stringBody_control hcontrol rest
    · have hescape : escapeByte c = [c] := by
        simp [escapeByte, hquote, hslash, hn, hr, ht, hb, hf, hcontrol]
      rw [hescape]
      exact stringBody_plain hquote hslash hcontrol rest

/-- A string is read back from its text. -/
theorem stringBody_jsonEscape (text rest : Text) :
    stringBody (jsonEscape text ++ 0x22 :: rest) = .ok (text, rest) := by
  induction text with
  | nil =>
      show stringBody (0x22 :: rest) = _
      rw [stringBody.eq_def]
      exact if_pos rfl
  | cons c tail ih =>
      rw [jsonEscape, List.flatMap_cons, List.append_assoc, stringBody_escapeByte]
      rw [jsonEscape] at ih
      rw [ih]
      rfl

theorem parseString_quoted (total : Nat) (text rest : Text) (nodes : Nat) :
    parseString total ⟨quoted text ++ rest, nodes⟩ = .ok (text, ⟨rest, nodes⟩) := by
  have hquoted : quoted text ++ rest = 0x22 :: (jsonEscape text ++ 0x22 :: rest) := by
    simp [quoted]
  rw [hquoted, parseString, bind_run (expect_run total 0x22 _ nodes)]
  show Except.bind (stringBody (jsonEscape text ++ 0x22 :: rest)) _ = _
  rw [stringBody_jsonEscape]
  rfl

/-! ### Numbers -/

theorem isNumberChar_of_isDigit {c : UInt8} (h : isDigit c = true) : isNumberChar c = true := by
  simp [isNumberChar, h]

/-- The scanner takes a number token to its end. -/
theorem parseNumber_token {negative : Bool} {digits rest : Text} {value : JsonValue} (total : Nat)
    (nodes : Nat) (hsplit : splitSign ((if negative then [0x2d] else []) ++ (digits ++ rest))
      = (negative, digits ++ rest))
    (hchars : ∀ c ∈ digits, isNumberChar c = true) (hdigit : digits.any isDigit = true)
    (hrest : Stops rest)
    (hvalue : readNumber ((if negative then [0x2d] else []) ++ digits) digits = .ok value) :
    parseNumber total ⟨(if negative then [0x2d] else []) ++ (digits ++ rest), nodes⟩
      = .ok (value, ⟨rest, nodes⟩) := by
  -- What follows does not go on like a number, so the token is exactly the digits.
  have htake : (digits ++ rest).takeWhile isNumberChar = digits := by
    rw [List.takeWhile_append_of_pos hchars]
    cases rest with
    | nil => simp
    | cons c tail => simp [hrest c rfl]
  have hdrop : (digits ++ rest).dropWhile isNumberChar = rest := by
    rw [List.dropWhile_append_of_pos hchars]
    cases rest with
    | nil => rfl
    | cons c tail => simp [hrest c rfl]
  have htoken : (if negative = true then 0x2d :: digits else digits)
      = (if negative then [0x2d] else []) ++ digits := by
    cases negative <;> rfl
  simp only [parseNumber, hsplit, htake, hdrop, hdigit, if_true, htoken, hvalue]
  rfl

/-! ### Values that are read back -/

/-- The parser makes `w` of the text of `v` at every level, when the levels and the nodes that are
left suffice and the text behind it does not go on like a number. -/
structure Reads (indent : Int) (limits : Limits) (total : Nat) (v w : JsonValue) : Prop where
  starts : ∀ level, Starts (writeValue indent level v)
  run : ∀ level levels nodes rest, v.depth < levels → nodes + v.nodes ≤ limits.maxJsonNodes →
    Stops rest → parseValue limits total levels ⟨writeValue indent level v ++ rest, nodes⟩
      = .ok (w, ⟨rest, nodes + v.nodes⟩)

section

variable {indent : Int} {limits : Limits} {total : Nat}

/-- What `parse_value` does behind its checks. -/
theorem parseValue_run {levels nodes : Nat} (hlevels : 0 < levels)
    (hnodes : nodes + 1 ≤ limits.maxJsonNodes) (c : UInt8) (rest : Text) :
    parseValue limits total levels ⟨c :: rest, nodes⟩
      = (if c = 0x7b then parseObject total (parseValue limits total (levels - 1))
        else if c = 0x5b then parseArray total (parseValue limits total (levels - 1))
        else if c = 0x22 then JsonValue.string <$> parseString total
        else if c = 0x74 then parseLiteral total (ascii "true") (.bool true)
        else if c = 0x66 then parseLiteral total (ascii "false") (.bool false)
        else if c = 0x6e then parseLiteral total (ascii "null") .null
        else parseNumber total) ⟨c :: rest, nodes + 1⟩ := by
  cases levels with
  | zero => exact absurd hlevels (by omega)
  | succ levels =>
      rw [parseValue, bind_run (countNode_run hnodes _), bind_run (peek_run c rest _)]
      rfl

theorem parseLiteral_run (total : Nat) (literal rest : Text) (value : JsonValue) (nodes : Nat) :
    parseLiteral total literal value ⟨literal ++ rest, nodes⟩ = .ok (value, ⟨rest, nodes⟩) := by
  simp [parseLiteral]

theorem Reads.null : Reads indent limits total .null .null where
  starts level := ⟨0x6e, [0x75, 0x6c, 0x6c], by rw [writeValue]; decide, by decide, by decide⟩
  run level levels nodes rest hdepth hnodes _ := by
    have htext : writeValue indent level .null ++ rest = 0x6e :: ([0x75, 0x6c, 0x6c] ++ rest) := by
      rw [writeValue]
      rfl
    rw [htext, parseValue_run hdepth hnodes]
    exact parseLiteral_run total (ascii "null") rest .null (nodes + 1)

theorem Reads.bool (value : Bool) : Reads indent limits total (.bool value) (.bool value) where
  starts level := by
    rw [writeValue]
    cases value with
    | false => exact ⟨0x66, [0x61, 0x6c, 0x73, 0x65], by decide, by decide, by decide⟩
    | true => exact ⟨0x74, [0x72, 0x75, 0x65], by decide, by decide, by decide⟩
  run level levels nodes rest hdepth hnodes _ := by
    cases value with
    | false =>
        have htext : writeValue indent level (.bool false) ++ rest
            = 0x66 :: ([0x61, 0x6c, 0x73, 0x65] ++ rest) := by
          rw [writeValue]
          rfl
        rw [htext, parseValue_run hdepth hnodes]
        exact parseLiteral_run total (ascii "false") rest (.bool false) (nodes + 1)
    | true =>
        have htext : writeValue indent level (.bool true) ++ rest
            = 0x74 :: ([0x72, 0x75, 0x65] ++ rest) := by
          rw [writeValue]
          rfl
        rw [htext, parseValue_run hdepth hnodes]
        exact parseLiteral_run total (ascii "true") rest (.bool true) (nodes + 1)

theorem Reads.string (text : Text) : Reads indent limits total (.string text) (.string text) where
  starts level :=
    ⟨0x22, jsonEscape text ++ [0x22], by rw [writeValue]; rfl, by decide, by decide⟩
  run level levels nodes rest hdepth hnodes _ := by
    have htext : writeValue indent level (.string text) ++ rest
        = 0x22 :: (jsonEscape text ++ [0x22] ++ rest) := by
      rw [writeValue]
      rfl
    rw [htext, parseValue_run hdepth hnodes]
    exact map_run (parseString_quoted total text rest (nodes + 1))

/-- A number is read from its token: a sign and characters of a number, the first one a digit. -/
theorem Reads.of_token {v w : JsonValue} {negative : Bool} {c : UInt8} {tail : Text}
    (hdepth : v.depth = 0) (hnodes : v.nodes = 1)
    (htext : ∀ level, writeValue indent level v
      = (if negative then [0x2d] else []) ++ c :: tail)
    (hdigit : isDigit c = true) (hchars : ∀ d ∈ tail, isNumberChar d = true)
    (hvalue : readNumber ((if negative then [0x2d] else []) ++ c :: tail) (c :: tail) = .ok w) :
    Reads indent limits total v w where
  starts level := by
    rw [htext level]
    cases negative with
    | true => exact ⟨0x2d, c :: tail, rfl, by decide, by decide⟩
    | false =>
        refine ⟨c, tail, rfl, Bool.eq_false_iff.mpr fun hspace => ?_, ?_⟩
        · simp only [isWhitespace, Bool.or_eq_true, beq_iff_eq] at hspace
          rcases hspace with ((rfl | rfl) | rfl) | rfl <;> exact absurd hdigit (by decide)
        · rintro rfl
          exact absurd hdigit (by decide)
  run level levels nodes rest hlevels hroom hrest := by
    rw [hdepth] at hlevels
    rw [hnodes] at hroom ⊢
    have hsplit : splitSign ((if negative then [0x2d] else []) ++ (c :: tail ++ rest))
        = (negative, c :: tail ++ rest) := by
      cases negative with
      | true => rfl
      | false => exact splitSign_of_digit hdigit
    have hparse := parseNumber_token total (nodes + 1) hsplit
      (List.forall_mem_cons.mpr ⟨isNumberChar_of_isDigit hdigit, hchars⟩) (by simp [hdigit]) hrest
      hvalue
    rw [htext level, List.append_assoc]
    cases negative with
    | true =>
        rw [← hparse]
        exact parseValue_run hlevels hroom 0x2d (c :: tail ++ rest)
    | false =>
        -- `parse_value` tells a number by exclusion: a digit is none of the bytes it tests for.
        have hother : ∀ d, isDigit d = false → c ≠ d := by
          rintro d hd rfl
          exact Bool.false_ne_true (hd.symm.trans hdigit)
        refine (parseValue_run hlevels hroom c (tail ++ rest)).trans ?_
        rw [if_neg (hother _ (by decide)), if_neg (hother _ (by decide)),
          if_neg (hother _ (by decide)), if_neg (hother _ (by decide)),
          if_neg (hother _ (by decide)), if_neg (hother _ (by decide))]
        exact hparse

theorem readNumber_integer {negative : Bool} {value : Int} (hlow : -2 ^ 63 ≤ value)
    (hhigh : value < 2 ^ 63) (hsign : value < 0 → negative = true)
    (hsign' : 0 < value → negative = false) :
    readNumber ((if negative then [0x2d] else []) ++ decimal value.natAbs) (decimal value.natAbs)
      = .ok (.int (Int64.ofInt value)) := by
  rw [readNumber, if_pos (all_isDigit_decimal _), fromCharsInt64_signed hlow hhigh hsign hsign']

theorem Reads.int (value : Int64) : Reads indent limits total (.int value) (.int value) := by
  have hlow := value.le_toInt
  have hhigh := value.toInt_lt
  have hread := @readNumber_integer (decide (value.toInt < 0)) value.toInt hlow hhigh (by simp)
    (by simp only [decide_eq_false_iff_not]; omega)
  rw [Int64.ofInt_toInt] at hread
  obtain ⟨c, tail, hdecimal, hdigit, htail⟩ := Double.decimal_cons value.toInt.natAbs
  rw [hdecimal] at hread
  refine Reads.of_token rfl rfl (fun level => ?_) hdigit
    (fun d hd => isNumberChar_of_isDigit (List.all_eq_true.mp htail d hd)) hread
  rw [writeValue, toCharsInt64_eq, hdecimal]

/-- The scientific text of a decimal is a number token. -/
theorem scientific_token (m : Nat) (p : Int) : ∃ c tail, Double.scientific m p = c :: tail ∧
    isDigit c = true ∧ (∀ d ∈ tail, isNumberChar d = true) ∧ (0x65 : UInt8) ∈ tail := by
  obtain ⟨c, tail, hm, hc, htail⟩ := Double.decimal_cons m
  have htail' : ∀ d ∈ tail, isNumberChar d = true := fun d hd =>
    isNumberChar_of_isDigit (List.all_eq_true.mp htail d hd)
  have hexponent : ∀ n, ∀ d ∈ Double.twoDigits n, isNumberChar d = true := by
    intro n d hd
    have hdigits := all_isDigit_decimal n
    rw [Double.twoDigits] at hd
    split at hd
    · rcases List.mem_cons.mp hd with rfl | hd
      · decide
      · exact isNumberChar_of_isDigit (List.all_eq_true.mp hdigits d hd)
    · exact isNumberChar_of_isDigit (List.all_eq_true.mp hdigits d hd)
  refine ⟨c, (if (decimal m).length = 1 then [] else 0x2e :: tail) ++ (0x65
    :: (if p + ((decimal m).length - 1 : Nat) < 0 then 0x2d else 0x2b)
    :: Double.twoDigits (p + ((decimal m).length - 1 : Nat)).natAbs), ?_, hc, ?_, ?_⟩
  · simp [Double.scientific, hm]
  · intro d hd
    rcases List.mem_append.mp hd with hd | hd
    · split at hd
      · cases hd
      · rcases List.mem_cons.mp hd with rfl | hd
        · decide
        · exact htail' d hd
    · rcases List.mem_cons.mp hd with rfl | hd
      · decide
      · rcases List.mem_cons.mp hd with rfl | hd
        · split <;> decide
        · exact hexponent _ d hd
  · exact List.mem_append_right _ List.mem_cons_self

/-- A whole `double` is read as an integer, or as itself where its text is scientific. -/
theorem Reads.double {d : Double} (hfinite : d.isFinite = true) (hwhole : d.toRat.den = 1)
    (hlow : -2 ^ 63 ≤ d.toRat.num) (hhigh : d.toRat.num < 2 ^ 63) :
    Reads indent limits total (.double d) (.int (Int64.ofInt d.toRat.num)) ∨
      d.toRat.num ≠ 0 ∧ Reads indent limits total (.double d) (.double d) := by
  have htext : ∀ level, writeValue indent level (.double d)
      = (if d.negative then [0x2d] else []) ++ d.toCharsMagnitude := by
    intro level
    rw [writeValue, writeDouble, if_pos hfinite, Double.toChars]
    cases d.negative <;> rfl
  -- `std::to_chars` picks the shorter one of two forms. The digits alone are an integer to the
  -- parser, whatever number has written them.
  have hfixed : d.toCharsMagnitude = decimal d.toRat.num.natAbs →
      Reads indent limits total (.double d) (.int (Int64.ofInt d.toRat.num)) := by
    intro hmagnitude
    have hread := @readNumber_integer d.negative d.toRat.num hlow hhigh
      (fun hnegative => (Double.negative_iff_num hfinite hwhole (by omega)).mp hnegative)
      (fun hpositive => Bool.eq_false_iff.mpr fun hnegative => by
        have hlt := (Double.negative_iff_num hfinite hwhole (by omega)).mpr hnegative
        omega)
    obtain ⟨c, tail, hdecimal, hdigit, htail⟩ := Double.decimal_cons d.toRat.num.natAbs
    rw [hdecimal] at hread
    refine Reads.of_token rfl rfl (fun level => ?_) hdigit
      (fun e he => isNumberChar_of_isDigit (List.all_eq_true.mp htail e he)) hread
    rw [htext level, hmagnitude, hdecimal]
  -- The zero is always written as one digit, so it never keeps a minus sign.
  by_cases hzero : d.toRat.num = 0
  · refine Or.inl (hfixed ?_)
    rw [Double.toCharsMagnitude, Double.magnitude, hzero]
    rfl
  · have hpositive : d.toRat.num.natAbs ≠ 0 := Int.natAbs_ne_zero.mpr hzero
    cases hshort : d.shortestDecimal with
    | none =>
        refine Or.inl (hfixed ?_)
        simp [Double.toCharsMagnitude, Double.magnitude, hpositive, hshort, hwhole]
    | some pair =>
        obtain ⟨m, p⟩ := pair
        have hback : Double.ofDecimal d.negative m p = some d := by
          unfold Double.shortestDecimal Double.magnitude at hshort
          simpa using List.find?_some hshort
        by_cases hlonger : (Double.scientific m p).length < (decimal d.toRat.num.natAbs).length
        · refine Or.inr ⟨hzero, ?_⟩
          have hmagnitude : d.toCharsMagnitude = Double.scientific m p := by
            simp [Double.toCharsMagnitude, Double.magnitude, hpositive, hshort, hwhole, hlonger]
          obtain ⟨c, tail, hscientific, hdigit, hchars, he⟩ := scientific_token m p
          -- The exponent makes the token a `double`, and the shortest decimal rounds to the same
          -- one.
          have hall : (c :: tail).all isDigit = false := by
            rw [← Bool.not_eq_true, List.all_eq_true]
            exact fun hdigits => absurd (hdigits 0x65 (List.mem_cons_of_mem _ he)) (by decide)
          rw [hmagnitude, hscientific] at htext
          refine Reads.of_token rfl rfl htext hdigit hchars ?_
          rw [readNumber, hall, ← hscientific, Double.fromChars_scientific, hback]
          simp [hfinite]
        · refine Or.inl (hfixed ?_)
          simp [Double.toCharsMagnitude, Double.magnitude, hpositive, hshort, hwhole, hlonger]

/-! ### Arrays -/

/-- The items behind the first one, up to the bracket: where a number before them ends. -/
theorem stops_writeItems {level : Nat} {items : List JsonValue} {blank : Text}
    (hblank : Blank blank) (rest : Text) :
    Stops (writeItems indent level items ++ (blank ++ 0x5d :: rest)) := by
  cases items with
  | nil =>
      rw [writeItems]
      exact hblank.stops (stops_cons (by decide))
  | cons item items =>
      rw [writeItems]
      exact stops_cons (by decide)

/-- The loop over the items reads all of them. -/
theorem parseItems_run {levels : Nat} (level : Nat) {blank : Text} (hblank : Blank blank)
    (rest : Text) {items items' : List JsonValue}
    (hitems : List.Forall₂ (Reads indent limits total) items items')
    {item item' : JsonValue} (hitem : Reads indent limits total item item') {front : Text}
    (hfront : Blank front) {rounds : Nat} (hrounds : items.length < rounds)
    (acc : List JsonValue) (nodes : Nat)
    (hdepth : JsonValue.depthItems (item :: items) ≤ levels)
    (hnodes : nodes + JsonValue.nodesItems (item :: items) ≤ limits.maxJsonNodes) :
    parseItems (parseValue limits total levels) rounds acc
        ⟨front ++ (writeValue indent level item
          ++ (writeItems indent level items ++ (blank ++ 0x5d :: rest))), nodes⟩
      = .ok (.array (acc ++ item' :: items'),
          ⟨rest, nodes + JsonValue.nodesItems (item :: items)⟩) := by
  -- The loop reads an item and then sees whether there is a next one. So the induction is on the
  -- items behind the one that is read now, and the whitespace before that one is generalised: it
  -- is empty at first and an indentation later.
  induction hitems generalizing item item' front rounds acc nodes with
  | nil =>
      obtain ⟨rounds, rfl⟩ := Nat.exists_eq_add_of_lt hrounds
      have hlevels : item.depth < levels := by
        rw [JsonValue.depthItems, JsonValue.depthItems] at hdepth
        omega
      have hroom : nodes + item.nodes ≤ limits.maxJsonNodes := by
        rw [JsonValue.nodesItems, JsonValue.nodesItems] at hnodes
        omega
      rw [List.length_nil, Nat.zero_add, parseItems,
        bind_run (skipWhitespace_run hfront ((hitem.starts level).solid.append _) nodes),
        bind_run (hitem.run level levels nodes _ hlevels hroom (stops_writeItems hblank rest)),
        writeItems, List.nil_append,
        bind_run (skipWhitespace_run hblank (solid_cons (by decide)) _),
        bind_run (peek_run 0x5d rest _), if_neg (by decide), if_pos rfl,
        bind_run (advance_run 0x5d rest _), JsonValue.nodesItems, JsonValue.nodesItems]
      rfl
  | @cons next next' items items' hnext hrest ih =>
      obtain ⟨rounds, rfl⟩ := Nat.exists_eq_add_of_lt hrounds
      have hlevels : item.depth < levels ∧ JsonValue.depthItems (next :: items) ≤ levels := by
        rw [JsonValue.depthItems] at hdepth
        omega
      have hroom : nodes + item.nodes + JsonValue.nodesItems (next :: items)
          ≤ limits.maxJsonNodes := by
        rw [JsonValue.nodesItems] at hnodes
        omega
      have hindent : Blank (appendIndent indent level) := appendIndent_blank indent level
      have hlater := ih hnext hindent
        (show items.length < (next :: items).length + rounds by rw [List.length_cons]; omega)
        (acc ++ [item']) (nodes + item.nodes) hlevels.2 hroom
      rw [List.append_assoc, List.singleton_append] at hlater
      rw [parseItems,
        bind_run (skipWhitespace_run hfront ((hitem.starts level).solid.append _) nodes),
        bind_run (hitem.run level levels nodes _ hlevels.1 (by omega)
          (stops_writeItems hblank rest)),
        writeItems, List.cons_append, bind_run (skipWhitespace_solid (solid_cons (by decide)) _),
        bind_run (peek_run 0x2c _ _), if_pos rfl, bind_run (advance_run 0x2c _ _),
        List.append_assoc, List.append_assoc, hlater]
      conv_rhs => rw [JsonValue.nodesItems, ← Nat.add_assoc]

/-- Each text has a byte, so the rounds of the loop are enough. -/
theorem length_le_writeItems (items : List JsonValue) (level : Nat) (rest : Text) :
    items.length ≤ (writeItems indent level items ++ rest).length := by
  induction items with
  | nil => exact Nat.zero_le _
  | cons item items ih =>
      rw [writeItems, List.cons_append, List.length_cons, List.length_cons, List.append_assoc,
        List.length_append]
      omega

theorem Reads.array {items items' : List JsonValue}
    (h : List.Forall₂ (Reads indent limits total) items items') :
    Reads indent limits total (.array items) (.array items') where
  starts level := by
    cases items with
    | nil => exact ⟨0x5b, [0x5d], by rw [writeValue]; decide, by decide, by decide⟩
    | cons item items => exact ⟨0x5b, _, by rw [writeValue], by decide, by decide⟩
  run level levels nodes rest hdepth hnodes hrest := by
    have hlevels : 0 < levels := Nat.zero_lt_of_lt hdepth
    have hroom : nodes + 1 ≤ limits.maxJsonNodes := by
      rw [JsonValue.nodes] at hnodes
      omega
    cases h with
    | nil =>
        have htext : writeValue indent level (.array []) ++ rest = 0x5b :: 0x5d :: rest := by
          rw [writeValue]
          rfl
        rw [htext, parseValue_run hlevels hroom]
        show parseArray total _ _ = _
        rw [parseArray, bind_run (expect_run total 0x5b _ _),
          bind_run (skipWhitespace_solid (solid_cons (by decide)) _), bind_run (peek_run 0x5d _ _),
          if_pos rfl, bind_run (advance_run 0x5d _ _), JsonValue.nodes, JsonValue.nodesItems]
        rfl
    | @cons item item' items items' hitem hitems =>
        have htext : writeValue indent level (.array (item :: items)) ++ rest
            = 0x5b :: (appendIndent indent (level + 1) ++ (writeValue indent (level + 1) item
              ++ (writeItems indent (level + 1) items
                ++ (appendIndent indent level ++ 0x5d :: rest)))) := by
          rw [writeValue]
          simp
        rw [htext, parseValue_run hlevels hroom]
        show parseArray total _ _ = _
        obtain ⟨c, tail, hitemText, -, hend⟩ := hitem.starts (level + 1)
        have hsolid := (hitem.starts (level + 1)).solid.append (writeItems indent (level + 1) items
          ++ (appendIndent indent level ++ 0x5d :: rest))
        -- `parse_array` looks for the end of an empty array first. An item never starts with it.
        have hpeek : ∀ body n, peek ⟨writeValue indent (level + 1) item ++ body, n⟩
            = .ok (c, ⟨writeValue indent (level + 1) item ++ body, n⟩) := by
          intro body n
          rw [hitemText]
          rfl
        have hrounds : items.length < (writeValue indent (level + 1) item
            ++ (writeItems indent (level + 1) items
              ++ (appendIndent indent level ++ 0x5d :: rest))).length := by
          have hle := @length_le_writeItems indent items (level + 1)
            (appendIndent indent level ++ 0x5d :: rest)
          rw [hitemText, List.cons_append, List.length_cons, List.length_append]
          omega
        rw [JsonValue.depth] at hdepth
        rw [JsonValue.nodes, ← Nat.add_assoc] at hnodes ⊢
        have hloop := parseItems_run (level + 1) (appendIndent_blank indent level) rest hitems hitem
          (show Blank [] from fun _ hc => absurd hc List.not_mem_nil) hrounds [] (nodes + 1)
          (Nat.le_sub_one_of_lt hdepth) hnodes
        rw [parseArray, bind_run (expect_run total 0x5b _ _),
          bind_run (skipWhitespace_run (appendIndent_blank indent (level + 1)) hsolid _),
          bind_run (hpeek _ _), if_neg hend]
        exact hloop

/-! ### Objects -/

/-- The key of a member is kept and its value is read. -/
def ReadsMember (indent : Int) (limits : Limits) (total : Nat)
    (member member' : Text × JsonValue) : Prop :=
  member'.1 = member.1 ∧ Reads indent limits total member.2 member'.2

/-- The members behind the first one, up to the brace: where a number before them ends. -/
theorem stops_writeMembers {level : Nat} {members : List (Text × JsonValue)} {blank : Text}
    (hblank : Blank blank) (rest : Text) :
    Stops (writeMembers indent level members ++ (blank ++ 0x7d :: rest)) := by
  cases members with
  | nil =>
      rw [writeMembers]
      exact hblank.stops (stops_cons (by decide))
  | cons member members =>
      rw [writeMembers]
      exact stops_cons (by decide)

/-- The loop over the members, up to the point where a member with a new key is added. -/
theorem parseMembers_step {levels : Nat} (level : Nat) {member member' : Text × JsonValue}
    (hmember : ReadsMember indent limits total member member') {front after : Text}
    (hfront : Blank front) (hafter : Stops after) (rounds : Nat) {object : JsonObject}
    (hindexed : object.Indexed) (hnew : member.1 ∉ JsonObject.keys object.members) (nodes : Nat)
    (hdepth : member.2.depth < levels) (hnodes : nodes + member.2.nodes ≤ limits.maxJsonNodes) :
    parseMembers total (parseValue limits total levels) (rounds + 1) object
        ⟨front ++ (writeMember indent level member ++ after), nodes⟩
      = (do
          skipWhitespace
          let token ← peek
          if token = 0x2c then
            advance
            parseMembers total (parseValue limits total levels) rounds
              (object.append member'.1 member'.2)
          else if token = 0x7d then
            advance
            pure (.ofObject (object.append member'.1 member'.2))
          else throw (makeError .invalidArgument "expected a comma or object terminator"))
        ⟨after, nodes + member.2.nodes⟩ := by
  obtain ⟨key, value⟩ := member
  obtain ⟨rfl, hvalue⟩ := hmember
  have hpad : Blank (if indent > 0 then [0x20] else []) := by
    split
    · intro c hc
      rw [List.mem_singleton.mp hc]
      rfl
    · intro c hc
      cases hc
  have htext : writeMember indent level (member'.1, value) ++ after
      = quoted member'.1 ++ (0x3a :: ((if indent > 0 then [0x20] else [])
        ++ (writeValue indent level value ++ after))) := by
    rw [writeMember]
    simp
  have hquoted : Solid (quoted member'.1) := solid_cons (by decide)
  -- The one place where different keys matter: a second member with a key would be refused.
  have hinsert : object.tryInsert member'.1 member'.2
      = some (object.append member'.1 member'.2) := by
    rw [hindexed.tryInsert, if_neg hnew]
  rw [parseMembers, htext, bind_run (skipWhitespace_run hfront (hquoted.append _) nodes),
    bind_run (parseString_quoted total member'.1 _ nodes),
    bind_run (skipWhitespace_solid (solid_cons (by decide)) nodes),
    bind_run (expect_run total 0x3a _ nodes),
    bind_run (skipWhitespace_run hpad ((hvalue.starts level).solid.append after) nodes),
    bind_run (hvalue.run level levels nodes after hdepth hnodes hafter), hinsert]

/-- The loop over the members reads all of them. -/
theorem parseMembers_run {levels : Nat} (level : Nat) {blank : Text} (hblank : Blank blank)
    (rest : Text) {members members' : List (Text × JsonValue)}
    (hmembers : List.Forall₂ (ReadsMember indent limits total) members members')
    {member member' : Text × JsonValue} (hmember : ReadsMember indent limits total member member')
    {front : Text} (hfront : Blank front) {rounds : Nat} (hrounds : members.length < rounds)
    {object : JsonObject} (hindexed : object.Indexed)
    (hnodup : (JsonObject.keys object.members ++ JsonObject.keys (member :: members)).Nodup)
    (nodes : Nat) (hdepth : JsonValue.depthMembers (member :: members) ≤ levels)
    (hnodes : nodes + JsonValue.nodesMembers (member :: members) ≤ limits.maxJsonNodes) :
    parseMembers total (parseValue limits total levels) rounds object
        ⟨front ++ (writeMember indent level member
          ++ (writeMembers indent level members ++ (blank ++ 0x7d :: rest))), nodes⟩
      = .ok (.object (object.members ++ member' :: members'),
          ⟨rest, nodes + JsonValue.nodesMembers (member :: members)⟩) := by
  -- As for the items. In addition, the object that is built so far keeps its index, and its keys
  -- are none of those that are still to come.
  induction hmembers generalizing member member' front rounds object nodes with
  | nil =>
      obtain ⟨rounds, rfl⟩ := Nat.exists_eq_add_of_lt hrounds
      have hnew : member.1 ∉ JsonObject.keys object.members := by
        intro hmem
        exact List.disjoint_of_nodup_append hnodup hmem List.mem_cons_self
      have hlevels : member.2.depth < levels := by
        rw [JsonValue.depthMembers, JsonValue.depthMembers, JsonValue.depthMember] at hdepth
        omega
      have hroom : nodes + member.2.nodes ≤ limits.maxJsonNodes := by
        rw [JsonValue.nodesMembers, JsonValue.nodesMembers, JsonValue.nodesMember] at hnodes
        omega
      rw [List.length_nil, Nat.zero_add, parseMembers_step level hmember hfront
        (stops_writeMembers hblank rest) rounds hindexed hnew nodes hlevels hroom,
        writeMembers, List.nil_append,
        bind_run (skipWhitespace_run hblank (solid_cons (by decide)) _),
        bind_run (peek_run 0x7d rest _), if_neg (by decide), if_pos rfl,
        bind_run (advance_run 0x7d rest _), JsonValue.nodesMembers, JsonValue.nodesMembers,
        JsonValue.nodesMember]
      rfl
  | @cons next next' members members' hnext hrest ih =>
      obtain ⟨rounds, rfl⟩ := Nat.exists_eq_add_of_lt hrounds
      have hnew : member.1 ∉ JsonObject.keys object.members := by
        intro hmem
        exact List.disjoint_of_nodup_append hnodup hmem List.mem_cons_self
      have hlevels : member.2.depth < levels ∧
          JsonValue.depthMembers (next :: members) ≤ levels := by
        rw [JsonValue.depthMembers, JsonValue.depthMember] at hdepth
        omega
      have hroom : nodes + member.2.nodes + JsonValue.nodesMembers (next :: members)
          ≤ limits.maxJsonNodes := by
        rw [JsonValue.nodesMembers, JsonValue.nodesMember] at hnodes
        omega
      have hkeys : JsonObject.keys (object.append member'.1 member'.2).members
          = JsonObject.keys object.members ++ [member.1] := by
        rw [← hmember.1]
        exact List.map_append
      have hlater := ih hnext (appendIndent_blank indent level)
        (show members.length < (next :: members).length + rounds by rw [List.length_cons]; omega)
        (hindexed.append (hmember.1 ▸ hnew) member'.2)
        (by
          rw [hkeys, List.append_assoc]
          exact hnodup)
        (nodes + member.2.nodes) hlevels.2 hroom
      rw [parseMembers_step level hmember hfront (stops_writeMembers hblank rest) _ hindexed hnew
        nodes hlevels.1 (by omega), writeMembers, List.cons_append,
        bind_run (skipWhitespace_solid (solid_cons (by decide)) _), bind_run (peek_run 0x2c _ _),
        if_pos rfl, bind_run (advance_run 0x2c _ _), List.append_assoc, List.append_assoc, hlater]
      conv_rhs => rw [JsonValue.nodesMembers, JsonValue.nodesMember, ← Nat.add_assoc]
      rw [show (object.append member'.1 member'.2).members ++ next' :: members'
        = object.members ++ member' :: next' :: members' from List.append_assoc _ _ _]

/-- Each text has a byte, so the rounds of the loop are enough. -/
theorem length_le_writeMembers (members : List (Text × JsonValue)) (level : Nat) (rest : Text) :
    members.length ≤ (writeMembers indent level members ++ rest).length := by
  induction members with
  | nil => exact Nat.zero_le _
  | cons member members ih =>
      rw [writeMembers, List.cons_append, List.length_cons, List.length_cons, List.append_assoc,
        List.length_append]
      omega

/-- An object with different keys. -/
theorem Reads.object {members members' : List (Text × JsonValue)}
    (h : List.Forall₂ (ReadsMember indent limits total) members members')
    (hnodup : (JsonObject.keys members).Nodup) :
    Reads indent limits total (.object members) (.object members') where
  starts level := by
    cases members with
    | nil => exact ⟨0x7b, [0x7d], by rw [writeValue]; decide, by decide, by decide⟩
    | cons member members => exact ⟨0x7b, _, by rw [writeValue], by decide, by decide⟩
  run level levels nodes rest hdepth hnodes hrest := by
    have hlevels : 0 < levels := Nat.zero_lt_of_lt hdepth
    have hroom : nodes + 1 ≤ limits.maxJsonNodes := by
      rw [JsonValue.nodes] at hnodes
      omega
    cases h with
    | nil =>
        have htext : writeValue indent level (.object []) ++ rest = 0x7b :: 0x7d :: rest := by
          rw [writeValue]
          rfl
        rw [htext, parseValue_run hlevels hroom]
        show parseObject total _ _ = _
        rw [parseObject, bind_run (expect_run total 0x7b _ _),
          bind_run (skipWhitespace_solid (solid_cons (by decide)) _), bind_run (peek_run 0x7d _ _),
          if_pos rfl, bind_run (advance_run 0x7d _ _), JsonValue.nodes, JsonValue.nodesMembers]
        rfl
    | @cons member member' members members' hmember hmembers =>
        have htext : writeValue indent level (.object (member :: members)) ++ rest
            = 0x7b :: (appendIndent indent (level + 1) ++ (writeMember indent (level + 1) member
              ++ (writeMembers indent (level + 1) members
                ++ (appendIndent indent level ++ 0x7d :: rest)))) := by
          rw [writeValue]
          simp
        rw [htext, parseValue_run hlevels hroom]
        show parseObject total _ _ = _
        obtain ⟨tail, hmemberText⟩ : ∃ tail, writeMember indent (level + 1) member = 0x22 :: tail :=
          ⟨_, by rw [writeMember]; rfl⟩
        generalize hafter : writeMembers indent (level + 1) members
          ++ (appendIndent indent level ++ 0x7d :: rest) = after
        have hsolid : Solid (writeMember indent (level + 1) member ++ after) := by
          rw [hmemberText]
          exact solid_cons (by decide)
        have hpeek : ∀ n, peek ⟨writeMember indent (level + 1) member ++ after, n⟩
            = .ok (0x22, ⟨writeMember indent (level + 1) member ++ after, n⟩) := by
          intro n
          rw [hmemberText]
          rfl
        have hrounds : members.length < (writeMember indent (level + 1) member ++ after).length := by
          have hle := @length_le_writeMembers indent members (level + 1)
            (appendIndent indent level ++ 0x7d :: rest)
          rw [hafter] at hle
          rw [hmemberText, List.cons_append, List.length_cons, List.length_append]
          omega
        rw [JsonValue.depth] at hdepth
        rw [JsonValue.nodes, ← Nat.add_assoc] at hnodes ⊢
        have hloop := parseMembers_run (level + 1) (appendIndent_blank indent level) rest hmembers
          hmember (show Blank [] from fun _ hc => absurd hc List.not_mem_nil) hrounds
          JsonObject.Indexed.empty hnodup (nodes + 1) (Nat.le_sub_one_of_lt hdepth) hnodes
        rw [hafter] at hloop
        rw [parseObject, bind_run (expect_run total 0x7b _ _),
          bind_run (skipWhitespace_run (appendIndent_blank indent (level + 1)) hsolid _),
          bind_run (hpeek _), if_neg (by decide)]
        exact hloop

/-! ### Plain values -/

mutual

/-- A plain value is read as itself. -/
theorem Reads.plain : ∀ {v : JsonValue}, v.Plain → Reads indent limits total v v
  | .null, _ => Reads.null
  | .bool value, _ => Reads.bool value
  | .int value, _ => Reads.int value
  | .string text, _ => Reads.string text
  | .array _, h => Reads.array (Reads.plainItems (by rwa [JsonValue.Plain] at h))
  | .object members, h => by
      rw [JsonValue.Plain] at h
      exact Reads.object (Reads.plainMembers h.2) h.1

theorem Reads.plainItems : ∀ {items : List JsonValue}, JsonValue.PlainItems items →
    List.Forall₂ (Reads indent limits total) items items
  | [], _ => .nil
  | item :: items, h => by
      rw [JsonValue.PlainItems] at h
      exact .cons (Reads.plain h.1) (Reads.plainItems h.2)

theorem Reads.plainMember : ∀ {member : Text × JsonValue}, JsonValue.PlainMember member →
    ReadsMember indent limits total member member
  | (_, value), h => ⟨rfl, Reads.plain (v := value) h⟩

theorem Reads.plainMembers : ∀ {members : List (Text × JsonValue)},
    JsonValue.PlainMembers members →
    List.Forall₂ (ReadsMember indent limits total) members members
  | [], _ => .nil
  | member :: members, h => by
      rw [JsonValue.PlainMembers] at h
      exact .cons (Reads.plainMember h.1) (Reads.plainMembers h.2)

end

end

end Json

/-! ### Documents -/

/-- **A dumped value is read back**, when its text and the value are within the bounds. -/
theorem parseJson_dump {indent : Int} {limits : Limits} {v w : JsonValue}
    (h : Json.Reads indent limits (v.dump indent).length v w)
    (hbytes : (v.dump indent).length ≤ limits.maxDocumentBytes)
    (hdepth : v.depth < limits.jsonLevels) (hnodes : v.nodes ≤ limits.maxJsonNodes) :
    parseJson (v.dump indent) limits = .ok w := by
  have hsolid : Json.Solid (v.dump indent) := (h.starts 0).solid
  have hvalue := h.run 0 limits.jsonLevels 0 [] hdepth (by omega) (by simp [Json.Stops])
  rw [List.append_nil, ← JsonValue.dump] at hvalue
  have hdocument : Json.document limits (v.dump indent).length limits.jsonLevels
      { rest := v.dump indent } = .ok (w, ⟨[], 0 + v.nodes⟩) := by
    rw [Json.document, Json.bind_run (Json.skipWhitespace_solid hsolid 0), Json.bind_run hvalue]
    rfl
  rw [parseJson, failIf, if_neg (Nat.not_lt.mpr hbytes)]
  show Except.bind (Json.document limits (v.dump indent).length limits.jsonLevels
    { rest := v.dump indent }) _ = _
  rw [hdocument]
  rfl

/-- The round trip of a value whose numbers are integers. -/
theorem parseJson_dump_plain {indent : Int} {limits : Limits} {v : JsonValue} (h : v.Plain)
    (hbytes : (v.dump indent).length ≤ limits.maxDocumentBytes)
    (hdepth : v.depth < limits.jsonLevels) (hnodes : v.nodes ≤ limits.maxJsonNodes) :
    parseJson (v.dump indent) limits = .ok v :=
  parseJson_dump (Json.Reads.plain h) hbytes hdepth hnodes

end CongestionObservatory
