import CongestionObservatory.Core.JsonGrammar
import CongestionObservatory.Proofs.Core.Json

/-!
# `CongestionObservatory.Proofs.Core.JsonSound`: what the strict parser accepts

Whatever the parser makes a value of is derived by the grammar, if every token that the scanner
collects counts as a number (`IsToken`): `parseValue_sound` goes with the recursion of the parser,
over the levels that are left, and counts levels and values on the way.

The grammar's own rule for numbers is narrower than the library routine that reads the tokens. The
words of a text do not depend on how it is derived (`words_derived`), so an accepted text is a
document exactly when its words are literals and numbers of the grammar.
-/

set_option autoImplicit false

namespace CongestionObservatory

open Lib

namespace Json

open Grammar

/-! ### What a step of the parser consumed -/

theorem bind_ok {α β : Type} {p : JsonParser α} {k : α → JsonParser β} {s : Scanner}
    {r : β × Scanner} (h : (p >>= k) s = .ok r) : ∃ a s', p s = .ok (a, s') ∧ k a s' = .ok r := by
  obtain ⟨⟨a, s'⟩, hp, hk⟩ := bind_eq_ok.mp (show Except.bind (p s) (fun r => k r.1 r.2) = .ok r from h)
  exact ⟨a, s', hp, hk⟩

theorem map_ok {α β : Type} {p : JsonParser α} {f : α → β} {s s' : Scanner} {b : β}
    (h : (f <$> p) s = .ok (b, s')) : ∃ a, p s = .ok (a, s') ∧ b = f a := by
  obtain ⟨a, s₁, hp, hpure⟩ := bind_ok (k := fun a => pure (f a)) h
  cases hpure
  exact ⟨a, hp, rfl⟩

theorem ws_dropWhile (t : Text) : Ws t (t.dropWhile isWhitespace) := by
  induction t with
  | nil => exact .nil
  | cons c t ih =>
      by_cases hc : isWhitespace c = true
      · rw [List.dropWhile_cons_of_pos hc]
        refine .cons ?_ ih
        simpa [isWhitespace, or_assoc] using hc
      · rw [List.dropWhile_cons_of_neg hc]
        exact .nil

theorem skipWhitespace_ok {s s' : Scanner} {u : Unit} (h : skipWhitespace s = .ok (u, s')) :
    Ws s.rest s'.rest ∧ s'.nodes = s.nodes := by
  cases h
  exact ⟨ws_dropWhile s.rest, rfl⟩

theorem peek_ok {s s' : Scanner} {c : UInt8} (h : peek s = .ok (c, s')) :
    s' = s ∧ ∃ t, s.rest = c :: t := by
  obtain ⟨rest, nodes⟩ := s
  cases rest with
  | nil => cases h
  | cons d t =>
      cases h
      exact ⟨rfl, t, rfl⟩

/-- A byte that was seen is passed. -/
theorem advance_ok {s s' : Scanner} {u : Unit} {c : UInt8} {t : Text} (htoken : s.rest = c :: t)
    (h : advance s = .ok (u, s')) : s.rest = c :: s'.rest ∧ s'.nodes = s.nodes := by
  cases h
  refine ⟨?_, rfl⟩
  show s.rest = c :: s.rest.drop 1
  rw [htoken]
  rfl

theorem expect_ok {total : Nat} {c : UInt8} {s s' : Scanner} {u : Unit}
    (h : expect total c s = .ok (u, s')) : s.rest = c :: s'.rest ∧ s'.nodes = s.nodes := by
  obtain ⟨rest, nodes⟩ := s
  cases rest with
  | nil => cases h
  | cons d t =>
      unfold expect at h
      dsimp only at h
      split at h
      · next hd =>
          cases h
          exact ⟨by rw [hd], rfl⟩
      · cases h

theorem countNode_ok {limits : Limits} {s s' : Scanner} {u : Unit}
    (h : countNode limits s = .ok (u, s')) :
    s'.rest = s.rest ∧ s'.nodes = s.nodes + 1 ∧ s'.nodes ≤ limits.maxJsonNodes := by
  unfold countNode at h
  split at h
  · cases h
  · next hroom =>
      cases h
      exact ⟨rfl, rfl, Nat.not_lt.mp hroom⟩

theorem parseLiteral_ok {total : Nat} {literal : Text} {v v' : JsonValue} {s s' : Scanner}
    (h : parseLiteral total literal v s = .ok (v', s')) :
    v' = v ∧ s.rest = literal ++ s'.rest ∧ s'.nodes = s.nodes := by
  unfold parseLiteral at h
  split at h
  · next htake =>
      cases h
      refine ⟨rfl, ?_, rfl⟩
      conv_lhs => rw [← List.take_append_drop literal.length s.rest, htake]
  · cases h

/-! ### Numbers -/

/-- What the scanner collects for a number. -/
def IsToken (t : Text) : Prop := t ≠ [] ∧ ∀ c ∈ t, isNumberChar c = true

theorem readNumber_ok {token digits : Text} {v : JsonValue} (h : readNumber token digits = .ok v) :
    isNumeric v = true := by
  unfold readNumber at h
  split at h
  · split at h <;> cases h
    rfl
  · split at h
    · cases h
    · split at h <;> cases h
      rfl

/-- A leading minus is part of the token. -/
theorem splitSign_append (t : Text) :
    ∃ sign : Text, t = sign ++ (splitSign t).2 ∧ (sign = [] ∨ sign = [0x2d]) := by
  cases t with
  | nil => exact ⟨[], rfl, .inl rfl⟩
  | cons c rest =>
      by_cases hc : c = 0x2d
      · exact ⟨[0x2d], by rw [splitSign, if_pos hc, hc]; rfl, .inr rfl⟩
      · exact ⟨[], by rw [splitSign, if_neg hc]; rfl, .inl rfl⟩

theorem parseNumber_ok {total : Nat} {v : JsonValue} {s s' : Scanner}
    (h : parseNumber total s = .ok (v, s')) :
    (∃ token, s.rest = token ++ s'.rest ∧ IsToken token) ∧ isNumeric v = true ∧
      s'.nodes = s.nodes := by
  obtain ⟨sign, hsign, hminus⟩ := splitSign_append s.rest
  unfold parseNumber at h
  dsimp only at h
  generalize hdigits : (splitSign s.rest).2.takeWhile isNumberChar = digits at h
  split at h
  · next hany =>
      obtain ⟨value, hread, hpure⟩ := bind_eq_ok.mp h
      cases hpure
      obtain ⟨c, hc, -⟩ := List.any_eq_true.mp hany
      refine ⟨⟨sign ++ digits, ?_, ?_, ?_⟩, readNumber_ok hread, rfl⟩
      · rw [List.append_assoc, ← hdigits, List.takeWhile_append_dropWhile]
        exact hsign
      · exact List.append_ne_nil_of_right_ne_nil sign (List.ne_nil_of_mem hc)
      · intro d hd
        rcases List.mem_append.mp hd with hd | hd
        · rcases hminus with rfl | rfl
          · cases hd
          · rw [List.mem_singleton.mp hd]
            rfl
        · rw [← hdigits] at hd
          exact List.mem_takeWhile_imp hd
  · cases h

/-! ### Strings -/

/-- The letters that the parser takes behind a backslash are those of the grammar. -/
theorem unescape_eq_some {e c : UInt8} : unescape e = some c ↔ (e, c) ∈ escapes := by
  constructor
  · intro h
    unfold unescape at h
    split_ifs at h with h₁ h₂ h₃ h₄ h₅ h₆ h₇ h₈ <;> cases h <;> subst e <;> decide
  · intro h
    simp only [escapes, List.mem_cons, List.not_mem_nil, Prod.mk.injEq, or_false] at h
    rcases h with ⟨rfl, rfl⟩ | ⟨rfl, rfl⟩ | ⟨rfl, rfl⟩ | ⟨rfl, rfl⟩ | ⟨rfl, rfl⟩ | ⟨rfl, rfl⟩ |
      ⟨rfl, rfl⟩ | ⟨rfl, rfl⟩ <;> rfl

/-- The hexadecimal digits of the parser are those of the grammar. -/
theorem hexValue_eq_some {c : UInt8} {value : Nat} :
    hexValue c = some value ↔ HexDigit c value := by
  constructor
  · intro h
    unfold hexValue at h
    split_ifs at h with hdigit hlower hupper <;> cases h
    · exact .digit hdigit.1 hdigit.2
    · exact .lower hlower.1 hlower.2
    · exact .upper hupper.1 hupper.2
  · intro h
    cases h with
    | digit hlow hhigh => rw [hexValue, if_pos ⟨hlow, hhigh⟩]
    | lower hlow hhigh =>
        rw [hexValue, if_neg (fun hdigit => absurd (hlow.trans hdigit.2) (by decide)),
          if_pos ⟨hlow, hhigh⟩]
    | upper hlow hhigh =>
        rw [hexValue, if_neg (fun hdigit => absurd (hlow.trans hdigit.2) (by decide)),
          if_neg (fun hlower => absurd (hlower.1.trans hhigh) (by decide)), if_pos ⟨hlow, hhigh⟩]

/-- Four digits are read as the number that they spell. -/
theorem hexNumber_eq_ok {a b c d : UInt8} {number : Nat} :
    hexNumber [a, b, c, d] = .ok number ↔ ∃ w x y z, HexDigit a w ∧ HexDigit b x ∧ HexDigit c y ∧
      HexDigit d z ∧ number = w * 4096 + x * 256 + y * 16 + z := by
  have hvalues : ∀ values : List Nat, [a, b, c, d].mapM hexValue = some values ↔
      ∃ w x y z, values = [w, x, y, z] ∧ hexValue a = some w ∧ hexValue b = some x ∧
        hexValue c = some y ∧ hexValue d = some z := by
    intro values
    simp only [List.mapM_cons, List.mapM_nil, Option.bind_eq_bind, Option.bind_eq_some_iff,
      Option.pure_def, Option.some.injEq]
    constructor
    · rintro ⟨w, ha, _, ⟨x, hb, _, ⟨y, hc, _, ⟨z, hd, _, rfl, rfl⟩, rfl⟩, rfl⟩, rfl⟩
      exact ⟨w, x, y, z, rfl, ha, hb, hc, hd⟩
    · rintro ⟨w, x, y, z, rfl, ha, hb, hc, hd⟩
      exact ⟨w, ha, _, ⟨x, hb, _, ⟨y, hc, _, ⟨z, hd, _, rfl, rfl⟩, rfl⟩, rfl⟩, rfl⟩
  have hsum : ∀ w x y z : Nat, [w, x, y, z].foldl (fun v d => v * 16 + d) 0
      = w * 4096 + x * 256 + y * 16 + z := by
    intro w x y z
    simp only [List.foldl_cons, List.foldl_nil]
    omega
  simp only [← hexValue_eq_some]
  unfold hexNumber
  constructor
  · intro h
    cases hread : [a, b, c, d].mapM hexValue with
    | none =>
        rw [hread] at h
        cases h
    | some values =>
        obtain ⟨w, x, y, z, rfl, ha, hb, hc, hd⟩ := (hvalues values).mp hread
        rw [hread] at h
        exact ⟨w, x, y, z, ha, hb, hc, hd, (Except.ok.inj h).symm.trans (hsum w x y z)⟩
  · rintro ⟨w, x, y, z, ha, hb, hc, hd, rfl⟩
    rw [(hvalues _).mpr ⟨w, x, y, z, rfl, ha, hb, hc, hd⟩]
    exact congrArg Except.ok (hsum w x y z)

/-- An escape that the parser reads is one of the grammar. -/
theorem isUnicode_of_hexNumber {a b c d : UInt8} {number : Nat}
    (h : hexNumber [a, b, c, d] = .ok number) (rest : Text) :
    IsUnicode number (0x5c :: 0x75 :: a :: b :: c :: d :: rest) rest := by
  obtain ⟨w, x, y, z, ha, hb, hc, hd, hsum⟩ := hexNumber_eq_ok.mp h
  exact ⟨a, b, c, d, w, x, y, z, rfl, ha, hb, hc, hd, hsum⟩

theorem prepend_ok {out : Text} {result : Result (Text × Text)} {s rest : Text}
    (h : prepend out result = .ok (s, rest)) :
    ∃ tail, result = .ok (tail, rest) ∧ s = out ++ tail := by
  obtain ⟨⟨tail, rest'⟩, hresult, hpure⟩ := bind_eq_ok.mp h
  cases hpure
  exact ⟨tail, hresult, rfl⟩

/-- The body of a string, up to its closing quote. -/
theorem stringBody_ok {t s rest : Text} (h : stringBody t = .ok (s, rest)) :
    Chars t s (0x22 :: rest) := by
  fun_induction stringBody t generalizing s with
  | case2 tail =>
      cases h
      exact .nil
  | case4 c tail hquote hslash hcontrol ih =>
      obtain ⟨s', hbody, rfl⟩ := prepend_ok h
      exact .unescaped (not_lt.mp hcontrol) hquote hslash (ih hbody)
  | case10 c _ hslash a b c' d high hhigh hinHigh slash u hnext a' b' c'' d' tail low hlow hinLow ih =>
      -- A pair of surrogates.
      obtain ⟨s', hbody, hs⟩ := prepend_ok h
      obtain rfl : c = 0x5c := not_not.mp hslash
      obtain ⟨rfl, rfl⟩ : slash = 0x5c ∧ u = 0x75 := by
        constructor
        · exact not_not.mp fun hne => hnext (.inl hne)
        · exact not_not.mp fun hne => hnext (.inr hne)
      have hinLow' : IsLow low := by
        unfold IsLow
        omega
      rw [hs]
      exact .surrogates (isUnicode_of_hexNumber hhigh _) (isUnicode_of_hexNumber hlow _) hinHigh
        hinLow' (ih hbody)
  | case14 c _ hslash a b c' d tail number hnumber hnotHigh _ ih =>
      obtain ⟨s', hbody, rfl⟩ := prepend_ok h
      obtain rfl : c = 0x5c := not_not.mp hslash
      exact .unicode (isUnicode_of_hexNumber hnumber _) hnotHigh (ih hbody)
  | case17 c _ hslash e tail _ c' he ih =>
      obtain ⟨s', hbody, rfl⟩ := prepend_ok h
      obtain rfl : c = 0x5c := not_not.mp hslash
      exact .escaped (unescape_eq_some.mp he) (ih hbody)
  | _ => cases h

theorem parseString_ok {total : Nat} {text : Text} {s s' : Scanner}
    (h : parseString total s = .ok (text, s')) :
    StringLit s.rest text s'.rest ∧ s'.nodes = s.nodes := by
  obtain ⟨_, s₁, hquote, hrest⟩ := bind_ok h
  obtain ⟨hrest₁, hnodes₁⟩ := expect_ok hquote
  obtain ⟨⟨body, rest⟩, hbody, hpure⟩ := bind_eq_ok.mp hrest
  cases hpure
  exact ⟨⟨s₁.rest, hrest₁, stringBody_ok hbody⟩, hnodes₁⟩

/-! ### Arrays and objects -/

theorem Grammar.Ws.trans {a b c : Text} (h : Ws a b) (h' : Ws b c) : Ws a c := by
  induction h with
  | nil => exact h'
  | cons hc _ ih => exact .cons hc (ih h')

/-- Whitespace in front of an element belongs to it. -/
theorem Grammar.Derives.ws_element {number : Text → Prop} {a b rest : Text} {v : JsonValue}
    (hws : Ws a b) (h : Derives number (.element v) b rest) :
    Derives number (.element v) a rest := by
  cases h with
  | element hfront h hback => exact .element (hws.trans hfront) h hback

theorem Grammar.Derives.ws_elements {number : Text → Prop} {a b rest : Text}
    {items : List JsonValue} (hws : Ws a b) (h : Derives number (.elements items) b rest) :
    Derives number (.elements items) a rest := by
  cases h with
  | lastElement h => exact .lastElement (h.ws_element hws)
  | nextElement h hrest => exact .nextElement (h.ws_element hws) hrest

theorem Grammar.Derives.ws_member {number : Text → Prop} {a b rest : Text}
    {member : Text × JsonValue} (hws : Ws a b) (h : Derives number (.member member) b rest) :
    Derives number (.member member) a rest := by
  cases h with
  | member hfront hname hcolon h => exact .member (hws.trans hfront) hname hcolon h

theorem Grammar.Derives.ws_members {number : Text → Prop} {a b rest : Text}
    {members : List (Text × JsonValue)} (hws : Ws a b)
    (h : Derives number (.members members) b rest) : Derives number (.members members) a rest := by
  cases h with
  | lastMember h => exact .lastMember (h.ws_member hws)
  | nextMember h hrest => exact .nextMember (h.ws_member hws) hrest

/-- Behind an opening bracket: the closing one, or what the brackets enclose. -/
theorem opened_ok {total : Nat} {opening closing : UInt8} {empty v : JsonValue}
    {body : JsonParser JsonValue} {s s' : Scanner}
    (h : (do
      expect total opening
      skipWhitespace
      let next ← peek
      if next = closing then
        advance
        pure empty
      else body : JsonParser JsonValue) s = .ok (v, s')) :
    ∃ t s₁, s.rest = opening :: t ∧ Ws t s₁.rest ∧ s₁.nodes = s.nodes ∧
      (s₁.rest = closing :: s'.rest ∧ s'.nodes = s₁.nodes ∧ v = empty ∨
        body s₁ = .ok (v, s')) := by
  obtain ⟨_, s₁, hexpect, h₁⟩ := bind_ok h
  obtain ⟨_, s₂, hfront, h₂⟩ := bind_ok h₁
  obtain ⟨token, s₃, hpeek, h₃⟩ := bind_ok h₂
  obtain ⟨rfl, t, htoken⟩ := peek_ok hpeek
  obtain ⟨hrest, hnodes₁⟩ := expect_ok hexpect
  obtain ⟨hws, hnodes₂⟩ := skipWhitespace_ok hfront
  refine ⟨s₁.rest, s₃, hrest, hws, hnodes₂.trans hnodes₁, ?_⟩
  split at h₃
  · next hclosing =>
      obtain ⟨_, s₄, hadvance, hpure⟩ := bind_ok h₃
      cases hpure
      obtain ⟨hend, hnodes₄⟩ := advance_ok htoken hadvance
      exact .inl ⟨by rw [hend, hclosing], hnodes₄, rfl⟩
  · exact .inr h₃

/-- Behind an element: a comma and what follows it, or the closing bracket. -/
theorem separator_ok {closing : UInt8} {result v : JsonValue} {more : JsonParser JsonValue}
    {e : Error} {s s' : Scanner}
    (h : (do
      let token ← peek
      if token = 0x2c then
        advance
        more
      else if token = closing then
        advance
        pure result
      else throw e : JsonParser JsonValue) s = .ok (v, s')) :
    (∃ s₁, s.rest = 0x2c :: s₁.rest ∧ s₁.nodes = s.nodes ∧ more s₁ = .ok (v, s')) ∨
      (s.rest = closing :: s'.rest ∧ s'.nodes = s.nodes ∧ v = result) := by
  obtain ⟨token, s₁, hpeek, h₁⟩ := bind_ok h
  obtain ⟨rfl, t, htoken⟩ := peek_ok hpeek
  split at h₁
  · next hcomma =>
      obtain ⟨_, s₂, hadvance, h₂⟩ := bind_ok h₁
      obtain ⟨hrest, hnodes⟩ := advance_ok htoken hadvance
      exact .inl ⟨s₂, by rw [hrest, hcomma], hnodes, h₂⟩
  · split at h₁
    · next hclosing =>
        obtain ⟨_, s₂, hadvance, hpure⟩ := bind_ok h₁
        cases hpure
        obtain ⟨hrest, hnodes⟩ := advance_ok htoken hadvance
        exact .inr ⟨by rw [hrest, hclosing], hnodes, rfl⟩
    · cases h₁

section

variable (limits : Limits)

/-- What a parser of values makes of a text is derived, has less than `levels` levels, and its
values are counted. -/
def SoundValue (levels : Nat) (p : JsonParser JsonValue) : Prop :=
  ∀ s v s', p s = .ok (v, s') → Derives IsToken (.value v) s.rest s'.rest ∧ v.depth < levels ∧
    s'.nodes = s.nodes + v.nodes ∧ s'.nodes ≤ limits.maxJsonNodes

variable {limits} {levels total : Nat} {value : JsonParser JsonValue}
  (hvalue : SoundValue limits levels value)

include hvalue

/-- A value between whitespace. -/
theorem element_ok {s s₁ s₂ s' : Scanner} {u w : Unit} {v : JsonValue}
    (hfront : skipWhitespace s = .ok (u, s₁)) (hrun : value s₁ = .ok (v, s₂))
    (hback : skipWhitespace s₂ = .ok (w, s')) :
    Derives IsToken (.element v) s.rest s'.rest ∧ v.depth < levels ∧
      s'.nodes = s.nodes + v.nodes ∧ s'.nodes ≤ limits.maxJsonNodes := by
  obtain ⟨hws, hnodes₁⟩ := skipWhitespace_ok hfront
  obtain ⟨hderives, hdepth, hnodes, hroom⟩ := hvalue s₁ v s₂ hrun
  obtain ⟨hws', hnodes₂⟩ := skipWhitespace_ok hback
  rw [hnodes₂, ← hnodes₁]
  exact ⟨.element hws hderives hws', hdepth, hnodes, hroom⟩

/-- The loop over the items. -/
theorem parseItems_ok {rounds : Nat} {items : List JsonValue} {s s' : Scanner} {v : JsonValue}
    (h : parseItems value rounds items s = .ok (v, s')) :
    ∃ more, v = .array (items ++ more) ∧
      Derives IsToken (.elements more) s.rest (0x5d :: s'.rest) ∧
      JsonValue.depthItems more ≤ levels ∧ s'.nodes = s.nodes + JsonValue.nodesItems more ∧
      s'.nodes ≤ limits.maxJsonNodes := by
  induction rounds generalizing items s with
  | zero => cases h
  | succ rounds ih =>
      obtain ⟨_, s₁, hfront, h₁⟩ := bind_ok h
      obtain ⟨item, s₂, hrun, h₂⟩ := bind_ok h₁
      obtain ⟨_, s₃, hback, h₃⟩ := bind_ok h₂
      obtain ⟨hderives, hdepth, hnodes, hroom⟩ := element_ok hvalue hfront hrun hback
      obtain ⟨s₄, hcomma, hnodes₄, h₄⟩ | ⟨hend, hnodes₄, rfl⟩ := separator_ok h₃
      · obtain ⟨more, rfl, hmore, hdepths, hcount, hroom'⟩ := ih h₄
        rw [hcomma] at hderives
        refine ⟨item :: more, by rw [List.append_assoc]; rfl, .nextElement hderives hmore, ?_, ?_,
          hroom'⟩
        · rw [JsonValue.depthItems]
          exact max_le hdepth hdepths
        · rw [JsonValue.nodesItems, hcount, hnodes₄, hnodes, Nat.add_assoc]
      · rw [hend] at hderives
        refine ⟨[item], rfl, .lastElement hderives, ?_, ?_, ?_⟩
        · rw [JsonValue.depthItems, JsonValue.depthItems]
          exact max_le hdepth (Nat.zero_le _)
        · rw [JsonValue.nodesItems, JsonValue.nodesItems, hnodes₄, hnodes, Nat.add_zero]
        · rw [hnodes₄]
          exact hroom

/-- An array, behind the count of its own value. -/
theorem parseArray_ok {s s' : Scanner} {v : JsonValue} (h : parseArray total value s = .ok (v, s'))
    (hroom : s.nodes ≤ limits.maxJsonNodes) :
    Derives IsToken (.value v) s.rest s'.rest ∧ v.depth ≤ levels ∧
      s'.nodes + 1 = s.nodes + v.nodes ∧ s'.nodes ≤ limits.maxJsonNodes := by
  obtain ⟨t, s₁, hrest, hws, hnodes₁, ⟨hend, hnodes₂, rfl⟩ | hbody⟩ := opened_ok h
  · rw [hend] at hws
    rw [hrest, hnodes₂, hnodes₁]
    exact ⟨.emptyArray hws, Nat.zero_le _, rfl, hroom⟩
  · obtain ⟨items, rfl, hitems, hdepth, hnodes, hroom'⟩ := parseItems_ok hvalue hbody
    rw [hnodes, hnodes₁] at hroom'
    rw [hrest, hnodes, hnodes₁, List.nil_append, JsonValue.nodes]
    exact ⟨.array (hitems.ws_elements hws), by rw [JsonValue.depth]; exact hdepth, by omega, hroom'⟩

/-- The loop over the members. -/
theorem parseMembers_ok {rounds : Nat} {object : JsonObject} (hindexed : object.Indexed)
    {s s' : Scanner} {v : JsonValue} (h : parseMembers total value rounds object s = .ok (v, s')) :
    ∃ more, v = .object (object.members ++ more) ∧
      (JsonObject.keys (object.members ++ more)).Nodup ∧
      Derives IsToken (.members more) s.rest (0x7d :: s'.rest) ∧
      JsonValue.depthMembers more ≤ levels ∧ s'.nodes = s.nodes + JsonValue.nodesMembers more ∧
      s'.nodes ≤ limits.maxJsonNodes := by
  induction rounds generalizing object s with
  | zero => cases h
  | succ rounds ih =>
      obtain ⟨_, s₁, hfront, h₁⟩ := bind_ok h
      obtain ⟨name, s₂, hname, h₂⟩ := bind_ok h₁
      obtain ⟨_, s₃, hspace, h₃⟩ := bind_ok h₂
      obtain ⟨_, s₄, hcolon, h₄⟩ := bind_ok h₃
      obtain ⟨_, s₅, hfront', h₅⟩ := bind_ok h₄
      obtain ⟨member, s₆, hrun, h₆⟩ := bind_ok h₅
      obtain ⟨hws₁, hnodes₁⟩ := skipWhitespace_ok hfront
      obtain ⟨hstring, hnodes₂⟩ := parseString_ok hname
      obtain ⟨hws₃, hnodes₃⟩ := skipWhitespace_ok hspace
      obtain ⟨hrest₄, hnodes₄⟩ := expect_ok hcolon
      rw [hrest₄] at hws₃
      -- `try_insert` refuses a name that is there, so the names stay different.
      by_cases hold : name ∈ JsonObject.keys object.members
      · rw [hindexed.tryInsert, if_pos hold] at h₆
        cases h₆
      rw [hindexed.tryInsert, if_neg hold] at h₆
      obtain ⟨_, s₇, hback, h₇⟩ := bind_ok h₆
      obtain ⟨hderives, hdepth, hnodes, hroom⟩ := element_ok hvalue hfront' hrun hback
      have hmember : Derives IsToken (.member (name, member)) s.rest s₇.rest :=
        .member hws₁ hstring hws₃ hderives
      rw [hnodes₄, hnodes₃, hnodes₂, hnodes₁] at hnodes
      have hindexed' := hindexed.append hold member
      obtain ⟨s₈, hcomma, hnodes₈, h₈⟩ | ⟨hend, hnodes₈, rfl⟩ := separator_ok h₇
      · obtain ⟨more, rfl, hnodup, hmore, hdepths, hcount, hroom'⟩ := ih hindexed' h₈
        have happend : (object.append name member).members ++ more
            = object.members ++ (name, member) :: more := List.append_assoc _ _ _
        rw [happend] at hnodup ⊢
        rw [hcomma] at hmember
        refine ⟨(name, member) :: more, rfl, hnodup, .nextMember hmember hmore, ?_, ?_, hroom'⟩
        · rw [JsonValue.depthMembers]
          exact max_le hdepth hdepths
        · rw [JsonValue.nodesMembers, JsonValue.nodesMember, hcount, hnodes₈, hnodes,
            Nat.add_assoc]
      · rw [hend] at hmember
        refine ⟨[(name, member)], rfl, hindexed'.nodup, .lastMember hmember, ?_, ?_, ?_⟩
        · rw [JsonValue.depthMembers, JsonValue.depthMembers]
          exact max_le hdepth (Nat.zero_le _)
        · rw [JsonValue.nodesMembers, JsonValue.nodesMembers, JsonValue.nodesMember, hnodes₈,
            hnodes, Nat.add_zero]
        · rw [hnodes₈]
          exact hroom

/-- An object, behind the count of its own value. -/
theorem parseObject_ok {s s' : Scanner} {v : JsonValue}
    (h : parseObject total value s = .ok (v, s')) (hroom : s.nodes ≤ limits.maxJsonNodes) :
    Derives IsToken (.value v) s.rest s'.rest ∧ v.depth ≤ levels ∧
      s'.nodes + 1 = s.nodes + v.nodes ∧ s'.nodes ≤ limits.maxJsonNodes := by
  obtain ⟨t, s₁, hrest, hws, hnodes₁, ⟨hend, hnodes₂, rfl⟩ | hbody⟩ := opened_ok h
  · rw [hend] at hws
    rw [hrest, hnodes₂, hnodes₁]
    exact ⟨.emptyObject hws, Nat.zero_le _, rfl, hroom⟩
  · obtain ⟨members, rfl, hnodup, hmembers, hdepth, hnodes, hroom'⟩ :=
      parseMembers_ok hvalue .empty hbody
    rw [hnodes, hnodes₁] at hroom'
    rw [hrest, hnodes, hnodes₁]
    refine ⟨.object hnodup (hmembers.ws_members hws), ?_, ?_, hroom'⟩
    · rw [JsonValue.depth]
      exact hdepth
    · show _ = s.nodes + (JsonValue.object members).nodes
      rw [JsonValue.nodes]
      omega

end

/-! ### Values and documents -/

/-- What is parsed with some levels left has fewer. -/
theorem parseValue_sound (limits : Limits) (total levels : Nat) :
    SoundValue limits levels (parseValue limits total levels) := by
  induction levels with
  | zero =>
      intro s v s' h
      cases h
  | succ levels ih =>
      intro s v s' h
      obtain ⟨_, s₁, hcount, h₁⟩ := bind_ok h
      obtain ⟨next, s₂, hpeek, h₂⟩ := bind_ok h₁
      obtain ⟨rfl, t, -⟩ := peek_ok hpeek
      obtain ⟨hrest, hnodes, hroom⟩ := countNode_ok hcount
      rw [← hrest]
      -- A value without parts: it has no level of its own and is one value.
      have hscalar : Derives IsToken (.value v) s₂.rest s'.rest → s'.nodes = s₂.nodes →
          v.depth = 0 → v.nodes = 1 → Derives IsToken (.value v) s₂.rest s'.rest ∧
            v.depth < levels + 1 ∧ s'.nodes = s.nodes + v.nodes ∧
            s'.nodes ≤ limits.maxJsonNodes := by
        intro hderives hsame hdepth hone
        exact ⟨hderives, by omega, by omega, by omega⟩
      have hliteral : ∀ {literal : Text} {w : JsonValue},
          (∀ rest, Derives IsToken (.value w) (literal ++ rest) rest) → w.depth = 0 →
          w.nodes = 1 → parseLiteral total literal w s₂ = .ok (v, s') →
          Derives IsToken (.value v) s₂.rest s'.rest ∧ v.depth < levels + 1 ∧
            s'.nodes = s.nodes + v.nodes ∧ s'.nodes ≤ limits.maxJsonNodes := by
        intro literal w hderives hdepth hone hparse
        obtain ⟨rfl, hrest', hsame⟩ := parseLiteral_ok hparse
        refine hscalar ?_ hsame hdepth hone
        rw [hrest']
        exact hderives s'.rest
      split at h₂
      · obtain ⟨hderives, hdepth, hcounted, hroom'⟩ := parseObject_ok ih h₂ hroom
        exact ⟨hderives, Nat.lt_succ_of_le hdepth, by omega, hroom'⟩
      split at h₂
      · obtain ⟨hderives, hdepth, hcounted, hroom'⟩ := parseArray_ok ih h₂ hroom
        exact ⟨hderives, Nat.lt_succ_of_le hdepth, by omega, hroom'⟩
      split at h₂
      · obtain ⟨text, hstring, rfl⟩ := map_ok h₂
        obtain ⟨hderives, hsame⟩ := parseString_ok hstring
        exact hscalar (.string hderives) hsame rfl rfl
      split at h₂
      · exact hliteral (fun _ => .literalTrue) rfl rfl h₂
      split at h₂
      · exact hliteral (fun _ => .literalFalse) rfl rfl h₂
      split at h₂
      · exact hliteral (fun _ => .literalNull) rfl rfl h₂
      · obtain ⟨⟨token, htoken, hword⟩, hnumeric, hsame⟩ := parseNumber_ok h₂
        have hatom : v.depth = 0 ∧ v.nodes = 1 := by
          cases v with
          | int _ => exact ⟨rfl, rfl⟩
          | double _ => exact ⟨rfl, rfl⟩
          | _ => cases hnumeric
        refine hscalar ?_ hsame hatom.1 hatom.2
        rw [htoken]
        exact .number hword hnumeric

end Json

/-- An accepted text is derived and is within the bounds. -/
theorem parseJson_sound {text : Text} {limits : Limits} {v : JsonValue}
    (h : parseJson text limits = .ok v) :
    Json.Grammar.Derives Json.IsToken (.element v) text [] ∧ v.depth < limits.jsonLevels ∧
      v.nodes ≤ limits.maxJsonNodes ∧ text.length ≤ limits.maxDocumentBytes := by
  obtain ⟨hbytes, h₁⟩ := seq_eq_ok.mp h
  obtain ⟨⟨w, s⟩, hdocument, h₂⟩ := bind_eq_ok.mp h₁
  obtain ⟨hend, hpure⟩ := seq_eq_ok.mp h₂
  cases hpure
  obtain ⟨_, s₁, hfront, hd₁⟩ := Json.bind_ok hdocument
  obtain ⟨w, s₂, hrun, hd₂⟩ := Json.bind_ok hd₁
  obtain ⟨_, s₃, hback, hpure⟩ := Json.bind_ok hd₂
  cases hpure
  obtain ⟨hderives, hdepth, hnodes, hroom⟩ :=
    Json.element_ok (Json.parseValue_sound limits text.length limits.jsonLevels) hfront hrun hback
  have hrest : s.rest = [] := not_not.mp (failIf_eq_ok.mp hend)
  rw [hrest] at hderives
  exact ⟨hderives, hdepth, by omega, Nat.not_lt.mp (failIf_eq_ok.mp hbytes)⟩

/-! ### The words of a derived text -/

namespace Json

open Grammar

/-- A byte outside of strings that is neither part of a word nor a quote. -/
theorem words_cons {c : UInt8} (hc : isWordChar c = false) (hquote : c ≠ 0x22) (rest : Text) :
    words (c :: rest) = words rest := by
  rw [words, wordsFrom, if_neg (by rw [hc]; exact Bool.false_ne_true), if_neg hquote]
  rfl

theorem words_ws {t rest : Text} (h : Ws t rest) : words t = words rest := by
  induction h with
  | nil => rfl
  | @cons c t rest hc _ ih =>
      have hspace : ∀ d ∈ ([0x20, 0x09, 0x0a, 0x0d] : Text), isWordChar d = false ∧ d ≠ 0x22 := by
        simp [isWordChar]
      rw [words_cons (hspace c hc).1 (hspace c hc).2, ih]

/-- The text starts with a byte that ends a word. -/
def Ends (t : Text) : Prop := ∀ c ∈ t.head?, isWordChar c = false

theorem ends_nil : Ends [] := by
  intro c hc
  cases hc

theorem ends_cons {c : UInt8} (hc : isWordChar c = false) (rest : Text) : Ends (c :: rest) := by
  intro d hd
  cases hd
  exact hc

theorem Ends.of_ws {t rest : Text} (hrest : Ends rest) (h : Ws t rest) : Ends t := by
  cases h with
  | nil => exact hrest
  | @cons c t _ hc _ =>
      have hspace : ∀ d ∈ ([0x20, 0x09, 0x0a, 0x0d] : Text), isWordChar d = false := by
        simp [isWordChar]
      exact ends_cons (hspace c hc) t

/-- A run of word bytes is collected, and it is a word where it ends. -/
theorem words_append {t rest : Text} (ht : t ≠ []) (hword : ∀ c ∈ t, isWordChar c = true)
    (hrest : Ends rest) : words (t ++ rest) = t :: words rest := by
  have hcollect : ∀ (t word : Text), (∀ c ∈ t, isWordChar c = true) →
      wordsFrom (.outside word) (t ++ rest) = wordsFrom (.outside (word ++ t)) rest := by
    intro t
    induction t with
    | nil => intro word _; rw [List.append_nil, List.nil_append]
    | cons c t ih =>
        intro word hchars
        obtain ⟨hc, hchars⟩ := List.forall_mem_cons.mp hchars
        rw [List.cons_append, wordsFrom, if_pos hc, ih _ hchars, List.append_assoc]
        rfl
  have hflush : flush t = [t] := if_neg ht
  rw [words, hcollect t [] hword, List.nil_append]
  cases rest with
  | nil => rw [wordsFrom, hflush]; rfl
  | cons c rest =>
      have hc : ¬ isWordChar c = true := by
        rw [hrest c rfl]
        exact Bool.false_ne_true
      rw [words, wordsFrom, wordsFrom, if_neg hc, if_neg hc, hflush]
      rfl

/-- A hexadecimal digit is neither a quote nor a backslash. -/
theorem Grammar.HexDigit.not_special {c : UInt8} {value : Nat} (h : HexDigit c value) :
    c ≠ 0x5c ∧ c ≠ 0x22 := by
  constructor <;> rintro rfl <;> rcases h with ⟨hlow, hhigh⟩ | ⟨hlow, hhigh⟩ | ⟨hlow, hhigh⟩ <;>
    revert hlow hhigh <;> decide

/-- The digits of an escape are neither quotes nor backslashes. -/
theorem wordsFrom_unicode {number : Nat} {t rest : Text} (h : IsUnicode number t rest) :
    wordsFrom .inside t = wordsFrom .inside rest := by
  obtain ⟨a, b, c, d, w, x, y, z, rfl, ha, hb, hc, hd, -⟩ := h
  replace ha := ha.not_special
  replace hb := hb.not_special
  replace hc := hc.not_special
  replace hd := hd.not_special
  rw [wordsFrom, if_pos rfl, wordsFrom]
  simp only [wordsFrom, if_neg ha.1, if_neg ha.2, if_neg hb.1, if_neg hb.2, if_neg hc.1,
    if_neg hc.2, if_neg hd.1, if_neg hd.2]

theorem wordsFrom_chars {t s rest : Text} (h : Chars t s rest) :
    wordsFrom .inside t = wordsFrom .inside rest := by
  induction h with
  | nil => rfl
  | unescaped _ hquote hslash _ ih => rw [wordsFrom, if_neg hslash, if_neg hquote, ih]
  | escaped _ _ ih => rw [wordsFrom, if_pos rfl, wordsFrom, ih]
  | unicode hnumber _ _ ih => rw [wordsFrom_unicode hnumber, ih]
  | surrogates hhigh hlow _ _ _ ih => rw [wordsFrom_unicode hhigh, wordsFrom_unicode hlow, ih]
  | loneSurrogate hhigh _ _ _ ih => rw [wordsFrom_unicode hhigh, ih]

/-- A string has no words. -/
theorem words_string {t s rest : Text} (h : StringLit t s rest) : words t = words rest := by
  obtain ⟨t, rfl, hchars⟩ := h
  rw [words, wordsFrom, if_neg (by decide), if_pos rfl, wordsFrom_chars hchars, wordsFrom,
    if_neg (by decide), if_pos rfl]
  rfl

/-- A token is a word, and none of the literals. -/
theorem IsToken.word {t : Text} (h : IsToken t) :
    (∀ c ∈ t, isWordChar c = true) ∧ t ∉ literals := by
  have hpunctuation : ∀ c ∈ ([0x20, 0x09, 0x0a, 0x0d, 0x5b, 0x5d, 0x7b, 0x7d, 0x2c, 0x3a, 0x22] :
      Text), isNumberChar c = false := by simp [isNumberChar, isDigit]
  have hliteral : ∀ w ∈ literals, ∃ c ∈ w, isNumberChar c = false := by decide
  constructor
  · intro c hc
    rw [isWordChar, Bool.not_eq_true', ← Bool.not_eq_true, List.contains_iff_mem]
    intro hmem
    have hnot := hpunctuation c hmem
    rw [h.2 c hc] at hnot
    cases hnot
  · intro hmem
    obtain ⟨c, hc, hnot⟩ := hliteral t hmem
    rw [h.2 c hc] at hnot
    cases hnot

theorem IsDigits.isNumberChar {t : Text} (h : IsDigits t) : ∀ c ∈ t, isNumberChar c = true := by
  intro c hc
  obtain ⟨hlow, hhigh⟩ := h.2 c hc
  simp [Json.isNumberChar, isDigit, hlow, hhigh]

/-- The grammar's numbers are tokens. -/
theorem IsToken.of_isNumber {t : Text} (h : IsNumber t) : IsToken t := by
  obtain ⟨minus, int, frac, exp, rfl, hminus, hint, hfrac, hexp⟩ := h
  have hminusChars : ∀ c ∈ minus, isNumberChar c = true := by
    rcases hminus with rfl | rfl <;> simp [isNumberChar]
  have hintChars : int ≠ [] ∧ ∀ c ∈ int, isNumberChar c = true := by
    rcases hint with rfl | ⟨hdigits, -⟩
    · simp [isNumberChar, isDigit]
    · exact ⟨hdigits.1, IsDigits.isNumberChar hdigits⟩
  have hfracChars : ∀ c ∈ frac, isNumberChar c = true := by
    rcases hfrac with rfl | ⟨digits, rfl, hdigits⟩
    · exact List.forall_mem_nil _
    · exact List.forall_mem_cons.mpr ⟨rfl, IsDigits.isNumberChar hdigits⟩
  have hexpChars : ∀ c ∈ exp, isNumberChar c = true := by
    rcases hexp with rfl | ⟨e, sign, digits, rfl, he, hsign, hdigits⟩
    · exact List.forall_mem_nil _
    · refine List.forall_mem_cons.mpr ⟨by rcases he with rfl | rfl <;> rfl, ?_⟩
      refine List.forall_mem_append.mpr ⟨?_, IsDigits.isNumberChar hdigits⟩
      rcases hsign with rfl | rfl | rfl <;> simp [isNumberChar]
  refine ⟨fun hnil => ?_, ?_⟩
  · exact hintChars.1 (List.append_eq_nil_iff.mp (List.append_eq_nil_iff.mp hnil).2).1
  · exact List.forall_mem_append.mpr ⟨hminusChars, List.forall_mem_append.mpr
      ⟨hintChars.2, List.forall_mem_append.mpr ⟨hfracChars, hexpChars⟩⟩⟩

/-- Behind a leading zero a number has a point or an exponent, if it goes on. -/
theorem mem_of_isNumber_zero {c : UInt8} {t : Text} (h : IsNumber (0x30 :: c :: t)) :
    c ∈ ([0x2e, 0x65, 0x45] : Text) := by
  obtain ⟨minus, int, frac, exp, heq, hminus, hint, hfrac, hexp⟩ := h
  have hnominus : minus = [] := by
    rcases hminus with rfl | rfl
    · rfl
    · exact absurd (List.cons.inj heq).1 (by decide)
  subst hnominus
  rcases hint with rfl | ⟨⟨hne, -⟩, hhead⟩
  · have hrest : c :: t = frac ++ exp := (List.cons.inj heq).2
    rcases hfrac with rfl | ⟨digits, rfl, -⟩
    · rcases hexp with rfl | ⟨e, sign, digits, rfl, he, -⟩
      · cases hrest
      · rw [(List.cons.inj hrest).1]
        rcases he with rfl | rfl <;> decide
    · rw [(List.cons.inj hrest).1]
      decide
  · cases int with
    | nil => exact absurd rfl hne
    | cons d int => exact absurd (congrArg some (List.cons.inj heq).1.symm) hhead

theorem words_literal {t rest : Text} (ht : t ∈ literals) (hrest : Ends rest) :
    words (t ++ rest) = t :: words rest := by
  have hword : ∀ t ∈ literals, t ≠ [] ∧ t.all isWordChar = true := by decide
  exact words_append (hword t ht).1 (List.all_eq_true.mp (hword t ht).2) hrest

/-- The words of a derived text are literals and the numbers that were derived. When they are all
numbers of another kind, the text is derived with that kind. -/
theorem words_derived {number : Text → Prop} (number' : Text → Prop)
    (hnumber : ∀ t, number t → IsToken t) {p : Phrase} {t rest : Text}
    (h : Derives number p t rest) (hrest : Ends rest) :
    ∃ found : List Text, words t = found ++ words rest ∧
      (∀ w ∈ found, w ∈ literals ∨ number w) ∧
      ((∀ w ∈ found, w ∈ literals ∨ number' w) → Derives number' p t rest) := by
  induction h with
  | literalNull =>
      have hliteral : ascii "null" ∈ literals := by decide
      refine ⟨[ascii "null"], words_literal hliteral hrest, ?_, fun _ => .literalNull⟩
      exact List.forall_mem_singleton.mpr (.inl hliteral)
  | literalTrue =>
      have hliteral : ascii "true" ∈ literals := by decide
      refine ⟨[ascii "true"], words_literal hliteral hrest, ?_, fun _ => .literalTrue⟩
      exact List.forall_mem_singleton.mpr (.inl hliteral)
  | literalFalse =>
      have hliteral : ascii "false" ∈ literals := by decide
      refine ⟨[ascii "false"], words_literal hliteral hrest, ?_, fun _ => .literalFalse⟩
      exact List.forall_mem_singleton.mpr (.inl hliteral)
  | @number t rest v ht hv =>
      obtain ⟨hchars, hnot⟩ := (hnumber t ht).word
      refine ⟨[t], words_append (hnumber t ht).1 hchars hrest, ?_, fun hfound => ?_⟩
      · exact List.forall_mem_singleton.mpr (.inr ht)
      · exact .number ((hfound t List.mem_cons_self).resolve_left hnot) hv
  | string h => exact ⟨[], words_string h, List.forall_mem_nil _, fun _ => .string h⟩
  | emptyArray h =>
      refine ⟨[], ?_, List.forall_mem_nil _, fun _ => .emptyArray h⟩
      rw [words_cons (by decide) (by decide), words_ws h, words_cons (by decide) (by decide)]
      rfl
  | array h ih =>
      obtain ⟨found, hwords, hkinds, hother⟩ := ih (ends_cons (by decide) _)
      refine ⟨found, ?_, hkinds, fun hfound => .array (hother hfound)⟩
      rw [words_cons (by decide) (by decide), hwords, words_cons (by decide) (by decide)]
  | emptyObject h =>
      refine ⟨[], ?_, List.forall_mem_nil _, fun _ => .emptyObject h⟩
      rw [words_cons (by decide) (by decide), words_ws h, words_cons (by decide) (by decide)]
      rfl
  | object hnames h ih =>
      obtain ⟨found, hwords, hkinds, hother⟩ := ih (ends_cons (by decide) _)
      refine ⟨found, ?_, hkinds, fun hfound => .object hnames (hother hfound)⟩
      rw [words_cons (by decide) (by decide), hwords, words_cons (by decide) (by decide)]
  | element hfront h hback ih =>
      obtain ⟨found, hwords, hkinds, hother⟩ := ih (hrest.of_ws hback)
      refine ⟨found, ?_, hkinds, fun hfound => .element hfront (hother hfound) hback⟩
      rw [words_ws hfront, hwords, words_ws hback]
  | lastElement h ih =>
      obtain ⟨found, hwords, hkinds, hother⟩ := ih hrest
      exact ⟨found, hwords, hkinds, fun hfound => .lastElement (hother hfound)⟩
  | nextElement h hmore ih ihmore =>
      obtain ⟨found, hwords, hkinds, hother⟩ := ih (ends_cons (by decide) _)
      obtain ⟨found', hwords', hkinds', hother'⟩ := ihmore hrest
      refine ⟨found ++ found', ?_, List.forall_mem_append.mpr ⟨hkinds, hkinds'⟩, fun hfound => ?_⟩
      · rw [hwords, words_cons (by decide) (by decide), hwords', List.append_assoc]
      · obtain ⟨hleft, hright⟩ := List.forall_mem_append.mp hfound
        exact .nextElement (hother hleft) (hother' hright)
  | member hfront hname hcolon h ih =>
      obtain ⟨found, hwords, hkinds, hother⟩ := ih hrest
      refine ⟨found, ?_, hkinds, fun hfound => .member hfront hname hcolon (hother hfound)⟩
      rw [words_ws hfront, words_string hname, words_ws hcolon,
        words_cons (by decide) (by decide), hwords]
  | lastMember h ih =>
      obtain ⟨found, hwords, hkinds, hother⟩ := ih hrest
      exact ⟨found, hwords, hkinds, fun hfound => .lastMember (hother hfound)⟩
  | nextMember h hmore ih ihmore =>
      obtain ⟨found, hwords, hkinds, hother⟩ := ih (ends_cons (by decide) _)
      obtain ⟨found', hwords', hkinds', hother'⟩ := ihmore hrest
      refine ⟨found ++ found', ?_, List.forall_mem_append.mpr ⟨hkinds, hkinds'⟩, fun hfound => ?_⟩
      · rw [hwords, words_cons (by decide) (by decide), hwords', List.append_assoc]
      · obtain ⟨hleft, hright⟩ := List.forall_mem_append.mp hfound
        exact .nextMember (hother hleft) (hother' hright)

end Json

/-! ### Strictness -/

/-- The text is a document of the grammar, within the bounds. -/
def WellFormed (text : Text) (limits : Limits) : Prop :=
  text.length ≤ limits.maxDocumentBytes ∧ ∃ v : JsonValue, Json.Grammar.IsDocument v text ∧
    v.depth ≤ limits.maxJsonDepth ∧ v.nodes ≤ limits.maxJsonNodes

/-- The levels that are admitted are at most those of the bound. -/
theorem Limits.jsonLevels_le (limits : Limits) : limits.jsonLevels ≤ limits.maxJsonDepth + 1 := by
  have hcast : (Int32.ofNat limits.maxJsonDepth).toInt ≤ limits.maxJsonDepth := by
    -- The cast only ever takes multiples of `2 ^ 32` away.
    have hsize : (Int32.size : Int) = 4294967296 := rfl
    rw [Int32.toInt_ofNat', Int.bmod, hsize]
    split <;> omega
  rw [jsonLevels]
  omega

/-- The words of a document are literals and numbers. -/
theorem WellFormed.words {text : Text} {limits : Limits} (h : WellFormed text limits) :
    ∀ word ∈ Json.Grammar.words text,
      word ∈ Json.Grammar.literals ∨ Json.Grammar.IsNumber word := by
  obtain ⟨-, v, hdocument, -⟩ := h
  obtain ⟨found, hwords, hkinds, -⟩ := Json.words_derived (fun _ => False)
    (fun _ => Json.IsToken.of_isNumber) hdocument Json.ends_nil
  rw [hwords, show Json.Grammar.words [] = [] from rfl, List.append_nil]
  exact hkinds

/-- The numbers are all that an accepted text may have wrong. -/
theorem wellFormed_iff_numbers {text : Text} {limits : Limits} {v : JsonValue}
    (h : parseJson text limits = .ok v) :
    WellFormed text limits ↔ ∀ word ∈ Json.Grammar.words text,
      word ∈ Json.Grammar.literals ∨ Json.Grammar.IsNumber word := by
  refine ⟨WellFormed.words, fun hnumbers => ?_⟩
  -- The parse derives the text with tokens for numbers, and these tokens are among the words.
  obtain ⟨hderives, hdepth, hnodes, hbytes⟩ := parseJson_sound h
  obtain ⟨found, hwords, -, hdocument⟩ := Json.words_derived Json.Grammar.IsNumber
    (fun _ => id) hderives Json.ends_nil
  rw [hwords, show Json.Grammar.words [] = [] from rfl, List.append_nil] at hnumbers
  refine ⟨hbytes, v, hdocument hnumbers, ?_, hnodes⟩
  have hlevels := limits.jsonLevels_le
  omega

/-- An array of one number. -/
theorem array_wellFormed : WellFormed (ascii "[1]") {} := by
  have hparse : parseJson (ascii "[1]") {} = .ok (.array [.int 1]) := rfl
  refine (wellFormed_iff_numbers hparse).mpr ?_
  rw [show Json.Grammar.words (ascii "[1]") = [ascii "1"] by decide]
  intro word hword
  rw [List.mem_singleton.mp hword]
  exact .inr ⟨[], ascii "1", [], [], rfl, .inl rfl,
    .inr ⟨⟨by decide, List.forall_mem_singleton.mpr (by decide)⟩, by decide⟩, .inl rfl, .inl rfl⟩

/-- A leading zero is read, where the grammar has no number. -/
theorem leading_zero_accepted :
    (parseJson (ascii "01") {}).isOk = true ∧ ¬ WellFormed (ascii "01") {} := by
  refine ⟨by decide +kernel, fun h => ?_⟩
  rcases h.words (ascii "01") (by decide) with hliteral | hnumber
  · exact absurd hliteral (by decide)
  · exact absurd (Json.mem_of_isNumber_zero hnumber) (by decide)

end CongestionObservatory
