import CongestionObservatory.Proofs.Core.JsonSound

/-!
# `CongestionObservatory.Proofs.Core.JsonRoundTrip`: values that come back from their texts

A value without a `double` is `Assembled` from scalars, arrays and the calls of `set` and
`try_insert` that filled its objects. What the calls leave for a key is `lastSet`: a partial
function of keys that knows nothing of members and index. `filled_spec` connects the two.

`parseJson` makes such a value of its text again, within the bounds, if two computations on `int`
go well: the one that casts `max_json_depth`, and the products of `append_indent` that the writer
needs (`ValueFits`). `readBack_iff` says that this is exactly when.

Wider bounds do not change what is read (`parseJson_widen`), so a text that is read under any bounds
is read as the value it was made of (`parseJson_dump_iff`).
-/

set_option autoImplicit false

namespace CongestionObservatory

open Lib

/-! ### Objects filled by calls -/

namespace JsonObject

/-- A call that fills an object. -/
inductive Call where
  | set (key : Text) (value : JsonValue)
  | tryInsert (key : Text) (value : JsonValue)

/-- The value of a call. -/
def Call.value : Call → JsonValue
  | .set _ value => value
  | .tryInsert _ value => value

/-- The object after a call. -/
def Call.run (o : JsonObject) : Call → JsonObject
  | .set key value => o.set key value
  | .tryInsert key value => (o.tryInsert key value).getD o

/-- An object filled by calls. -/
def filled (calls : List Call) : JsonObject := calls.foldl Call.run {}

/-- What a key has after a call: `set` replaces, `try_insert` does not. -/
def Call.store (key : Text) (found : Option JsonValue) : Call → Option JsonValue
  | .set key' value => if key' = key then some value else found
  | .tryInsert key' value => if key' = key then found.or (some value) else found

/-- What the calls leave for a key. -/
def lastSet (calls : List Call) (key : Text) : Option JsonValue :=
  calls.foldl (Call.store key) none

theorem filled_concat (calls : List Call) (call : Call) :
    filled (calls ++ [call]) = call.run (filled calls) := by
  rw [filled, List.foldl_append]
  rfl

theorem lastSet_concat (calls : List Call) (call : Call) (key : Text) :
    lastSet (calls ++ [call]) key = call.store key (lastSet calls key) := by
  rw [lastSet, List.foldl_append]
  rfl

/-- The value that is left comes from a call. -/
theorem exists_call_of_lastSet {calls : List Call} {key : Text} {value : JsonValue}
    (h : lastSet calls key = some value) : ∃ call ∈ calls, call.value = value := by
  induction calls using List.reverseRecOn generalizing value with
  | nil => cases h
  | append_singleton calls call ih =>
      have hold : lastSet calls key = some value → ∃ call' ∈ calls ++ [call], call'.value = value := by
        intro hfound
        obtain ⟨call', hmem, hvalue⟩ := ih hfound
        exact ⟨call', List.mem_append_left _ hmem, hvalue⟩
      have hlast : some call.value = some value →
          ∃ call' ∈ calls ++ [call], call'.value = value := fun hvalue =>
        ⟨call, List.mem_append_right _ (List.mem_singleton_self call), Option.some.inj hvalue⟩
      rw [lastSet_concat] at h
      cases call with
      | set key' value' =>
          rw [Call.store] at h
          split at h
          · exact hlast h
          · exact hold h
      | tryInsert key' value' =>
          rw [Call.store] at h
          split at h
          · cases hfound : lastSet calls key with
            | none => exact hlast (by rwa [hfound] at h)
            | some found => exact hold (by rwa [hfound] at h ⊢)
          · exact hold h

/-- The index depends on the keys alone. -/
theorem indexOf_eq_of_keys {members members' : List (Text × JsonValue)}
    (h : keys members = keys members') : indexOf members = indexOf members' := by
  have hkeys : ∀ members, indexOf members
      = (keys members).zipIdx.foldl (fun index key => index.emplace key.1 key.2)
          OrdMap.empty := by
    intro members
    rw [keys, List.zipIdx_map, List.foldl_map]
    rfl
  rw [hkeys, hkeys, h]

theorem Indexed.find_eq_none {o : JsonObject} (h : o.Indexed) {key : Text} :
    o.find key = none ↔ key ∉ keys o.members := by
  rw [h.find, Option.map_eq_none_iff, List.find?_eq_none, keys, List.mem_map]
  constructor
  · rintro hnone ⟨member, hmem, hkey⟩
    exact hnone member hmem (decide_eq_true hkey)
  · intro hnone member hmem hkey
    exact hnone ⟨member, hmem, of_decide_eq_true hkey⟩

theorem Indexed.find_append {o : JsonObject} (h : o.Indexed) {key : Text}
    (hnew : key ∉ keys o.members) (value : JsonValue) (key' : Text) :
    (o.append key value).find key' = if key = key' then some value else o.find key' := by
  have hmembers : (o.append key value).members = o.members ++ [(key, value)] := rfl
  rw [(h.append hnew value).find, h.find, hmembers, List.find?_append]
  split
  next hsame =>
    subst hsame
    have hnone := h.find_eq_none.mpr hnew
    rw [h.find, Option.map_eq_none_iff] at hnone
    rw [hnone]
    simp
  next hother => simp [hother]

/-- The index leads to a member with the key. -/
theorem Indexed.place {o : JsonObject} (h : o.Indexed) {key : Text} {i : Nat}
    (hfind : o.index.find? key = some i) : ∃ hi : i < o.members.length, o.members[i].1 = key := by
  rw [h.index, find?_indexOf, List.findIdx?_eq_some_iff_getElem] at hfind
  obtain ⟨hi, hkey, -⟩ := hfind
  exact ⟨hi, of_decide_eq_true hkey⟩

theorem Indexed.find_eq_bind {o : JsonObject} (h : o.Indexed) (key : Text) :
    o.find key = (o.index.find? key).bind fun i => (o.members[i]?).map Prod.snd := by
  rw [JsonObject.find, if_neg (by rw [h.index, size_indexOf h.nodup]; exact not_not.mpr rfl)]
  cases o.index.find? key <;> rfl

/-- The object with another value at a position. -/
def replaceAt (o : JsonObject) (i : Nat) (value : JsonValue) : JsonObject :=
  { o with members := o.members.modify i (fun member => (member.1, value)) }

theorem Indexed.replaceAt {o : JsonObject} (h : o.Indexed) (i : Nat) (value : JsonValue) :
    (o.replaceAt i value).Indexed := by
  have hkeys : keys (o.replaceAt i value).members = keys o.members := by
    apply List.ext_getElem?
    intro j
    rw [JsonObject.replaceAt, keys, keys, List.getElem?_map, List.getElem?_map,
      List.getElem?_modify]
    cases o.members[j]? with
    | none => rfl
    | some member => split <;> rfl
  exact ⟨h.index.trans (indexOf_eq_of_keys hkeys.symm), by rw [hkeys]; exact h.nodup⟩

/-- At the position of a key, only what the key has changes. -/
theorem Indexed.find_replaceAt {o : JsonObject} (h : o.Indexed) {key : Text} {i : Nat}
    (hfind : o.index.find? key = some i) (value : JsonValue) (key' : Text) :
    (o.replaceAt i value).find key' = if key = key' then some value else o.find key' := by
  have hindex : (o.replaceAt i value).index = o.index := rfl
  rw [(h.replaceAt i value).find_eq_bind, h.find_eq_bind, hindex]
  split
  next hsame =>
    obtain ⟨hi, -⟩ := h.place hfind
    rw [← hsame, hfind, Option.bind_some, JsonObject.replaceAt, List.getElem?_modify_eq,
      List.getElem?_eq_getElem hi]
    rfl
  next hother =>
    cases hfind' : o.index.find? key' with
    | none => rfl
    | some j =>
        obtain ⟨hi, hkey⟩ := h.place hfind
        obtain ⟨hj, hkey'⟩ := h.place hfind'
        -- Different keys have different positions.
        have hne : i ≠ j := by
          rintro rfl
          exact hother (hkey.symm.trans hkey')
        rw [Option.bind_some, Option.bind_some, JsonObject.replaceAt,
          List.getElem?_modify_ne _ _ hne]

/-- `set` replaces the value of a key that is there. -/
theorem Indexed.set_old {o : JsonObject} (h : o.Indexed) {key : Text} {i : Nat}
    (hfind : o.index.find? key = some i) (value : JsonValue) :
    o.set key value = o.replaceAt i value := by
  obtain ⟨hi, -⟩ := h.place hfind
  rw [set, h.reindexed, hfind]
  exact if_pos hi

/-- One call does to the object what it does to the function of keys. -/
theorem Indexed.run {o : JsonObject} (h : o.Indexed) (call : Call) :
    (call.run o).Indexed ∧ ∀ key, (call.run o).find key = call.store key (o.find key) := by
  cases call with
  | set key value =>
      show (o.set key value).Indexed ∧ ∀ key', (o.set key value).find key' = _
      cases hfind : o.index.find? key with
      | none =>
          rw [h.index, find?_indexOf_eq_none] at hfind
          rw [h.set_new hfind]
          exact ⟨h.append hfind value, h.find_append hfind value⟩
      | some i =>
          rw [h.set_old hfind]
          exact ⟨h.replaceAt i value, h.find_replaceAt hfind value⟩
  | tryInsert key value =>
      have hfind : o.find key = none ↔ key ∉ keys o.members := h.find_eq_none
      by_cases hmem : key ∈ keys o.members
      · have hrun : Call.run o (.tryInsert key value) = o := by
          rw [Call.run, h.tryInsert, if_pos hmem]
          rfl
        rw [hrun]
        refine ⟨h, fun key' => ?_⟩
        rw [Call.store]
        split
        next hsame =>
          subst hsame
          cases hfound : o.find key with
          | none => exact absurd hmem (hfind.mp hfound)
          | some found => rfl
        next => rfl
      · have hrun : Call.run o (.tryInsert key value) = o.append key value := by
          rw [Call.run, h.tryInsert, if_neg hmem]
          rfl
        rw [hrun]
        refine ⟨h.append hmem value, fun key' => ?_⟩
        rw [h.find_append hmem value, Call.store]
        split
        next hsame =>
          subst hsame
          rw [hfind.mpr hmem]
          rfl
        next => rfl

/-- **A filled object has what its calls leave**, for every key. -/
theorem filled_spec (calls : List Call) :
    (filled calls).Indexed ∧ ∀ key, (filled calls).find key = lastSet calls key := by
  induction calls using List.reverseRecOn with
  | nil => exact ⟨Indexed.empty, fun _ => rfl⟩
  | append_singleton calls call ih =>
      obtain ⟨hindexed, hfind⟩ := ih.1.run call
      rw [filled_concat]
      refine ⟨hindexed, fun key => ?_⟩
      rw [hfind, ih.2, lastSet_concat]

end JsonObject

/-- The value of an object finds what the object finds. -/
theorem JsonValue.member_ofObject {o : JsonObject} (h : o.Indexed) (key : Text) :
    (JsonValue.ofObject o).member key = o.find key := by
  rw [JsonValue.ofObject, JsonValue.member_object h.nodup, h.find]

/-! ### Values built of them -/

/-- A value built from all but doubles. -/
inductive JsonValue.Assembled : JsonValue → Prop
  | null : Assembled .null
  | bool (value : Bool) : Assembled (.bool value)
  | int (value : Int64) : Assembled (.int value)
  | string (text : Text) : Assembled (.string text)
  | array {items : List JsonValue} (h : ∀ item ∈ items, Assembled item) : Assembled (.array items)
  | object {calls : List JsonObject.Call} (h : ∀ call ∈ calls, Assembled call.value) :
      Assembled (.ofObject (.filled calls))

/-- A part of a value: the value itself, or a part of an item or a member. -/
inductive JsonValue.Within (part : JsonValue) : JsonValue → Prop
  | self : Within part part
  | item {item : JsonValue} {items : List JsonValue} (hmem : item ∈ items)
      (h : Within part item) : Within part (.array items)
  | member {member : Text × JsonValue} {members : List (Text × JsonValue)}
      (hmem : member ∈ members) (h : Within part member.2) : Within part (.object members)

theorem JsonValue.Assembled.plain {v : JsonValue} (h : v.Assembled) : v.Plain := by
  induction h with
  | null | bool | int | string => trivial
  | array h ih => exact JsonValue.plainItems_iff.mpr ih
  | @object calls h ih =>
      -- A member of the object is what some call set last.
      obtain ⟨hindexed, hfind⟩ := JsonObject.filled_spec calls
      refine ⟨hindexed.nodup, JsonValue.plainMembers_iff.mpr fun member hmem => ?_⟩
      have hmember := JsonValue.member_of_mem hindexed.nodup hmem
      have hlast : JsonObject.lastSet calls member.1 = some member.2 := by
        rw [← hfind, ← JsonValue.member_ofObject hindexed]
        exact hmember
      obtain ⟨call, hcall, hvalue⟩ := JsonObject.exists_call_of_lastSet hlast
      rw [← hvalue]
      exact ih call hcall

/-! ### The products of the writer -/

namespace Json

/-- `append_indent` gets its level as an `int` and computes `indent * level` in one. -/
def IndentFits (indent : Int) (level : Nat) : Prop :=
  level ≤ 2147483647 ∧ (indent ≤ 0 ∨ indent * level ≤ 2147483647)

mutual

/-- Every call of `append_indent` in `write_value` stays within its `int`. -/
def ValueFits (indent : Int) (level : Nat) : JsonValue → Prop
  | .array (item :: items) =>
    IndentFits indent (level + 1) ∧ ValueFits indent (level + 1) item ∧
      ItemsFit indent (level + 1) items ∧ IndentFits indent level
  | .object (member :: members) =>
    IndentFits indent (level + 1) ∧ MemberFits indent (level + 1) member ∧
      MembersFit indent (level + 1) members ∧ IndentFits indent level
  | _ => True

/-- The items after the first one. -/
def ItemsFit (indent : Int) (level : Nat) : List JsonValue → Prop
  | [] => True
  | item :: items =>
    IndentFits indent level ∧ ValueFits indent level item ∧ ItemsFit indent level items

/-- The value of a member. -/
def MemberFits (indent : Int) (level : Nat) : Text × JsonValue → Prop
  | (_, value) => ValueFits indent level value

/-- The members after the first one. -/
def MembersFit (indent : Int) (level : Nat) : List (Text × JsonValue) → Prop
  | [] => True
  | member :: members =>
    IndentFits indent level ∧ MemberFits indent level member ∧ MembersFit indent level members

end

theorem IndentFits.of_le {indent : Int} {level level' : Nat} (h : IndentFits indent level')
    (hle : level ≤ level') : IndentFits indent level := by
  refine ⟨hle.trans h.1, ?_⟩
  rcases h.2 with hneg | hfits
  · exact .inl hneg
  · by_cases hneg : indent ≤ 0
    · exact .inl hneg
    · have hmul : indent * level ≤ indent * level' := by gcongr; omega
      exact .inr (hmul.trans hfits)

theorem indentFits_max {indent : Int} {a b : Nat} :
    IndentFits indent (max a b) ↔ IndentFits indent a ∧ IndentFits indent b := by
  refine ⟨fun h => ⟨h.of_le (le_max_left a b), h.of_le (le_max_right a b)⟩, fun h => ?_⟩
  rcases max_choice a b with hmax | hmax
  · rw [hmax]
    exact h.1
  · rw [hmax]
    exact h.2

section

variable {indent : Int}

mutual

/-- The deepest level is the one that counts. -/
theorem valueFits_iff : ∀ {level : Nat} (v : JsonValue), IndentFits indent level →
    (ValueFits indent level v ↔ IndentFits indent (level + v.depth))
  | level, .null, h | level, .bool _, h | level, .int _, h | level, .double _, h
  | level, .string _, h | level, .array [], h | level, .object [], h => by
      simpa [ValueFits, JsonValue.depth, JsonValue.depthItems, JsonValue.depthMembers] using h
  | level, .array (item :: items), h => by
      have hitems := itemsFit_iff (item :: items) h
      rw [JsonValue.depth, ← hitems, ValueFits, ItemsFit]
      exact ⟨fun hfits => ⟨hfits.1, hfits.2.1, hfits.2.2.1⟩,
        fun hfits => ⟨hfits.1, hfits.2.1, hfits.2.2, h⟩⟩
  | level, .object (member :: members), h => by
      have hmembers := membersFit_iff (member :: members) h
      rw [JsonValue.depth, ← hmembers, ValueFits, MembersFit]
      exact ⟨fun hfits => ⟨hfits.1, hfits.2.1, hfits.2.2.1⟩,
        fun hfits => ⟨hfits.1, hfits.2.1, hfits.2.2, h⟩⟩

theorem itemsFit_iff : ∀ {level : Nat} (items : List JsonValue), IndentFits indent level →
    (ItemsFit indent (level + 1) items ↔ IndentFits indent (level + JsonValue.depthItems items))
  | level, [], h => by simpa [ItemsFit, JsonValue.depthItems] using h
  | level, item :: items, h => by
      have hnext : level + 1 + item.depth = level + (item.depth + 1) := by omega
      rw [ItemsFit, JsonValue.depthItems, ← Nat.add_max_add_left, indentFits_max,
        itemsFit_iff items h, ← and_assoc, ← hnext]
      refine and_congr_left fun _ => ⟨fun hfits => (valueFits_iff item hfits.1).mp hfits.2, ?_⟩
      intro hdeep
      have hone : IndentFits indent (level + 1) := hdeep.of_le (Nat.le_add_right _ _)
      exact ⟨hone, (valueFits_iff item hone).mpr hdeep⟩

theorem memberFits_iff : ∀ {level : Nat} (member : Text × JsonValue),
    IndentFits indent (level + 1) → (MemberFits indent (level + 1) member
      ↔ IndentFits indent (level + JsonValue.depthMember member))
  | level, (_, value), h => by
      have hnext : level + 1 + value.depth = level + (value.depth + 1) := by omega
      rw [MemberFits, JsonValue.depthMember, ← hnext]
      exact valueFits_iff value h

theorem membersFit_iff : ∀ {level : Nat} (members : List (Text × JsonValue)),
    IndentFits indent level → (MembersFit indent (level + 1) members
      ↔ IndentFits indent (level + JsonValue.depthMembers members))
  | level, [], h => by simpa [MembersFit, JsonValue.depthMembers] using h
  | level, member :: members, h => by
      rw [MembersFit, JsonValue.depthMembers, ← Nat.add_max_add_left, indentFits_max,
        membersFit_iff members h, ← and_assoc]
      refine and_congr_left fun _ => ⟨fun hfits => (memberFits_iff member hfits.1).mp hfits.2, ?_⟩
      intro hdeep
      have hpos : 1 ≤ JsonValue.depthMember member := by
        rw [JsonValue.depthMember]
        exact Nat.le_add_left 1 _
      have hone : IndentFits indent (level + 1) := hdeep.of_le (Nat.add_le_add_left hpos level)
      exact ⟨hone, (memberFits_iff member hone).mpr hdeep⟩

end

end

end Json

/-! ### Wider bounds -/

namespace Json

/-- What one parser reads, the other reads as well, and as the same. -/
def Widens {α : Type} (p q : JsonParser α) : Prop := ∀ s r, p s = .ok r → q s = .ok r

theorem Widens.refl {α : Type} (p : JsonParser α) : Widens p p := fun _ _ h => h

theorem Widens.bind {α β : Type} {p q : JsonParser α} {k l : α → JsonParser β} (h : Widens p q)
    (hk : ∀ a, Widens (k a) (l a)) : Widens (p >>= k) (q >>= l) := by
  intro s r hrun
  obtain ⟨a, s', hp, hrest⟩ := bind_ok hrun
  show Except.bind (q s) (fun r => l r.1 r.2) = .ok r
  rw [h s (a, s') hp]
  exact hk a s' r hrest

theorem Widens.ite {α : Type} {c : Prop} [Decidable c] {p q p' q' : JsonParser α}
    (h : Widens p q) (h' : Widens p' q') :
    Widens (if c then p else p') (if c then q else q') := by
  split
  · exact h
  · exact h'

theorem Widens.parseItems {value value' : JsonParser JsonValue} (h : Widens value value')
    (rounds : Nat) (items : List JsonValue) :
    Widens (parseItems value rounds items) (parseItems value' rounds items) := by
  induction rounds generalizing items with
  | zero => exact .refl _
  | succ rounds ih =>
      refine .bind (.refl _) fun _ => .bind h fun item => .bind (.refl _) fun _ =>
        .bind (.refl _) fun _ => .ite (.bind (.refl _) fun _ => ih _) (.refl _)

theorem Widens.parseMembers (total : Nat) {value value' : JsonParser JsonValue}
    (h : Widens value value') (rounds : Nat) (object : JsonObject) :
    Widens (parseMembers total value rounds object) (parseMembers total value' rounds object) := by
  induction rounds generalizing object with
  | zero => exact .refl _
  | succ rounds ih =>
      refine .bind (.refl _) fun _ => .bind (.refl _) fun key => .bind (.refl _) fun _ =>
        .bind (.refl _) fun _ => .bind (.refl _) fun _ => .bind h fun member => ?_
      cases object.tryInsert key member with
      | none => exact .refl _
      | some object =>
          exact .bind (.refl _) fun _ => .bind (.refl _) fun _ =>
            .ite (.bind (.refl _) fun _ => ih object) (.refl _)

theorem Widens.countNode {limits limits' : Limits}
    (hnodes : limits.maxJsonNodes ≤ limits'.maxJsonNodes) :
    Widens (countNode limits) (countNode limits') := by
  intro s r h
  unfold Json.countNode at h ⊢
  split at h
  · cases h
  · next hroom => rw [if_neg (by omega), h]

/-- The recursion goes as deep as it did, with more levels left. -/
theorem Widens.parseValue {limits limits' : Limits}
    (hnodes : limits.maxJsonNodes ≤ limits'.maxJsonNodes) (total : Nat) {levels levels' : Nat}
    (hlevels : levels ≤ levels') :
    Widens (parseValue limits total levels) (parseValue limits' total levels') := by
  induction levels generalizing levels' with
  | zero =>
      intro s r h
      cases h
  | succ levels ih =>
      cases levels' with
      | zero => omega
      | succ levels' =>
          have hvalue := ih (Nat.le_of_succ_le_succ hlevels)
          refine .bind (.countNode hnodes) fun _ => .bind (.refl _) fun _ => .ite ?_ (.ite ?_ (.refl _))
          · exact .bind (.refl _) fun _ => .bind (.refl _) fun _ => .bind (.refl _) fun _ =>
              .ite (.refl _) fun s => Widens.parseMembers total hvalue _ {} s
          · exact .bind (.refl _) fun _ => .bind (.refl _) fun _ => .bind (.refl _) fun _ =>
              .ite (.refl _) fun s => Widens.parseItems hvalue _ [] s

end Json

/-- Wider bounds do not change what is read. -/
theorem parseJson_widen {text : Text} {limits limits' : Limits} {v : JsonValue}
    (hbytes : limits.maxDocumentBytes ≤ limits'.maxDocumentBytes)
    (hnodes : limits.maxJsonNodes ≤ limits'.maxJsonNodes)
    (hlevels : limits.jsonLevels ≤ limits'.jsonLevels) (h : parseJson text limits = .ok v) :
    parseJson text limits' = .ok v := by
  obtain ⟨hlength, h₁⟩ := seq_eq_ok.mp h
  obtain ⟨r, hdocument, hrest⟩ := bind_eq_ok.mp h₁
  have hwide := Json.Widens.bind (.refl Json.skipWhitespace) (fun _ =>
    .bind (Json.Widens.parseValue hnodes text.length hlevels) fun v =>
      .bind (.refl Json.skipWhitespace) fun _ => .refl (pure v)) _ r hdocument
  refine seq_eq_ok.mpr ⟨?_, bind_eq_ok.mpr ⟨r, hwide, hrest⟩⟩
  exact failIf_eq_ok.mpr fun hlong => failIf_eq_ok.mp hlength (Nat.lt_of_le_of_lt hbytes hlong)

/-- The text of a plain value is read as the value, under the bounds that it keeps and no others. -/
theorem parseJson_dump_iff {indent : Int} {limits : Limits} {v w : JsonValue} (h : v.Plain)
    (hint : v.depth ≤ 2147483647) :
    parseJson (v.dump indent) limits = .ok w ↔ w = v ∧
      (v.dump indent).length ≤ limits.maxDocumentBytes ∧ v.depth < limits.jsonLevels ∧
      v.nodes ≤ limits.maxJsonNodes := by
  constructor
  · intro hparse
    obtain ⟨-, hdepth, hnodes, hbytes⟩ := parseJson_sound hparse
    -- Under bounds that `v` and `limits` keep, the text is read both as `w` and as `v`.
    let wide : Limits :=
      { maxDocumentBytes := max limits.maxDocumentBytes (v.dump indent).length
        maxJsonNodes := max limits.maxJsonNodes v.nodes
        maxJsonDepth := 2147483647 }
    have hwide : wide.jsonLevels = 2147483648 := rfl
    have hlevels : limits.jsonLevels ≤ wide.jsonLevels := by
      have := (Int32.ofNat limits.maxJsonDepth).toInt_lt
      rw [hwide, Limits.jsonLevels]
      omega
    have hwidened : parseJson (v.dump indent) wide = .ok w :=
      parseJson_widen (le_max_left _ _) (le_max_left _ _) hlevels hparse
    have hplain : parseJson (v.dump indent) wide = .ok v :=
      parseJson_dump_plain h (le_max_right _ _) (by rw [hwide]; omega) (le_max_right _ _)
    cases hwidened.symm.trans hplain
    exact ⟨rfl, hbytes, hdepth, hnodes⟩
  · rintro ⟨rfl, hbytes, hdepth, hnodes⟩
    exact parseJson_dump_plain h hbytes hdepth hnodes

/-! ### The round trip -/

/-- The text of the value is computed and read as the value, with what the calls left for the
keys of every object in it. -/
def JsonValue.ReadBack (v : JsonValue) (indent : Int32) (limits : Limits) : Prop :=
  Json.ValueFits indent.toInt 0 v ∧
    ∃ w : JsonValue, parseJson (v.dump indent.toInt) limits = .ok w ∧ w = v ∧
      ∀ calls : List JsonObject.Call, (JsonValue.ofObject (.filled calls)).Within w →
        ∀ key, (JsonValue.ofObject (.filled calls)).member key = JsonObject.lastSet calls key

/-- **The round trip of an assembled value** within the bounds, and what it takes. -/
theorem JsonValue.readBack_iff {v : JsonValue} (hv : v.Assembled) (indent : Int32)
    {limits : Limits} (hnodes : v.nodes ≤ limits.maxJsonNodes)
    (hbytes : (v.dump indent.toInt).length ≤ limits.maxDocumentBytes) :
    v.ReadBack indent limits ↔ (v.depth : Int) ≤ (Int32.ofNat limits.maxJsonDepth).toInt ∧
      (indent.toInt ≤ 0 ∨ indent.toInt * v.depth ≤ 2147483647) := by
  -- Both computations go wrong at the deepest level first.
  have hzero : Json.IndentFits indent.toInt 0 := ⟨by decide, .inr (by simp)⟩
  have hfits := Json.valueFits_iff v hzero
  rw [Nat.zero_add] at hfits
  have hlevels : v.depth < limits.jsonLevels
      ↔ (v.depth : Int) ≤ (Int32.ofNat limits.maxJsonDepth).toInt := by
    rw [Limits.jsonLevels]
    omega
  constructor
  · rintro ⟨hvalue, w, hparse, rfl, -⟩
    -- What is parsed has no more levels than the parser admits, whatever the bound was.
    obtain ⟨-, hlt, -⟩ := parseJson_sound hparse
    exact ⟨hlevels.mp hlt, (hfits.mp hvalue).2⟩
  · rintro ⟨hcast, hproduct⟩
    have hint : v.depth ≤ 2147483647 := by
      have hmax := (Int32.ofNat limits.maxJsonDepth).toInt_lt
      omega
    refine ⟨hfits.mpr ⟨hint, hproduct⟩, v, ?_, rfl, ?_⟩
    · exact parseJson_dump_plain hv.plain hbytes (hlevels.mpr hcast) hnodes
    · intro calls _ key
      obtain ⟨hindexed, hfind⟩ := JsonObject.filled_spec calls
      rw [JsonValue.member_ofObject hindexed, hfind]

/-- A key that is set twice. -/
theorem JsonValue.replaced_readBack :
    (JsonValue.ofObject (.filled [.set (ascii "a") .null, .set (ascii "a") (.bool true)])).ReadBack
      2 {} := by
  refine (JsonValue.readBack_iff (.object ?_) 2 (by decide) (by decide)).mpr (by decide)
  intro call hcall
  rcases List.mem_cons.mp hcall with rfl | hcall
  · exact .null
  · rw [List.mem_singleton.mp hcall]
    exact .bool true

/-- A depth that the cast takes for zero. -/
theorem JsonValue.wide_depth_rejected :
    (JsonValue.array [.null]).Assembled ∧ (JsonValue.array [.null]).depth ≤ 4294967296 ∧
      (JsonValue.array [.null]).nodes ≤ ({} : Limits).maxJsonNodes ∧
      ((JsonValue.array [.null]).dump 0).length ≤ ({} : Limits).maxDocumentBytes ∧
      ¬ (JsonValue.array [.null]).ReadBack 0 { maxJsonDepth := 4294967296 } := by
  refine ⟨.array ?_, by decide, by decide, by decide, ?_⟩
  · intro item hitem
    rw [List.mem_singleton.mp hitem]
    exact .null
  · rintro ⟨-, w, hparse, -⟩
    have hfails : (parseJson ((JsonValue.array [.null]).dump 0)
        { maxJsonDepth := 4294967296 }).isOk = false := by decide +kernel
    exact Bool.false_ne_true (hfails.symm.trans (congrArg Except.isOk hparse))

end CongestionObservatory
