import FormulaBar.Token.Json
import FormulaBar.Proofs.Json.Doubles
import FormulaBar.Proofs.Json.ReadBack

/-!
# FormulaBar.Proofs.Token.Exchange — tokens go through JSON

A row of tokens that is written as JSON is read back as a row of the same length with the same ids, kinds, operators and
labels, whatever the characters of the labels are. Numbers come back as what their literals mean to a JSON reader
(`Json.reread?`): finite and with the same sign, but not always the same (`Token.listOfChars_returns`).
-/

namespace FormulaBar

open Json

namespace TokenData

/-- A number is finite. -/
def Finite : TokenData → Prop
  | number x => Binary64.isFinite x = true
  | _ => True

/-- What a token holds after it went through JSON. -/
def reread? : TokenData → Option TokenData
  | number x => (Json.reread? x).map number
  | d => some d

/-- A number is read back as it is. -/
def Exact : TokenData → Prop
  | number x => Json.reread? x = some x
  | _ => True

instance : DecidablePred Finite
  | number x => inferInstanceAs (Decidable (Binary64.isFinite x = true))
  | operand _ => .isTrue trivial
  | tag _ => .isTrue trivial

instance : DecidablePred Exact
  | number x => inferInstanceAs (Decidable (Json.reread? x = some x))
  | operand _ => .isTrue trivial
  | tag _ => .isTrue trivial

theorem reread?_eq_self_iff (d : TokenData) : d.reread? = some d ↔ d.Exact := by
  cases d <;> simp [reread?, Exact]

/-- What comes back of a token. A number is finite and keeps its sign, and it is the same if the digits and the power of
ten that it is written with are doubles. -/
def Returns : TokenData → TokenData → Prop
  | number x, d => ∃ y, d = number y ∧ Json.reread? x = some y ∧ Binary64.isFinite y = true ∧
      Binary64.isNegative y = Binary64.isNegative x ∧ ((NumberLiteral.ofFloat x).RoundsOnce → y = x)
  | operand op, d => d = operand op
  | tag label, d => d = tag label

theorem exists_reread? {d : TokenData} (h : d.Finite) : ∃ d', d.reread? = some d' ∧ d.Returns d' := by
  cases d with
  | number x =>
    obtain ⟨y, hy, hfinite, hsign⟩ := Json.exists_reread? h
    refine ⟨number y, by rw [reread?, hy]; rfl, y, rfl, hy, hfinite, hsign, fun honce => ?_⟩
    rw [Json.reread?_of_roundsOnce h honce] at hy
    exact (Option.some.inj hy).symm
  | operand op => exact ⟨_, rfl, rfl⟩
  | tag label => exact ⟨_, rfl, rfl⟩

theorem operatorOfJson_symbol (op : Operator) : operatorOfJson [.string op.symbol.toString] = .ok op := by
  cases op <;> rfl

/-- Whatever the id and the number are written as, they are found by their names. -/
theorem ofJsonFields_jsonFields (d : TokenData) (id : Value) : ofJsonFields (("id", id) :: d.jsonFields) = .ok d := by
  cases d with
  | number x => rfl
  | operand op =>
    show (operatorOfJson [.string op.symbol.toString]).map operand = _
    rw [operatorOfJson_symbol]
    rfl
  | tag label => rfl

theorem ofJsonFields_number (id : Value) (n : Json.Number) :
    ofJsonFields [("id", id), ("kind", .string "number"), ("value", .number n)] = .ok (number n.toFloat) := rfl

end TokenData

namespace Token

/-- A token after it went through JSON. -/
def reread? (t : Token) : Option Token := t.data.reread?.map (⟨t.id, ·⟩)

theorem reread?_eq_self_iff (t : Token) : t.reread? = some t ↔ t.data.Exact := by
  rw [← TokenData.reread?_eq_self_iff, reread?, Option.map_eq_some_iff]
  exact ⟨fun ⟨d, hd, ht⟩ => by rw [hd, ← ht], fun h => ⟨_, h, rfl⟩⟩

/-- A row is read back as it is exactly if all of its numbers are. -/
theorem mapM_reread?_eq_self_iff (ts : List Token) : ts.mapM reread? = some ts ↔ ∀ t ∈ ts, t.data.Exact := by
  induction ts with
  | nil => simp
  | cons t ts ih =>
    rw [List.forall_mem_cons, ← ih, ← reread?_eq_self_iff, List.mapM_cons]
    cases t.reread? <;> cases ts.mapM reread? <;> simp

/-- The token that comes back of a token has the same id. -/
structure Returns (t u : Token) : Prop where
  id : u.id = t.id
  data : t.data.Returns u.data

theorem exists_reread? {t : Token} (h : t.data.Finite) : ∃ u, t.reread? = some u ∧ t.Returns u := by
  obtain ⟨d, hd, hreturns⟩ := TokenData.exists_reread? h
  exact ⟨⟨t.id, d⟩, by rw [reread?, hd]; rfl, rfl, hreturns⟩

/-- A row comes back token by token. -/
theorem exists_mapM_reread? {ts : List Token} (h : ∀ t ∈ ts, t.data.Finite) :
    ∃ us, ts.mapM reread? = some us ∧ List.Forall₂ Returns ts us := by
  induction ts with
  | nil => exact ⟨[], rfl, .nil⟩
  | cons t ts ih =>
    obtain ⟨u, hu, hreturns⟩ := exists_reread? (h t (by simp))
    obtain ⟨us, hus, hall⟩ := ih fun u hu => h u (by simp [hu])
    exact ⟨u :: us, by rw [List.mapM_cons, hu, hus]; rfl, .cons hreturns hall⟩

/-- The token that is read, or the fault of an item that has none. -/
def found : Option Token → Except TokenJsonError Token
  | some t => .ok t
  | none => .error .malformed

theorem nesting_toJson (t : Token) : t.toJson.nesting = 1 := by
  cases h : t.data <;> simp [toJson, h, TokenData.jsonFields, Value.nesting, Value.nestingOfFields]

theorem toNat_le_greatestWord (id : TokenId) : id.raw.toNat ≤ NumberLiteral.greatestWord := 
  Nat.le_pred_of_lt id.raw.toNat_lt

theorem reread?_id (id : TokenId) :
    Number.reread? (.natural id.raw.toNat) = some (.number (.natural id.raw.toNat)) := by
  have hvalue := NumberLiteral.value?_ofNat (toNat_le_greatestWord id)
  simp [Number.reread?, Number.literal?, hvalue]

/-- The id is read off its field, and the rest off all fields. -/
theorem ofJson_fields (id : TokenId) (fields : List (String × Value)) (h : Value.fieldsNamed "id" fields = []) :
    ofJson (.object (("id", .number (.natural id.raw.toNat)) :: fields)) =
      (TokenData.ofJsonFields (("id", .number (.natural id.raw.toNat)) :: fields)).map (⟨id, ·⟩) := by
  have honly : Value.onlyField? "id" (("id", .number (.natural id.raw.toNat)) :: fields) =
      some (.number (.natural id.raw.toNat)) := by
    have hnamed : Value.fieldsNamed "id" (("id", .number (.natural id.raw.toNat)) :: fields) =
        .number (.natural id.raw.toNat) :: Value.fieldsNamed "id" fields := rfl
    rw [Value.onlyField?, hnamed, h]
  simp only [ofJson, honly, UInt64.ofNat_toNat]

theorem ofJson_toJson (t : Token) : ofJson t.toJson = .ok t := by
  have hid : Value.fieldsNamed "id" t.data.jsonFields = [] := by cases t.data <;> rfl
  rw [toJson, ofJson_fields t.id _ hid, TokenData.ofJsonFields_jsonFields]
  rfl

/-- A token without a number is written as what it is read back as. -/
theorem reread?_toJson (t : Token) (h : ∀ x, t.data ≠ .number x) : t.toJson.reread? = some t.toJson := by
  cases hdata : t.data with
  | number x => exact absurd hdata (h x)
  | operand op =>
    simp [toJson, hdata, TokenData.jsonFields, Value.reread?, Value.rereadFields?, reread?_id]
  | tag label =>
    simp [toJson, hdata, TokenData.jsonFields, Value.reread?, Value.rereadFields?, reread?_id]

theorem reread?_toJson_number (id : TokenId) {x : Float} (h : Binary64.isFinite x = true) :
    (toJson ⟨id, .number x⟩).reread? = (NumberLiteral.ofFloat x).value?.map fun n =>
      .object [("id", .number (.natural id.raw.toNat)), ("kind", .string "number"), ("value", .number n)] := by
  have hx : Number.reread? (.float x) = (NumberLiteral.ofFloat x).value?.map .number := by
    simp [Number.reread?, Number.literal?, h]
  cases hvalue : (NumberLiteral.ofFloat x).value? <;>
    simp [toJson, TokenData.jsonFields, Value.reread?, Value.rereadFields?, reread?_id, hx, hvalue]

/-- What a token is read back as, read as a token: the one with its number read back. -/
theorem ofJson_reread? (t : Token) (h : t.data.Finite) : t.toJson.reread?.map ofJson = t.reread?.map .ok := by
  obtain ⟨id, data⟩ := t
  cases data with
  | number x =>
    rw [reread?_toJson_number id h, reread?, TokenData.reread?, Json.reread?]
    cases (NumberLiteral.ofFloat x).value? with
    | none => rfl
    | some n =>
      have hfields := ofJson_fields id [("kind", .string "number"), ("value", .number n)] rfl
      rw [TokenData.ofJsonFields_number] at hfields
      exact congrArg some hfields
  | operand op =>
    rw [reread?_toJson _ (by simp)]
    exact congrArg some (ofJson_toJson _)
  | tag label =>
    rw [reread?_toJson _ (by simp)]
    exact congrArg some (ofJson_toJson _)

/-- An item of a written row is read as the token with its number read back. -/
theorem ofItem_document (t : Token) (h : t.data.Finite) : ofItem t.toJson.document = found t.reread? := by
  have hvalue : t.toJson.document.itemValue? = t.toJson.reread? :=
    Value.valueWithin?_document t.toJson (by rw [nesting_toJson]; decide)
  have hjson : (t.toJson.reread?.map ofJson).getD (.error .malformed) = found t.reread? := by
    rw [ofJson_reread? t h]
    cases t.reread? <;> rfl
  rw [ofItem, hvalue, ← hjson]
  cases t.toJson.reread? <;> rfl

theorem mapM_ofItem (ts : List Token) (h : ∀ t ∈ ts, t.data.Finite) :
    (Value.documents (ts.map toJson)).mapM ofItem = (ts.mapM reread?).elim (.error .malformed) .ok := by
  induction ts with
  | nil => rfl
  | cons t ts ih =>
    rw [List.map_cons, Value.documents, List.mapM_cons, List.mapM_cons, ofItem_document t (h t (by simp)),
      ih fun u hu => h u (by simp [hu])]
    cases t.reread? <;> cases ts.mapM reread? <;> rfl

/-- A written row of tokens is read back in any layout, with blanks behind it or without: the same ids, kinds, operators
and labels in the same order, and every number as it is read back. -/
theorem listOfChars_chars {layout : Layout} {blank : List Char} (hlayout : layout.Sound) (hblank : AllBlank blank)
    (ts : List Token) (h : ∀ t ∈ ts, t.data.Finite) :
    listOfChars ((Value.array (ts.map toJson)).chars layout 0 ++ blank) =
      (ts.mapM reread?).elim (.error .malformed) .ok := by
  have hitems := mapM_ofItem ts h
  simp only [listOfChars, Document.itemsOfChars?_chars hlayout _ hblank]
  rw [hitems]
  cases ts.mapM reread? <;> rfl

/-- A written row of finite tokens is always read back: the same ids, kinds, operators and labels in the same order, and
numbers that are finite, have the same sign, and are the same if their digits and powers of ten are doubles. It comes
back as it is exactly if the reader makes every number of its literal. -/
theorem listOfChars_returns {layout : Layout} {blank : List Char} (hlayout : layout.Sound) (hblank : AllBlank blank)
    (ts : List Token) (h : ∀ t ∈ ts, t.data.Finite) :
    ∃ us, listOfChars ((Value.array (ts.map toJson)).chars layout 0 ++ blank) = .ok us ∧
      List.Forall₂ Returns ts us ∧ (us = ts ↔ ∀ t ∈ ts, t.data.Exact) := by
  obtain ⟨us, hus, hall⟩ := exists_mapM_reread? h
  refine ⟨us, by rw [listOfChars_chars hlayout hblank ts h, hus]; rfl, hall, ?_⟩
  rw [← mapM_reread?_eq_self_iff, hus, Option.some.injEq]

/-- A label of quotes, backslashes, controls and a character beyond the first plane comes back, and so do a negative
zero and a fraction of seventeen digits. -/
theorem listOfChars_returns_label :
    let ts : List Token :=
      [⟨.greatest, .tag "\"\\\u0000\u001f😀"⟩, ⟨⟨0⟩, .number (-0)⟩, ⟨⟨0⟩, .number 0.30000000000000004⟩]
    Layout.pretty.Sound ∧ AllBlank ['\n'] ∧ (∀ t ∈ ts, t.data.Finite) ∧
      listOfChars ((Value.array (ts.map toJson)).chars .pretty 0 ++ ['\n']) = .ok ts := by
  intro ts
  have hblank : AllBlank ['\n'] := by
    intro c hc
    rw [List.mem_singleton.1 hc]
    rfl
  have hfinite : ∀ t ∈ ts, t.data.Finite := by decide +kernel
  have hexact : ∀ t ∈ ts, t.data.Exact := by decide +kernel
  obtain ⟨us, hread, -, hself⟩ := listOfChars_returns Layout.sound_pretty hblank ts hfinite
  exact ⟨Layout.sound_pretty, hblank, hfinite, by rw [hread, hself.2 hexact]⟩

/-- A whole number that comes back with a fraction: it is written as `1801439850948199.0`, these digits are rounded to
`18014398509481992`, and their tenth is rounded again. -/
theorem listOfChars_of_whole_number :
    listOfChars ((Value.array [toJson ⟨⟨1⟩, .number 1801439850948199⟩]).chars .compact 0) =
        .ok [⟨⟨1⟩, .number 1801439850948199.2⟩] ∧
      (1801439850948199.2 : Float).toBits ≠ (1801439850948199 : Float).toBits := by
  have hfinite : ∀ t ∈ [(⟨⟨1⟩, .number 1801439850948199⟩ : Token)], t.data.Finite := by decide +kernel
  have hnumber : Json.reread? 1801439850948199 = some 1801439850948199.2 := by decide +kernel
  have hrow : [(⟨⟨1⟩, .number 1801439850948199⟩ : Token)].mapM reread? = some [⟨⟨1⟩, .number 1801439850948199.2⟩] := by
    simp [reread?, TokenData.reread?, hnumber]
  have hblank : AllBlank [] := by simp [AllBlank]
  have hread := listOfChars_chars Layout.sound_compact hblank _ hfinite
  rw [hrow, List.append_nil, List.map_singleton] at hread
  exact ⟨hread, by decide +kernel⟩

end Token

end FormulaBar
