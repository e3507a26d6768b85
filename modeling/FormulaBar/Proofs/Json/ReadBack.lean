import FormulaBar.Proofs.Json.Literals
import FormulaBar.Proofs.Json.Strings

/-!
# FormulaBar.Proofs.Json.ReadBack — a written value is read back

A value is written as a row of words with blanks between them (`lexemes_chars`), the words are those of one document
(`run_words`), and the value of that document is the one that was written, but for its numbers, which are what their
literals are read as (`valueWithin?_document`). The layout does not matter as long as it puts blanks between the words.
-/

namespace FormulaBar.Json

/-! ### The words of a value -/

/-- A number is a literal, or null when it has none. -/
def Number.word (n : Number) : Lexeme :=
  match n.literal? with
  | some l => .number l
  | none => .null

namespace Value

mutual

/-- The words that a value is written in. -/
def words : Value → List Lexeme
  | null => [.null]
  | bool b => [.bool b]
  | number n => [n.word]
  | string s => [.string (unitsOf s)]
  | array [] => [.openArray, .closeArray]
  | array (v :: vs) => .openArray :: (v.words ++ wordsOfItems vs ++ [.closeArray])
  | object [] => [.openObject, .closeObject]
  | object ((key, v) :: fs) =>
    .openObject :: .string (unitsOf key) :: .colon :: (v.words ++ wordsOfFields fs ++ [.closeObject])

/-- The words of the items of an array after the first. -/
def wordsOfItems : List Value → List Lexeme
  | [] => []
  | v :: vs => .comma :: (v.words ++ wordsOfItems vs)

/-- The words of the fields of an object after the first. -/
def wordsOfFields : List (String × Value) → List Lexeme
  | [] => []
  | (key, v) :: fs => .comma :: .string (unitsOf key) :: .colon :: (v.words ++ wordsOfFields fs)

end

end Value

/-! ### Cutting the text into words -/

/-- Only blanks. -/
def AllBlank (cs : List Char) : Prop := ∀ c ∈ cs, Text.isSeparator c = true

/-- A layout puts blanks between the words and one colon between a name and its value. -/
structure Layout.Sound (layout : Layout) : Prop where
  gap : ∀ depth, AllBlank (layout.gap depth)
  colon : ∃ after, layout.colon = ':' :: after ∧ AllBlank after

theorem allBlank_nil : AllBlank [] := by simp [AllBlank]

theorem Layout.sound_compact : Layout.compact.Sound :=
  ⟨fun _ => by simp [compact, AllBlank], [], rfl, by simp [AllBlank]⟩

theorem Layout.sound_pretty : Layout.pretty.Sound := by
  refine ⟨fun depth c hc => ?_, [' '], rfl, by simp [AllBlank, Text.isSeparator]⟩
  rcases List.mem_cons.1 hc with rfl | hc
  · rfl
  · rw [List.eq_of_mem_replicate hc]
    rfl

/-- The text `cs` is cut into the words `ts` wherever a number may end behind it. -/
def CutInto (cs : List Char) (ts : List Lexeme) : Prop :=
  ∀ rest, EndsNumber rest → lexemes (cs ++ rest) = (ts ++ (lexemes rest).1, (lexemes rest).2)

/-- The words behind leading blanks. -/
theorem lexemes_eq (cs : List Char) : lexemes cs = match cs.dropWhile Text.isSeparator with
    | [] => ([], true)
    | c :: cs => match readLexeme (c :: cs) with
      | none => ([], false)
      | some (t, rest) => (t :: (lexemes rest).1, (lexemes rest).2) := by
  rw [lexemes]
  split
  · next h => rw [h]
  · next c rest h =>
    rw [h]
    split
    · next h' => simp only [h']
    · next t rest' h' => simp only [h']

theorem lexemes_nil : lexemes [] = ([], true) := lexemes_eq []

theorem lexemes_of_readLexeme {c : Char} {cs rest : List Char} {t : Lexeme} (hc : Text.isSeparator c = false)
    (h : readLexeme (c :: cs) = some (t, rest)) : lexemes (c :: cs) = (t :: (lexemes rest).1, (lexemes rest).2) := by
  rw [lexemes_eq, List.dropWhile_cons_of_neg (by simp [hc])]
  simp only [h]

theorem lexemes_blank {blank : List Char} (h : AllBlank blank) (rest : List Char) :
    lexemes (blank ++ rest) = lexemes rest := by
  rw [lexemes_eq, List.dropWhile_append_of_pos h, ← lexemes_eq]

/-- A number may end in front of the text. -/
def Closes (cs : List Char) : Prop := ∀ rest, EndsNumber rest → EndsNumber (cs ++ rest)

theorem cutInto_append {cs ds : List Char} {ts us : List Lexeme} (h : CutInto cs ts) (hds : Closes ds)
    (h' : CutInto ds us) : CutInto (cs ++ ds) (ts ++ us) := by
  intro rest hrest
  rw [List.append_assoc, h _ (hds rest hrest), h' rest hrest, List.append_assoc]

theorem cutInto_nil : CutInto [] [] := fun _ _ => rfl

/-- A mark is a word whatever follows. -/
theorem cutInto_mark {c : Char} {t : Lexeme} (hc : Text.isSeparator c = false)
    (h : ∀ cs, readLexeme (c :: cs) = some (t, cs)) {ds : List Char} {us : List Lexeme} (h' : CutInto ds us) :
    CutInto (c :: ds) (t :: us) := by
  intro rest hrest
  rw [List.cons_append, lexemes_of_readLexeme hc (h _), h' rest hrest]
  rfl

theorem cutInto_blank {blank cs : List Char} {ts : List Lexeme} (hblank : AllBlank blank) (h : CutInto cs ts) :
    CutInto (blank ++ cs) ts := by
  intro rest hrest
  rw [List.append_assoc, lexemes_blank hblank]
  exact h rest hrest

/-- A word that is read wherever a number may end behind it. -/
theorem cutInto_word {c : Char} {cs : List Char} {t : Lexeme} (hc : Text.isSeparator c = false)
    (h : ∀ rest, EndsNumber rest → readLexeme (c :: (cs ++ rest)) = some (t, rest)) : CutInto (c :: cs) [t] := by
  intro rest hrest
  rw [List.cons_append, lexemes_of_readLexeme hc (h rest hrest)]
  rfl

theorem cutInto_string (s : String) : CutInto (stringChars s) [.string (unitsOf s)] := by
  show CutInto ('\x22' :: (s.toList.flatMap escapeChar ++ ['\x22'])) _
  refine cutInto_word rfl fun rest _ => ?_
  rw [List.append_assoc, List.singleton_append, readLexeme, readString_escaped]
  rfl

theorem isSeparator_of_isDigit {c : Char} (h : c.isDigit = true) : Text.isSeparator c = false := by
  rw [← Bool.not_eq_true]
  intro hblank
  have hapart : [' ', '\t', '\n', '\r'].all (!·.isDigit) = true := rfl
  have hdigit := List.all_eq_true.1 hapart c (Text.isSeparator_iff.1 hblank)
  rw [h] at hdigit
  cases hdigit

theorem cutInto_literal {l : NumberLiteral} (h : l.Proper) : CutInto l.chars [.number l] := by
  obtain ⟨c, cs, hcs, hc⟩ : ∃ c cs, l.chars = c :: cs ∧ Text.isSeparator c = false := by
    obtain ⟨c, cs, hwhole⟩ := List.exists_cons_of_ne_nil h.whole_ne_nil
    cases hnegative : l.negative with
    | true => exact ⟨'-', _, by rw [NumberLiteral.chars, hnegative]; rfl, rfl⟩
    | false =>
      refine ⟨c, _, by rw [NumberLiteral.chars, hnegative, hwhole]; rfl, ?_⟩
      exact isSeparator_of_isDigit (h.whole c (by simp [hwhole]))
  rw [hcs]
  refine cutInto_word hc fun rest hrest => ?_
  rw [← List.cons_append, ← hcs]
  exact readLexeme_literal h hrest

theorem cutInto_null : CutInto ['n', 'u', 'l', 'l'] [.null] := cutInto_word rfl fun _ _ => rfl

theorem cutInto_number (n : Number) : CutInto n.chars [n.word] := by
  cases h : n.literal? with
  | some l =>
    rw [Number.chars_of_literal? h, show n.word = .number l by rw [Number.word, h]]
    exact cutInto_literal (Number.proper_literal? h)
  | none =>
    rw [Number.chars_of_no_literal h, show n.word = .null by rw [Number.word, h]]
    exact cutInto_null

/-! ### A value is written in its words -/

theorem endsNumber_separator {c : Char} (h : Text.isSeparator c = true) (cs : List Char) : EndsNumber (c :: cs) := by
  rintro d ⟨⟩
  simp only [Text.isSeparator_iff, List.mem_cons, List.not_mem_nil, or_false] at h
  rcases h with rfl | rfl | rfl | rfl <;> decide

/-- A mark ends a number, with a gap in front of it or without. -/
theorem closes_mark {gap : List Char} (hgap : AllBlank gap) {c : Char} (hc : EndsNumber [c]) (cs : List Char) :
    Closes (gap ++ c :: cs) := by
  intro rest _
  cases gap with
  | nil => exact hc
  | cons g gap => exact endsNumber_separator (hgap g (by simp)) _

variable {layout : Layout} {depth : Nat}

namespace Value

theorem closes_moreItems (vs : List Value) {cs : List Char} (h : Closes cs) :
    Closes (moreItems layout depth vs ++ cs) := by
  cases vs with
  | nil => rwa [moreItems]
  | cons v vs => rw [moreItems]; exact closes_mark allBlank_nil (by simp [EndsNumber]) _

theorem closes_moreFields (fs : List (String × Value)) {cs : List Char} (h : Closes cs) :
    Closes (moreFields layout depth fs ++ cs) := by
  cases fs with
  | nil => rwa [moreFields]
  | cons f fs => rw [moreFields]; exact closes_mark allBlank_nil (by simp [EndsNumber]) _

/-- The closing mark of an array or object stands behind a gap. -/
theorem cutInto_closing (hlayout : layout.Sound) {c : Char} {t : Lexeme} (hc : Text.isSeparator c = false)
    (hread : ∀ cs, readLexeme (c :: cs) = some (t, cs)) (depth : Nat) : CutInto (layout.gap depth ++ [c]) [t] :=
  cutInto_blank (hlayout.gap depth) (cutInto_mark hc hread cutInto_nil)

theorem cutInto_colon (hlayout : layout.Sound) {cs : List Char} {ts : List Lexeme} (h : CutInto cs ts) :
    CutInto (layout.colon ++ cs) (.colon :: ts) := by
  obtain ⟨after, hcolon, hafter⟩ := hlayout.colon
  rw [hcolon, List.cons_append]
  exact cutInto_mark rfl (fun _ => rfl) (cutInto_blank hafter h)

/-- A name, its colon and what follows. -/
theorem cutInto_named (hlayout : layout.Sound) (name : String) {cs : List Char} {ts : List Lexeme}
    (h : CutInto cs ts) :
    CutInto (stringChars name ++ (layout.colon ++ cs)) (.string (unitsOf name) :: .colon :: ts) := by
  obtain ⟨after, hcolon, -⟩ := hlayout.colon
  have hcloses : Closes (layout.colon ++ cs) := by
    rw [hcolon]
    exact closes_mark allBlank_nil (by simp [EndsNumber]) _
  exact cutInto_append (cutInto_string name) hcloses (cutInto_colon hlayout h)

mutual

theorem cutInto_chars (hlayout : layout.Sound) (depth : Nat) : ∀ v : Value, CutInto (v.chars layout depth) v.words
  | null => by rw [chars, words]; exact cutInto_null
  | bool true => by rw [chars, words]; exact cutInto_word rfl fun _ _ => rfl
  | bool false => by rw [chars, words]; exact cutInto_word rfl fun _ _ => rfl
  | number n => by rw [chars, words]; exact cutInto_number n
  | string s => by rw [chars, words]; exact cutInto_string s
  | array [] => by
    rw [chars, words]
    exact cutInto_mark rfl (fun _ => rfl) (cutInto_mark rfl (fun _ => rfl) cutInto_nil)
  | array (v :: vs) => by
    -- from the closing mark to the front: what is written after an item closes it
    have hclosing := cutInto_closing hlayout (c := ']') rfl (fun _ => rfl) depth
    have hcloses : Closes (layout.gap depth ++ [']']) := closes_mark (hlayout.gap depth) (by simp [EndsNumber]) []
    have hmore := cutInto_append (cutInto_moreItems hlayout (depth + 1) vs) hcloses hclosing
    have hitems := cutInto_append (cutInto_chars hlayout (depth + 1) v) (closes_moreItems vs hcloses) hmore
    rw [chars, words]
    simp only [List.append_assoc, List.cons_append]
    exact cutInto_mark rfl (fun _ => rfl) (cutInto_blank (hlayout.gap _) hitems)
  | object [] => by
    rw [chars, words]
    exact cutInto_mark rfl (fun _ => rfl) (cutInto_mark rfl (fun _ => rfl) cutInto_nil)
  | object ((name, v) :: fs) => by
    -- the same with a name before each value
    have hclosing := cutInto_closing hlayout (c := '\x7d') rfl (fun _ => rfl) depth
    have hcloses : Closes (layout.gap depth ++ ['\x7d']) := closes_mark (hlayout.gap depth) (by simp [EndsNumber]) []
    have hmore := cutInto_append (cutInto_moreFields hlayout (depth + 1) fs) hcloses hclosing
    have hfields := cutInto_append (cutInto_chars hlayout (depth + 1) v) (closes_moreFields fs hcloses) hmore
    rw [chars, words]
    simp only [List.append_assoc, List.cons_append]
    exact cutInto_mark rfl (fun _ => rfl) (cutInto_blank (hlayout.gap _) (cutInto_named hlayout name hfields))

theorem cutInto_moreItems (hlayout : layout.Sound) (depth : Nat) :
    ∀ vs : List Value, CutInto (moreItems layout depth vs) (wordsOfItems vs)
  | [] => by rw [moreItems, wordsOfItems]; exact cutInto_nil
  | v :: vs => by
    have hcloses : Closes (moreItems layout depth vs ++ []) := closes_moreItems vs fun _ h => h
    rw [List.append_nil] at hcloses
    have hitems := cutInto_append (cutInto_chars hlayout depth v) hcloses (cutInto_moreItems hlayout depth vs)
    rw [moreItems, wordsOfItems]
    simp only [List.append_assoc, List.cons_append]
    exact cutInto_mark rfl (fun _ => rfl) (cutInto_blank (hlayout.gap _) hitems)

theorem cutInto_moreFields (hlayout : layout.Sound) (depth : Nat) :
    ∀ fs : List (String × Value), CutInto (moreFields layout depth fs) (wordsOfFields fs)
  | [] => by rw [moreFields, wordsOfFields]; exact cutInto_nil
  | (name, v) :: fs => by
    have hcloses : Closes (moreFields layout depth fs ++ []) := closes_moreFields fs fun _ h => h
    rw [List.append_nil] at hcloses
    have hfields := cutInto_append (cutInto_chars hlayout depth v) hcloses (cutInto_moreFields hlayout depth fs)
    rw [moreFields, wordsOfFields]
    simp only [List.append_assoc, List.cons_append]
    exact cutInto_mark rfl (fun _ => rfl) (cutInto_blank (hlayout.gap _) (cutInto_named hlayout name hfields))

end

end Value

/-! ### The words of a value are those of one document -/

/-- A number is its literal, or null when it has none. -/
def Number.document (n : Number) : Document :=
  match n.literal? with
  | some l => .number l
  | none => .null

namespace Value

mutual

/-- The document that a value is written as. -/
def document : Value → Document
  | null => .null
  | bool b => .bool b
  | number n => n.document
  | string s => .string (unitsOf s)
  | array vs => .array (documents vs)
  | object fs => .object (documentsOfFields fs)

/-- The documents of items. -/
def documents : List Value → List Document
  | [] => []
  | v :: vs => v.document :: documents vs

/-- The names and documents of fields. -/
def documentsOfFields : List (String × Value) → List (List StringUnit × Document)
  | [] => []
  | (name, v) :: fs => (unitsOf name, v.document) :: documentsOfFields fs

end

end Value

namespace Reading

theorem run_step {r : Reading} {t : Lexeme} (next : Reading) (h : r.step t = some next) (ts : List Lexeme) :
    r.run (t :: ts) = next.run ts := by
  rw [run, h]

theorem run_number (n : Number) (frames : List Frame) (ts : List Lexeme) :
    (value frames).run (n.word :: ts) = (after n.document frames).run ts := by
  refine run_step _ ?_ ts
  unfold Number.word Number.document
  cases n.literal? <;> rfl

/-- The first word of a value closes no array, so it is the start of the first item. -/
theorem exists_first_word (v : Value) (frames : List Frame) : ∃ t ts next, v.words = t :: ts ∧
    (itemOrEnd frames).step t = some next ∧ (value (.array [] :: frames)).step t = some next := by
  cases v with
  | null | bool b | string s => exact ⟨_, [], _, by rw [Value.words], rfl, rfl⟩
  | number n =>
    have hword : n.word = .null ∨ ∃ l, n.word = .number l := by
      unfold Number.word
      cases n.literal? <;> simp
    rcases hword with hword | ⟨l, hword⟩ <;> exact ⟨_, [], _, by rw [Value.words, hword], rfl, rfl⟩
  | array vs => cases vs <;> exact ⟨_, _, _, by rw [Value.words], rfl, rfl⟩
  | object fs =>
    cases fs with
    | nil => exact ⟨_, _, _, by rw [Value.words], rfl, rfl⟩
    | cons f fs => exact ⟨_, _, _, by rw [Value.words], rfl, rfl⟩

/-- Behind an opening bracket a value is read as the first item. -/
theorem run_first_item (v : Value) (frames : List Frame) (ts : List Lexeme) :
    (itemOrEnd frames).run (v.words ++ ts) = (value (.array [] :: frames)).run (v.words ++ ts) := by
  obtain ⟨t, us, next, hwords, hstep, hstep'⟩ := exists_first_word v frames
  rw [hwords, List.cons_append, run_step _ hstep, run_step _ hstep']

mutual

/-- Reading the words of a value comes out behind its document. -/
theorem run_words : ∀ (v : Value) (frames : List Frame) (ts : List Lexeme),
    (value frames).run (v.words ++ ts) = (after v.document frames).run ts
  | .null, _, _ => by rw [Value.words, Value.document]; rfl
  | .bool b, _, _ => by rw [Value.words, Value.document]; rfl
  | .number n, frames, ts => by rw [Value.words, Value.document]; exact run_number n frames ts
  | .string s, _, _ => by rw [Value.words, Value.document]; rfl
  | .array [], _, _ => by rw [Value.words, Value.document]; rfl
  | .array (v :: vs), frames, ts => by
    -- the mark, the first item in the frame that it opened, and the others behind it
    have hitem := run_first_item v frames (Value.wordsOfItems vs ++ .closeArray :: ts)
    rw [run_words v, run_items vs] at hitem
    rw [Value.words, Value.document, Value.documents, List.cons_append, run_step (itemOrEnd frames) rfl]
    simpa using hitem
  | .object [], _, _ => by rw [Value.words, Value.document]; rfl
  | .object ((name, v) :: fs), frames, ts => by
    -- a field has its name and a colon before its value
    have hfield := run_words v (.object [] (unitsOf name) :: frames) (Value.wordsOfFields fs ++ .closeObject :: ts)
    rw [run_fields fs] at hfield
    rw [Value.words, Value.document, Value.documentsOfFields, List.cons_append,
      run_step (keyOrEnd frames) rfl, List.cons_append,
      run_step (colon [] (unitsOf name) frames) rfl, List.cons_append,
      run_step (value (.object [] (unitsOf name) :: frames)) rfl]
    simpa using hfield

/-- Reading goes on through the items of an array and past its end. -/
theorem run_items : ∀ (vs : List Value) (d : Document) (items : List Document) (frames : List Frame)
    (ts : List Lexeme), (after d (.array items :: frames)).run (Value.wordsOfItems vs ++ .closeArray :: ts) =
      (after (.array (items.reverse ++ d :: Value.documents vs)) frames).run ts
  | [], d, items, frames, ts => by
    rw [Value.wordsOfItems, Value.documents, List.nil_append, ← List.reverse_cons]
    rfl
  | v :: vs, d, items, frames, ts => by
    have hitem := run_words v (.array (d :: items) :: frames) (Value.wordsOfItems vs ++ .closeArray :: ts)
    rw [run_items vs, List.reverse_cons, List.append_assoc] at hitem
    rw [Value.wordsOfItems, Value.documents, List.cons_append, List.append_assoc]
    exact hitem

/-- Reading goes on through the fields of an object and past its end. -/
theorem run_fields : ∀ (fs : List (String × Value)) (d : Document) (fields : List (List StringUnit × Document))
    (name : List StringUnit) (frames : List Frame) (ts : List Lexeme),
    (after d (.object fields name :: frames)).run (Value.wordsOfFields fs ++ .closeObject :: ts) =
      (after (.object (fields.reverse ++ (name, d) :: Value.documentsOfFields fs)) frames).run ts
  | [], d, fields, name, frames, ts => by
    rw [Value.wordsOfFields, Value.documentsOfFields, List.nil_append, ← List.reverse_cons]
    rfl
  | (name', v) :: fs, d, fields, name, frames, ts => by
    have hfield := run_words v (.object ((name, d) :: fields) (unitsOf name') :: frames)
      (Value.wordsOfFields fs ++ .closeObject :: ts)
    rw [run_fields fs, List.reverse_cons, List.append_assoc] at hfield
    rw [Value.wordsOfFields, Value.documentsOfFields, List.cons_append, List.cons_append, List.cons_append,
      List.append_assoc]
    exact hfield

end

end Reading

/-! ### A written text -/

theorem lexemes_of_blank {blank : List Char} (h : AllBlank blank) : lexemes blank = ([], true) := by
  have hnil := lexemes_blank h []
  rwa [List.append_nil, lexemes_nil] at hnil

theorem endsNumber_of_blank {blank : List Char} (h : AllBlank blank) : EndsNumber blank := by
  cases blank with
  | nil => simp [EndsNumber]
  | cons c cs => exact endsNumber_separator (h c (by simp)) cs

namespace Document

variable {layout : Layout} {blank : List Char}

/-- A written value is read to its end, blanks behind it included. -/
theorem read_chars (hlayout : layout.Sound) (v : Value) (hblank : AllBlank blank) :
    read (v.chars layout 0 ++ blank) = (.after v.document [], true) := by
  have hrun := Reading.run_words v [] []
  rw [List.append_nil] at hrun
  have hwords := Value.cutInto_chars hlayout 0 v blank (endsNumber_of_blank hblank)
  rw [lexemes_of_blank hblank, List.append_nil] at hwords
  simp only [read, hwords, hrun]
  rfl

theorem front?_chars (hlayout : layout.Sound) (v : Value) (hblank : AllBlank blank) :
    front? (v.chars layout 0 ++ blank) = some (v.document, true) := by
  rw [front?, read_chars hlayout v hblank]
  rfl

theorem itemsOfChars?_chars (hlayout : layout.Sound) (vs : List Value) (hblank : AllBlank blank) :
    itemsOfChars? ((Value.array vs).chars layout 0 ++ blank) = some (Value.documents vs, true) := by
  rw [itemsOfChars?, read_chars hlayout _ hblank, Value.document]
  rfl

end Document

/-! ### The value of the document -/

/-- What a number is read back as: what its literal means, or null when it has none. -/
def Number.reread? (n : Number) : Option Value :=
  match n.literal? with
  | some l => l.value?.map .number
  | none => some .null

namespace Value

mutual

/-- What a value is read back as: the same with its numbers read back. -/
def reread? : Value → Option Value
  | null => some null
  | bool b => some (bool b)
  | number n => n.reread?
  | string s => some (string s)
  | array vs => (rereadItems? vs).map array
  | object fs => (rereadFields? fs).map object

/-- What items are read back as. -/
def rereadItems? : List Value → Option (List Value)
  | [] => some []
  | v :: vs => do return (← v.reread?) :: (← rereadItems? vs)

/-- What fields are read back as. -/
def rereadFields? : List (String × Value) → Option (List (String × Value))
  | [] => some []
  | (name, v) :: fs => do return (name, ← v.reread?) :: (← rereadFields? fs)

end

mutual

/-- How deep arrays and objects are nested. -/
def nesting : Value → Nat
  | array vs => nestingOfItems vs + 1
  | object fs => nestingOfFields fs + 1
  | _ => 0

/-- How deep items are nested. -/
def nestingOfItems : List Value → Nat
  | [] => 0
  | v :: vs => max v.nesting (nestingOfItems vs)

/-- How deep fields are nested. -/
def nestingOfFields : List (String × Value) → Nat
  | [] => 0
  | (_, v) :: fs => max v.nesting (nestingOfFields fs)

end

mutual

/-- The document of a value means the value with its numbers read back. -/
theorem valueWithin?_document : ∀ (v : Value) {depth : Nat}, v.nesting ≤ depth →
    v.document.valueWithin? depth = v.reread?
  | null, _, _ => by rw [document, reread?]; rfl
  | bool b, _, _ => by rw [document, reread?]; rfl
  | number n, depth, _ => by
    rw [document, reread?, Number.document, Number.reread?]
    cases n.literal? <;> rfl
  | string s, depth, _ => by
    rw [document, reread?, Document.valueWithin?, stringOfUnits?_unitsOf]
    rfl
  | array vs, depth, h => by
    rw [nesting] at h
    rw [document, reread?, Document.valueWithin?, if_neg (by omega), valuesWithin?_documents vs (by omega)]
  | object fs, depth, h => by
    rw [nesting] at h
    rw [document, reread?, Document.valueWithin?, if_neg (by omega), fieldsWithin?_documents fs (by omega)]

theorem valuesWithin?_documents : ∀ (vs : List Value) {depth : Nat}, nestingOfItems vs ≤ depth →
    valuesWithin? depth (documents vs) = rereadItems? vs
  | [], _, _ => by rw [documents, rereadItems?]; rfl
  | v :: vs, depth, h => by
    rw [nestingOfItems] at h
    rw [documents, rereadItems?, valuesWithin?, valueWithin?_document v (by omega),
      valuesWithin?_documents vs (by omega)]

theorem fieldsWithin?_documents : ∀ (fs : List (String × Value)) {depth : Nat}, nestingOfFields fs ≤ depth →
    fieldsWithin? depth (documentsOfFields fs) = rereadFields? fs
  | [], _, _ => by rw [documentsOfFields, rereadFields?]; rfl
  | (name, v) :: fs, depth, h => by
    rw [nestingOfFields] at h
    rw [documentsOfFields, rereadFields?, fieldsWithin?, valueWithin?_document v (by omega),
      fieldsWithin?_documents fs (by omega), stringOfUnits?_unitsOf]
    rfl

end

/-- A written value is read back, with its numbers as they are read back, if it is not nested too deeply. -/
theorem ofChars?_chars {layout : Layout} {blank : List Char} (hlayout : layout.Sound) (v : Value)
    (hblank : AllBlank blank) (hdepth : v.nesting < maxNesting) :
    ofChars? (v.chars layout 0 ++ blank) = v.reread? := by
  have hfront := Document.front?_chars hlayout v hblank
  rw [ofChars?, Document.ofChars?, hfront]
  exact valueWithin?_document v (Nat.le_pred_of_lt hdepth)

end Value

end FormulaBar.Json
