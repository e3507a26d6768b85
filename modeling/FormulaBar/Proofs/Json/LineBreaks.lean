import FormulaBar.Proofs.Json.ReadBack
import FormulaBar.Proofs.Number.Literals

/-!
# FormulaBar.Proofs.Json.LineBreaks — no word reaches over a line break

A line feed or carriage return stands in no word of JSON, not even in a string: there it has to be escaped. So every
reader of words stops in front of it (`StopsBefore`), and the words of a text are those of the part in front of a
break and then those of the part behind it (`lexemes_append_break`), each part cut into words by itself.
-/

namespace FormulaBar.Json

variable {α β : Type} {c : Char} {cs ds : List Char}

/-- A line feed or a carriage return. -/
def IsBreak (c : Char) : Prop := c = '\n' ∨ c = '\r'

/-- What the reader reads of a text does not change with `c` and more behind the text, and it leaves them all. -/
def StopsBefore (c : Char) (read : List Char → Option (α × List Char)) : Prop :=
  ∀ cs ds, read (cs ++ c :: ds) = (read cs).map fun p => (p.1, p.2 ++ c :: ds)

/-! ### Characters that are in no word -/

namespace IsBreak

theorem toNat_lt (hc : IsBreak c) : c.toNat < 0x20 := by
  rcases hc with rfl | rfl <;> decide

theorem not_mem (hc : IsBreak c) {w : List Char} (hw : '\n' ∉ w ∧ '\r' ∉ w) : c ∉ w := by
  rcases hc with rfl | rfl
  · exact hw.1
  · exact hw.2

theorem ne (hc : IsBreak c) {d : Char} (hd : 0x20 ≤ d.toNat) : c ≠ d := by
  rintro rfl
  exact absurd hc.toNat_lt (Nat.not_lt.2 hd)

theorem not_isDigit (hc : IsBreak c) : c.isDigit = false := by
  rcases hc with rfl | rfl <;> decide

theorem isSeparator (hc : IsBreak c) : Text.isSeparator c = true := by
  rcases hc with rfl | rfl <;> rfl

end IsBreak

/-- A word without `c` at the start of a text ends in front of the first `c`. -/
theorem exists_of_append_eq {w rest : List Char} (hc : c ∉ w) (h : cs ++ c :: ds = w ++ rest) :
    ∃ rest', cs = w ++ rest' := by
  rcases List.append_eq_append_iff.1 h with ⟨between, hw, hrest⟩ | ⟨between, hcs, -⟩
  · cases between with
    | nil => exact ⟨[], by rw [hw, List.append_nil, List.append_nil]⟩
    | cons d between =>
      rw [List.cons_append, List.cons.injEq] at hrest
      exact absurd (by simp [hw, hrest.1]) hc
  · exact ⟨between, hcs⟩

/-- A text that does not start with a word does not start with it because of a break behind the text. -/
theorem IsBreak.not_front (hc : IsBreak c) {w : List Char} (hw : '\n' ∉ w ∧ '\r' ∉ w)
    (h : ∀ rest, cs = w ++ rest → False) (rest : List Char) : cs ++ c :: ds = w ++ rest → False := by
  intro heq
  obtain ⟨rest', hrest'⟩ := exists_of_append_eq (hc.not_mem hw) heq
  exact h rest' hrest'

theorem takeWhile_append_stop {p : Char → Bool} (hc : p c = false) (cs ds : List Char) :
    (cs ++ c :: ds).takeWhile p = cs.takeWhile p := by
  induction cs with
  | nil => exact List.takeWhile_cons_of_neg (by simp [hc])
  | cons d cs ih => simp only [List.cons_append, List.takeWhile_cons, ih]

theorem dropWhile_append_stop {p : Char → Bool} (hc : p c = false) (cs ds : List Char) :
    (cs ++ c :: ds).dropWhile p = cs.dropWhile p ++ c :: ds := by
  induction cs with
  | nil => exact List.dropWhile_cons_of_neg (by simp [hc])
  | cons d cs ih =>
    simp only [List.cons_append, List.dropWhile_cons, ih]
    split <;> rfl

theorem StopsBefore.map {read : List Char → Option (α × List Char)} (h : StopsBefore c read) (f : α → β) :
    StopsBefore c fun cs => (read cs).map fun p => (f p.1, p.2) := by
  intro cs ds
  simp only [h cs ds, Option.map_map]
  rfl

/-- One reader after another. -/
theorem StopsBefore.bind {read : List Char → Option (α × List Char)} {next : α × List Char → Option (β × List Char)}
    (h : StopsBefore c read) (hnext : ∀ a, StopsBefore c fun cs => next (a, cs)) :
    StopsBefore c fun cs => (read cs).bind next := by
  intro cs ds
  simp only [h cs ds]
  cases read cs with
  | none => rfl
  | some p => exact hnext p.1 p.2 ds

/-! ### Strings -/

theorem natOfHex?_of_mem {base : Nat} (hc : Text.hexDigit? c = none) (h : c ∈ ds) :
    Text.natOfHex? base ds = none := by
  have hnone : ds.mapM Text.hexDigit? = none := by
    induction ds with
    | nil => cases h
    | cons d ds ih =>
      rcases List.mem_cons.1 h with rfl | h
      · simp [hc]
      · simp [ih h]
  rw [Text.natOfHex?, hnone, Option.map_none]

/-- Behind `\u` there have to be four digits. -/
theorem readString_no_code (h : ∀ a b d e rest, cs = a :: b :: d :: e :: rest → Text.natOfHex? 16 [a, b, d, e] = none) :
    readString ('\\' :: 'u' :: cs) = none := by
  rw [readString.eq_def]
  split
  · next heq => cases heq
  · next heq => cases heq
  · next a b d e rest heq =>
    simp only [List.cons.injEq, true_and] at heq
    simp [h a b d e rest heq]
  · next d rest _ heq =>
    simp only [List.cons.injEq, true_and] at heq
    rw [← heq.1]
    rfl
  · next d rest _ _ hslash heq =>
    simp only [List.cons.injEq] at heq
    exact absurd heq.2.symm (hslash _ _ heq.1.symm)

theorem readString_none_of_control {d : Char} (h : d.toNat < 0x20) (cs : List Char) : readString (d :: cs) = none := by
  have hquote : d ≠ '\x22' := by rintro rfl; exact absurd h (by decide)
  have hslash : d ≠ '\\' := by rintro rfl; exact absurd h (by decide)
  rw [readString]
  · simp [h]
  · exact hquote
  · exact fun _ _ _ _ _ heq => absurd heq hslash
  · exact fun _ _ heq => absurd heq hslash

theorem readString_no_letter {letter : Char} (hletter : letter ≠ 'u') (h : escaped? letter = none) (cs : List Char) :
    readString ('\\' :: letter :: cs) = none := by
  rw [readString]
  · simp [h]
  · exact fun _ _ _ _ _ hu => absurd hu hletter

/-- A break is below the space, is no hexadecimal digit and follows no backslash. -/
theorem stopsBefore_readString (hc : IsBreak c) : StopsBefore c readString := by
  have hhex : Text.hexDigit? c = none := by rcases hc with rfl | rfl <;> decide
  have hescaped : escaped? c = none := by rcases hc with rfl | rfl <;> decide
  intro cs ds
  fun_induction readString cs with
  | case1 => exact readString_none_of_control hc.toNat_lt ds
  | case2 cs => rfl
  | case3 a b d e cs ih =>
    cases h : Text.natOfHex? 16 [a, b, d, e] with
    | none => simp [readString, h]
    | some unit =>
      simp only [List.cons_append]
      rw [readString_code h, ih, Option.map_map]
      cases readString cs <;> rfl
  | case4 letter cs hu ih =>
    by_cases hletter : letter = 'u'
    · subst hletter
      -- the four digits would reach over the break
      refine readString_no_code fun a b d e rest heq => natOfHex?_of_mem hhex ?_
      by_contra hfour
      obtain ⟨rest', hcs⟩ := exists_of_append_eq hfour heq
      exact hu a b d e rest' rfl hcs
    cases h : escaped? letter with
    | none => exact readString_no_letter hletter h _
    | some d =>
      simp only [List.cons_append]
      rw [readString_letter hletter h, ih, Option.map_map]
      cases readString cs <;> rfl
  | case5 d cs hquote _ hslash h =>
    by_cases hd : d = '\\'
    · subst hd
      cases cs with
      | nil => exact readString_no_letter (hc.ne (by decide)) hescaped ds
      | cons letter cs => exact (hslash letter cs rfl rfl).elim
    · have hlow : d.toNat < 0x20 := by simpa [hd] using h
      exact readString_none_of_control hlow _
  | case6 d cs hquote _ _ h ih =>
    simp only [Bool.or_eq_true, decide_eq_true_eq, not_or] at h
    rw [List.cons_append, readString_plain hquote h.2 h.1, ih, Option.map_map]
    cases readString cs <;> rfl

/-! ### Numbers -/

theorem stopsBefore_readDigits (hc : IsBreak c) : StopsBefore c readDigits := by
  intro cs ds
  simp only [readDigits, takeWhile_append_stop hc.not_isDigit, dropWhile_append_stop hc.not_isDigit]
  split <;> rfl

theorem stopsBefore_readWhole (hc : IsBreak c) : StopsBefore c readWhole := by
  intro cs ds
  fun_cases readWhole cs with
  | case1 cs => rfl
  | case2 _ hzero =>
    rw [readWhole, stopsBefore_readDigits hc]
    exact hc.not_front (w := ['0']) (by decide) hzero

theorem stopsBefore_readFraction (hc : IsBreak c) : StopsBefore c readFraction := by
  intro cs ds
  fun_cases readFraction cs with
  | case1 cs => exact stopsBefore_readDigits hc cs ds
  | case2 _ hpoint =>
    rw [readFraction]
    · rfl
    · exact hc.not_front (w := ['.']) (by decide) hpoint

theorem splitSign_append (hc : IsBreak c) (cs ds : List Char) :
    Decimal.splitSign (cs ++ c :: ds) = ((Decimal.splitSign cs).1, (Decimal.splitSign cs).2 ++ c :: ds) := by
  fun_cases Decimal.splitSign cs with
  | case1 cs => rfl
  | case2 cs => rfl
  | case3 _ hminus hplus =>
    rw [Decimal.splitSign]
    · exact hc.not_front (w := ['-']) (by decide) hminus
    · exact hc.not_front (w := ['+']) (by decide) hplus

theorem stopsBefore_readExponent (hc : IsBreak c) : StopsBefore c readExponent := by
  intro cs ds
  cases cs with
  | nil => simp [readExponent, hc.ne (d := 'e') (by decide), hc.ne (d := 'E') (by decide)]
  | cons d cs =>
    rw [List.cons_append]
    simp only [readExponent]
    split
    · rw [splitSign_append hc]
      exact (stopsBefore_readDigits hc).map (fun digits => some ((Decimal.splitSign cs).1, digits)) _ ds
    · rfl

theorem stopsBefore_readUnsigned (hc : IsBreak c) (negative : Bool) : StopsBefore c (readUnsigned negative) := by
  have hread : readUnsigned negative = fun cs => (readWhole cs).bind fun p => (readFraction p.2).bind fun q =>
      (readExponent q.2).bind fun r => some (⟨negative, p.1, q.1, r.1⟩, r.2) := rfl
  rw [hread]
  refine (stopsBefore_readWhole hc).bind fun whole => ?_
  dsimp only
  refine (stopsBefore_readFraction hc).bind fun fraction => ?_
  dsimp only
  exact (stopsBefore_readExponent hc).bind fun exponent cs ds => rfl

/-! ### Words -/

theorem stopsBefore_readLexeme (hc : IsBreak c) : StopsBefore c readLexeme := by
  intro cs ds
  fun_cases readLexeme cs
  case case1 => rcases hc with rfl | rfl <;> rfl
  case case11 cs => exact (stopsBefore_readString hc).map Lexeme.string cs ds
  case case12 cs => exact (stopsBefore_readUnsigned hc true).map Lexeme.number cs ds
  case case13 hnil h1 h2 h3 h4 h5 h6 hnull htrue hfalse hquote hminus =>
    rw [readLexeme]
    · exact (stopsBefore_readUnsigned hc false).map Lexeme.number cs ds
    · simp
    · exact hc.not_front (w := ['\x7b']) (by decide) h1
    · exact hc.not_front (w := ['\x7d']) (by decide) h2
    · exact hc.not_front (w := ['[']) (by decide) h3
    · exact hc.not_front (w := [']']) (by decide) h4
    · exact hc.not_front (w := [':']) (by decide) h5
    · exact hc.not_front (w := [',']) (by decide) h6
    · exact hc.not_front (w := ['n', 'u', 'l', 'l']) (by decide) hnull
    · exact hc.not_front (w := ['t', 'r', 'u', 'e']) (by decide) htrue
    · exact hc.not_front (w := ['f', 'a', 'l', 's', 'e']) (by decide) hfalse
    · exact hc.not_front (w := ['\x22']) (by decide) hquote
    · exact hc.not_front (w := ['-']) (by decide) hminus
  -- the marks and the three names
  all_goals rfl

/-- No word starts with a blank: what does not separate words stands in none. -/
theorem readLexeme_of_isBlank (hc : Text.isBlank c = true) (cs : List Char) : readLexeme (c :: cs) = none := by
  have hne {d : Char} (hd : Text.isBlank d = false) (rest : List Char) : c :: cs = d :: rest → False := by
    intro heq
    rw [(List.cons.inj heq).1, hd] at hc
    cases hc
  have hdigit : c.isDigit = false := by
    by_contra hdigit
    have hcode := Decimal.toNat_of_isDigit (Bool.not_eq_false _ ▸ hdigit)
    simp only [Text.isBlank, Bool.or_eq_true, Bool.and_eq_true, decide_eq_true_eq, beq_iff_eq] at hc
    omega
  have hdigits : readDigits (c :: cs) = none := by
    rw [readDigits, List.takeWhile_cons_of_neg (by simp [hdigit])]
  have hwhole : readWhole (c :: cs) = none := by
    rw [readWhole, hdigits]
    exact hne rfl
  rw [readLexeme]
  · simp [readUnsigned, hwhole]
  · simp
  all_goals exact fun rest => hne rfl _

/-- The words of two texts, one behind the other; nothing is read behind what goes wrong. -/
def andThen (p q : List Lexeme × Bool) : List Lexeme × Bool := if p.2 then (p.1 ++ q.1, q.2) else (p.1, false)

@[simp] theorem andThen_nil_left (q : List Lexeme × Bool) : andThen ([], true) q = q := rfl

@[simp] theorem andThen_nil_right (p : List Lexeme × Bool) : andThen p ([], true) = p := by
  obtain ⟨ts, complete⟩ := p
  cases complete <;> simp [andThen]

theorem andThen_assoc (p q r : List Lexeme × Bool) : andThen (andThen p q) r = andThen p (andThen q r) := by
  obtain ⟨ts, complete⟩ := p
  obtain ⟨us, complete'⟩ := q
  cases complete <;> cases complete' <;> simp [andThen]

theorem andThen_complete {p q : List Lexeme × Bool} : (andThen p q).2 = true ↔ p.2 = true ∧ q.2 = true := by
  obtain ⟨ts, complete⟩ := p
  cases complete <;> simp [andThen]

/-- A text with a break is cut into words at the break. -/
theorem lexemes_append_break (hc : IsBreak c) (cs ds : List Char) :
    lexemes (cs ++ c :: ds) = andThen (lexemes cs) (lexemes ds) := by
  -- the reader skips what it has read, so the induction is on the length
  induction h : cs.length using Nat.strongRecOn generalizing cs with
  | ind n ih =>
    cases hword : cs.dropWhile Text.isSeparator with
    -- nothing but blanks stands before the break
    | nil =>
      have hblank : AllBlank cs := List.dropWhile_eq_nil_iff.1 hword
      have hbreak : AllBlank [c] := by simpa [AllBlank] using hc.isSeparator
      rw [lexemes_of_blank hblank, andThen_nil_left, lexemes_blank hblank]
      exact lexemes_blank hbreak ds
    | cons d cs' =>
      have hlength := (List.dropWhile_sublist Text.isSeparator (l := cs)).length_le
      rw [lexemes_eq (cs ++ c :: ds), lexemes_eq cs, List.dropWhile_append, hword]
      simp only [List.isEmpty_cons, Bool.false_eq_true, if_false, List.cons_append]
      -- the first word ends in front of the break
      rw [← List.cons_append, stopsBefore_readLexeme hc]
      cases hread : readLexeme (d :: cs') with
      | none => rfl
      | some p =>
        obtain ⟨t, rest⟩ := p
        have hrest := readLexeme_length hread
        rw [hword] at hlength
        have := ih rest.length (by omega) rest rfl
        simp only [Option.map_some, this, andThen]
        split <;> rfl

/-! ### Documents -/

namespace Document

/-- A document is told by its words. -/
theorem ofChars?_congr (h : lexemes cs = lexemes ds) : ofChars? cs = ofChars? ds := by
  simp only [ofChars?, front?, read, h]

/-- A text that is a document is all words. -/
theorem complete_of_ofChars? {d : Document} (h : ofChars? cs = some d) : (lexemes cs).2 = true := by
  rw [ofChars?] at h
  split at h
  · next d' hfront =>
    obtain ⟨_, -, hpair⟩ := Option.map_eq_some_iff.1 hfront
    have hboth : (read cs).2 = true := congrArg Prod.snd hpair
    exact (Bool.and_eq_true_iff.1 hboth).1
  · cases h

end Document

end FormulaBar.Json
