import FormulaBar.Proofs.Expr.Lexing
import FormulaBar.Proofs.Number.Literals

/-!
# FormulaBar.Proofs.Expr.Pieces — the pieces of a text decide its lexemes and its error

A text is cut into blanks, runs of digits and points that are as long as they can be, symbols and other characters, in
one way only (`Cut.unique`); which characters these are is said once more, apart from the lexer (`Piece.proper_iff`).
When every run has a digit and at most one point and there is no other character, the lexemes are those of the pieces in
order; otherwise the leftmost piece that is not sound decides the error, before anything else is looked at
(`ofChars_cut`).
-/

namespace FormulaBar

namespace Lexeme

open Text Decimal

variable {cs rest run whole : List Char}

/-- A piece of an expression's text. -/
inductive Piece
  | blank (c : Char)
  | run (cs : List Char)
  | symbol (c : Char)
  | other (c : Char)
deriving DecidableEq, Repr

/-- The decimal that a run denotes: its digits, with as many places as there are behind the point. -/
def runDecimal (run : List Char) : Decimal where
  coefficient := natOfDigits (run.filter Char.isDigit)
  exponent := -((run.dropWhile (· != '.')).tail.length : Int)

namespace Piece

def chars : Piece → List Char
  | .blank c | .symbol c | .other c => [c]
  | .run cs => cs

/-- The characters are those of the kind of piece. -/
def Proper : Piece → Prop
  | .blank c => isSeparator c = true
  | .run cs => cs ≠ [] ∧ ∀ c ∈ cs, isNumeral c = true
  | .symbol c => (ofSymbol? c).isSome = true
  | .other c => isSeparator c = false ∧ isNumeral c = false ∧ ofSymbol? c = none

/-- The kinds of pieces by their characters alone. -/
theorem proper_iff (p : Piece) : p.Proper ↔
    match p with
    | .blank c => c ∈ [' ', '\t', '\n', '\r']
    | .run cs => cs ≠ [] ∧ ∀ c ∈ cs, c ∈ ['0', '1', '2', '3', '4', '5', '6', '7', '8', '9', '.']
    | .symbol c => c ∈ ['+', '-', '*', '/', '^', '(', ')']
    | .other c => c ∉ [' ', '\t', '\n', '\r'] ∧ c ∉ ['0', '1', '2', '3', '4', '5', '6', '7', '8', '9', '.'] ∧
        c ∉ ['+', '-', '*', '/', '^', '(', ')'] := by
  cases p with
  | blank c => exact isSeparator_iff
  | run cs => simp only [Proper, isNumeral_iff]
  | symbol c => exact ofSymbol?_isSome_iff
  | other c =>
    simp only [Proper, ← isSeparator_iff, ← isNumeral_iff, ← ofSymbol?_isSome_iff, Bool.not_eq_true,
      Option.isSome_eq_false_iff, Option.isNone_iff_eq_none]

/-- A digit or a point right behind a run belongs to it. -/
def Maximal (rest : List Char) : Piece → Prop
  | .run _ => EndsRun rest
  | _ => True

/-- A run has at least one digit and at most one point, and no other character is accepted. -/
def Sound : Piece → Prop
  | .blank _ | .symbol _ => True
  | .run cs => (∃ c ∈ cs, c.isDigit = true) ∧ cs.count '.' ≤ 1
  | .other _ => False

/-- The lexeme of a sound piece; a blank has none. -/
def lexeme? : Piece → Option Lexeme
  | .blank _ | .other _ => none
  | .run cs => some (number (runDecimal cs).toFloat)
  | .symbol c => ofSymbol? c

/-- What is wrong with a piece that is not sound. -/
def error : Piece → EvalError
  | .run cs => .invalidNumber (String.ofList cs)
  | .blank c | .symbol c | .other c => .unexpectedCharacter c

end Piece

/-- The pieces that a text is cut into, from left to right. -/
inductive Cut : List Piece → List Char → Prop
  | nil : Cut [] []
  | cons {p : Piece} {ps : List Piece} {rest : List Char} (hp : p.Proper) (hmax : p.Maximal rest) (h : Cut ps rest) :
      Cut (p :: ps) (p.chars ++ rest)

/-! ### One way to cut -/

/-- The first piece of a text. -/
def front (c : Char) (cs : List Char) : Piece :=
  if isSeparator c then .blank c
  else if isNumeral c then .run (c :: cs.takeWhile isNumeral)
  else if (ofSymbol? c).isSome then .symbol c
  else .other c

theorem front_eq {p : Piece} {c : Char} (hp : p.Proper) (hmax : p.Maximal rest) (h : c :: cs = p.chars ++ rest) :
    front c cs = p := by
  cases p with
  | blank d =>
    obtain ⟨rfl, rfl⟩ := List.cons.inj h
    exact if_pos hp
  | run run =>
    -- the run takes all of its characters, and no more
    have htake := takeWhile_run hp.2 hmax
    obtain ⟨d, ds, rfl⟩ := List.exists_cons_of_ne_nil hp.1
    have hd : isNumeral d = true := hp.2 d (by simp)
    obtain ⟨rfl, htail⟩ : c = d ∧ cs = ds ++ rest := List.cons.inj h
    rw [List.cons_append, List.takeWhile_cons_of_pos hd, ← htail] at htake
    rw [front, if_neg (by simp [isNumeral_ne_separator hd]), if_pos hd, htake]
  | symbol d =>
    obtain ⟨rfl, rfl⟩ := List.cons.inj h
    -- no symbol separates or is part of a number
    obtain ⟨t, ht⟩ := Option.isSome_iff_exists.1 hp
    have hsep : ¬isSeparator c = true := fun hsep => by simp [ofSymbol?_separator hsep] at ht
    have hnum : ¬isNumeral c = true := fun hnum => by simp [ofSymbol?_numeral hnum] at ht
    rw [front, if_neg hsep, if_neg hnum]
    exact if_pos hp
  | other d =>
    obtain ⟨rfl, rfl⟩ := List.cons.inj h
    simp [front, hp.1, hp.2.1, hp.2.2]

theorem exists_rest_of_front (c : Char) (cs : List Char) : (front c cs).Proper ∧
    ∃ rest, c :: cs = (front c cs).chars ++ rest ∧ (front c cs).Maximal rest ∧ rest.length ≤ cs.length := by
  unfold front
  split
  · next hsep => exact ⟨hsep, cs, rfl, trivial, le_rfl⟩
  split
  · next hnum =>
    refine ⟨⟨by simp, ?_⟩, cs.dropWhile isNumeral, ?_, endsRun_dropWhile cs, List.length_dropWhile_le _ _⟩
    · intro d hd
      rcases List.mem_cons.1 hd with rfl | hd
      · exact hnum
      · exact List.mem_takeWhile_imp hd
    · rw [Piece.chars, List.cons_append, List.takeWhile_append_dropWhile]
  split
  · next hsym => exact ⟨hsym, cs, rfl, trivial, le_rfl⟩
  · next hsep hnum hsym =>
    exact ⟨⟨by simpa using hsep, by simpa using hnum, by simpa using hsym⟩, cs, rfl, trivial, le_rfl⟩

theorem exists_cut (cs : List Char) : ∃ ps, Cut ps cs := by
  induction hlength : cs.length using Nat.strongRecOn generalizing cs with
  | ind n ih =>
    cases cs with
    | nil => exact ⟨[], .nil⟩
    | cons c cs =>
      obtain ⟨hp, rest, hcs, hmax, hle⟩ := exists_rest_of_front c cs
      rw [List.length_cons] at hlength
      obtain ⟨ps, hps⟩ := ih rest.length (by omega) rest rfl
      rw [hcs]
      exact ⟨_, .cons hp hmax hps⟩

theorem Cut.unique {ps qs : List Piece} (h : Cut ps cs) (hq : Cut qs cs) : qs = ps := by
  -- every piece has a character
  have chars_ne_nil {p : Piece} (hp : p.Proper) : p.chars ≠ [] := by
    cases p with
    | run cs => exact hp.1
    | blank c | symbol c | other c => exact List.cons_ne_nil c []
  induction h generalizing qs with
  | nil =>
    generalize hcs : [] = cs at hq
    cases hq with
    | nil => rfl
    | cons hp _ _ => exact absurd (List.append_eq_nil_iff.1 hcs.symm).1 (chars_ne_nil hp)
  | @cons p ps rest hp hmax hrest ih =>
    generalize hcs : p.chars ++ rest = cs at hq
    cases hq with
    | nil => exact absurd (List.append_eq_nil_iff.1 hcs).1 (chars_ne_nil hp)
    | @cons q qs rest' hq hmaxq hrest' =>
      obtain ⟨c, tail, htail⟩ := List.exists_cons_of_ne_nil (List.append_ne_nil_of_left_ne_nil (chars_ne_nil hp) rest)
      -- the text decides its first piece, and what is left decides the others
      obtain rfl : q = p :=
        (front_eq hq hmaxq (htail.symm.trans hcs)).symm.trans (front_eq hp hmax htail.symm)
      obtain rfl := List.append_cancel_left hcs
      rw [ih hrest']

/-! ### What a run denotes -/

theorem isDigit_of_isNumeral {c : Char} (h : isNumeral c = true) (hc : c ≠ '.') : c.isDigit = true := by
  simpa [isNumeral, hc] using h

theorem ne_point_of_isDigit {c : Char} (h : c.isDigit = true) : c ≠ '.' := by
  rintro rfl
  exact absurd h (by decide)

theorem runDecimal_parts {fraction : Option (List Char)} (hw : ∀ c ∈ whole, c.isDigit = true)
    (hf : ∀ ds ∈ fraction, ∀ c ∈ ds, c.isDigit = true) : runDecimal (whole ++ pointChars fraction) =
      ⟨false, natOfDigits (whole ++ fraction.getD []), -((fraction.getD []).length : Int)⟩ := by
  have hdrop (tail : List Char) : (whole ++ tail).dropWhile (· != '.') = tail.dropWhile (· != '.') :=
    List.dropWhile_append_of_pos fun c hc => bne_iff_ne.2 (ne_point_of_isDigit (hw c hc))
  have hpoint : '.'.isDigit = false := by decide
  cases fraction with
  | none =>
    have hnone := hdrop []
    rw [List.append_nil] at hnone
    simp [runDecimal, List.filter_eq_self.2 hw, hnone]
  | some ds => simp [runDecimal, hdrop, hpoint, List.filter_eq_self.2 hw, List.filter_eq_self.2 (hf ds rfl)]

theorem count_point_eq_zero (h : ∀ c ∈ cs, c.isDigit = true) : cs.count '.' = 0 :=
  List.count_eq_zero.2 fun hmem => ne_point_of_isDigit (h '.' hmem) rfl

/-- A sound run is digits, or digits on at least one side of a point. -/
theorem sound_run_iff (hrun : ∀ c ∈ run, isNumeral c = true) : (Piece.run run).Sound ↔
    ∃ (whole : List Char) (fraction : Option (List Char)), (∀ c ∈ whole, c.isDigit = true) ∧
      (∀ ds ∈ fraction, ∀ c ∈ ds, c.isDigit = true) ∧ (whole ≠ [] ∨ fraction.getD [] ≠ []) ∧
        run = whole ++ pointChars fraction := by
  constructor
  · rintro ⟨⟨c, hc, hdigit⟩, hcount⟩
    -- one point splits the run in two; without one it is all digits
    by_cases hmem : '.' ∈ run
    · obtain ⟨whole, ds, rfl⟩ := List.append_of_mem hmem
      rw [List.count_append, List.count_cons_self] at hcount
      have hwhole : ∀ d ∈ whole, d.isDigit = true := fun d hd =>
        isDigit_of_isNumeral (hrun d (by simp [hd])) fun heq =>
          absurd (List.count_pos_iff.2 (heq ▸ hd)) (by omega)
      have hds : ∀ d ∈ ds, d.isDigit = true := fun d hd =>
        isDigit_of_isNumeral (hrun d (by simp [hd])) fun heq =>
          absurd (List.count_pos_iff.2 (heq ▸ hd)) (by omega)
      refine ⟨whole, some ds, hwhole, by rintro ds ⟨rfl⟩; exact hds, ?_, rfl⟩
      rcases List.mem_append.1 hc with hc | hc
      · exact .inl (List.ne_nil_of_mem hc)
      · exact .inr (List.ne_nil_of_mem ((List.mem_cons.1 hc).resolve_left (ne_point_of_isDigit hdigit)))
    · refine ⟨run, none, fun d hd => ?_, by simp, .inl (List.ne_nil_of_mem hc), by simp⟩
      exact isDigit_of_isNumeral (hrun d hd) fun heq => hmem (heq ▸ hd)
  · rintro ⟨whole, fraction, hw, hf, hdigit, rfl⟩
    -- one digit is enough, on either side of the point
    have hexists {ds : List Char} (hne : ds ≠ []) (hds : ∀ c ∈ ds, c.isDigit = true) :
        ∃ c ∈ ds, c.isDigit = true := (List.exists_mem_of_ne_nil ds hne).imp fun c hc => ⟨hc, hds c hc⟩
    cases fraction with
    | none =>
      obtain ⟨c, hc, hcdigit⟩ := hexists (hdigit.resolve_right (· rfl)) hw
      exact ⟨⟨c, by simp [hc], hcdigit⟩, by simp [count_point_eq_zero hw]⟩
    | some ds =>
      refine ⟨?_, by simp [count_point_eq_zero hw, count_point_eq_zero (hf ds rfl)]⟩
      rcases hdigit with hne | hne
      · obtain ⟨c, hc, hcdigit⟩ := hexists hne hw
        exact ⟨c, by simp [hc], hcdigit⟩
      · obtain ⟨c, hc, hcdigit⟩ : ∃ c ∈ ds, c.isDigit = true := hexists hne (hf ds rfl)
        exact ⟨c, by simp [hc], hcdigit⟩

/-- A run is a literal if it is sound, and only then. -/
theorem ofLiteral?_run (hrun : ∀ c ∈ run, isNumeral c = true) {d : Decimal} :
    ofLiteral? run = some d ↔ (Piece.run run).Sound ∧ runDecimal run = d := by
  rw [ofLiteral?_eq_some_iff, sound_run_iff hrun]
  constructor
  · rintro ⟨l, rfl, rfl⟩
    -- a literal of digits and points has neither a sign nor a power
    have hsign : l.negative = none := by
      match hnegative : l.negative with
      | none => rfl
      | some true => exact absurd (hrun '-' (by simp [Literal.chars, hnegative, signChars])) (by decide)
      | some false => exact absurd (hrun '+' (by simp [Literal.chars, hnegative, signChars])) (by decide)
    have hpower : l.power = none := by
      cases hpower : l.power with
      | none => rfl
      | some p =>
        have hmark := hrun p.mark (by simp [Literal.chars, hpower, Power.chars])
        rcases p.isMark with h | h <;> exact absurd hmark (by rw [h]; decide)
    have hchars : l.chars = l.whole ++ pointChars l.fraction := by
      simp [Literal.chars, hsign, hpower, signChars]
    refine ⟨⟨l.whole, l.fraction, l.isDigit_whole, l.isDigit_fraction, l.hasDigit, hchars⟩, ?_⟩
    rw [hchars, runDecimal_parts l.isDigit_whole l.isDigit_fraction]
    simp [Literal.counted, Literal.decimalWith, Literal.places, hsign, hpower]
  · rintro ⟨⟨whole, fraction, hw, hf, hdigit, rfl⟩, rfl⟩
    refine ⟨⟨none, whole, fraction, none, hw, hf, hdigit⟩, by simp [Literal.chars, signChars], ?_⟩
    rw [runDecimal_parts hw hf]
    simp [Literal.counted, Literal.decimalWith, Literal.places]

/-! ### Lexing piece by piece -/

theorem ofNumeral_of_sound (hrun : ∀ c ∈ run, isNumeral c = true) (h : (Piece.run run).Sound) :
    ofNumeral run = .ok (number (runDecimal run).toFloat) := by
  rw [ofNumeral, (ofLiteral?_run hrun).2 ⟨h, rfl⟩]

theorem ofNumeral_of_not_sound (hrun : ∀ c ∈ run, isNumeral c = true) (h : ¬(Piece.run run).Sound) :
    ofNumeral run = .error (.invalidNumber (String.ofList run)) := by
  cases hread : ofLiteral? run with
  | none => rw [ofNumeral, hread]
  | some d => exact absurd ((ofLiteral?_run hrun).1 hread).1 h

/-- A sound piece adds its lexeme in front. -/
theorem ofChars_of_sound {p : Piece} (hp : p.Proper) (hmax : p.Maximal rest) (h : p.Sound) :
    ofChars (p.chars ++ rest) = (ofChars rest).map (p.lexeme?.toList ++ ·) := by
  cases p with
  | blank c =>
    refine (ofChars_separator hp rest).trans ?_
    cases ofChars rest <;> rfl
  | run run =>
    refine (ofChars_run hp.1 hp.2 hmax).trans ?_
    rw [ofNumeral_of_sound hp.2 h]
    rfl
  | symbol c =>
    obtain ⟨t, ht⟩ := Option.isSome_iff_exists.1 hp
    refine (ofChars_symbol ht rest).trans ?_
    rw [Piece.lexeme?, ht]
    rfl
  | other c => exact h.elim

/-- What follows a piece that is not sound is not looked at. -/
theorem ofChars_of_not_sound {p : Piece} (hp : p.Proper) (hmax : p.Maximal rest) (h : ¬p.Sound) :
    ofChars (p.chars ++ rest) = .error p.error := by
  cases p with
  | blank c | symbol c => exact absurd trivial h
  | run run =>
    refine (ofChars_run hp.1 hp.2 hmax).trans ?_
    rw [ofNumeral_of_not_sound hp.2 h]
    rfl
  | other c => exact ofChars_other hp.1 hp.2.1 hp.2.2 rest

theorem ofChars_of_all_sound {ps : List Piece} (h : Cut ps cs) (hsound : ∀ p ∈ ps, p.Sound) :
    ofChars cs = .ok (ps.filterMap Piece.lexeme?) := by
  induction h with
  | nil => exact ofChars_nil
  | @cons p ps rest hp hmax _ ih =>
    rw [ofChars_of_sound hp hmax (hsound p (by simp)), ih fun q hq => hsound q (by simp [hq])]
    cases hlexeme : p.lexeme? <;> simp [Except.map, hlexeme]

theorem ofChars_of_leftmost {before after : List Piece} {p : Piece} (h : Cut (before ++ p :: after) cs)
    (hbefore : ∀ q ∈ before, q.Sound) (hp : ¬p.Sound) : ofChars cs = .error p.error := by
  induction before generalizing cs with
  | nil =>
    cases h with
    | cons hproper hmax _ => exact ofChars_of_not_sound hproper hmax hp
  | cons q before ih =>
    cases h with
    | cons hproper hmax hrest =>
      rw [ofChars_of_sound hproper hmax (hbefore q (by simp)), ih hrest fun r hr => hbefore r (by simp [hr])]
      rfl

/-- A row of pieces that are not all sound has a leftmost one. -/
theorem exists_leftmost {ps : List Piece} (h : ¬∀ p ∈ ps, p.Sound) :
    ∃ before p after, ps = before ++ p :: after ∧ (∀ q ∈ before, q.Sound) ∧ ¬p.Sound := by
  induction ps with
  | nil => exact absurd (by simp) h
  | cons p ps ih =>
    by_cases hp : p.Sound
    · obtain ⟨before, q, after, rfl, hbefore, hq⟩ := ih fun hall => h (List.forall_mem_cons.2 ⟨hp, hall⟩)
      exact ⟨p :: before, q, after, rfl, List.forall_mem_cons.2 ⟨hp, hbefore⟩, hq⟩
    · exact ⟨[], p, ps, rfl, by simp, hp⟩

theorem ofChars_ne_tooLong (cs : List Char) (n : Nat) : ofChars cs ≠ .error (.tooLong n) := by
  obtain ⟨ps, hps⟩ := exists_cut cs
  by_cases hsound : ∀ p ∈ ps, p.Sound
  · rw [ofChars_of_all_sound hps hsound]
    exact fun h => by cases h
  · obtain ⟨before, p, after, rfl, hbefore, hp⟩ := exists_leftmost hsound
    rw [ofChars_of_leftmost hps hbefore hp]
    cases p <;> exact fun h => by cases h

end Lexeme

namespace Expr

open Lexeme

theorem ofLexemes_eq_tooLong_iff {limit : Option Nat} {ts : List Lexeme} {n : Nat} :
    ofLexemes limit ts = .error (.tooLong n) ↔ ts.length = n ∧ maxLexemes < n := by
  unfold ofLexemes
  split
  · next hempty =>
    rw [List.isEmpty_iff.1 hempty]
    simp [maxLexemes]
    omega
  split
  · next hlong =>
    simp
    omega
  · next hshort =>
    have hne : ¬(ts.length = n ∧ maxLexemes < n) := by omega
    simp only [hne, iff_false]
    split
    · next e _ => cases e <;> exact fun h => by cases h
    · exact fun h => by cases h
    · next t _ _ _ => cases t <;> exact fun h => by cases h

theorem ofChars_eq_tooLong_iff {cs : List Char} {n : Nat} : ofChars cs = .error (.tooLong n) ↔
    ∃ ts, Lexeme.ofChars cs = .ok ts ∧ ts.length = n ∧ maxLexemes < n := by
  cases hlex : Lexeme.ofChars cs with
  | error e =>
    have hne : e ≠ .tooLong n := fun heq => ofChars_ne_tooLong cs n (heq ▸ hlex)
    simp [ofChars, hlex, bind, Except.bind, hne]
  | ok ts => simp [ofChars, hlex, bind, Except.bind, ofLexemes_eq_tooLong_iff]

/-- Every text is cut into pieces in one way. When all are sound, the lexemes are theirs, one for every run and every
symbol; otherwise the leftmost that is not decides the error. An expression is too long exactly if there are too many
lexemes. -/
theorem ofChars_cut (cs : List Char) : (∃! ps, Cut ps cs) ∧
    (∀ ps, Cut ps cs →
      ((∀ p ∈ ps, p.Sound) → Lexeme.ofChars cs = .ok (ps.filterMap Piece.lexeme?)) ∧
      ((¬∀ p ∈ ps, p.Sound) → ∃ before p after, ps = before ++ p :: after ∧ (∀ q ∈ before, q.Sound) ∧ ¬p.Sound ∧
        Lexeme.ofChars cs = .error p.error ∧ ofChars cs = .error p.error)) ∧
    ∀ n, ofChars cs = .error (.tooLong n) ↔ ∃ ts, Lexeme.ofChars cs = .ok ts ∧ ts.length = n ∧ maxLexemes < n := by
  refine ⟨?_, fun ps hcut => ⟨ofChars_of_all_sound hcut, fun hsound => ?_⟩, fun n => ofChars_eq_tooLong_iff⟩
  · obtain ⟨ps, hps⟩ := exists_cut cs
    exact ⟨ps, hps, fun qs hqs => hps.unique hqs⟩
  · obtain ⟨before, p, after, rfl, hbefore, hp⟩ := exists_leftmost hsound
    have hlex := ofChars_of_leftmost hcut hbefore hp
    refine ⟨before, p, after, rfl, hbefore, hp, hlex, ?_⟩
    rw [ofChars, hlex]
    rfl

/-- The run `1.2.3` comes before the `x`, and `-.5` is a sign and a half. -/
theorem ofChars_cut_two_points :
    ofChars ['1', '.', '2', '.', '3', ' ', 'x'] = .error (.invalidNumber "1.2.3") ∧
      Lexeme.ofChars ['-', '.', '5'] = .ok [.minus, .number (Binary64.ofMagnitude false 0x3fe0000000000000)] := by
  constructor
  · have hcut : Cut [.run ['1', '.', '2', '.', '3'], .blank ' ', .other 'x'] ['1', '.', '2', '.', '3', ' ', 'x'] :=
      .cons ⟨by simp, by simp; decide⟩ (endsRun_cons.2 rfl)
        (.cons rfl trivial (.cons ⟨rfl, rfl, rfl⟩ trivial .nil))
    have hpoints : ¬(Piece.run ['1', '.', '2', '.', '3']).Sound := fun h => absurd h.2 (by decide)
    obtain ⟨before, p, after, hps, hbefore, -, -, herror⟩ :=
      ((ofChars_cut _).2.1 _ hcut).2 fun hall => hpoints (hall _ (by simp))
    -- the run is the leftmost piece that is not sound
    cases before with
    | nil =>
      obtain ⟨rfl, -⟩ := List.cons.inj hps
      exact herror
    | cons q before =>
      obtain ⟨rfl, -⟩ := List.cons.inj hps
      exact absurd (hbefore _ (by simp)) hpoints
  · have hcut : Cut [.symbol '-', .run ['.', '5']] ['-', '.', '5'] :=
      .cons rfl trivial (.cons ⟨by simp, by simp; decide⟩ endsRun_nil .nil)
    have hsound : ∀ p ∈ [Piece.symbol '-', .run ['.', '5']], p.Sound := by simp [Piece.Sound]
    have hmagnitude : (runDecimal ['.', '5']).magnitude = 0x3fe0000000000000 := by decide +kernel
    rw [((ofChars_cut _).2.1 _ hcut).1 hsound]
    simp only [List.filterMap, Piece.lexeme?, Decimal.toFloat, hmagnitude]
    rfl

end Expr

end FormulaBar
