import FormulaBar.Expr.Parser

/-!
# FormulaBar.Proofs.Expr.Reading — the readers of expressions as plain functions

Each reader of `Parser` returns its rest with a proof that it is shorter. `read` forgets the proof and names the reader
by the phrase that it reads, so that one statement can speak of all five; `readMore` does the same for the two loops.
The equations `read_sum` … `read_atom_group` are all that later proofs use of the readers.
-/

namespace FormulaBar

section Except

variable {ε α β : Type}

theorem bind_eq_ok {x : Except ε α} {f : α → Except ε β} {b : β} :
    x.bind f = .ok b ↔ ∃ a, x = .ok a ∧ f a = .ok b := by
  constructor
  · intro h
    cases x with
    | error _ => cases h
    | ok a => exact ⟨a, rfl, h⟩
  · rintro ⟨a, rfl, h⟩
    exact h

theorem bind_eq_error {x : Except ε α} {f : α → Except ε β} {e : ε} :
    x.bind f = .error e ↔ x = .error e ∨ ∃ a, x = .ok a ∧ f a = .error e := by
  cases x <;> simp [Except.bind]

theorem map_eq_ok {x : Except ε α} {f : α → β} {b : β} : x.map f = .ok b ↔ ∃ a, x = .ok a ∧ f a = b := by
  constructor
  · intro h
    cases x with
    | error _ => cases h
    | ok a => exact ⟨a, rfl, Except.ok.inj h⟩
  · rintro ⟨a, rfl, rfl⟩
    rfl

end Except

namespace Parser

/-- The five kinds of phrase, from the loosest to the tightest. -/
inductive Phrase
  | sum
  | product
  | signed
  | power
  | atom
deriving DecidableEq, Repr

/-- The operations that join the parts of a phrase: those of sums and of products. -/
def Phrase.joins : Phrase → Lexeme → Option BinaryOp
  | sum, t => t.additive?
  | product, t => t.multiplicative?
  | _, _ => none

/-- The parts that a phrase joins. -/
def Phrase.part : Phrase → Phrase
  | sum => product
  | product => signed
  | k => k

/-- An expression that was read, and the lexemes behind it. -/
abbrev Reading := Except SyntaxError (Expr × List Lexeme)

/-- The expression and the rest, without the proof. -/
def Front.pair {ts : List Lexeme} (f : Front ts) : Expr × List Lexeme := (f.expr, f.rest)

/-- The expression and the rest, without the proof. -/
def Continuation.pair {ts : List Lexeme} (f : Continuation ts) : Expr × List Lexeme := (f.expr, f.rest)

/-- Reads a phrase off the front of `ts`. -/
def read (limit : Option Nat) (k : Phrase) (depth : Nat) (ts : List Lexeme) : Reading :=
  match k with
  | .sum => (sum limit depth ts).map Front.pair
  | .product => (product limit depth ts).map Front.pair
  | .signed => (signed limit depth ts).map Front.pair
  | .power => (power limit depth ts).map Front.pair
  | .atom => (atom limit depth ts).map Front.pair

/-- Continues a phrase over the front of `ts`. Only sums and products can be continued. -/
def readMore (limit : Option Nat) (k : Phrase) (depth : Nat) (left : Expr) (ts : List Lexeme) : Reading :=
  match k with
  | .sum => (sumTail limit depth left ts).map Continuation.pair
  | .product => (productTail limit depth left ts).map Continuation.pair
  | _ => .ok (left, ts)

variable {limit : Option Nat} {depth : Nat} {ts : List Lexeme}

/-! ### The rest is shorter -/

theorem read_shorter {k : Phrase} {e : Expr} {rest : List Lexeme} (h : read limit k depth ts = .ok (e, rest)) :
    rest.length < ts.length := by
  have key : ∀ r : Except SyntaxError (Front ts), r.map Front.pair = .ok (e, rest) → rest.length < ts.length := by
    intro r hr
    cases r with
    | error _ => cases hr
    | ok f => cases hr; exact f.shorter
  cases k <;> exact key _ h

/-! ### What each reader does -/

theorem read_sum : read limit .sum depth ts = (read limit .product depth ts).bind fun p =>
    readMore limit .sum depth p.1 p.2 := by
  simp only [read, readMore]
  rw [sum]
  cases product limit depth ts with
  | error _ => rfl
  | ok f =>
    obtain ⟨left, rest, h⟩ := f
    simp only [Except.map, Except.bind, Front.pair]
    cases sumTail limit depth left rest <;> rfl

theorem read_product : read limit .product depth ts = (read limit .signed depth ts).bind fun p =>
    readMore limit .product depth p.1 p.2 := by
  simp only [read, readMore]
  rw [product]
  cases signed limit depth ts with
  | error _ => rfl
  | ok f =>
    obtain ⟨left, rest, h⟩ := f
    simp only [Except.map, Except.bind, Front.pair]
    cases productTail limit depth left rest <;> rfl

@[simp] theorem readMore_nil (k : Phrase) (left : Expr) : readMore limit k depth left [] = .ok (left, []) := by
  cases k with
  | sum => simp only [readMore]; rw [sumTail]; rfl
  | product => simp only [readMore]; rw [productTail]; rfl
  | signed => rfl
  | power => rfl
  | atom => rfl

theorem readMore_stop {k : Phrase} {t : Lexeme} (ht : k.joins t = none) (left : Expr) :
    readMore limit k depth left (t :: ts) = .ok (left, t :: ts) := by
  cases k with
  | sum =>
    simp only [readMore]
    rw [sumTail]
    split
    · rfl
    · next h => rw [show t.additive? = none from ht] at h; cases h
  | product =>
    simp only [readMore]
    rw [productTail]
    split
    · rfl
    · next h => rw [show t.multiplicative? = none from ht] at h; cases h
  | signed => rfl
  | power => rfl
  | atom => rfl

theorem readMore_step {k : Phrase} {t : Lexeme} {op : BinaryOp} (ht : k.joins t = some op) (left : Expr) :
    readMore limit k depth left (t :: ts) = (read limit k.part depth ts).bind fun p =>
      readMore limit k depth (.binary op left p.1) p.2 := by
  cases k with
  | sum =>
    simp only [readMore, read, Phrase.part]
    rw [sumTail]
    -- both loops are the same up to the operator class, but they are two functions
    split
    · next h => rw [show t.additive? = some op from ht] at h; cases h
    · next op' h =>
      obtain rfl : op = op' := Option.some.inj (ht.symm.trans h)
      cases product limit depth ts with
      | error _ => rfl
      | ok f =>
        obtain ⟨right, rest, h⟩ := f
        simp only [Except.map, Except.bind, Front.pair]
        cases sumTail limit depth (.binary op left right) rest <;> rfl
  | product =>
    simp only [readMore, read, Phrase.part]
    rw [productTail]
    split
    · next h => rw [show t.multiplicative? = some op from ht] at h; cases h
    · next op' h =>
      obtain rfl : op = op' := Option.some.inj (ht.symm.trans h)
      cases signed limit depth ts with
      | error _ => rfl
      | ok f =>
        obtain ⟨right, rest, h⟩ := f
        simp only [Except.map, Except.bind, Front.pair]
        cases productTail limit depth (.binary op left right) rest <;> rfl
  | signed => cases ht
  | power => cases ht
  | atom => cases ht

theorem isTooDeep_eq_false : isTooDeep limit depth = false ↔ ∀ n ∈ limit, depth ≤ n := by
  cases limit <;> simp [isTooDeep]

theorem read_signed_of_tooDeep (h : isTooDeep limit depth = true) :
    read limit .signed depth ts = .error .tooDeep := by
  simp only [read]
  rw [signed.eq_def, if_pos h]
  rfl

theorem read_signed_plus (h : isTooDeep limit depth = false) :
    read limit .signed depth (.plus :: ts) = read limit .signed (depth + 1) ts := by
  simp only [read]
  rw [signed, if_neg (by simp [h])]
  cases signed limit (depth + 1) ts <;> rfl

theorem read_signed_minus (h : isTooDeep limit depth = false) :
    read limit .signed depth (.minus :: ts) =
      (read limit .signed (depth + 1) ts).map fun p => (.neg p.1, p.2) := by
  simp only [read]
  rw [signed, if_neg (by simp [h])]
  cases signed limit (depth + 1) ts <;> rfl

theorem read_signed_of_unsigned (h : isTooDeep limit depth = false) (hplus : ∀ us, ts ≠ .plus :: us)
    (hminus : ∀ us, ts ≠ .minus :: us) : read limit .signed depth ts = read limit .power depth ts := by
  simp only [read]
  rw [signed.eq_def, if_neg (by simp [h])]
  split
  · next us => exact absurd rfl (hplus us)
  · next us => exact absurd rfl (hminus us)
  · rfl

/-- What follows an atom: an exponent behind `^`, or the end of the power. -/
def readExponent (limit : Option Nat) (depth : Nat) (base : Expr) : List Lexeme → Reading
  | .caret :: ts => (read limit .signed (depth + 1) ts).map fun p => (.binary .pow base p.1, p.2)
  | ts => .ok (base, ts)

theorem readExponent_of_ne (base : Expr) (h : ∀ us, ts ≠ .caret :: us) :
    readExponent limit depth base ts = .ok (base, ts) := by
  unfold readExponent
  split
  · next us => exact absurd rfl (h us)
  · rfl

theorem read_power : read limit .power depth ts = (read limit .atom depth ts).bind fun p =>
    readExponent limit depth p.1 p.2 := by
  simp only [read]
  rw [power]
  cases atom limit depth ts with
  | error _ => rfl
  | ok base =>
    obtain ⟨e, rest, h⟩ := base
    cases rest with
    | nil => rfl
    | cons t us =>
      cases t with
      | caret =>
        simp only [Except.map, Except.bind, Front.pair, readExponent, read]
        cases signed limit (depth + 1) us <;> rfl
      | _ => rfl

/-- What follows a sum between parentheses: the closing one. -/
def readClosing (inner : Expr) : List Lexeme → Reading
  | [] => .error .missingClosingParen
  | .rightParen :: ts => .ok (inner, ts)
  | t :: ts => .error (.unexpectedToken (t :: ts).length)

theorem readClosing_eq_ok {inner e : Expr} {rest : List Lexeme} (h : readClosing inner ts = .ok (e, rest)) :
    ts = .rightParen :: rest ∧ e = inner := by
  unfold readClosing at h
  split at h <;> cases h
  exact ⟨rfl, rfl⟩

@[simp] theorem read_atom_nil : read limit .atom depth [] = .error .unexpectedEnd := by
  simp only [read]
  rw [atom]
  rfl

@[simp] theorem read_atom_number (value : Float) :
    read limit .atom depth (.number value :: ts) = .ok (.number value, ts) := by
  simp only [read]
  rw [atom]
  rfl

theorem read_atom_group : read limit .atom depth (.leftParen :: ts) =
    (read limit .sum (depth + 1) ts).bind fun p => readClosing p.1 p.2 := by
  simp only [read]
  rw [atom]
  cases sum limit (depth + 1) ts with
  | error _ => rfl
  | ok inner =>
    obtain ⟨e, rest, h⟩ := inner
    cases rest with
    | nil => rfl
    | cons t us => cases t <;> rfl

theorem read_atom_of_other {t : Lexeme} (hnumber : ∀ v, t ≠ .number v) (hparen : t ≠ .leftParen) :
    read limit .atom depth (t :: ts) = .error (.unexpectedToken (t :: ts).length) := by
  simp only [read]
  rw [atom.eq_def]
  cases t with
  | number v => exact absurd rfl (hnumber v)
  | leftParen => exact absurd rfl hparen
  | _ => rfl

/-! ### Induction over the readers

Each reader calls the next tighter one on the same lexemes and all others on fewer. So what the lengths below have been
shown to satisfy may be used for every phrase, and at the same length only for the next tighter phrase. -/

/-- Induction along the calls of the readers: `P` for those that read a phrase, `M` for those that continue one. -/
theorem readers_induct {P M : Phrase → Nat → List Lexeme → Prop}
    (more : ∀ k d ts, (∀ us, us.length < ts.length → P k.part d us) → (∀ us, us.length < ts.length → M k d us) →
      M k d ts)
    (atom : ∀ d ts, (∀ us, us.length < ts.length → P .sum (d + 1) us) → P .atom d ts)
    (power : ∀ d ts, P .atom d ts → (∀ us, us.length < ts.length → P .signed (d + 1) us) → P .power d ts)
    (signed : ∀ d ts, P .power d ts → (∀ us, us.length < ts.length → P .signed (d + 1) us) → P .signed d ts)
    (product : ∀ d ts, P .signed d ts → (∀ us, us.length < ts.length → M .product d us) → P .product d ts)
    (sum : ∀ d ts, P .product d ts → (∀ us, us.length < ts.length → M .sum d us) → P .sum d ts)
    (k : Phrase) (d : Nat) (ts : List Lexeme) : P k d ts := by
  suffices h : ∀ n ts, ts.length = n → (∀ k d, P k d ts) ∧ ∀ k d, M k d ts from (h _ ts rfl).1 k d
  intro n
  induction n using Nat.strongRecOn with
  | ind n ih =>
    intro ts hn
    -- shorter rows first, and within one row from the atom up to the sum
    have fewer (us : List Lexeme) (hus : us.length < ts.length) : (∀ k d, P k d us) ∧ ∀ k d, M k d us :=
      ih us.length (hn ▸ hus) us rfl
    have hatom (d) : P .atom d ts := atom d ts fun us hus => (fewer us hus).1 .sum (d + 1)
    have hpower (d) : P .power d ts := power d ts (hatom d) fun us hus => (fewer us hus).1 .signed (d + 1)
    have hsigned (d) : P .signed d ts := signed d ts (hpower d) fun us hus => (fewer us hus).1 .signed (d + 1)
    have hproduct (d) : P .product d ts := product d ts (hsigned d) fun us hus => (fewer us hus).2 .product d
    have hsum (d) : P .sum d ts := sum d ts (hproduct d) fun us hus => (fewer us hus).2 .sum d
    constructor
    · intro k d
      cases k with
      | sum => exact hsum d
      | product => exact hproduct d
      | signed => exact hsigned d
      | power => exact hpower d
      | atom => exact hatom d
    · intro k d
      exact more k d ts (fun us hus => (fewer us hus).1 k.part d) fun us hus => (fewer us hus).2 k d

end Parser

namespace Expr

open FormulaBar.Parser

/-- The expression that a row of lexemes is, told by the reader of sums. -/
theorem ofLexemes_eq_read {limit : Option Nat} {ts : List Lexeme} (hne : ts ≠ []) (hshort : ts.length ≤ maxLexemes) :
    ofLexemes limit ts = match read limit .sum 0 ts with
      | .error e => .error (e.inRow ts.length)
      | .ok (e, []) => .ok e
      | .ok (_, t :: rest) => .error (leftOver (ts.length - (t :: rest).length) t) := by
  rw [ofLexemes, if_neg (by simpa using hne), if_neg (Nat.not_lt_of_le hshort)]
  simp only [Parser.read]
  cases Parser.sum limit 0 ts with
  | error _ => rfl
  | ok f =>
    obtain ⟨e, rest, h⟩ := f
    cases rest <;> rfl

end Expr

end FormulaBar
