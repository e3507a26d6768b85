import FormulaBar.Proofs.Expr.Reading

/-!
# FormulaBar.Proofs.Expr.Grammar — the readers accept a grammar

`Derives` is the grammar of expressions, with the tree that each phrase stands for; sums and products group to the left
by their rules, not by a loop. Reading is sound for it (`derives_of_read`) and finds every derivation whose phrase does
not go on in what follows (`read_of_derives`). So a row of lexemes has one tree at most, and `Expr.ofChars` accepts
exactly the texts whose lexemes are a sum at depth zero.
-/

namespace FormulaBar

namespace Parser

/-- `Derives limit k d ts e`: the lexemes `ts` are a phrase of kind `k` at depth `d`, and `e` is its expression. Signs,
exponents and parentheses lead one level deeper, and no signed phrase lies below the limit. The lexemes between the parts
of a sum are `+` and `-`, for addition and subtraction (`Lexeme.additive?_eq_some_iff`), and those between the parts of a
product are `*` and `/` (`Lexeme.multiplicative?_eq_some_iff`). -/
inductive Derives (limit : Option Nat) : Phrase → Nat → List Lexeme → Expr → Prop
  | sum_single {d ts e} (h : Derives limit .product d ts e) : Derives limit .sum d ts e
  | sum_more {d ts t us l r op} (hl : Derives limit .sum d ts l) (ht : t.additive? = some op)
      (hr : Derives limit .product d us r) : Derives limit .sum d (ts ++ t :: us) (.binary op l r)
  | product_single {d ts e} (h : Derives limit .signed d ts e) : Derives limit .product d ts e
  | product_more {d ts t us l r op} (hl : Derives limit .product d ts l) (ht : t.multiplicative? = some op)
      (hr : Derives limit .signed d us r) : Derives limit .product d (ts ++ t :: us) (.binary op l r)
  | plus {d ts e} (hd : ∀ n ∈ limit, d ≤ n) (h : Derives limit .signed (d + 1) ts e) :
      Derives limit .signed d (.plus :: ts) e
  | minus {d ts e} (hd : ∀ n ∈ limit, d ≤ n) (h : Derives limit .signed (d + 1) ts e) :
      Derives limit .signed d (.minus :: ts) (.neg e)
  | unsigned {d ts e} (hd : ∀ n ∈ limit, d ≤ n) (h : Derives limit .power d ts e) :
      Derives limit .signed d ts e
  | base {d ts e} (h : Derives limit .atom d ts e) : Derives limit .power d ts e
  | raised {d ts us b x} (hb : Derives limit .atom d ts b) (hx : Derives limit .signed (d + 1) us x) :
      Derives limit .power d (ts ++ .caret :: us) (.binary .pow b x)
  | number {d} (value : Float) : Derives limit .atom d [.number value] (.number value)
  | group {d ts e} (h : Derives limit .sum (d + 1) ts e) :
      Derives limit .atom d (.leftParen :: ts ++ [.rightParen]) e

variable {limit : Option Nat}

/-! ### What is read is derived

The theorems recurse as the readers do. A loop continues a phrase that was derived before it. -/

/-- What `read` takes off the front of `ts` is a phrase. -/
def Sound (limit : Option Nat) (k : Phrase) (d : Nat) (ts : List Lexeme) : Prop :=
  ∀ e rest, read limit k d ts = .ok (e, rest) → ∃ used, ts = used ++ rest ∧ Derives limit k d used e

/-- What `readMore` adds to a phrase makes a longer phrase. -/
def SoundMore (limit : Option Nat) (k : Phrase) (d : Nat) (ts : List Lexeme) : Prop :=
  ∀ before left e rest, Derives limit k d before left → readMore limit k d left ts = .ok (e, rest) →
    ∃ used, ts = used ++ rest ∧ Derives limit k d (before ++ used) e

theorem soundMore_nil (k : Phrase) (d : Nat) : SoundMore limit k d [] := by
  intro before left e rest hb h
  rw [readMore_nil] at h
  cases h
  exact ⟨[], rfl, by rwa [List.append_nil]⟩

/-- Continuing by a phrase after an operator, given what joins the two. -/
theorem soundMore_cons {k : Phrase} {d : Nat} {t : Lexeme} {ts : List Lexeme}
    (hjoin : ∀ before us l r op, k.joins t = some op → Derives limit k d before l → Derives limit k.part d us r →
      Derives limit k d (before ++ t :: us) (.binary op l r))
    (hpart : Sound limit k.part d ts)
    (hmore : ∀ rest, rest.length < ts.length → SoundMore limit k d rest) : SoundMore limit k d (t :: ts) := by
  intro before left e rest hb h
  cases ht : k.joins t with
  | none =>
    rw [readMore_stop ht] at h
    cases h
    exact ⟨[], rfl, by rwa [List.append_nil]⟩
  | some op =>
    rw [readMore_step ht] at h
    obtain ⟨⟨right, mid⟩, hright, hrest⟩ := bind_eq_ok.1 h
    have hshort := read_shorter hright
    obtain ⟨us, rfl, hus⟩ := hpart right mid hright
    have hjoined := hjoin before us left right op ht hb hus
    obtain ⟨vs, rfl, hvs⟩ := hmore mid hshort _ _ e rest hjoined hrest
    exact ⟨t :: us ++ vs, by simp, by simpa using hvs⟩

mutual

theorem sum_sound (d : Nat) (ts : List Lexeme) : Sound limit .sum d ts := by
  intro e rest h
  rw [read_sum] at h
  obtain ⟨⟨left, mid⟩, hleft, hmore⟩ := bind_eq_ok.1 h
  have hshort := read_shorter hleft
  obtain ⟨us, rfl, hus⟩ := product_sound d ts left mid hleft
  obtain ⟨vs, rfl, hvs⟩ := sumMore_sound d mid us left e rest (.sum_single hus) hmore
  exact ⟨us ++ vs, by simp, hvs⟩
termination_by 7 * ts.length + 6

theorem sumMore_sound (d : Nat) (ts : List Lexeme) : SoundMore limit .sum d ts := by
  match ts with
  | [] => exact soundMore_nil _ d
  | t :: ts =>
    exact soundMore_cons (fun _ _ _ _ _ ht hl hr => .sum_more hl ht hr) (product_sound d ts)
      fun rest _ => sumMore_sound d rest
termination_by 7 * ts.length + 5

theorem product_sound (d : Nat) (ts : List Lexeme) : Sound limit .product d ts := by
  intro e rest h
  rw [read_product] at h
  obtain ⟨⟨left, mid⟩, hleft, hmore⟩ := bind_eq_ok.1 h
  have hshort := read_shorter hleft
  obtain ⟨us, rfl, hus⟩ := signed_sound d ts left mid hleft
  obtain ⟨vs, rfl, hvs⟩ := productMore_sound d mid us left e rest (.product_single hus) hmore
  exact ⟨us ++ vs, by simp, hvs⟩
termination_by 7 * ts.length + 4

theorem productMore_sound (d : Nat) (ts : List Lexeme) : SoundMore limit .product d ts := by
  match ts with
  | [] => exact soundMore_nil _ d
  | t :: ts =>
    exact soundMore_cons (fun _ _ _ _ _ ht hl hr => .product_more hl ht hr) (signed_sound d ts)
      fun rest _ => productMore_sound d rest
termination_by 7 * ts.length + 3

theorem signed_sound (d : Nat) (ts : List Lexeme) : Sound limit .signed d ts := by
  intro e rest h
  by_cases hd : ∀ n ∈ limit, d ≤ n
  · have hlevel := isTooDeep_eq_false.2 hd
    -- a sign leads one level deeper, so the recursion goes on in a shorter row there
    by_cases hplus : ∃ us, ts = .plus :: us
    · obtain ⟨us, rfl⟩ := hplus
      rw [read_signed_plus hlevel] at h
      obtain ⟨used, rfl, hused⟩ := signed_sound (d + 1) us e rest h
      exact ⟨.plus :: used, rfl, .plus hd hused⟩
    by_cases hminus : ∃ us, ts = .minus :: us
    · obtain ⟨us, rfl⟩ := hminus
      rw [read_signed_minus hlevel] at h
      obtain ⟨⟨inner, rest'⟩, hinner, hneg⟩ := map_eq_ok.1 h
      cases hneg
      obtain ⟨used, rfl, hused⟩ := signed_sound (d + 1) us inner rest' hinner
      exact ⟨.minus :: used, rfl, .minus hd hused⟩
    -- without a sign the phrase is a power of the same row
    · rw [read_signed_of_unsigned hlevel (not_exists.1 hplus) (not_exists.1 hminus)] at h
      obtain ⟨used, rfl, hused⟩ := power_sound d ts e rest h
      exact ⟨used, rfl, .unsigned hd hused⟩
  -- below the limit nothing is read
  · rw [read_signed_of_tooDeep (by simpa using mt isTooDeep_eq_false.1 hd)] at h
    cases h
termination_by 7 * ts.length + 2

theorem power_sound (d : Nat) (ts : List Lexeme) : Sound limit .power d ts := by
  intro e rest h
  rw [read_power] at h
  obtain ⟨⟨base, mid⟩, hbase, hend⟩ := bind_eq_ok.1 h
  have hshort := read_shorter hbase
  obtain ⟨us, rfl, hus⟩ := atom_sound d ts base mid hbase
  by_cases hcaret : ∃ ws, mid = .caret :: ws
  · obtain ⟨ws, rfl⟩ := hcaret
    obtain ⟨⟨x, rest'⟩, hx, hpow⟩ := map_eq_ok.1 hend
    cases hpow
    obtain ⟨vs, rfl, hvs⟩ := signed_sound (d + 1) ws x rest' hx
    exact ⟨us ++ .caret :: vs, by simp, .raised hus hvs⟩
  · rw [readExponent_of_ne base (not_exists.1 hcaret)] at hend
    cases hend
    exact ⟨us, rfl, .base hus⟩
termination_by 7 * ts.length + 1

theorem atom_sound (d : Nat) (ts : List Lexeme) : Sound limit .atom d ts := by
  intro e rest h
  match ts with
  | [] => rw [read_atom_nil] at h; cases h
  | t :: ts =>
    match t with
    | .number value =>
      rw [read_atom_number] at h
      cases h
      exact ⟨[.number value], rfl, .number value⟩
    | .leftParen =>
      rw [read_atom_group] at h
      obtain ⟨⟨inner, mid⟩, hinner, hend⟩ := bind_eq_ok.1 h
      obtain ⟨us, rfl, hus⟩ := sum_sound (d + 1) ts inner mid hinner
      obtain ⟨rfl, rfl⟩ := readClosing_eq_ok hend
      exact ⟨.leftParen :: us ++ [.rightParen], by simp, .group hus⟩
    | .plus | .minus | .star | .slash | .caret | .rightParen =>
      rw [read_atom_of_other (by simp) (by simp)] at h
      cases h
termination_by 7 * ts.length

end

theorem derives_of_read {k : Phrase} {d : Nat} {ts : List Lexeme} {e : Expr} {rest : List Lexeme}
    (h : read limit k d ts = .ok (e, rest)) : ∃ used, ts = used ++ rest ∧ Derives limit k d used e := by
  cases k with
  | sum => exact sum_sound d ts e rest h
  | product => exact product_sound d ts e rest h
  | signed => exact signed_sound d ts e rest h
  | power => exact power_sound d ts e rest h
  | atom => exact atom_sound d ts e rest h

/-! ### What is derived is read -/

/-- The last part of a phrase of this kind cannot go on at the front of `ts`. -/
def Phrase.EndsBefore : Phrase → List Lexeme → Prop
  | sum, ts => (∀ us, ts ≠ .caret :: us) ∧ ∀ t us, ts = t :: us → t.multiplicative? = none
  | product, ts | signed, ts | power, ts => ∀ us, ts ≠ .caret :: us
  | atom, _ => True

theorem endsBefore_nil (k : Phrase) : k.EndsBefore [] := by
  cases k <;> simp [Phrase.EndsBefore]

theorem endsBefore_product_of_sum {ts : List Lexeme} (h : Phrase.sum.EndsBefore ts) :
    Phrase.product.EndsBefore ts := h.1

theorem endsBefore_sum_of_additive {t : Lexeme} {op : BinaryOp} (h : t.additive? = some op) (ts : List Lexeme) :
    Phrase.sum.EndsBefore (t :: ts) := by
  obtain ⟨rfl, -⟩ | ⟨rfl, -⟩ := Lexeme.additive?_eq_some_iff.1 h <;>
    simp [Phrase.EndsBefore, Lexeme.multiplicative?]

theorem endsBefore_product_of_multiplicative {t : Lexeme} {op : BinaryOp} (h : t.multiplicative? = some op)
    (ts : List Lexeme) : Phrase.product.EndsBefore (t :: ts) := by
  obtain ⟨rfl, -⟩ | ⟨rfl, -⟩ := Lexeme.multiplicative?_eq_some_iff.1 h <;> simp [Phrase.EndsBefore]

/-- In front of such lexemes a product is not continued. -/
theorem readMore_product_of_endsBefore {d : Nat} {e : Expr} {rest : List Lexeme} (h : Phrase.sum.EndsBefore rest) :
    readMore limit .product d e rest = .ok (e, rest) := by
  cases rest with
  | nil => exact readMore_nil .product e
  | cons t us => exact readMore_stop (k := .product) (h.2 t us rfl) e

/-- A power starts with a number or a parenthesis, so no sign is taken off it. -/
theorem unsigned_of_power {d : Nat} {ts : List Lexeme} {e : Expr} (h : Derives limit .power d ts e)
    (rest : List Lexeme) : (∀ us, ts ++ rest ≠ .plus :: us) ∧ ∀ us, ts ++ rest ≠ .minus :: us := by
  have atom_head : ∀ {us : List Lexeme} {b : Expr}, Derives limit .atom d us b →
      ∃ t vs, us = t :: vs ∧ t ≠ .plus ∧ t ≠ .minus := by
    intro us b hb
    cases hb with
    | number v => exact ⟨.number v, [], rfl, by simp, by simp⟩
    | @group _ ts _ _ => exact ⟨.leftParen, ts ++ [.rightParen], rfl, by simp, by simp⟩
  cases h with
  | base hb =>
    obtain ⟨t, vs, rfl, hplus, hminus⟩ := atom_head hb
    simp [hplus, hminus]
  | raised hb _ =>
    obtain ⟨t, vs, rfl, hplus, hminus⟩ := atom_head hb
    simp [hplus, hminus]

/-- Reading follows a derivation to its end and goes on from there. -/
theorem read_of_derives {k : Phrase} {d : Nat} {ts : List Lexeme} {e : Expr} (h : Derives limit k d ts e) :
    ∀ rest, k.EndsBefore rest → read limit k d (ts ++ rest) = readMore limit k d e rest := by
  induction h with
  | sum_single _ ih =>
    intro rest hrest
    rw [read_sum, ih rest (endsBefore_product_of_sum hrest), readMore_product_of_endsBefore hrest]
    rfl
  | @sum_more d ts t us l r op _ ht _ ihl ihr =>
    intro rest hrest
    -- the left part ends where `t` joins, so its reader goes on in the loop
    rw [List.append_assoc, List.cons_append, ihl _ (endsBefore_sum_of_additive ht _),
      readMore_step (k := .sum) ht]
    rw [Phrase.part, ihr rest (endsBefore_product_of_sum hrest), readMore_product_of_endsBefore hrest]
    rfl
  | product_single _ ih =>
    intro rest hrest
    rw [read_product, ih rest hrest]
    rfl
  | @product_more d ts t us l r op _ ht _ ihl ihr =>
    intro rest hrest
    rw [List.append_assoc, List.cons_append, ihl _ (endsBefore_product_of_multiplicative ht _),
      readMore_step (k := .product) ht]
    rw [Phrase.part, ihr rest hrest]
    rfl
  | plus hd _ ih =>
    intro rest hrest
    rw [List.cons_append, read_signed_plus (isTooDeep_eq_false.2 hd), ih rest hrest]
    rfl
  | minus hd _ ih =>
    intro rest hrest
    rw [List.cons_append, read_signed_minus (isTooDeep_eq_false.2 hd), ih rest hrest]
    rfl
  | unsigned hd h ih =>
    intro rest hrest
    -- a power does not begin with a sign
    obtain ⟨hplus, hminus⟩ := unsigned_of_power h rest
    rw [read_signed_of_unsigned (isTooDeep_eq_false.2 hd) hplus hminus, ih rest hrest]
    rfl
  | base _ ih =>
    intro rest hrest
    rw [read_power, ih rest trivial]
    exact readExponent_of_ne _ hrest
  | @raised d ts us b x _ _ ihb ihx =>
    intro rest hrest
    rw [List.append_assoc, read_power, ihb _ trivial]
    show (read limit .signed (d + 1) (us ++ rest)).map _ = _
    rw [ihx rest hrest]
    rfl
  | number v =>
    intro rest _
    exact read_atom_number v
  | @group d ts e _ ih =>
    intro rest _
    -- the closing parenthesis ends the sum inside
    have hclose : Phrase.sum.EndsBefore (.rightParen :: rest) := by simp [Phrase.EndsBefore, Lexeme.multiplicative?]
    rw [List.append_assoc, List.cons_append, read_atom_group, List.singleton_append, ih _ hclose,
      readMore_stop (k := .sum) rfl]
    rfl

theorem derives_iff_read {k : Phrase} {d : Nat} {ts : List Lexeme} {e : Expr} :
    Derives limit k d ts e ↔ read limit k d ts = .ok (e, []) := by
  constructor
  · intro h
    have hread := read_of_derives h [] (endsBefore_nil k)
    rwa [List.append_nil, readMore_nil] at hread
  · intro h
    obtain ⟨used, rfl, hused⟩ := derives_of_read h
    rwa [List.append_nil]

/-- A row of lexemes is a phrase in one way only. -/
theorem derives_unique {k : Phrase} {d : Nat} {ts : List Lexeme} {e e' : Expr} (h : Derives limit k d ts e)
    (h' : Derives limit k d ts e') : e = e' := by
  have heq := (derives_iff_read.1 h).symm.trans (derives_iff_read.1 h')
  cases heq
  rfl

end Parser

open FormulaBar.Parser

theorem Expr.ofLexemes_eq_ok_iff {limit : Option Nat} {ts : List Lexeme} {e : Expr} :
    Expr.ofLexemes limit ts = .ok e ↔ 1 ≤ ts.length ∧ ts.length ≤ maxLexemes ∧ Derives limit .sum 0 ts e := by
  rw [derives_iff_read, Expr.ofLexemes]
  by_cases hempty : ts = []
  · subst hempty
    simp
  by_cases hlong : maxLexemes < ts.length
  · simp [hempty, hlong, Nat.not_le_of_lt hlong]
  have hpos : 1 ≤ ts.length := List.length_pos_iff.2 hempty
  rw [if_neg (by simpa using hempty), if_neg hlong]
  simp only [hpos, Nat.le_of_not_lt hlong, true_and, Parser.read]
  cases Parser.sum limit 0 ts with
  | error _ => simp [Except.map]
  | ok f =>
    obtain ⟨e', rest, h⟩ := f
    cases rest <;> simp [Except.map, Front.pair]

/-- A text is accepted exactly when its lexemes, at least one and not too many, are a sum at depth zero, and the
expression is the one tree that the grammar gives them. -/
theorem Expr.ofChars_eq_ok_iff_derives :
    (∀ (s : String) (e : Expr), Expr.ofChars s.toList = .ok e ↔
      ∃ ts, Lexeme.ofChars s.toList = .ok ts ∧ 1 ≤ ts.length ∧ ts.length ≤ maxLexemes ∧
        Derives (some maxDepth) .sum 0 ts e) ∧
    ∀ (ts : List Lexeme) (e e' : Expr), Derives (some maxDepth) .sum 0 ts e →
      Derives (some maxDepth) .sum 0 ts e' → e = e' := by
  constructor
  · intro s e
    show (Lexeme.ofChars s.toList).bind (Expr.ofLexemes (some maxDepth)) = .ok e ↔ _
    rw [bind_eq_ok]
    constructor
    · rintro ⟨ts, hts, h⟩
      exact ⟨ts, hts, Expr.ofLexemes_eq_ok_iff.1 h⟩
    · rintro ⟨ts, hts, h⟩
      exact ⟨ts, hts, Expr.ofLexemes_eq_ok_iff.2 h⟩
  · intro ts e e' h h'
    exact derives_unique h h'

end FormulaBar
