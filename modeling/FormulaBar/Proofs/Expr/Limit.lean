import FormulaBar.Proofs.Expr.Calls

/-!
# FormulaBar.Proofs.Expr.Limit — what the limit on nesting changes

Reading under a limit makes the calls that reading without one makes, with the same outcome, up to the first signed
phrase below the limit; there it is refused (`read_follows`). So a row is refused for its nesting exactly if reading it
without a limit comes below the limit, and every other row is read as without one (`ofLexemes_guard`). Statements about rows
that stay within the limits may be shown of the readers without them (`ofLexemes_of_withinLimits`).
-/

namespace FormulaBar

namespace Parser

/-- What became of a reading `x` under the limit `n`, with its calls, beside the same reading without a limit: both are one,
and no sign was read below the limit; or the first was refused there, up to where their calls are the same. -/
inductive Follows (n : Nat) : Reading → List Call → Reading → List Call → Prop
  | same {x : Reading} {cs : List Call} (hx : x ≠ .error .tooDeep) (hcs : ∀ c ∈ cs, c.phrase = .signed → c.depth ≤ n) :
      Follows n x cs x cs
  | refused {y : Reading} (cs : List Call) (us : List Lexeme) (after : List Call) :
      Follows n (.error .tooDeep) (cs ++ [⟨.signed, n + 1, us⟩]) y (cs ++ ⟨.signed, n + 1, us⟩ :: after)

variable {n d : Nat} {x y : Reading} {cs cs' ds ds' : List Call} {k : Phrase} {ts : List Lexeme}

theorem Follows.behind_calls (h : Follows n x ds y ds') (hcs : ∀ c ∈ cs, c.phrase = .signed → c.depth ≤ n) :
    Follows n x (cs ++ ds) y (cs ++ ds') := by
  cases h with
  | same hx hds => exact .same hx (List.forall_mem_append.2 ⟨hcs, hds⟩)
  | refused ds us after =>
    rw [← List.append_assoc, ← List.append_assoc]
    exact .refused (cs ++ ds) us after

theorem Follows.behind_call {c : Call} (h : Follows n x ds y ds') (hc : c.phrase = .signed → c.depth ≤ n) :
    Follows n x (c :: ds) y (c :: ds') := h.behind_calls (List.forall_mem_singleton.2 hc)

/-- What is read behind a phrase follows, if the phrase does. -/
theorem Follows.bind {f g : Expr × List Lexeme → Reading} {next next' : List Lexeme → List Call}
    (h : Follows n x cs y cs')
    (hf : ∀ e rest, y = .ok (e, rest) → Follows n (f (e, rest)) (next rest) (g (e, rest)) (next' rest)) :
    Follows n (x.bind f) (cs ++ behind x next) (y.bind g) (cs' ++ behind y next') := by
  cases h with
  | same hx hcs =>
    cases x with
    | error e => exact .same hx (List.forall_mem_append.2 ⟨hcs, by simp [behind]⟩)
    | ok p => exact (hf p.1 p.2 rfl).behind_calls hcs
  | refused cs us after =>
    rw [List.append_assoc, List.append_assoc, List.cons_append]
    exact .refused cs us _

/-- The same where no calls are made behind the phrase. -/
theorem Follows.bind_quiet {f : Expr × List Lexeme → Reading} (h : Follows n x cs y cs')
    (hf : ∀ p, f p ≠ .error .tooDeep) : Follows n (x.bind f) cs (y.bind f) cs' := by
  cases h with
  | same hx hcs =>
    refine .same ?_ hcs
    cases x with
    | error e => exact hx
    | ok p => exact hf p
  | refused cs us after => exact .refused cs us after

theorem Follows.map (h : Follows n x cs y cs') (φ : Expr × List Lexeme → Expr × List Lexeme) :
    Follows n (x.map φ) cs (y.map φ) cs' := by
  have hbind (z : Reading) : z.map φ = z.bind fun p => .ok (φ p) := by cases z <;> rfl
  rw [hbind, hbind]
  exact h.bind_quiet (by nofun)

/-- Reading a phrase that may be read at this depth under the limit follows reading it without one. -/
def Guarded (n : Nat) (k : Phrase) (d : Nat) (ts : List Lexeme) : Prop :=
  d ≤ k.lowest n → Follows n (read (some n) k d ts) (calls (some n) k d ts) (read none k d ts) (calls none k d ts)

/-- The same of continuing a phrase. -/
def GuardedMore (n : Nat) (k : Phrase) (d : Nat) (ts : List Lexeme) : Prop :=
  d ≤ k.lowest n → ∀ left, Follows n (readMore (some n) k d left ts) (moreCalls (some n) k d ts)
    (readMore none k d left ts) (moreCalls none k d ts)

theorem lowest_part (hk : k = .sum ∨ k = .product) : k.part.lowest n = k.lowest n := by
  rcases hk with rfl | rfl <;> rfl

theorem guardedMore (hpart : ∀ us, us.length < ts.length → Guarded n k.part d us)
    (hmore : ∀ us, us.length < ts.length → GuardedMore n k d us) : GuardedMore n k d ts := by
  intro hd left
  cases ts with
  | nil =>
    rw [readMore_nil, readMore_nil, moreCalls_nil, moreCalls_nil]
    exact .same (by simp) (by simp)
  | cons t us =>
    cases ht : k.joins t with
    | none =>
      rw [readMore_stop ht, readMore_stop ht, moreCalls_stop ht, moreCalls_stop ht]
      exact .same (by simp) (by simp)
    | some op =>
      rw [readMore_step ht, readMore_step ht, moreCalls_step ht, moreCalls_step ht]
      have hd' : d ≤ k.part.lowest n := lowest_part (joins_eq_some ht) ▸ hd
      refine (hpart us (Nat.lt_succ_self _) hd').bind fun e rest hread => ?_
      exact hmore rest (Nat.lt_succ_of_lt (read_shorter hread)) hd _

/-- What stands where a parenthesis should close is no matter of depth. -/
theorem readClosing_ne_tooDeep (inner : Expr) (ts : List Lexeme) : readClosing inner ts ≠ .error .tooDeep := by
  unfold readClosing
  split <;> nofun

theorem guarded_atom (hsum : ∀ us, us.length < ts.length → Guarded n .sum (d + 1) us) : Guarded n .atom d ts := by
  intro hd
  -- only a group calls a reader further down
  by_cases hgroup : ∃ us, ts = .leftParen :: us
  · obtain ⟨us, rfl⟩ := hgroup
    rw [read_atom_group, read_atom_group, calls_atom_group, calls_atom_group]
    have hinner := hsum us (Nat.lt_succ_self _) (Nat.succ_le_succ hd)
    exact (hinner.bind_quiet fun p => readClosing_ne_tooDeep p.1 p.2).behind_call nofun
  · rw [calls_atom_of_ne (not_exists.1 hgroup), calls_atom_of_ne (not_exists.1 hgroup)]
    -- any other row is read alike, whatever the limit
    have hsame : read (some n) .atom d ts = read none .atom d ts ∧ read none .atom d ts ≠ .error .tooDeep := by
      cases ts with
      | nil => simp
      | cons t us =>
        cases t with
        | number v => simp
        | leftParen => exact absurd ⟨us, rfl⟩ hgroup
        | _ =>
          rw [read_atom_of_other (by simp) (by simp), read_atom_of_other (by simp) (by simp)]
          simp
    rw [hsame.1]
    exact .same hsame.2 (List.forall_mem_singleton.2 nofun)

theorem guarded_power (hatom : Guarded n .atom d ts)
    (hsigned : ∀ us, us.length < ts.length → Guarded n .signed (d + 1) us) : Guarded n .power d ts := by
  intro hd
  rw [read_power, read_power, calls_power, calls_power]
  refine ((hatom hd).bind fun base rest hread => ?_).behind_call nofun
  by_cases hcaret : ∃ us, rest = .caret :: us
  · obtain ⟨us, rfl⟩ := hcaret
    exact (hsigned us (Nat.lt_of_succ_lt (read_shorter hread)) (Nat.succ_le_succ hd)).map _
  · rw [readExponent_of_ne base (not_exists.1 hcaret), readExponent_of_ne base (not_exists.1 hcaret),
      exponentCalls_of_ne (not_exists.1 hcaret), exponentCalls_of_ne (not_exists.1 hcaret)]
    exact .same nofun nofun

theorem guarded_signed (hpower : Guarded n .power d ts)
    (hsigned : ∀ us, us.length < ts.length → Guarded n .signed (d + 1) us) : Guarded n .signed d ts := by
  intro hd
  cases hdeep : isTooDeep (some n) d with
  | true =>
    -- below the limit by one level, where only the reader without a limit goes on
    have hlow : n < d := of_decide_eq_true hdeep
    obtain rfl : d = n + 1 := Nat.le_antisymm hd hlow
    rw [read_signed_of_tooDeep hdeep, calls_signed_of_tooDeep hdeep]
    obtain ⟨after, hafter⟩ := exists_calls_eq_cons none .signed (n + 1) ts
    rw [hafter]
    exact .refused [] ts after
  | false =>
    have hle : d ≤ n := isTooDeep_eq_false.1 hdeep n rfl
    -- a sign calls the same reader one level deeper, and that level is still guarded
    by_cases hplus : ∃ us, ts = .plus :: us
    · obtain ⟨us, rfl⟩ := hplus
      rw [read_signed_plus hdeep, read_signed_plus rfl, calls_signed_sign hdeep (.inl rfl),
        calls_signed_sign rfl (.inl rfl)]
      exact (hsigned us (Nat.lt_succ_self _) (Nat.succ_le_succ hle)).behind_call fun _ => hle
    by_cases hminus : ∃ us, ts = .minus :: us
    · obtain ⟨us, rfl⟩ := hminus
      rw [read_signed_minus hdeep, read_signed_minus rfl, calls_signed_sign hdeep (.inr rfl),
        calls_signed_sign rfl (.inr rfl)]
      exact ((hsigned us (Nat.lt_succ_self _) (Nat.succ_le_succ hle)).map _).behind_call fun _ => hle
    · have hplus := not_exists.1 hplus
      have hminus := not_exists.1 hminus
      rw [read_signed_of_unsigned hdeep hplus hminus, read_signed_of_unsigned rfl hplus hminus,
        calls_signed_of_unsigned hdeep hplus hminus, calls_signed_of_unsigned rfl hplus hminus]
      exact (hpower hle).behind_call fun _ => hle

theorem guarded_joining (hk : k = .sum ∨ k = .product) (hpart : Guarded n k.part d ts)
    (hmore : ∀ us, us.length < ts.length → GuardedMore n k d us) : Guarded n k d ts := by
  intro hd
  rw [read_joining hk, read_joining hk, calls_joining hk, calls_joining hk]
  have hd' : d ≤ k.part.lowest n := lowest_part hk ▸ hd
  refine ((hpart hd').bind fun e rest hread => hmore rest (read_shorter hread) hd _).behind_call ?_
  rcases hk with rfl | rfl <;> nofun

/-- Reading under a limit follows reading without one. -/
theorem read_follows (n : Nat) (k : Phrase) (d : Nat) (ts : List Lexeme) : Guarded n k d ts :=
  readers_induct (fun _ _ _ => guardedMore) (fun _ _ => guarded_atom) (fun _ _ => guarded_power)
    (fun _ _ => guarded_signed) (fun _ _ => guarded_joining (.inr rfl)) (fun _ _ => guarded_joining (.inl rfl)) k d ts

/-! ### What follows for the outcome -/

theorem Follows.outcome (h : Follows n x cs y cs') :
    (x = y ∧ cs = cs' ∧ x ≠ .error .tooDeep ∧ ∀ c ∈ cs, c.phrase = .signed → c.depth ≤ n) ∨
      x = .error .tooDeep ∧ ∃ before us after, cs = before ++ [⟨.signed, n + 1, us⟩] ∧
        cs' = before ++ ⟨.signed, n + 1, us⟩ :: after := by
  cases h with
  | same hx hcs => exact .inl ⟨rfl, rfl, hx, hcs⟩
  | refused before us after => exact .inr ⟨rfl, before, us, after, rfl, rfl⟩

/-- Reading a whole row under a limit follows reading it without one. -/
theorem read_row_follows (n : Nat) (ts : List Lexeme) :
    Follows n (read (some n) .sum 0 ts) (calls (some n) .sum 0 ts) (read none .sum 0 ts) (calls none .sum 0 ts) :=
  read_follows n .sum 0 ts (Nat.zero_le _)

/-- A row is refused exactly if reading it without a limit reads a sign below the limit. -/
theorem read_eq_tooDeep_iff : read (some n) .sum 0 ts = .error .tooDeep ↔
    ∃ us, ⟨.signed, n + 1, us⟩ ∈ calls none .sum 0 ts := by
  rcases (read_row_follows n ts).outcome with ⟨-, hcalls, hne, hlow⟩ | ⟨heq, before, us, after, -, hcalls⟩
  · refine ⟨fun h => absurd h hne, ?_⟩
    rintro ⟨us, hmem⟩
    rw [← hcalls] at hmem
    exact absurd (hlow _ hmem rfl) (Nat.not_succ_le_self n)
  · refine ⟨fun _ => ⟨us, ?_⟩, fun _ => heq⟩
    rw [hcalls]
    exact List.mem_append_right _ List.mem_cons_self

/-- A row with no more signs, exponents and parentheses than levels is not refused. -/
theorem read_ne_tooDeep_of_count (h : ts.countP Lexeme.deepens ≤ n) : read (some n) .sum 0 ts ≠ .error .tooDeep := by
  intro hdeep
  obtain ⟨us, hmem⟩ := read_eq_tooDeep_iff.1 hdeep
  have hcount := depth_add_count_le _ hmem
  dsimp only at hcount
  omega

/-- Without a limit no row is refused for its nesting. -/
theorem read_none_ne_tooDeep (ts : List Lexeme) : read none .sum 0 ts ≠ .error .tooDeep := by
  have hne := read_ne_tooDeep_of_count (Nat.le_refl (ts.countP Lexeme.deepens))
  rcases (read_row_follows (ts.countP Lexeme.deepens) ts).outcome with ⟨hsame, -, -, -⟩ | ⟨hdeep, -⟩
  · rwa [← hsame]
  · exact absurd hdeep hne

/-- Under a limit, the calls are those without one up to the refused one. -/
theorem calls_prefix (n : Nat) (ts : List Lexeme) : calls (some n) .sum 0 ts <+: calls none .sum 0 ts := by
  rcases (read_row_follows n ts).outcome with ⟨-, hcalls, -, -⟩ | ⟨-, before, us, after, hlimited, hcalls⟩
  · exact hcalls ▸ List.prefix_refl _
  · rw [hlimited, hcalls]
    exact ⟨after, by simp⟩

end Parser

namespace Expr

open FormulaBar.Parser

theorem read_nil (limit : Option Nat) : read limit .sum 0 [] = .error .unexpectedEnd := by
  have htop : isTooDeep limit 0 = false := isTooDeep_eq_false.2 fun n _ => Nat.zero_le n
  rw [read_sum, read_product, read_signed_of_unsigned htop (by simp) (by simp), read_power, read_atom_nil]
  rfl

/-- A row is refused for its nesting if it is short enough to be read and its reading is. -/
theorem ofLexemes_eq_tooDeep_iff {limit : Option Nat} {ts : List Lexeme} :
    ofLexemes limit ts = .error .tooDeep ↔ ts.length ≤ maxLexemes ∧ read limit .sum 0 ts = .error .tooDeep := by
  by_cases hne : ts = []
  · subst hne
    simp [read_nil, ofLexemes]
  by_cases hlong : maxLexemes < ts.length
  · rw [ofLexemes, if_neg (by simpa using hne), if_pos hlong]
    simp [Nat.not_le_of_lt hlong]
  · have hshort := Nat.le_of_not_lt hlong
    rw [ofLexemes_eq_read hne hshort, and_iff_right hshort]
    cases read limit .sum 0 ts with
    | error e => cases e <;> simp [SyntaxError.inRow]
    | ok p =>
      obtain ⟨e, rest⟩ := p
      cases rest with
      | nil => simp
      | cons t us => cases t <;> simp [leftOver]

/-- A row is refused for its nesting, or read as without a limit. -/
theorem ofLexemes_limit (n : Nat) (ts : List Lexeme) :
    ofLexemes (some n) ts = .error .tooDeep ∨ ofLexemes (some n) ts = ofLexemes none ts := by
  by_cases hne : ts = []
  · exact .inr (by rw [hne]; rfl)
  by_cases hlong : maxLexemes < ts.length
  · right
    rw [ofLexemes, ofLexemes, if_pos hlong, if_pos hlong]
  · have hshort := Nat.le_of_not_lt hlong
    rcases (read_row_follows n ts).outcome with ⟨hsame, -⟩ | ⟨hdeep, -⟩
    · right
      rw [ofLexemes_eq_read hne hshort, ofLexemes_eq_read hne hshort, hsame]
    · exact .inl (ofLexemes_eq_tooDeep_iff.2 ⟨hshort, hdeep⟩)

/-- The evaluation ran into neither limit. -/
def WithinLimits (r : Except EvalError Float) : Prop :=
  r ≠ .error .tooDeep ∧ ∀ count, r ≠ .error (.tooLong count)

theorem ofLexemes_of_withinLimits {n : Nat} {ts : List Lexeme}
    (h : WithinLimits ((ofLexemes (some n) ts).bind eval)) :
    ts.length ≤ maxLexemes ∧ ofLexemes (some n) ts = ofLexemes none ts := by
  constructor
  · refine Nat.le_of_not_lt fun hlong => h.2 ts.length ?_
    have hne : ts ≠ [] := by
      rintro rfl
      exact absurd hlong (Nat.not_lt_zero _)
    rw [ofLexemes, if_neg (by simpa using hne), if_pos hlong]
    rfl
  · rcases ofLexemes_limit n ts with hdeep | hsame
    · exact absurd (by rw [hdeep]; rfl) h.1
    · exact hsame

/-- The limit only ever turns an answer into a refusal. Without it no row is refused for its nesting; a row that is not
refused has the expression or the error that it has without it; and one is refused exactly if reading it without a limit
comes to a signed phrase one level below the limit. Under the limit the calls are the same until there, and none lies
deeper. A row with at most as many signs, exponents and parentheses as there are levels is not refused. -/
theorem ofLexemes_guard (ts : List Lexeme) :
    ofLexemes none ts ≠ .error .tooDeep ∧
    (ofLexemes (some maxDepth) ts ≠ .error .tooDeep → ofLexemes (some maxDepth) ts = ofLexemes none ts) ∧
    (ofLexemes (some maxDepth) ts = .error .tooDeep ↔
      ts.length ≤ maxLexemes ∧ ∃ us, ⟨.signed, maxDepth + 1, us⟩ ∈ calls none .sum 0 ts) ∧
    calls (some maxDepth) .sum 0 ts <+: calls none .sum 0 ts ∧
    (∀ c ∈ calls (some maxDepth) .sum 0 ts, c.depth ≤ maxDepth + 1) ∧
    (ts.countP Lexeme.deepens ≤ maxDepth → ofLexemes (some maxDepth) ts ≠ .error .tooDeep) := by
  refine ⟨?_, (ofLexemes_limit maxDepth ts).resolve_left, ?_, calls_prefix _ _, fun c hc => ?_, fun hcount hdeep => ?_⟩
  · intro hdeep
    exact read_none_ne_tooDeep ts (ofLexemes_eq_tooDeep_iff.1 hdeep).2
  · rw [ofLexemes_eq_tooDeep_iff, read_eq_tooDeep_iff]
  · have hlow := depth_le_lowest (Nat.zero_le _) c hc
    cases hk : c.phrase <;> simp only [hk, Phrase.lowest] at hlow <;> omega
  · exact read_ne_tooDeep_of_count hcount (ofLexemes_eq_tooDeep_iff.1 hdeep).2

/-- One sign more than there are levels, in front of a number. -/
theorem ofLexemes_guard_signs :
    let ts := List.replicate (maxDepth + 1) Lexeme.minus ++ [.number 1]
    ofLexemes (some maxDepth) ts = .error .tooDeep ∧ ofLexemes none ts ≠ .error .tooDeep := by
  intro ts
  have hguard := ofLexemes_guard ts
  have hsigned : ⟨.signed, maxDepth + 1, [.number 1]⟩ ∈ calls none .signed 0 ts := by
    have hsigns := signs_lead_deeper (maxDepth + 1) 0 [.number 1]
    rwa [Nat.zero_add] at hsigns
  have hproduct := mem_calls_of_part (.inr rfl) hsigned
  have hsum := mem_calls_of_part (.inl rfl) hproduct
  have hshort : ts.length ≤ maxLexemes := by
    rw [List.length_append, List.length_replicate]
    decide
  exact ⟨hguard.2.2.1.2 ⟨hshort, _, hsum⟩, hguard.1⟩

end Expr

end FormulaBar
