import FormulaBar.Proofs.Expr.Grammar

/-!
# FormulaBar.Proofs.Expr.Calls — the readers that are called, and how deep

`calls` lists what reading a phrase calls, in order. The readers call each other with what their calls left of the row,
so the list follows `read`; its equations stand beside those of `read`. One call leads to the next in few ways
(`Leads`), and what each of them keeps holds of all calls (`calls_induct`): no call lies deeper than the limit allows, and
none deeper than signs, exponents and parentheses have led before it.
-/

namespace FormulaBar

/-- The lexemes behind which a reader may be one level deeper. -/
def Lexeme.deepens : Lexeme → Bool
  | plus | minus | caret | leftParen => true
  | _ => false

namespace Parser

/-- A reader was called at a depth, with a row of lexemes. -/
structure Call where
  phrase : Phrase
  depth : Nat
  row : List Lexeme

/-- The place of a phrase among those read from the same lexemes: the looser it is, the later its own calls end. -/
def Phrase.looseness : Phrase → Nat
  | sum => 5
  | product => 4
  | signed => 3
  | power => 2
  | atom => 1

mutual

/-- The calls that reading a phrase makes, beginning with itself. -/
def calls (limit : Option Nat) (k : Phrase) (depth : Nat) (ts : List Lexeme) : List Call :=
  ⟨k, depth, ts⟩ ::
    match k with
    | .sum =>
      calls limit .product depth ts ++
        match _h : read limit .product depth ts with
        | .ok (_, rest) => moreCalls limit .sum depth rest
        | .error _ => []
    | .product =>
      calls limit .signed depth ts ++
        match _h : read limit .signed depth ts with
        | .ok (_, rest) => moreCalls limit .product depth rest
        | .error _ => []
    | .signed =>
      if isTooDeep limit depth then []
      else
        match ts with
        | .plus :: us | .minus :: us => calls limit .signed (depth + 1) us
        | ts => calls limit .power depth ts
    | .power =>
      calls limit .atom depth ts ++
        match _h : read limit .atom depth ts with
        | .ok (_, .caret :: rest) => calls limit .signed (depth + 1) rest
        | _ => []
    | .atom =>
      match ts with
      | .leftParen :: us => calls limit .sum (depth + 1) us
      | _ => []
termination_by 7 * ts.length + k.looseness
decreasing_by
  all_goals simp only [Phrase.looseness, List.length_cons]
  any_goals omega
  · have hshort := read_shorter _h
    omega
  · have hshort := read_shorter _h
    omega
  · have hshort := Nat.lt_of_succ_lt (read_shorter _h)
    omega

/-- The calls that continuing a phrase makes. -/
def moreCalls (limit : Option Nat) (k : Phrase) (depth : Nat) (ts : List Lexeme) : List Call :=
  match ts with
  | [] => []
  | t :: us =>
    match k.joins t with
    | none => []
    | some _ =>
      calls limit k.part depth us ++
        match _h : read limit k.part depth us with
        | .ok (_, rest) => moreCalls limit k depth rest
        | .error _ => []
termination_by 7 * ts.length
decreasing_by
  · cases k <;> simp only [Phrase.part, Phrase.looseness, List.length_cons] <;> omega
  · have hshort := read_shorter _h
    simp only [List.length_cons]
    omega

end

variable {limit : Option Nat} {k : Phrase} {d : Nat} {ts : List Lexeme}

/-! ### The calls of each reader -/

/-- The first call is that of the phrase itself. -/
theorem exists_calls_eq_cons (limit : Option Nat) (k : Phrase) (d : Nat) (ts : List Lexeme) :
    ∃ after, calls limit k d ts = ⟨k, d, ts⟩ :: after := by
  rw [calls.eq_def]
  exact ⟨_, rfl⟩

/-- Sums and products read their first part and continue it. -/
theorem read_joining (hk : k = .sum ∨ k = .product) :
    read limit k d ts = (read limit k.part d ts).bind fun p => readMore limit k d p.1 p.2 := by
  rcases hk with rfl | rfl
  · exact read_sum
  · exact read_product

/-- The calls that are made behind a phrase, if it was read. -/
def behind (x : Reading) (next : List Lexeme → List Call) : List Call :=
  match x with
  | .ok (_, rest) => next rest
  | .error _ => []

/-- Sums and products read their first part and go on behind it. -/
theorem calls_joining (hk : k = .sum ∨ k = .product) : calls limit k d ts = ⟨k, d, ts⟩ ::
    (calls limit k.part d ts ++ behind (read limit k.part d ts) (moreCalls limit k d)) := by
  rcases hk with rfl | rfl
  · rw [calls]
    split <;> next h => rw [Phrase.part, h]; rfl
  · rw [calls]
    split <;> next h => rw [Phrase.part, h]; rfl

theorem moreCalls_nil : moreCalls limit k d [] = [] := by
  rw [moreCalls]

theorem moreCalls_stop {t : Lexeme} (ht : k.joins t = none) : moreCalls limit k d (t :: ts) = [] := by
  rw [moreCalls, ht]

theorem moreCalls_step {t : Lexeme} {op : BinaryOp} (ht : k.joins t = some op) :
    moreCalls limit k d (t :: ts) =
      calls limit k.part d ts ++ behind (read limit k.part d ts) (moreCalls limit k d) := by
  rw [moreCalls, ht]
  dsimp only
  split <;> next h => rw [h]; rfl

theorem calls_signed_of_tooDeep (h : isTooDeep limit d = true) : calls limit .signed d ts = [⟨.signed, d, ts⟩] := by
  rw [calls.eq_def]
  dsimp only
  rw [if_pos h]

theorem calls_signed_sign {t : Lexeme} (h : isTooDeep limit d = false) (ht : t = .plus ∨ t = .minus) :
    calls limit .signed d (t :: ts) = ⟨.signed, d, t :: ts⟩ :: calls limit .signed (d + 1) ts := by
  rw [calls.eq_def]
  dsimp only
  rw [if_neg (by simp [h])]
  rcases ht with rfl | rfl <;> rfl

theorem calls_signed_of_unsigned (h : isTooDeep limit d = false) (hplus : ∀ us, ts ≠ .plus :: us)
    (hminus : ∀ us, ts ≠ .minus :: us) :
    calls limit .signed d ts = ⟨.signed, d, ts⟩ :: calls limit .power d ts := by
  rw [calls.eq_def]
  dsimp only
  rw [if_neg (by simp [h])]
  split
  · next us => exact absurd rfl (hplus us)
  · next us => exact absurd rfl (hminus us)
  · rfl

/-- The calls for an exponent, if there is one. -/
def exponentCalls (limit : Option Nat) (d : Nat) : List Lexeme → List Call
  | .caret :: us => calls limit .signed (d + 1) us
  | _ => []

theorem exponentCalls_of_ne (h : ∀ us, ts ≠ .caret :: us) : exponentCalls limit d ts = [] := by
  unfold exponentCalls
  split
  · next us => exact absurd rfl (h us)
  · rfl

theorem calls_power : calls limit .power d ts = ⟨.power, d, ts⟩ :: (calls limit .atom d ts ++
    behind (read limit .atom d ts) (exponentCalls limit d)) := by
  rw [calls]
  congr 2
  split
  · next h => rw [h]; rfl
  · next hother =>
    cases h : read limit .atom d ts with
    | error e => rfl
    | ok p =>
      obtain ⟨e, rest⟩ := p
      unfold behind exponentCalls
      dsimp only
      split
      · next us => exact absurd h (hother e us)
      · rfl

theorem calls_atom_group : calls limit .atom d (.leftParen :: ts) =
    ⟨.atom, d, .leftParen :: ts⟩ :: calls limit .sum (d + 1) ts := by
  rw [calls.eq_def]

theorem calls_atom_of_ne (h : ∀ us, ts ≠ .leftParen :: us) : calls limit .atom d ts = [⟨.atom, d, ts⟩] := by
  rw [calls.eq_def]
  dsimp only
  split
  · next us => exact absurd rfl (h us)
  · rfl

theorem mem_calls_of_part {c : Call} (hk : k = .sum ∨ k = .product) (h : c ∈ calls limit k.part d ts) :
    c ∈ calls limit k d ts := by
  rw [calls_joining hk]
  exact List.mem_cons_of_mem _ (List.mem_append_left _ h)

/-- A row of signs leads as many levels deeper. -/
theorem signs_lead_deeper (count d : Nat) (ts : List Lexeme) :
    ⟨.signed, d + count, ts⟩ ∈ calls none .signed d (List.replicate count .minus ++ ts) := by
  induction count generalizing d with
  | zero =>
    obtain ⟨after, hafter⟩ := exists_calls_eq_cons none .signed d ts
    rw [List.replicate_zero, List.nil_append, hafter]
    exact List.mem_cons_self
  | succ count ih =>
    rw [List.replicate_succ, List.cons_append, calls_signed_sign rfl (.inr rfl)]
    have hdeeper := ih (d + 1)
    rw [Nat.add_assoc, Nat.add_comm 1 count] at hdeeper
    exact List.mem_cons_of_mem _ hdeeper

/-! ### What all calls have in common -/

/-- What is left behind a phrase is the end of the row. -/
theorem read_suffix {e : Expr} {rest : List Lexeme} (h : read limit k d ts = .ok (e, rest)) : rest <:+ ts := by
  obtain ⟨used, rfl, -⟩ := derives_of_read h
  exact List.suffix_append used rest

/-- A call that one call may make next. -/
inductive Leads (limit : Option Nat) : Call → Call → Prop
  | part {k : Phrase} {d : Nat} {ts us : List Lexeme} (hk : k = .sum ∨ k = .product) (h : us <:+ ts) :
      Leads limit ⟨k, d, ts⟩ ⟨k.part, d, us⟩
  | sign {d : Nat} {t : Lexeme} {us : List Lexeme} (hd : isTooDeep limit d = false) (ht : t = .plus ∨ t = .minus) :
      Leads limit ⟨.signed, d, t :: us⟩ ⟨.signed, d + 1, us⟩
  | unsigned {d : Nat} {ts : List Lexeme} (hd : isTooDeep limit d = false) :
      Leads limit ⟨.signed, d, ts⟩ ⟨.power, d, ts⟩
  | base {d : Nat} {ts : List Lexeme} : Leads limit ⟨.power, d, ts⟩ ⟨.atom, d, ts⟩
  | exponent {d : Nat} {ts us : List Lexeme} (h : .caret :: us <:+ ts) :
      Leads limit ⟨.power, d, ts⟩ ⟨.signed, d + 1, us⟩
  | group {d : Nat} {us : List Lexeme} : Leads limit ⟨.atom, d, .leftParen :: us⟩ ⟨.sum, d + 1, us⟩

theorem mem_behind {x : Reading} {next : List Lexeme → List Call} {c : Call} (h : c ∈ behind x next) :
    ∃ e rest, x = .ok (e, rest) ∧ c ∈ next rest := by
  cases x with
  | error e => cases h
  | ok p => exact ⟨p.1, p.2, rfl, h⟩

theorem joins_eq_some {t : Lexeme} {op : BinaryOp} (h : k.joins t = some op) : k = .sum ∨ k = .product := by
  cases k with
  | sum => exact .inl rfl
  | product => exact .inr rfl
  | signed | power | atom => cases h

section Induct

variable {Q : Call → Prop}

/-- All calls that reading a phrase makes have the property, if the first one has. -/
def Spreads (limit : Option Nat) (Q : Call → Prop) (k : Phrase) (d : Nat) (ts : List Lexeme) : Prop :=
  Q ⟨k, d, ts⟩ → ∀ c ∈ calls limit k d ts, Q c

/-- The same of continuing a phrase, which was read from a longer row. -/
def SpreadsMore (limit : Option Nat) (Q : Call → Prop) (k : Phrase) (d : Nat) (ts : List Lexeme) : Prop :=
  ∀ row, ts <:+ row → Q ⟨k, d, row⟩ → ∀ c ∈ moreCalls limit k d ts, Q c

theorem spreadsMore (hstep : ∀ c c', Leads limit c c' → Q c → Q c')
    (hpart : ∀ us, us.length < ts.length → Spreads limit Q k.part d us)
    (hmore : ∀ us, us.length < ts.length → SpreadsMore limit Q k d us) : SpreadsMore limit Q k d ts := by
  intro row hrow hQ c hc
  cases ts with
  | nil =>
    rw [moreCalls_nil] at hc
    cases hc
  | cons t us =>
    cases ht : k.joins t with
    | none =>
      rw [moreCalls_stop ht] at hc
      cases hc
    | some op =>
      -- the calls of the part behind `t`, and those of what goes on behind that part
      have hus : us <:+ row := (List.suffix_cons t us).trans hrow
      rw [moreCalls_step ht] at hc
      rcases List.mem_append.1 hc with hc | hc
      · exact hpart us (Nat.lt_succ_self _) (hstep _ _ (.part (joins_eq_some ht) hus) hQ) c hc
      · obtain ⟨e, rest, hread, hc⟩ := mem_behind hc
        exact hmore rest (Nat.lt_succ_of_lt (read_shorter hread)) row ((read_suffix hread).trans hus) hQ c hc

theorem spreads_atom (hstep : ∀ c c', Leads limit c c' → Q c → Q c')
    (hsum : ∀ us, us.length < ts.length → Spreads limit Q .sum (d + 1) us) : Spreads limit Q .atom d ts := by
  intro hQ
  by_cases hgroup : ∃ us, ts = .leftParen :: us
  · obtain ⟨us, rfl⟩ := hgroup
    rw [calls_atom_group]
    exact List.forall_mem_cons.2 ⟨hQ, hsum us (Nat.lt_succ_self _) (hstep _ _ .group hQ)⟩
  · rw [calls_atom_of_ne (not_exists.1 hgroup)]
    exact List.forall_mem_singleton.2 hQ

theorem spreads_power (hstep : ∀ c c', Leads limit c c' → Q c → Q c') (hatom : Spreads limit Q .atom d ts)
    (hsigned : ∀ us, us.length < ts.length → Spreads limit Q .signed (d + 1) us) : Spreads limit Q .power d ts := by
  intro hQ
  rw [calls_power]
  refine List.forall_mem_cons.2 ⟨hQ, List.forall_mem_append.2 ⟨hatom (hstep _ _ .base hQ), ?_⟩⟩
  intro c hc
  obtain ⟨e, rest, hread, hc⟩ := mem_behind hc
  unfold exponentCalls at hc
  split at hc
  · next us =>
    have hshort := Nat.lt_of_succ_lt (read_shorter hread)
    exact hsigned us hshort (hstep _ _ (.exponent (read_suffix hread)) hQ) c hc
  · cases hc

theorem spreads_signed (hstep : ∀ c c', Leads limit c c' → Q c → Q c') (hpower : Spreads limit Q .power d ts)
    (hsigned : ∀ us, us.length < ts.length → Spreads limit Q .signed (d + 1) us) : Spreads limit Q .signed d ts := by
  intro hQ
  cases hd : isTooDeep limit d with
  | true =>
    rw [calls_signed_of_tooDeep hd]
    exact List.forall_mem_singleton.2 hQ
  | false =>
    by_cases hsign : ∃ t us, (t = .plus ∨ t = .minus) ∧ ts = t :: us
    · obtain ⟨t, us, ht, rfl⟩ := hsign
      rw [calls_signed_sign hd ht]
      exact List.forall_mem_cons.2 ⟨hQ, hsigned us (Nat.lt_succ_self _) (hstep _ _ (.sign hd ht) hQ)⟩
    · have hplus (us : List Lexeme) : ts ≠ .plus :: us := fun h => hsign ⟨_, us, .inl rfl, h⟩
      have hminus (us : List Lexeme) : ts ≠ .minus :: us := fun h => hsign ⟨_, us, .inr rfl, h⟩
      rw [calls_signed_of_unsigned hd hplus hminus]
      exact List.forall_mem_cons.2 ⟨hQ, hpower (hstep _ _ (.unsigned hd) hQ)⟩

theorem spreads_joining (hstep : ∀ c c', Leads limit c c' → Q c → Q c') (hk : k = .sum ∨ k = .product)
    (hpart : Spreads limit Q k.part d ts) (hmore : ∀ us, us.length < ts.length → SpreadsMore limit Q k d us) :
    Spreads limit Q k d ts := by
  intro hQ
  rw [calls_joining hk]
  have hfirst : Q ⟨k.part, d, ts⟩ := hstep _ _ (.part hk (List.suffix_refl ts)) hQ
  refine List.forall_mem_cons.2 ⟨hQ, List.forall_mem_append.2 ⟨hpart hfirst, fun c hc => ?_⟩⟩
  obtain ⟨e, rest, hread, hc⟩ := mem_behind hc
  exact hmore rest (read_shorter hread) ts (read_suffix hread) hQ c hc

/-- A property that each call passes on to the next holds of all calls. -/
theorem calls_induct (hstep : ∀ c c', Leads limit c c' → Q c → Q c') (hfirst : Q ⟨k, d, ts⟩) :
    ∀ c ∈ calls limit k d ts, Q c :=
  readers_induct (fun _ _ _ => spreadsMore hstep) (fun _ _ => spreads_atom hstep) (fun _ _ => spreads_power hstep)
    (fun _ _ => spreads_signed hstep) (fun _ _ => spreads_joining hstep (.inr rfl))
    (fun _ _ => spreads_joining hstep (.inl rfl)) k d ts hfirst

end Induct

/-! ### How deep the calls lie -/

/-- The greatest depth at which a phrase is read under a limit: a signed phrase below it is refused, and what is read
within a signed phrase is not. -/
def Phrase.lowest (n : Nat) : Phrase → Nat
  | sum | product | signed => n + 1
  | power | atom => n

theorem depth_le_lowest {n : Nat} (h : d ≤ k.lowest n) : ∀ c ∈ calls (some n) k d ts, c.depth ≤ c.phrase.lowest n := by
  refine calls_induct (fun c c' hleads hc => ?_) h
  have notBelow {d : Nat} (hd : isTooDeep (some n) d = false) : d ≤ n := isTooDeep_eq_false.1 hd n rfl
  cases hleads with
  | part hk hus => rcases hk with rfl | rfl <;> exact hc
  | sign hd ht => exact Nat.succ_le_succ (notBelow hd)
  | unsigned hd => exact notBelow hd
  | base => exact hc
  | exponent hus => exact Nat.succ_le_succ hc
  | group => exact Nat.succ_le_succ hc

/-- A level is paid for by a lexeme that was passed. -/
theorem depth_add_count_le : ∀ c ∈ calls limit k d ts,
    c.depth + c.row.countP Lexeme.deepens ≤ d + ts.countP Lexeme.deepens := by
  refine calls_induct (fun c c' hleads hc => Nat.le_trans ?_ hc) (Nat.le_refl _)
  -- a call one level deeper has passed a lexeme that deepens, and any other has passed none
  cases hleads with
  | part hk hus => exact Nat.add_le_add_left hus.sublist.countP_le _
  | @sign d t us hd ht =>
    have hdeepens : t.deepens = true := by rcases ht with rfl | rfl <;> rfl
    show d + 1 + us.countP _ ≤ d + (t :: us).countP _
    rw [List.countP_cons_of_pos hdeepens]
    omega
  | unsigned hd => exact Nat.le_refl _
  | base => exact Nat.le_refl _
  | @exponent d ts us hus =>
    have hcount : (Lexeme.caret :: us).countP Lexeme.deepens ≤ ts.countP Lexeme.deepens := hus.sublist.countP_le
    rw [List.countP_cons_of_pos rfl] at hcount
    show d + 1 + us.countP _ ≤ d + ts.countP _
    omega
  | @group d us =>
    show d + 1 + us.countP _ ≤ d + (Lexeme.leftParen :: us).countP _
    rw [List.countP_cons_of_pos rfl]
    omega

end Parser

end FormulaBar
