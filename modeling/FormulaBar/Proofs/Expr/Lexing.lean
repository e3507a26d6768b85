import FormulaBar.Proofs.Expr.Grammar
import FormulaBar.Operator
import Mathlib.Data.List.Chain
import Mathlib.Data.List.TakeWhile

/-!
# FormulaBar.Proofs.Expr.Lexing — cutting text into lexemes

A text is a sequence of pieces: blanks, runs of digits and points, symbols and characters that are refused. `pieces` is
induction over them and the equations `ofChars_separator` … `ofChars_other` say what each piece gives. A text may be cut
wherever no run goes on (`ofChars_append`). In an expression two numbers never stand side by side
(`numbersApart_of_derives`), so a text without symbols that is part of one is at most one run between blanks
(`blank_or_run_of_lexes`).
-/

namespace FormulaBar

namespace Lexeme

open Text

/-! ### Pieces -/

theorem isNumeral_ne_separator {c : Char} (h : isNumeral c = true) : isSeparator c = false := by
  rw [← Bool.not_eq_true]
  intro hsep
  have hapart : [' ', '\t', '\n', '\r'].all (!isNumeral ·) = true := rfl
  have hnot := List.all_eq_true.1 hapart c (isSeparator_iff.1 hsep)
  rw [h] at hnot
  cases hnot

/-- The front of `cs` does not go on with a run of digits and points. -/
def EndsRun (cs : List Char) : Prop := ∀ c ∈ cs.head?, isNumeral c = false

@[simp] theorem endsRun_nil : EndsRun [] := by
  intro c hc
  cases hc

@[simp] theorem endsRun_cons {c : Char} {cs : List Char} : EndsRun (c :: cs) ↔ isNumeral c = false := by
  simp [EndsRun]

theorem endsRun_dropWhile (cs : List Char) : EndsRun (cs.dropWhile isNumeral) := by
  intro c hc
  have hnot := List.head?_dropWhile_not isNumeral cs
  rw [Option.mem_def.1 hc] at hnot
  exact hnot

theorem takeWhile_run {run rest : List Char} (hrun : ∀ c ∈ run, isNumeral c = true) (hrest : EndsRun rest) :
    (run ++ rest).takeWhile isNumeral = run := by
  have hstop : rest.takeWhile isNumeral = [] := by
    cases rest with
    | nil => rfl
    | cons c cs => exact List.takeWhile_cons_of_neg (by simp [endsRun_cons.1 hrest])
  rw [List.takeWhile_append_of_pos hrun, hstop, List.append_nil]

theorem dropWhile_run {run rest : List Char} (hrun : ∀ c ∈ run, isNumeral c = true) (hrest : EndsRun rest) :
    (run ++ rest).dropWhile isNumeral = rest := by
  rw [List.dropWhile_append_of_pos hrun]
  cases rest with
  | nil => rfl
  | cons c cs => exact List.dropWhile_cons_of_neg (by simp [endsRun_cons.1 hrest])

/-- Induction over the pieces of a text. -/
@[elab_as_elim]
theorem pieces {motive : List Char → Prop} (nil : motive [])
    (separator : ∀ c cs, isSeparator c = true → motive cs → motive (c :: cs))
    (run : ∀ run rest, run ≠ [] → (∀ c ∈ run, isNumeral c = true) → EndsRun rest → motive rest → motive (run ++ rest))
    (symbol : ∀ c cs t, ofSymbol? c = some t → motive cs → motive (c :: cs))
    (other : ∀ c cs, isSeparator c = false → isNumeral c = false → ofSymbol? c = none → motive (c :: cs))
    (cs : List Char) : motive cs := by
  induction cs using ofChars.induct with
  | case1 => exact nil
  | case2 c cs hsep ih => exact separator c cs hsep ih
  | case3 c cs _ hnum ih =>
    -- the run is as long as it can be: it takes all digits and points that follow
    have hrun : ∀ d ∈ c :: cs.takeWhile isNumeral, isNumeral d = true := by
      intro d hd
      rcases List.mem_cons.1 hd with rfl | hd
      · exact hnum
      · exact List.mem_takeWhile_imp hd
    have hcut : c :: cs = (c :: cs.takeWhile isNumeral) ++ cs.dropWhile isNumeral := by
      rw [List.cons_append, List.takeWhile_append_dropWhile]
    rw [hcut]
    exact run _ _ (by simp) hrun (endsRun_dropWhile cs) ih
  | case4 c cs _ _ t ht ih => exact symbol c cs t ht ih
  | case5 c cs hsep hnum hsym => exact other c cs (by simpa using hsep) (by simpa using hnum) hsym

theorem ofSymbol?_numeral {c : Char} (h : isNumeral c = true) : ofSymbol? c = none := by
  have hnone : ['0', '1', '2', '3', '4', '5', '6', '7', '8', '9', '.'].all (ofSymbol? · |>.isNone) = true := rfl
  exact Option.isNone_iff_eq_none.1 (List.all_eq_true.1 hnone c (isNumeral_iff.1 h))

theorem ofSymbol?_separator {c : Char} (h : isSeparator c = true) : ofSymbol? c = none := by
  have hnone : [' ', '\t', '\n', '\r'].all (ofSymbol? · |>.isNone) = true := rfl
  exact Option.isNone_iff_eq_none.1 (List.all_eq_true.1 hnone c (isSeparator_iff.1 h))

@[simp] theorem ofChars_nil : ofChars [] = .ok [] := by rw [ofChars]

theorem ofChars_separator {c : Char} (h : isSeparator c = true) (cs : List Char) : ofChars (c :: cs) = ofChars cs := by
  rw [ofChars, if_pos h]

theorem ofChars_run {run rest : List Char} (hne : run ≠ []) (hrun : ∀ c ∈ run, isNumeral c = true)
    (hrest : EndsRun rest) :
    ofChars (run ++ rest) = (ofNumeral run).bind fun t => (ofChars rest).map (t :: ·) := by
  obtain ⟨c, cs, rfl⟩ := List.exists_cons_of_ne_nil hne
  have hc := hrun c (by simp)
  have hcs : ∀ d ∈ cs, isNumeral d = true := fun d hd => hrun d (by simp [hd])
  rw [List.cons_append, ofChars, if_neg (by simp [isNumeral_ne_separator hc]), if_pos hc, takeWhile_run hcs hrest,
    dropWhile_run hcs hrest]
  rfl

theorem ofChars_symbol {c : Char} {t : Lexeme} (h : ofSymbol? c = some t) (cs : List Char) :
    ofChars (c :: cs) = (ofChars cs).map (t :: ·) := by
  have hsep : ¬isSeparator c = true := fun hsep => by simp [ofSymbol?_separator hsep] at h
  have hnum : ¬isNumeral c = true := fun hnum => by simp [ofSymbol?_numeral hnum] at h
  rw [ofChars, if_neg hsep, if_neg hnum, h]
  rfl

theorem ofChars_other {c : Char} (hsep : isSeparator c = false) (hnum : isNumeral c = false)
    (hsym : ofSymbol? c = none) (cs : List Char) : ofChars (c :: cs) = .error (.unexpectedCharacter c) := by
  rw [ofChars, if_neg (by simp [hsep]), if_neg (by simp [hnum]), hsym]

/-! ### A text cut in two -/

/-- No run of digits and points goes on from the end of `cs` into `ds`. -/
def Apart (cs ds : List Char) : Prop := ∀ c ∈ cs.getLast?, isNumeral c = true → EndsRun ds

theorem apart_of_endsRun {ds : List Char} (h : EndsRun ds) (cs : List Char) : Apart cs ds := fun _ _ _ => h

theorem apart_of_append (bs : List Char) {cs ds : List Char} (h : Apart (bs ++ cs) ds) : Apart cs ds := by
  intro c hc hnum
  refine h c ?_ hnum
  rw [Option.mem_def] at hc ⊢
  rw [List.getLast?_append, hc]
  rfl

theorem ofChars_append {cs ds : List Char} (h : Apart cs ds) :
    ofChars (cs ++ ds) = (ofChars cs).bind fun ts => (ofChars ds).map (ts ++ ·) := by
  -- joining two rows of lexemes behind a third is done in either order
  have map_map (f g : List Lexeme → List Lexeme) (x : Except EvalError (List Lexeme)) :
      (x.map f).map g = x.map (g ∘ f) := by
    cases x <;> rfl
  induction cs using pieces with
  | nil =>
    rw [List.nil_append, ofChars_nil]
    cases ofChars ds <;> rfl
  | separator c cs hsep ih =>
    rw [List.cons_append, ofChars_separator hsep, ofChars_separator hsep, ih (apart_of_append [c] h)]
  | run run rest hne hrun hrest ih =>
    -- a run at the very end of `cs` must not go on in `ds`
    have hends : EndsRun (rest ++ ds) := by
      cases rest with
      | nil =>
        have hmem : run.getLast hne ∈ (run ++ []).getLast? := by
          rw [List.append_nil, List.getLast?_eq_some_getLast hne]
          rfl
        exact h _ hmem (hrun _ (List.getLast_mem hne))
      | cons d rest => exact hrest
    rw [List.append_assoc, ofChars_run hne hrun hends, ofChars_run hne hrun hrest, ih (apart_of_append run h)]
    cases ofNumeral run with
    | error e => rfl
    | ok t => cases ofChars rest with
      | error e => rfl
      | ok ts => exact map_map _ _ (ofChars ds)
  | symbol c cs t ht ih =>
    rw [List.cons_append, ofChars_symbol ht, ofChars_symbol ht, ih (apart_of_append [c] h)]
    cases ofChars cs with
    | error e => rfl
    | ok ts => exact map_map _ _ (ofChars ds)
  | other c cs hsep hnum hsym => rw [List.cons_append, ofChars_other hsep hnum hsym, ofChars_other hsep hnum hsym]; rfl

theorem ofChars_append_eq_ok {cs ds : List Char} {ts : List Lexeme} (h : Apart cs ds) :
    ofChars (cs ++ ds) = .ok ts ↔ ∃ us vs, ofChars cs = .ok us ∧ ofChars ds = .ok vs ∧ ts = us ++ vs := by
  rw [ofChars_append h]
  constructor
  · intro hok
    obtain ⟨us, hus, hmap⟩ := bind_eq_ok.1 hok
    obtain ⟨vs, hvs, rfl⟩ := map_eq_ok.1 hmap
    exact ⟨us, vs, hus, hvs, rfl⟩
  · rintro ⟨us, vs, hus, hvs, rfl⟩
    rw [hus, hvs]
    rfl

/-! ### Which characters are accepted -/

theorem accepted_of_ofChars {cs : List Char} {ts : List Lexeme} (h : ofChars cs = .ok ts) :
    ∀ c ∈ cs, isSeparator c = true ∨ isNumeral c = true ∨ (ofSymbol? c).isSome = true := by
  induction cs using pieces generalizing ts with
  | nil => simp
  | separator c cs hsep ih =>
    rw [ofChars_separator hsep] at h
    simp only [List.mem_cons, forall_eq_or_imp]
    exact ⟨.inl hsep, ih h⟩
  | run run rest hne hrun hrest ih =>
    rw [ofChars_run hne hrun hrest] at h
    obtain ⟨t, -, hmap⟩ := bind_eq_ok.1 h
    obtain ⟨vs, hvs, -⟩ := map_eq_ok.1 hmap
    intro c hc
    rcases List.mem_append.1 hc with hc | hc
    · exact .inr (.inl (hrun c hc))
    · exact ih hvs c hc
  | symbol c cs t ht ih =>
    rw [ofChars_symbol ht] at h
    obtain ⟨vs, hvs, -⟩ := map_eq_ok.1 h
    simp only [List.mem_cons, forall_eq_or_imp]
    exact ⟨.inr (.inr (by simp [ht])), ih hvs⟩
  | other c cs hsep hnum hsym =>
    rw [ofChars_other hsep hnum hsym] at h
    cases h

/-! ### Numbers side by side -/

/-- The lexeme is a number. -/
def IsNumber (t : Lexeme) : Prop := ∃ v, t = number v

/-- No two numbers stand side by side. -/
def NumbersApart (ts : List Lexeme) : Prop := ts.IsChain fun a b => ¬(IsNumber a ∧ IsNumber b)

theorem ofNumeral_isNumber {run : List Char} {t : Lexeme} (h : ofNumeral run = .ok t) : IsNumber t := by
  unfold ofNumeral at h
  split at h <;> cases h
  exact ⟨_, rfl⟩

/-- A text that starts within a run has a number first. -/
theorem head_isNumber {c : Char} {cs : List Char} {ts : List Lexeme} (hc : isNumeral c = true)
    (h : ofChars (c :: cs) = .ok ts) : ∃ t us, ts = t :: us ∧ IsNumber t := by
  generalize htext : c :: cs = text at h
  induction text using pieces with
  | nil => cases htext
  -- only a run can start with this character
  | separator d ds hsep _ =>
    cases htext
    rw [isNumeral_ne_separator hc] at hsep
    cases hsep
  | run run rest hne hrun hrest _ =>
    rw [ofChars_run hne hrun hrest] at h
    obtain ⟨t, ht, hmap⟩ := bind_eq_ok.1 h
    obtain ⟨us, -, rfl⟩ := map_eq_ok.1 hmap
    exact ⟨t, us, rfl, ofNumeral_isNumber ht⟩
  | symbol d ds t ht _ =>
    cases htext
    rw [ofSymbol?_numeral hc] at ht
    cases ht
  | other d ds _ hnum _ =>
    cases htext
    rw [hc] at hnum
    cases hnum

theorem mem_getLast?_append {α : Type} {a : α} {as bs : List α} :
    a ∈ (as ++ bs).getLast? ↔ a ∈ bs.getLast? ∨ bs = [] ∧ a ∈ as.getLast? := by
  cases bs with
  | nil => simp
  | cons b bs => simp [List.getLast?_append, List.getLast?_cons]

theorem mem_getLast?_cons {α : Type} {a b : α} {as : List α} :
    a ∈ (b :: as).getLast? ↔ a ∈ as.getLast? ∨ as = [] ∧ a = b := by
  rw [← List.singleton_append, mem_getLast?_append]
  simp [eq_comm]

/-- A text that ends within a run has a number last. -/
theorem getLast?_isNumber {c : Char} {cs : List Char} {ts : List Lexeme} (hc : isNumeral c = true)
    (hlast : c ∈ cs.getLast?) (h : ofChars cs = .ok ts) : ∃ t ∈ ts.getLast?, IsNumber t := by
  induction cs using pieces generalizing ts with
  | nil => cases hlast
  | separator d ds hsep ih =>
    rw [ofChars_separator hsep] at h
    -- the last character is behind the blank, as it is no blank itself
    rcases mem_getLast?_cons.1 hlast with hds | ⟨-, rfl⟩
    · exact ih hds h
    · rw [isNumeral_ne_separator hc] at hsep
      cases hsep
  | run run rest hne hrun hrest ih =>
    rw [ofChars_run hne hrun hrest] at h
    obtain ⟨t, ht, hmap⟩ := bind_eq_ok.1 h
    obtain ⟨us, hus, rfl⟩ := map_eq_ok.1 hmap
    -- it may be the last one of this run, or stand behind it
    rcases mem_getLast?_append.1 hlast with hds | ⟨rfl, -⟩
    · obtain ⟨u, hu, hnum⟩ := ih hds hus
      exact ⟨u, mem_getLast?_cons.2 (.inl hu), hnum⟩
    · rw [ofChars_nil] at hus
      cases hus
      exact ⟨t, rfl, ofNumeral_isNumber ht⟩
  | symbol d ds t ht ih =>
    rw [ofChars_symbol ht] at h
    obtain ⟨us, hus, rfl⟩ := map_eq_ok.1 h
    rcases mem_getLast?_cons.1 hlast with hds | ⟨-, rfl⟩
    · obtain ⟨u, hu, hnum⟩ := ih hds hus
      exact ⟨u, mem_getLast?_cons.2 (.inl hu), hnum⟩
    · rw [ofSymbol?_numeral hc] at ht
      cases ht
  | other d ds hsep hnum hsym =>
    rw [ofChars_other hsep hnum hsym] at h
    cases h

/-- A blank between two parts of a text is needed only where it keeps two numbers apart. -/
theorem ofChars_drop_separator {c : Char} {cs ds : List Char} {ts : List Lexeme} (hc : isSeparator c = true)
    (h : ofChars (cs ++ c :: ds) = .ok ts) (hapart : NumbersApart ts) : ofChars (cs ++ ds) = .ok ts := by
  have hends : EndsRun (c :: ds) := by
    rw [endsRun_cons]
    by_contra hnum
    rw [isNumeral_ne_separator (by simpa using hnum)] at hc
    cases hc
  obtain ⟨us, vs, hus, hvs, rfl⟩ := (ofChars_append_eq_ok (apart_of_endsRun hends cs)).1 h
  rw [ofChars_separator hc] at hvs
  refine (ofChars_append_eq_ok ?_).2 ⟨us, vs, hus, hvs, rfl⟩
  -- without the blank a run could only go on from a number to a number
  intro a ha hnum
  cases ds with
  | nil => simp
  | cons d ds =>
    rw [endsRun_cons]
    by_contra hd
    obtain ⟨t, ht, htnum⟩ := getLast?_isNumber hnum ha hus
    obtain ⟨u, vs, rfl, hunum⟩ := head_isNumber (by simpa using hd) hvs
    obtain ⟨-, -, hjoin⟩ := List.isChain_append.1 hapart
    exact hjoin t ht u (by simp) ⟨htnum, hunum⟩

/-- A text without symbols in which no two numbers stand side by side is blank, or one run between blanks. -/
theorem blank_or_run_of_lexes {cs : List Char} {ts : List Lexeme} (h : ofChars cs = .ok ts)
    (hplain : ∀ c ∈ cs, ofSymbol? c = none) (hapart : NumbersApart ts) :
    (ts = [] ∧ ∀ c ∈ cs, isSeparator c = true) ∨
      ∃ before run after t, cs = before ++ run ++ after ∧ (∀ c ∈ before, isSeparator c = true) ∧ run ≠ [] ∧
        (∀ c ∈ run, isNumeral c = true) ∧ (∀ c ∈ after, isSeparator c = true) ∧ ofNumeral run = .ok t ∧ ts = [t] := by
  induction cs using pieces generalizing ts with
  | nil =>
    rw [ofChars_nil] at h
    cases h
    exact .inl ⟨rfl, by simp⟩
  | separator c cs hsep ih =>
    rw [ofChars_separator hsep] at h
    rcases ih h (fun d hd => hplain d (by simp [hd])) hapart with ⟨hnil, hblank⟩ | hrun
    · exact .inl ⟨hnil, by simpa [hsep] using hblank⟩
    · obtain ⟨before, run, after, t, rfl, hbefore, hrest⟩ := hrun
      exact .inr ⟨c :: before, run, after, t, rfl, by simpa [hsep] using hbefore, hrest⟩
  | run run rest hne hrun hrest ih =>
    rw [ofChars_run hne hrun hrest] at h
    obtain ⟨t, ht, hmap⟩ := bind_eq_ok.1 h
    obtain ⟨us, hus, rfl⟩ := map_eq_ok.1 hmap
    have htail : NumbersApart us := hapart.tail
    -- a second run would put two numbers side by side
    rcases ih hus (fun d hd => hplain d (by simp [hd])) htail with ⟨rfl, hblank⟩ | hsecond
    · exact .inr ⟨[], run, rest, t, rfl, by simp, hne, hrun, hblank, ht, rfl⟩
    · obtain ⟨_, _, _, u, -, -, -, -, -, hu, rfl⟩ := hsecond
      have hpair := (List.isChain_cons_cons.1 hapart).1
      exact absurd ⟨ofNumeral_isNumber ht, ofNumeral_isNumber hu⟩ hpair
  | symbol c cs t ht _ =>
    rw [hplain c (by simp)] at ht
    cases ht
  | other c cs hsep hnum hsym =>
    rw [ofChars_other hsep hnum hsym] at h
    cases h

end Lexeme

/-! ### Lexemes of an expression -/

namespace Parser

open Lexeme

variable {limit : Option Nat} {k : Phrase} {d : Nat} {ts : List Lexeme} {e : Expr}

theorem numbersApart_append {us vs : List Lexeme} {t : Lexeme} (ht : ¬IsNumber t) (hus : NumbersApart us)
    (hvs : NumbersApart vs) : NumbersApart (us ++ t :: vs) := by
  refine List.isChain_append.2 ⟨hus, ?_, ?_⟩
  · exact List.isChain_cons.2 ⟨fun u _ hboth => ht hboth.1, hvs⟩
  · intro a _ b hb hboth
    cases hb
    exact ht hboth.2

theorem numbersApart_cons {vs : List Lexeme} {t : Lexeme} (ht : ¬IsNumber t) (hvs : NumbersApart vs) :
    NumbersApart (t :: vs) := numbersApart_append ht List.IsChain.nil hvs

theorem numbersApart_of_derives (h : Derives limit k d ts e) : NumbersApart ts := by
  have not_number {t : Lexeme} (h : ∀ v, t ≠ .number v) : ¬IsNumber t := fun ⟨v, hv⟩ => h v hv
  induction h with
  | sum_single _ ih | product_single _ ih | unsigned _ _ ih | base _ ih => exact ih
  | @sum_more _ _ t _ _ _ _ _ ht _ ihl ihr =>
    exact numbersApart_append (not_number (by rintro v rfl; cases ht)) ihl ihr
  | @product_more _ _ t _ _ _ _ _ ht _ ihl ihr =>
    exact numbersApart_append (not_number (by rintro v rfl; cases ht)) ihl ihr
  | plus _ _ ih => exact numbersApart_cons (not_number (by simp)) ih
  | minus _ _ ih => exact numbersApart_cons (not_number (by simp)) ih
  | raised _ _ ihb ihx => exact numbersApart_append (not_number (by simp)) ihb ihx
  | number v => exact List.IsChain.singleton _
  | group _ ih =>
    have hparen : ¬IsNumber .rightParen := not_number (by simp)
    have hclosed := numbersApart_append hparen ih List.IsChain.nil
    exact numbersApart_cons (not_number (by simp)) hclosed

end Parser

end FormulaBar
