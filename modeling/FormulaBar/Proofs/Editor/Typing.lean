import FormulaBar.Proofs.Editor.Inputs
import FormulaBar.Proofs.Token.Classifier

/-!
# FormulaBar.Proofs.Editor.Typing — typing a formula agrees with reading it

While a text is typed, the lexemes of all of it are those of the tokens so far, followed by those of the pending text
and the rest (`Typed`). Every key keeps this, whether it ends a token, is dropped or is added to the pending text, so at
the end the tokens stand for the lexemes of the text and have its value.
-/

namespace FormulaBar

open Lexeme Binary64

/-! ### The text so far -/

/-- `ts` are the lexemes of a text of which tokens were made up to `pending`, and of which `rest` has still to come. -/
structure Typed (ts : List Lexeme) (b : Bindings) (data : List TokenData) (pending rest : List Char) : Prop where
  values : ∀ d ∈ data, Formula.HasFiniteValue b d
  plain : Plain pending
  lexemes : ∃ us, ofChars (pending ++ rest) = .ok us ∧ ts = Formula.rowLexemes b data ++ us

namespace Typed

variable {ts : List Lexeme} {b : Bindings} {data : List TokenData} {pending rest : List Char} {c : Char}

theorem start (b : Bindings) {cs : List Char} (h : ofChars cs = .ok ts) : Typed ts b [] [] cs :=
  ⟨by simp, by simp [Plain], ts, h, rfl⟩

/-- The next character is one of those that an expression is made of. -/
theorem accepted (h : Typed ts b data pending (c :: rest)) :
    Text.isSeparator c = true ∨ isNumeral c = true ∨ (ofSymbol? c).isSome = true := by
  obtain ⟨us, hus, -⟩ := h.lexemes
  exact accepted_of_ofChars hus c (by simp)

/-- A blank, a digit or a point is added to the pending text. -/
theorem more (h : Typed ts b data pending (c :: rest)) (hc : Text.isSeparator c = true ∨ isNumeral c = true) :
    Typed ts b data (pending ++ [c]) rest := by
  obtain ⟨hvalues, hplain, us, hus, hts⟩ := h
  refine ⟨hvalues, ?_, us, ?_, hts⟩
  · intro d hd
    rcases List.mem_append.1 hd with hd | hd
    · exact hplain d hd
    · rw [List.mem_singleton.1 hd]
      exact hc
  · rwa [List.append_assoc, List.singleton_append]

section Apart

variable (hapart : NumbersApart ts) (hfinite : ∀ v, .number v ∈ ts → isFinite v = true)

include hapart

/-- A blank is dropped: the pending text cannot go on as a number behind it. -/
theorem dropped (h : Typed ts b data pending (c :: rest)) (hc : Text.isSeparator c = true) :
    Typed ts b data pending rest := by
  obtain ⟨hvalues, hplain, us, hus, rfl⟩ := h
  have hright : NumbersApart us := hapart.right_of_append
  exact ⟨hvalues, hplain, us, ofChars_drop_separator hc hus hright, rfl⟩

include hfinite

/-- No label is looked up for the pending text at the end of a run. -/
theorem find?_eq_none {k : Classifier} (hmark : Settings.isAmbiguousMark k.mark = false)
    (h : Typed ts b data pending rest) (hrest : EndsRun rest) : QuerySpan.find? k pending = none := by
  obtain ⟨-, hplain, us, hus, rfl⟩ := h
  obtain ⟨vs, ws, hvs, -, rfl⟩ := (ofChars_append_eq_ok (apart_of_endsRun hrest pending)).1 hus
  have hright : NumbersApart (vs ++ ws) := hapart.right_of_append
  exact QuerySpan.find?_of_plain hmark hplain hvs hright.left_of_append fun v hv => hfinite v (by simp [hv])

/-- The pending text becomes the token that its lexemes say. -/
theorem committed (k : Classifier) (h : Typed ts b data pending rest) (hrest : EndsRun rest) :
    Typed ts b (data ++ (k.classify (String.ofList pending)).toList) [] rest := by
  obtain ⟨hvalues, hplain, us, hus, rfl⟩ := h
  obtain ⟨vs, ws, hvs, hws, rfl⟩ := (ofChars_append_eq_ok (apart_of_endsRun hrest pending)).1 hus
  have hright : NumbersApart (vs ++ ws) := hapart.right_of_append
  obtain ⟨hrow, hvalue⟩ :=
    rowLexemes_classify k b hplain hvs hright.left_of_append fun v hv => hfinite v (by simp [hv])
  refine ⟨?_, by simp [Plain], ws, hws, ?_⟩
  · intro d hd
    rcases List.mem_append.1 hd with hd | hd
    · exact hvalues d hd
    · exact hvalue d (Option.mem_toList.1 hd)
  · rw [Formula.rowLexemes_append, hrow, List.append_assoc]

/-- An operator ends the pending text and is a token itself. -/
theorem operator (k : Classifier) {op : Operator} (h : Typed ts b data pending (c :: rest))
    (hop : Operator.ofChar? c = some op) :
    Typed ts b (data ++ (k.classify (String.ofList pending)).toList ++ [.operand op]) [] rest := by
  have hsymbol := ofSymbol?_of_ofChar? hop
  -- an operator does not go on with a run, so the pending text is whole
  have hends : EndsRun (c :: rest) := by
    rw [endsRun_cons]
    by_contra hnum
    rw [ofSymbol?_numeral (by simpa using hnum)] at hsymbol
    cases hsymbol
  obtain ⟨hvalues, hplain, us, hus, hts⟩ := h.committed hapart hfinite k hends
  rw [List.nil_append, ofChars_symbol hsymbol] at hus
  obtain ⟨vs, hvs, rfl⟩ := map_eq_ok.1 hus
  refine ⟨?_, hplain, vs, hvs, ?_⟩
  · intro d hd
    rcases List.mem_append.1 hd with hd | hd
    · exact hvalues d hd
    · rw [List.mem_singleton.1 hd]
      trivial
  · rw [Formula.rowLexemes_append, List.append_assoc]
    exact hts

end Apart

end Typed

/-! ### What the keys do -/

namespace Editor

variable {e e' : Editor} {c : Char}

theorem append_data (e : Editor) (d : Option TokenData) : (e.append d).data = e.data ++ d.toList := by
  cases d with
  | none => exact (List.append_nil _).symm
  | some d => exact List.map_append

theorem commit_data (e : Editor) : e.commit.data = e.data ++ (e.popup.classifier.classify e.pending).toList :=
  append_data e _

theorem handle_operator {op : Operator} (hop : Operator.ofChar? c = some op) :
    (e.handle (.char c)).1.data =
        e.data ++ (e.popup.classifier.classify e.pending).toList ++ [.operand op] ∧
      (e.handle (.char c)).1.pending = "" := by
  simp only [handle_data, handle_pending, react, typeChar, hop]
  exact ⟨by rw [append_data, commit_data]; rfl, rfl⟩

theorem handle_control (hop : Operator.ofChar? c = none) (hc : Text.isControl c = true) :
    (e.handle (.char c)).1.data = e.data ∧ (e.handle (.char c)).1.pending = e.pending := by
  simp [react, typeChar, hop, hc]

theorem handle_plain (hop : Operator.ofChar? c = none) (hc : Text.isControl c = false) :
    (e.handle (.char c)).1.data = e.data ∧ (e.handle (.char c)).1.pending = e.pending.push c := by
  simp only [handle_data, handle_pending, react, typeChar, hop, hc]
  exact ⟨rfl, rfl⟩

theorem handle_confirm_of_hidden (hidden : e.popup.state = .hidden) :
    (e.handle .confirm).1.data = e.data ++ (e.popup.classifier.classify e.pending).toList ∧
      (e.handle .confirm).1.pending = "" ∧ (e.handle .confirm).1.popup.state = .hidden := by
  have hactive : e.popup.activeCandidate? = none := by simp [Popup.activeCandidate?, hidden]
  simp only [handle_data, handle_pending, handle_popup, react, hactive]
  exact ⟨commit_data e, rfl, by simp⟩

/-- The tokens so far and the pending text are those of the characters typed so far. -/
theorem handle_typed {ts : List Lexeme} {rest : List Char} (hapart : NumbersApart ts)
    (hfinite : ∀ v, .number v ∈ ts → isFinite v = true)
    (h : Typed ts e.bindings e.data e.pending.toList (c :: rest)) :
    Typed ts (e.handle (.char c)).1.bindings (e.handle (.char c)).1.data (e.handle (.char c)).1.pending.toList
      rest := by
  rw [handle_bindings]
  cases hop : Operator.ofChar? c with
  | some op =>
    obtain ⟨hdata, hpending⟩ := handle_operator (e := e) hop
    rw [hdata, hpending, ← String.ofList_toList (s := e.pending)]
    exact h.operator hapart hfinite _ hop
  | none =>
    -- besides operators, only blanks and the characters of numbers were accepted
    have hc : Text.isSeparator c = true ∨ isNumeral c = true := by
      rcases h.accepted with hsep | hnum | hsym
      · exact .inl hsep
      · exact .inr hnum
      · rw [ofSymbol?_of_ofChar?_eq_none hop] at hsym
        cases hsym
    -- a control character is not typed, and those that were accepted are blanks
    by_cases hcontrol : Text.isControl c = true
    · obtain ⟨hdata, hpending⟩ := handle_control (e := e) hop hcontrol
      rw [hdata, hpending]
      refine h.dropped hapart (hc.resolve_right fun hnum => ?_)
      rw [not_isControl_of_isNumeral hnum] at hcontrol
      cases hcontrol
    · obtain ⟨hdata, hpending⟩ := handle_plain (e := e) hop (by simpa using hcontrol)
      rw [hdata, hpending, String.toList_push]
      exact h.more hc

/-- After the first characters of a text, whatever answers came in. -/
theorem Run.typed {ts : List Lexeme} {cs rest : List Char} (hapart : NumbersApart ts)
    (hfinite : ∀ v, .number v ∈ ts → isFinite v = true) (h : Run e (cs.map .char) e')
    (he : Typed ts e.bindings e.data e.pending.toList (cs ++ rest)) :
    Typed ts e'.bindings e'.data e'.pending.toList rest := by
  generalize hinputs : cs.map Input.char = inputs at h
  induction h generalizing cs rest with
  | start =>
    rw [List.map_eq_nil_iff.1 hinputs] at he
    exact he
  | input hbefore i ih =>
    obtain ⟨before, last, rfl, rfl, hlast⟩ := List.map_eq_append_iff.1 hinputs
    obtain ⟨c, rfl, rfl⟩ := List.map_eq_singleton_iff.1 hlast
    refine handle_typed hapart hfinite (ih ?_ rfl)
    rwa [List.append_assoc] at he
  | answer _ t answer ih =>
    rw [answered_eq]
    exact ih he hinputs

theorem start_upToDate (bindings : Bindings) (options : EditorOptions) (ids : IdSupply) :
    (start bindings options ids).UpToDate := rfl

theorem start_fits (bindings : Bindings) (options : EditorOptions) (ids : IdSupply) :
    (start bindings options ids).PopupFits := Popup.fits_of_hidden rfl

/-- An expression with a value that is typed into a fresh editor and confirmed leaves nothing pending, and its value is
shown. Answers to lookups may come in at any time. -/
theorem run_typing_result (s : String) (expr : Expr) (x : Float) (hexpr : Expr.ofChars s.toList = .ok expr)
    (hx : expr.eval = .ok x) (options : EditorOptions)
    (hmark : ({ mark := options.mark } : Settings).invalid? = none) (bindings : Bindings) (ids : IdSupply)
    (after : Editor) (hrun : Run (start bindings options ids) (s.toList.map .char ++ [.confirm]) after) :
    after.pending = "" ∧ after.popup.state = .hidden ∧ after.result = Number.text x := by
  obtain ⟨ts, hts, hlexemes⟩ := bind_eq_ok.1 hexpr
  -- lexemes that are an expression stand apart, and those of one with a value are finite
  have hderives := (Expr.ofLexemes_eq_ok_iff.1 hlexemes).2.2
  have hapart := Parser.numbersApart_of_derives hderives
  have hfinite : ∀ v, .number v ∈ ts → isFinite v = true := by
    intro v hv
    refine Expr.isFinite_leaves_of_eval hx v ?_
    rw [← Parser.leaves_of_derives hderives]
    exact List.mem_filterMap.2 ⟨_, hv, rfl⟩
  have hunambiguous := Settings.unambiguous_of_valid hmark
  -- before the last key, tokens and pending text are what was typed
  obtain ⟨e, htyping, hconfirm⟩ := hrun.of_concat
  have htyped : Typed ts e.bindings e.data e.pending.toList [] := by
    refine htyping.typed hapart hfinite ?_
    rw [List.append_nil]
    exact Typed.start bindings hts
  have hclassifier : Settings.isAmbiguousMark e.popup.classifier.mark = false := by
    rw [htyping.classifier]
    exact hunambiguous
  -- pending text of this kind is no query, so the confirmation finds no candidate and commits it
  have hfits := htyping.fits (start_fits bindings options ids)
  have hidden := hfits.hidden (htyped.find?_eq_none hapart hfinite hclassifier endsRun_nil)
  obtain ⟨hdata, hpending, hhidden⟩ := handle_confirm_of_hidden hidden
  obtain rfl := hconfirm.eq_of_hidden hhidden
  refine ⟨hpending, hhidden, ?_⟩
  -- the row has the lexemes of the text then, and both are evaluated alike
  obtain ⟨hvalues, -, us, hus, hrow⟩ := htyped.committed hapart hfinite e.popup.classifier endsRun_nil
  rw [List.nil_append, ofChars_nil] at hus
  cases hus
  rw [String.ofList_toList, ← hdata] at hvalues hrow
  rw [List.append_nil] at hrow
  rw [handle_upToDate (htyping.upToDate (start_upToDate bindings options ids)) .confirm, handle_bindings]
  refine Formula.result_of_lexemes hvalues ?_ hx
  rw [hrow] at hlexemes
  exact hlexemes

/-- The point alone opens the popup, and the answer to it is there before the digit comes. -/
theorem run_typing_result_half : ∃ after,
    Run (start {} {}) ([.char '.', .char '5'] ++ [.confirm]) after ∧
      after.pending = "" ∧ after.popup.state = .hidden ∧
        after.result = Number.text (Decimal.toFloat ⟨false, 5, -1⟩) := by
  have hlexemes : ofChars ['.', '5'] = .ok [.number (Decimal.toFloat ⟨false, 5, -1⟩)] := by
    have hnumeral : ∀ c ∈ ['.', '5'], isNumeral c = true := by simp [isNumeral]
    have hrun := ofChars_run (by simp) hnumeral endsRun_nil
    rw [List.append_nil, ofChars_nil] at hrun
    exact hrun
  have hexpr : Expr.ofChars (String.ofList ['.', '5']).toList = .ok (.number (Decimal.toFloat ⟨false, 5, -1⟩)) := by
    rw [String.toList_ofList]
    refine bind_eq_ok.2 ⟨_, hlexemes, Expr.ofLexemes_eq_ok_iff.2 ⟨by decide, by decide, ?_⟩⟩
    exact .sum_single (.product_single (.unsigned (by simp) (.base (.number _))))
  have hfinite : isFinite (Decimal.toFloat ⟨false, 5, -1⟩) = true := by
    rw [Decimal.toFloat, isFinite_ofMagnitude (Decimal.magnitude_le_infinity _)]
    decide +kernel
  have hrun := ((((Run.start (e := start {} {})).input (.char '.')).answer ⟨1, "."⟩ (.ok ["a.b"])).input
    (.char '5')).input .confirm
  exact ⟨_, hrun, run_typing_result _ _ _ hexpr (Expr.eval_number_eq_ok.2 ⟨hfinite, rfl⟩) {} (by decide) {} {} _ hrun⟩

end Editor

end FormulaBar
