import FormulaBar.Proofs.Editor.FreshIds
import FormulaBar.Proofs.Editor.Typing
import FormulaBar.Proofs.Editor.Workbook
import FormulaBar.Proofs.Token.EditText

/-!
# FormulaBar.Proofs.Editor.Undo — taking the last token back and committing it again

Backspace over an empty pending text takes the last token back, and a confirmation commits its text. With the popup
closed in between, whatever is looked up, the row then holds what it held before, because the text of a token is read
as that token (`Classifier.classify_editText`). The token has a new id, and the two changes are counted.
-/

namespace FormulaBar

namespace Formula

theorem tokenSource_written (b : Bindings) (d : TokenData) : tokenSource b d.written = tokenSource b d := by
  cases d with
  | number value => exact Number.chars_written value
  | _ => rfl

/-- Reading the last token again leaves the result of a row as it is. -/
theorem result_written (before : List Token) (last : Token) (id : TokenId) (b : Bindings) :
    result (before ++ [⟨id, last.data.written⟩]) b = result (before ++ [last]) b := by
  have hsource : sourceChars ((before ++ [⟨id, last.data.written⟩] : List Token).map (·.data)) b =
      sourceChars ((before ++ [last]).map (·.data)) b := by
    simp [sourceChars, tokenSource_written]
  rw [result, result, value, value, hsource]
  simp

end Formula

namespace Editor

variable {e after : Editor} {before : List Token} {last : Token} {issued : List Ticket}

/-! ### The three keys -/

/-- Backspace takes the last token back into the pending text. -/
theorem handle_backspace (htokens : e.tokens = before ++ [last]) (hpending : e.pending = "") :
    (e.handle .backspace).1.tokens = before ∧ (e.handle .backspace).1.pending = last.data.editText e.mark ∧
      (e.handle .backspace).1.store.ids = e.store.ids ∧
      (e.handle .backspace).1.store.revision = e.store.revision + 1 := by
  have hlast := Store.dropLast?_concat htokens
  have hreact : (e.react .backspace).1 =
      ({ e with store := e.store.change ⟨before⟩ (.removed last.id) }.setPending
        (last.data.editText e.mark)).reopen.1 := by
    simp only [react, backspace, hpending, hlast]
    rfl
  rw [handle_tokens, handle_pending, handle_ids, handle_revision, hreact]
  exact ⟨rfl, rfl, rfl, rfl⟩

theorem handle_cancel (e : Editor) : (e.handle .cancel).1 = { e with popup := e.popup.hide } := by
  simp [handle, react]

/-- With a hidden popup a confirmation commits the pending text. -/
theorem handle_confirm {d : TokenData} (hidden : e.popup.state = .hidden)
    (hclassify : e.popup.classifier.classify e.pending = some d) :
    (e.handle .confirm).1.tokens = e.tokens ++ [⟨e.store.ids.fresh.1, d⟩] ∧
      (e.handle .confirm).1.store.revision = e.store.revision + 1 := by
  have hactive : e.popup.activeCandidate? = none := by simp [Popup.activeCandidate?, hidden]
  have hreact : (e.react .confirm).1.store = (e.store.append d).2 := by
    simp [react, hactive, commit_store, hclassify, Store.appendAll]
  rw [handle_tokens, handle_revision, tokens, hreact]
  exact ⟨rfl, rfl⟩

/-! ### The three keys in a row -/

/-- After the first two keys the last token is pending text and the popup is closed. Answers change the popup until it
is closed, and nothing after that. -/
theorem Run.backspace_cancel {closed : Editor} (h : Run e ([] ++ [.backspace] ++ [.cancel]) closed)
    (htokens : e.tokens = before ++ [last]) (hpending : e.pending = "") :
    closed.tokens = before ∧ closed.pending = last.data.editText e.mark ∧ closed.popup.state = .hidden ∧
      closed.store.ids = e.store.ids ∧ closed.store.revision = e.store.revision + 1 := by
  -- from the last key back: after it the popup is closed, and no answer is taken
  obtain ⟨taken, htake, hcancel⟩ := h.of_concat
  obtain ⟨started, hstart, hback⟩ := htake.of_concat
  rw [handle_cancel] at hcancel
  obtain rfl := hcancel.eq_of_hidden rfl
  have hmark : started.mark = e.mark := by rw [mark, hstart.classifier]; rfl
  -- the answers in between changed the popup only
  have hstart := hstart.eq_of_no_input
  have hback := hback.eq_of_no_input
  have hstore : started.store = e.store := by rw [hstart]
  have htaken : taken.store = (started.handle .backspace).1.store := by rw [hback]
  obtain ⟨hrow, htext, hids, hrevision⟩ := handle_backspace
    (show started.tokens = before ++ [last] by rw [tokens, hstore]; exact htokens)
    (show started.pending = "" by rw [hstart]; exact hpending)
  refine ⟨?_, ?_, rfl, ?_, ?_⟩
  · rw [← hrow, tokens, tokens, ← htaken]
  · rw [← hmark, ← htext]
    show taken.pending = _
    rw [hback]
  · rw [← hstore, ← hids, ← htaken]
  · rw [← hstore, ← hrevision, ← htaken]

/-- The last token is taken back and committed again, with answers to lookups before, between and after the keys. The
row holds the same, but for the sign bit of a zero, and shows the same; only the last token has a new id. It is none of
those in the row, if the supply is ahead of them. Among editors that share a supply with room, it is none that was
handed out or loaded before, and no token of any editor has it. -/
theorem Reachable.backspace_confirm (h : Reachable issued e) (hmark : ({ mark := e.mark } : Settings).invalid? = none)
    (hpending : e.pending = "") (htokens : e.tokens = before ++ [last])
    (hlabel : ∀ label, last.data = .tag label → Text.trimmed label = label)
    (hrun : Run e [.backspace, .cancel, .confirm] after) :
    after.tokens = before ++ [⟨e.store.ids.fresh.1, last.data.written⟩] ∧
      (e.store.Ahead → ∀ t ∈ e.tokens, t.id ≠ e.store.ids.fresh.1) ∧
      (∀ uses w, Workbook.History uses w → IdUse.HasRoom uses → (∃ editor ∈ w.editors, e = editor.drawOn w.ids) →
        (∀ use ∈ uses, use.id ≠ e.store.ids.fresh.1) ∧
          ∀ other ∈ w.editors, ∀ t ∈ other.tokens, t.id ≠ e.store.ids.fresh.1) ∧
      after.pending = "" ∧ after.popup.state = .hidden ∧ after.result = e.result ∧
      after.store.revision = e.store.revision + 2 := by
  -- the text of the token is read as the token
  have hunambiguous := Settings.unambiguous_of_valid hmark
  have hclassify : e.popup.classifier.classify (last.data.editText e.mark) = some last.data.written :=
    Classifier.classify_editText hunambiguous (h.admissible last (by simp [htokens])) hlabel
  have hrun : Run e ([] ++ [.backspace] ++ [.cancel] ++ [.confirm]) after := hrun
  -- with the popup closed, the confirmation commits that text
  obtain ⟨closed, hclose, hconfirm⟩ := hrun.of_concat
  obtain ⟨hrow, htext, hidden, hids, hrevision⟩ := hclose.backspace_cancel htokens hpending
  rw [← hclose.classifier, ← htext] at hclassify
  obtain ⟨hcommitted, hcounted⟩ := handle_confirm hidden hclassify
  obtain ⟨-, hempty, hhidden⟩ := handle_confirm_of_hidden hidden
  obtain rfl := hconfirm.eq_of_hidden hhidden
  rw [hrow, hids] at hcommitted
  refine ⟨hcommitted, Store.Ahead.fresh_ne, ?_, hempty, hhidden, ?_, ?_⟩
  · rintro uses w hhistory hroom ⟨editor, -, rfl⟩
    exact ⟨hhistory.rows.log.next_ne hroom, hhistory.next_ne hroom⟩
  -- the new token has the lexemes of the old one
  · rw [hrun.upToDate h.upToDate, h.upToDate, hrun.bindings, hcommitted, htokens]
    exact Formula.result_written before last _ _
  · rw [hcounted, hrevision]

/-- The tag `Sales` of a loaded row is taken back, its lookup is answered, and it is committed again. The editor is the
only one of its workbook. -/
theorem Reachable.backspace_confirm_sales :
    let loaded : Store := { sequence := ⟨[⟨⟨4⟩, .operand .sub⟩, ⟨⟨9⟩, .tag "Sales"⟩]⟩, ids := ⟨10⟩, revision := 1 }
    let e : Editor := Editor.refresh { store := loaded }
    ∃ after, Run e [.backspace, .cancel, .confirm] after ∧
      after.tokens = [⟨⟨4⟩, .operand .sub⟩, ⟨⟨10⟩, .tag "Sales"⟩] ∧ (∀ t ∈ e.tokens, t.id ≠ ⟨10⟩) ∧
      (∀ use ∈ [IdUse.loaded ⟨4⟩, .loaded ⟨9⟩], use.id ≠ ⟨10⟩) ∧ after.store.revision = 3 := by
  intro loaded e
  have hload : (Editor.start {} {}).load loaded.tokens = .ok e := rfl
  have he : Reachable [] e := (Reachable.start {} {} {}).load hload
  have hlast : e.tokens = [⟨⟨4⟩, .operand .sub⟩] ++ [⟨⟨9⟩, .tag "Sales"⟩] := rfl
  have hlabel : ∀ label, TokenData.tag "Sales" = .tag label → Text.trimmed label = label := by
    rintro label ⟨⟩
    decide
  have htake := (Run.start (e := e)).input .backspace
  have hrun := ((htake.answer ⟨1, "Sales"⟩ (.ok ["Sales Tax"])).input .cancel).input .confirm
  have hworkbook : Workbook.History [.loaded ⟨4⟩, .loaded ⟨9⟩] ⟨⟨10⟩, [e]⟩ :=
    (Workbook.History.start.opens {} {}).acts 0 rfl (.load loaded.tokens)
  have hroom : IdUse.HasRoom [.loaded ⟨4⟩, .loaded ⟨9⟩] := hworkbook.rows.log.hasRoom_iff.2 (by simp)
  obtain ⟨hrow, hbehind, hfresh, -, -, -, hrevision⟩ :=
    Reachable.backspace_confirm he (by decide) rfl hlast hlabel hrun
  obtain ⟨hunused, -⟩ := hfresh _ _ hworkbook hroom ⟨e, List.mem_cons_self, rfl⟩
  exact ⟨_, hrun, hrow, hbehind (load_ahead hload), hunused, hrevision⟩

end Editor

end FormulaBar
