import FormulaBar.Editor
import FormulaBar.Proofs.Editor.Popup

/-!
# FormulaBar.Proofs.Editor.Inputs — what every input keeps

An input is handled in two parts: `react` changes the editor and the formula is evaluated if the tokens changed.
`Reaction` lists what the first part can do. From it follow three facts about every input: the popup makes one step
(`handle_step`), the result stays that of the tokens (`handle_upToDate`), and the popup stays about the pending text
(`handle_fits`).
-/

namespace FormulaBar

namespace Editor

variable {e e' e'' : Editor}

/-- What the tokens hold, from left to right. -/
def data (e : Editor) : List TokenData := e.tokens.map (·.data)

/-- The result is that of the tokens. -/
def UpToDate (e : Editor) : Prop := e.result = Formula.result e.tokens e.bindings

/-- The popup is about the pending text. -/
def PopupFits (e : Editor) : Prop := e.popup.Fits e.pending

/-! ### What an input can do -/

/-- What an input can do before the formula is evaluated again, with the lookup that is then wanted. -/
inductive Reaction (e : Editor) : Option Ticket → Editor → Prop
  | nothing : Reaction e none e
  | follows (text : String) : Reaction e (e.setPending text).observe.2 (e.setPending text).observe.1
  | commits : Reaction e none e.commit
  | operates (op : Operator) : Reaction e none (e.commit.append (some (.operand op)))
  | accepts (index : Option Nat) : Reaction e none (e.accept index)
  | reopens : Reaction e e.reopen.2 e.reopen.1
  | takesBack {t store} (h : e.store.dropLast? = some (t, store)) :
      Reaction e ({ e with store }.setPending (t.data.editText e.mark)).reopen.2
        ({ e with store }.setPending (t.data.editText e.mark)).reopen.1
  | hides : Reaction e none { e with popup := e.popup.hide }
  | moves {move : Nat → Nat → Option Nat} (h : Popup.InRange move) :
      Reaction e none (e.withPopup (e.popup.moveTo? move))
  | changes (sequence : Option TokenSequence) (what : TokenChange) :
      Reaction e none (e.withStore (sequence.map (e.store.change · what)))

theorem reaction_typeChar (e : Editor) (c : Char) : Reaction e (e.typeChar c).2 (e.typeChar c).1 := by
  unfold typeChar
  split
  · next op _ => exact .operates op
  · split
    · exact .nothing
    · exact .follows _

theorem reaction_backspace (e : Editor) : Reaction e e.backspace.2 e.backspace.1 := by
  unfold backspace
  split
  · exact .follows _
  · split
    · exact .nothing
    · next t store hdrop => exact .takesBack hdrop

theorem reaction_react (e : Editor) (input : Input) : Reaction e (e.react input).2 (e.react input).1 := by
  cases input with
  | char c => exact reaction_typeChar e c
  | setText text =>
    -- a text that is there already changes nothing
    rw [react]
    split
    · exact .nothing
    · exact .follows text
  | confirm =>
    rw [react]
    -- a highlighted candidate comes before the pending text
    split
    · exact .accepts none
    · exact .commits
  | advance =>
    rw [react]
    split
    · exact .accepts none
    · exact .nothing
  | backspace => exact reaction_backspace e
  | cancel | outside => exact .hides
  | next | previous => exact .moves (Popup.inRange_mod _)
  | hover index => exact .moves (Popup.inRange_to index)
  | accept index => exact .accepts (some index)
  | focus =>
    rw [react]
    split
    · exact .nothing
    · exact .reopens
  | deleteToken id => exact .changes _ _
  | editTag id label => exact .changes _ _

/-! ### What happens before the formula is evaluated -/

/-- From `e` to `e'` bindings and result stay, and so does the store unless its revision grows. -/
structure Reacts (e e' : Editor) : Prop where
  bindings : e'.bindings = e.bindings
  result : e'.result = e.result
  store : e'.store = e.store ∨ e.store.revision < e'.store.revision

theorem Reacts.refl (e : Editor) : Reacts e e := ⟨rfl, rfl, .inl rfl⟩

theorem Reacts.trans (h : Reacts e e') (h' : Reacts e' e'') : Reacts e e'' := by
  refine ⟨h'.bindings.trans h.bindings, h'.result.trans h.result, ?_⟩
  rcases h.store with hsame | hmore
  · rw [← hsame]
    exact h'.store
  · rcases h'.store with hsame' | hmore'
    · rw [hsame']
      exact .inr hmore
    · exact .inr (Nat.lt_trans hmore hmore')

theorem reacts_setPending (e : Editor) (text : String) : Reacts e (e.setPending text) := ⟨rfl, rfl, .inl rfl⟩

theorem reacts_popup (e : Editor) (popup : Popup) : Reacts e { e with popup } := ⟨rfl, rfl, .inl rfl⟩

theorem reacts_append (e : Editor) (d : Option TokenData) : Reacts e (e.append d) := by
  cases d with
  | none => exact .refl e
  | some d => exact ⟨rfl, rfl, .inr (Nat.lt_succ_self _)⟩

theorem reacts_commit (e : Editor) : Reacts e e.commit := by
  have happend := reacts_append e (e.popup.classifier.classify e.pending)
  exact happend.trans ⟨rfl, rfl, .inl rfl⟩

theorem reacts_accept (e : Editor) (index : Option Nat) : Reacts e (e.accept index) := by
  unfold accept
  split
  · exact .refl e
  · next selection popup _ =>
    dsimp only
    have hpopup := reacts_popup e popup
    split
    · exact hpopup
    · refine (hpopup.trans (reacts_append _ _)).trans ((reacts_append _ _).trans (reacts_setPending _ _))

theorem Reaction.reacts {ticket : Option Ticket} (h : Reaction e ticket e') : Reacts e e' := by
  cases h with
  | nothing => exact .refl e
  | follows text => exact (reacts_setPending e text).trans (reacts_popup _ _)
  | commits => exact reacts_commit e
  | operates op => exact (reacts_commit e).trans (reacts_append e.commit (some (.operand op)))
  | accepts index => exact reacts_accept e index
  | reopens => exact reacts_popup e _
  | @takesBack t store h =>
    obtain ⟨p, -, hp⟩ := Option.map_eq_some_iff.1 h
    cases hp
    -- the removal is the change; what follows it leaves the store alone
    have hstore : Reacts e { e with store := e.store.change p.2 (.removed p.1.id) } :=
      ⟨rfl, rfl, .inr (Nat.lt_succ_self _)⟩
    exact hstore.trans ((reacts_setPending _ _).trans (reacts_popup _ _))
  | hides => exact reacts_popup e _
  | moves hmove => exact reacts_popup e _
  | changes sequence what =>
    cases sequence with
    | none => exact .refl e
    | some s => exact ⟨rfl, rfl, .inr (Nat.lt_succ_self _)⟩

/-! ### The popup -/

@[simp] theorem append_popup (e : Editor) (d : Option TokenData) : (e.append d).popup = e.popup := by
  cases d <;> rfl

@[simp] theorem append_pending (e : Editor) (d : Option TokenData) : (e.append d).pending = e.pending := by
  cases d <;> rfl

@[simp] theorem commit_popup (e : Editor) : e.commit.popup = e.popup.hide := by
  simp [commit]

@[simp] theorem commit_pending (e : Editor) : e.commit.pending = "" := rfl

@[simp] theorem setPending_popup (e : Editor) (text : String) : (e.setPending text).popup = e.popup := rfl

/-- Either nothing was accepted, or the popup is hidden now. -/
theorem accept_popup (e : Editor) (index : Option Nat) :
    e.accept index = e ∨ (e.accept index).popup = e.popup.hide := by
  unfold accept
  split
  · exact .inl rfl
  · next selection popup htake =>
    obtain rfl := Popup.take?_popup htake
    dsimp only
    split
    · exact .inr rfl
    · simp

theorem Reaction.step {ticket : Option Ticket} (h : Reaction e ticket e') : Popup.Step e.popup ticket e'.popup := by
  cases h with
  | nothing => exact .stays
  | follows text => exact Popup.observe_step e.popup text
  | commits => simpa using Popup.Step.hides
  | operates op => simpa using Popup.Step.hides
  | accepts index =>
    rcases accept_popup e index with hsame | hhide
    · rw [hsame]
      exact .stays
    · rw [hhide]
      exact .hides
  | reopens => exact Popup.reopen_step e.popup e.pending
  | @takesBack t store h => exact Popup.reopen_step e.popup (t.data.editText e.mark)
  | hides => exact .hides
  | moves hmove => exact Popup.moveTo?_step hmove
  | changes sequence what => exact .stays

theorem Reaction.fits {ticket : Option Ticket} (h : Reaction e ticket e') (he : e.PopupFits) : e'.PopupFits := by
  cases h with
  | nothing => exact he
  | follows text => exact Popup.observe_fits e.popup text
  | commits => exact Popup.fits_of_hidden (by simp)
  | operates op => exact Popup.fits_of_hidden (by simp)
  | accepts index =>
    rcases accept_popup e index with hsame | hhide
    · rwa [hsame]
    · refine Popup.fits_of_hidden ?_
      rw [hhide]
      rfl
  | reopens => exact Popup.reopen_fits e.popup e.pending
  | @takesBack t store h => exact Popup.reopen_fits e.popup (t.data.editText e.mark)
  | hides => exact Popup.fits_of_hidden rfl
  | moves hmove => exact Popup.moveTo?_fits he _
  | changes sequence what => exact he

/-! ### Handling an input -/

/-- The formula is evaluated again if the tokens changed, and nothing else happens after `react`. -/
theorem handle_eq (e : Editor) (input : Input) :
    (e.handle input).1 = (e.react input).1 ∧ (e.react input).1.store.revision = e.store.revision ∨
      (e.handle input).1 = (e.react input).1.refresh := by
  rw [handle]
  dsimp only
  split
  · next h => exact .inl ⟨rfl, h⟩
  · exact .inr rfl

theorem handle_ticket (e : Editor) (input : Input) : (e.handle input).2.ticket = (e.react input).2 := by
  rw [handle]
  dsimp only
  split <;> rfl

@[simp] theorem handle_popup (e : Editor) (input : Input) : (e.handle input).1.popup = (e.react input).1.popup := by
  rcases handle_eq e input with ⟨h, -⟩ | h
  · rw [h]
  · rw [h]
    rfl

@[simp] theorem handle_pending (e : Editor) (input : Input) :
    (e.handle input).1.pending = (e.react input).1.pending := by
  rcases handle_eq e input with ⟨h, -⟩ | h
  · rw [h]
  · rw [h]
    rfl

@[simp] theorem handle_tokens (e : Editor) (input : Input) : (e.handle input).1.tokens = (e.react input).1.tokens := by
  rcases handle_eq e input with ⟨h, -⟩ | h
  · rw [h]
  · rw [h]
    rfl

@[simp] theorem handle_revision (e : Editor) (input : Input) :
    (e.handle input).1.store.revision = (e.react input).1.store.revision := by
  rcases handle_eq e input with ⟨h, -⟩ | h
  · rw [h]
  · rw [h]
    rfl

@[simp] theorem handle_ids (e : Editor) (input : Input) :
    (e.handle input).1.store.ids = (e.react input).1.store.ids := by
  rcases handle_eq e input with ⟨h, -⟩ | h
  · rw [h]
  · rw [h]
    rfl

@[simp] theorem handle_bindings (e : Editor) (input : Input) : (e.handle input).1.bindings = e.bindings := by
  have hreact := (reaction_react e input).reacts.bindings
  rcases handle_eq e input with ⟨h, -⟩ | h
  · rw [h, hreact]
  · rw [h]
    exact hreact

theorem handle_step (e : Editor) (input : Input) :
    Popup.Step e.popup (e.handle input).2.ticket (e.handle input).1.popup := by
  rw [handle_ticket, handle_popup]
  exact (reaction_react e input).step

@[simp] theorem handle_classifier (e : Editor) (input : Input) :
    (e.handle input).1.popup.classifier = e.popup.classifier := (handle_step e input).classifier

theorem handle_fits (h : e.PopupFits) (input : Input) : (e.handle input).1.PopupFits := by
  rw [PopupFits, handle_popup, handle_pending]
  exact (reaction_react e input).fits h

theorem handle_upToDate (h : e.UpToDate) (input : Input) : (e.handle input).1.UpToDate := by
  rcases handle_eq e input with ⟨heq, hrevision⟩ | heq
  · obtain ⟨hbindings, hresult, hstore⟩ := (reaction_react e input).reacts
    rw [heq]
    rcases hstore with hsame | hmore
    · rw [UpToDate, hresult, hbindings, tokens, hsame]
      exact h
    · exact absurd hrevision (Nat.ne_of_gt hmore)
  · rw [heq]
    exact refresh_result _

@[simp] theorem handle_data (e : Editor) (input : Input) : (e.handle input).1.data = (e.react input).1.data := by
  rw [data, handle_tokens]
  rfl

/-! ### Answers -/

/-- Brings an answer. One that is not awaited changes nothing. -/
def answered (e : Editor) (t : Ticket) (answer : Lookup) : Editor := (e.resolve? t answer).getD e

/-- An answer changes the popup, and only if the popup awaits it. -/
theorem answered_eq (e : Editor) (t : Ticket) (answer : Lookup) :
    e.answered t answer = { e with popup := (e.popup.resolve? t answer).getD e.popup } := by
  unfold answered resolve?
  cases e.popup.resolve? t answer <;> rfl

theorem answered_classifier (e : Editor) (t : Ticket) (answer : Lookup) :
    (e.answered t answer).popup.classifier = e.popup.classifier := by
  rw [answered_eq]
  cases h : e.popup.resolve? t answer with
  | none => rfl
  | some popup =>
    obtain ⟨-, rfl⟩ := Popup.resolve?_eq_some.1 h
    rfl

theorem answered_fits (h : e.PopupFits) (t : Ticket) (answer : Lookup) : (e.answered t answer).PopupFits := by
  rw [answered_eq]
  cases hresolve : e.popup.resolve? t answer with
  | none => exact h
  | some popup => exact Popup.resolve?_fits h hresolve

theorem answered_of_hidden (h : e.popup.state = .hidden) (t : Ticket) (answer : Lookup) : e.answered t answer = e := by
  have hnone : e.popup.resolve? t answer = none := by simp [Popup.resolve?, h]
  rw [answered_eq, hnone]
  rfl

/-! ### Runs -/

/-- From `e` the inputs are handled in order, with any answers before, between and after them, and `e'` is the editor
then. -/
inductive Run (e : Editor) : List Input → Editor → Prop
  | start : Run e [] e
  | input {inputs e'} (h : Run e inputs e') (i : Input) : Run e (inputs ++ [i]) (e'.handle i).1
  | answer {inputs e'} (h : Run e inputs e') (t : Ticket) (answer : Lookup) : Run e inputs (e'.answered t answer)

variable {inputs : List Input}

theorem Run.classifier (h : Run e inputs e') : e'.popup.classifier = e.popup.classifier := by
  induction h with
  | start => rfl
  | input _ i ih => rw [handle_classifier, ih]
  | answer _ t answer ih => rw [answered_classifier, ih]

theorem Run.bindings (h : Run e inputs e') : e'.bindings = e.bindings := by
  induction h with
  | start => rfl
  | input _ i ih => rw [handle_bindings, ih]
  | answer _ t answer ih => rw [answered_eq]; exact ih

theorem Run.fits (h : Run e inputs e') (he : e.PopupFits) : e'.PopupFits := by
  induction h with
  | start => exact he
  | input _ i ih => exact handle_fits ih i
  | answer _ t answer ih => exact answered_fits ih t answer

theorem Run.upToDate (h : Run e inputs e') (he : e.UpToDate) : e'.UpToDate := by
  induction h with
  | start => exact he
  | input _ i ih => exact handle_upToDate ih i
  | answer _ t answer ih => rw [answered_eq]; exact ih

theorem Run.of_concat {i : Input} (h : Run e (inputs ++ [i]) e') :
    ∃ before, Run e inputs before ∧ Run (before.handle i).1 [] e' := by
  generalize hall : inputs ++ [i] = all at h
  induction h with
  | start => simp at hall
  | input hbefore j _ =>
    obtain ⟨rfl, rfl⟩ := List.append_inj' hall rfl |>.imp_right List.singleton_inj.1
    exact ⟨_, hbefore, .start⟩
  | answer _ t answer ih =>
    obtain ⟨before, hbefore, hafter⟩ := ih hall
    exact ⟨before, hbefore, hafter.answer t answer⟩

/-- Answers alone change nothing but the popup. -/
theorem Run.eq_of_no_input (h : Run e [] e') : e' = { e with popup := e'.popup } := by
  generalize hinputs : ([] : List Input) = inputs at h
  induction h with
  | start => rfl
  | input _ i _ => simp at hinputs
  | answer _ t answer ih =>
    rw [answered_eq, ih hinputs]

/-- A hidden popup awaits nothing, so answers leave the editor as it is. -/
theorem Run.eq_of_hidden (h : Run e [] e') (hidden : e.popup.state = .hidden) : e' = e := by
  generalize hinputs : ([] : List Input) = inputs at h
  induction h with
  | start => rfl
  | input _ i _ => simp at hinputs
  | answer _ t answer ih => rw [ih hinputs, answered_of_hidden hidden]

end Editor

end FormulaBar
