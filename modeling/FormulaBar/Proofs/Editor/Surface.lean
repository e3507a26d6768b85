import FormulaBar.Proofs.Editor.Workbook

/-!
# FormulaBar.Proofs.Editor.Surface — the surface shows the pending text

On its way through an action the pending text is taken, cut, extended, replaced or cleared along different routes, and
each route shows it to the surface by itself. An action comes to one of two things (`Mirrors`): it shows nothing and the
pending text stays, or it shows one text, and that is the pending text behind it. A new surface starts with the pending
text. So the last text on a surface is the pending text after any run of actions (`surface_shows_pending`).
-/

namespace FormulaBar

namespace Editor

variable {e e' e'' : Editor}

/-- From `e` to `e'` nothing was shown, and the pending text stayed. -/
structure Quiet (e e' : Editor) : Prop where
  shown : e'.shown = e.shown
  pending : e'.pending = e.pending

/-- From `e` to `e'` one text was shown: the pending text of `e'`. -/
def Shows (e e' : Editor) : Prop := e'.shown = e.shown.map (· ++ [e'.pending])

/-- What may happen to the surface and the pending text between them. -/
def Mirrors (e e' : Editor) : Prop := Quiet e e' ∨ Shows e e'

theorem Quiet.refl (e : Editor) : Quiet e e := ⟨rfl, rfl⟩

theorem Quiet.trans (h : Quiet e e') (h' : Quiet e' e'') : Quiet e e'' :=
  ⟨h'.shown.trans h.shown, h'.pending.trans h.pending⟩

theorem Quiet.shows (h : Quiet e e') (h' : Shows e' e'') : Shows e e'' := by
  rw [Shows, ← h.shown]
  exact h'

theorem Shows.quiet (h : Shows e e') (h' : Quiet e' e'') : Shows e e'' := by
  rw [Shows, h'.shown, h'.pending]
  exact h

theorem Mirrors.quiet (h : Mirrors e e') (h' : Quiet e' e'') : Mirrors e e'' := h.imp (·.trans h') (·.quiet h')

/-! ### The parts of an action -/

theorem quiet_popup (e : Editor) (popup : Popup) : Quiet e { e with popup } := ⟨rfl, rfl⟩

theorem quiet_store (e : Editor) (store : Store) : Quiet e { e with store } := ⟨rfl, rfl⟩

theorem quiet_refresh (e : Editor) : Quiet e e.refresh := ⟨rfl, rfl⟩

theorem quiet_append (e : Editor) (d : Option TokenData) : Quiet e (e.append d) := by
  cases d with
  | none => exact .refl e
  | some d => exact quiet_store e _

theorem shows_setPending (e : Editor) (text : String) : Shows e (e.setPending text) := rfl

theorem shows_commit (e : Editor) : Shows e e.commit := by
  have happend := quiet_append e (e.popup.classifier.classify e.pending)
  exact happend.shows rfl

/-- Accepting shows the text only if a candidate is taken that is not blank; otherwise the text stays. -/
theorem mirrors_accept (e : Editor) (index : Option Nat) : Mirrors e (e.accept index) := by
  unfold accept
  split
  · exact .inl (.refl e)
  · next selection popup _ =>
    dsimp only
    have hpopup := quiet_popup e popup
    split
    · exact .inl hpopup
    · have hbefore := quiet_append { e with popup } (popup.classifier.classify selection.preceding)
      have htag := quiet_append (Editor.append { e with popup } (popup.classifier.classify selection.preceding))
        (some (.tag (Text.trimmed selection.label)))
      exact .inr (((hpopup.trans hbefore).trans htag).shows (shows_setPending _ ""))

theorem Reaction.mirrors {ticket : Option Ticket} (h : Reaction e ticket e') : Mirrors e e' := by
  cases h with
  | nothing => exact .inl (.refl e)
  | follows text => exact .inr ((shows_setPending e text).quiet (quiet_popup _ _))
  | commits => exact .inr (shows_commit e)
  | operates op => exact .inr ((shows_commit e).quiet (quiet_append _ _))
  | accepts index => exact mirrors_accept e index
  | reopens => exact .inl (quiet_popup e _)
  | @takesBack t store h =>
    have hshows := (quiet_store e store).shows (shows_setPending _ (t.data.editText e.mark))
    exact .inr (hshows.quiet (quiet_popup _ _))
  | hides => exact .inl (quiet_popup e _)
  | moves hmove => exact .inl (quiet_popup e _)
  | changes sequence what => exact .inl (quiet_store e _)

/-! ### Actions -/

theorem mirrors_handle (e : Editor) (input : Input) : Mirrors e (e.handle input).1 := by
  have hreact := (reaction_react e input).mirrors
  rcases handle_eq e input with ⟨heq, -⟩ | heq
  · rw [heq]
    exact hreact
  · rw [heq]
    exact hreact.quiet (quiet_refresh _)

theorem mirrors_clear (e : Editor) : Mirrors e e.clear := by
  have hcleared := (quiet_popup e e.popup.hide).shows (shows_setPending _ "")
  unfold clear
  dsimp only
  split
  · exact .inr (hcleared.quiet ((quiet_store _ _).trans (quiet_refresh _)))
  · exact .inr hcleared

theorem quiet_load (e : Editor) (tokens : List Token) : Quiet e ((e.load tokens).toOption.getD e) := by
  cases hload : e.load tokens with
  | error error => exact .refl e
  | ok loaded =>
    obtain ⟨store, -, rfl⟩ := load_eq_ok hload
    exact (quiet_store e store).trans (quiet_refresh _)

/-- Every action mirrors the pending text, except that another surface may take the place of the old one. -/
theorem mirrors_act (e : Editor) (action : Action) : Mirrors e (e.act action) ∨ action = .installSurface := by
  cases action with
  | handle input => exact .inl (mirrors_handle e input)
  | answer ticket answer =>
    rw [act, answered_eq]
    exact .inl (.inl (quiet_popup e _))
  | load tokens => exact .inl (.inl (quiet_load e tokens))
  | clear => exact .inl (mirrors_clear e)
  | setBindings bindings => exact .inl (.inl ⟨rfl, rfl⟩)
  | installSurface => exact .inr rfl
  | subscribe | unsubscribe _ => exact .inl (.inl (quiet_store e _))

/-! ### Runs -/

/-- The editor after some actions. -/
def actAll (e : Editor) (actions : List Action) : Editor := actions.foldl act e

/-- There is a surface, and the last text on it is the pending text. -/
def OnSurface (e : Editor) : Prop := ∃ texts, e.shown = some (texts ++ [e.pending])

theorem onSurface_installSurface (e : Editor) : e.installSurface.OnSurface := ⟨[], rfl⟩

theorem Mirrors.onSurface (h : Mirrors e e') (he : e.OnSurface) : e'.OnSurface := by
  obtain ⟨texts, htexts⟩ := he
  -- A quiet action keeps both sides; one that shows a text makes the old last one a text before it.
  rcases h with hquiet | hshows
  · exact ⟨texts, by rw [hquiet.shown, hquiet.pending, htexts]⟩
  · exact ⟨texts ++ [e.pending], by rw [hshows, htexts]; rfl⟩

theorem onSurface_act (he : e.OnSurface) (action : Action) : (e.act action).OnSurface := by
  rcases mirrors_act e action with hmirrors | rfl
  · exact hmirrors.onSurface he
  · exact onSurface_installSurface e

theorem onSurface_actAll (he : e.OnSurface) (actions : List Action) : (e.actAll actions).OnSurface := by
  induction actions generalizing e with
  | nil => exact he
  | cons action actions ih => exact ih (onSurface_act he action)

/-- Once an editor has a surface, the last text that it was shown is the pending text after every action, whatever was
done before. An action that shows nothing leaves the pending text as it is, and any other shows one text, the pending
text; only a new surface begins with that text alone. -/
theorem surface_shows_pending (e : Editor) (actions : List Action) :
    let now := e.installSurface.actAll actions
    (∃ texts, now.shown = some (texts ++ [now.pending])) ∧
      ∀ action,
        (now.act action).shown = now.shown ∧ (now.act action).pending = now.pending ∨
        (now.act action).shown = now.shown.map (· ++ [(now.act action).pending]) ∨
        action = .installSurface ∧ (now.act action).shown = some [(now.act action).pending] := by
  intro now
  refine ⟨onSurface_actAll (onSurface_installSurface e) actions, fun action => ?_⟩
  rcases mirrors_act now action with (hquiet | hshows) | rfl
  · exact .inl ⟨hquiet.shown, hquiet.pending⟩
  · exact .inr (.inl hshows)
  · exact .inr (.inr ⟨rfl, rfl⟩)

/-- An operator commits the two digits, and Backspace takes it back. -/
example : ((start {} {}).installSurface.actAll
    [.handle (.setText "12"), .handle (.char '+'), .handle .backspace]).shown = some ["", "12", "", "+"] := by
  decide +kernel

end Editor

end FormulaBar
