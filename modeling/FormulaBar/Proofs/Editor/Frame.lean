import FormulaBar.Proofs.Editor.Changes

/-!
# FormulaBar.Proofs.Editor.Frame — what an input leaves alone

Each input has few ways to change the row, and `Rewrites` lists them with all that stays in place. No other row comes out
of `handle`, and what an input can do to a token is done (`handle_rewrites`). An input that names a token leaves the
pending text and the popup alone, and one that concerns the popup changes nothing else. That `erase?`, which filters by
the id, takes one token only is due to the ids being distinct.
-/

namespace FormulaBar

/-- The input changes the token that it names. -/
def Input.namesToken : Input → Bool
  | .deleteToken _ | .editTag _ _ => true
  | _ => false

/-- The input opens the popup, closes it or moves in it. -/
def Input.concernsPopup : Input → Bool
  | .cancel | .outside | .next | .previous | .hover _ | .focus => true
  | _ => false

/-- With distinct ids, one token is taken out by its id. -/
theorem TokenSequence.filter_id_ne {before after : List Token} {t : Token}
    (h : ((before ++ t :: after).map (·.id)).Nodup) :
    (before ++ t :: after).filter (·.id ≠ t.id) = before ++ after := by
  rw [List.map_append, List.map_cons] at h
  obtain ⟨hfresh, -⟩ := List.nodup_cons.1 (List.nodup_middle.1 h)
  rw [← List.map_append] at hfresh
  have hkeep : ∀ u ∈ before ++ after, decide (u.id ≠ t.id) = true := by
    intro u hu
    refine decide_eq_true fun hid => hfresh ?_
    rw [← hid]
    exact List.mem_map_of_mem hu
  obtain ⟨hbefore, hafter⟩ := List.forall_mem_append.1 hkeep
  rw [List.filter_append, List.filter_cons_of_neg (by simp), List.filter_eq_self.2 hbefore,
    List.filter_eq_self.2 hafter]

/-- With distinct ids, the tag that is named is the one that is relabelled. -/
theorem TokenSequence.relabelFirst_of_nodup {before after : List Token} {t : Token} {current label : String}
    (h : ((before ++ t :: after).map (·.id)).Nodup) (hdata : t.data = .tag current) (hlabel : current ≠ label) :
    relabelFirst t.id label (before ++ t :: after) = some (before ++ ⟨t.id, .tag label⟩ :: after) := by
  induction before with
  | nil =>
    rw [List.nil_append, relabelFirst, if_pos rfl, hdata]
    exact if_neg hlabel
  | cons u before ih =>
    rw [List.cons_append, List.map_cons, List.nodup_cons] at h
    have hne : u.id ≠ t.id := fun hid => h.1 (by simp [hid])
    rw [List.cons_append, relabelFirst, if_neg hne, ih h.2]
    rfl

namespace Editor

variable {e : Editor} {input : Input} {store : Store} {row : List Token}

/-- The change that an input makes to a token which is there, with the row that it leaves. -/
inductive Alters (e : Editor) : Input → List Token → Prop
  /-- The last token is gone. -/
  | shortened {before last} (hpending : e.pending = "") (htokens : e.tokens = before ++ [last]) :
      Alters e .backspace before
  /-- The named token is gone. -/
  | erased {before t after} (htokens : e.tokens = before ++ t :: after) :
      Alters e (.deleteToken t.id) (before ++ after)
  /-- The named token, which is a tag, has another label. -/
  | relabelled {before t after current label} (htokens : e.tokens = before ++ t :: after)
      (hdata : t.data = .tag current) (hblank : Text.trimmed label ≠ "") (hlabel : current ≠ Text.trimmed label) :
      Alters e (.editTag t.id label) (before ++ ⟨t.id, .tag (Text.trimmed label)⟩ :: after)

/-- The rows that an input can leave. -/
inductive Rewrites (e : Editor) : Input → List Token → Prop
  /-- Any input can leave the row as it is. -/
  | same (input : Input) : Rewrites e input e.tokens
  /-- One or two new tokens follow the old ones, with the ids that the supply hands out next. -/
  | extended {input : Input} {new : List Token} (hinput : input.appends = true) (hnew : new ≠ [])
      (hlength : new.length ≤ 2)
      (hids : ∀ i t, new[i]? = some t → t.id.raw = e.store.ids.next + UInt64.ofNat i) :
      Rewrites e input (e.tokens ++ new)
  /-- One token is altered or gone. -/
  | altered {input : Input} {row : List Token} (h : Alters e input row) : Rewrites e input row

theorem Edits.rewrites (h : Edits e input store) (hdistinct : (e.tokens.map (·.id)).Nodup) :
    Rewrites e input store.tokens := by
  cases h with
  | nothing => exact .same input
  | appends hinput h =>
    obtain ⟨data, hlength, -, rfl⟩ := h
    obtain ⟨new, htokens, rfl, hids⟩ := Store.appendAll_issues e.store data
    rw [htokens]
    -- an input that brings nothing in leaves the row as it is
    by_cases hnew : new = []
    · rw [hnew, List.append_nil]
      exact .same input
    · rw [List.length_map] at hlength
      exact .extended hinput hnew hlength hids
  | drops hpending h =>
    obtain ⟨htokens, -⟩ := Store.dropLast?_eq_some h
    exact .altered (.shortened hpending htokens)
  | erases h =>
    obtain ⟨⟨t, ht, rfl⟩, htokens, -⟩ := Store.erase?_eq_some h
    -- no other token has this id, so the row is split at it
    obtain ⟨before, after, hsplit⟩ := List.append_of_mem ht
    rw [tokens, hsplit] at hdistinct
    rw [htokens, hsplit, TokenSequence.filter_id_ne hdistinct]
    exact .altered (.erased hsplit)
  | relabels h =>
    obtain ⟨hblank, -, before, t, after, current, htokens, rfl, hdata, hlabel, hafter⟩ := Store.relabel?_eq_some h
    rw [hafter]
    exact .altered (.relabelled htokens hdata hblank hlabel)

/-- With distinct ids, the change that an input can make to a token is made. -/
theorem Alters.react (h : Alters e input row) (hdistinct : (e.tokens.map (·.id)).Nodup) :
    (e.react input).1.tokens = row := by
  cases h with
  | shortened hpending htokens =>
    rw [Editor.react, backspace, if_neg (by simp [hpending]), Store.dropLast?_concat htokens]
    rfl
  | @erased before t after htokens =>
    have ht : t ∈ e.store.tokens := by
      rw [show e.store.tokens = before ++ t :: after from htokens]
      simp
    rw [htokens] at hdistinct
    rw [← TokenSequence.filter_id_ne hdistinct, ← htokens, Editor.react, Store.erase?_of_mem ht]
    rfl
  | @relabelled before t after current label htokens hdata hblank hlabel =>
    rw [htokens] at hdistinct
    have hrow := TokenSequence.relabelFirst_of_nodup hdistinct hdata hlabel
    rw [← htokens] at hrow
    rw [Editor.react, Store.relabel?_of_relabelFirst hblank hrow]
    rfl

theorem withStore_pending (e : Editor) (store : Option Store) : (e.withStore store).pending = e.pending := rfl

theorem withStore_popup (e : Editor) (store : Option Store) : (e.withStore store).popup = e.popup := rfl

theorem react_namesToken (h : input.namesToken = true) :
    (e.react input).1.pending = e.pending ∧ (e.react input).1.popup = e.popup := by
  cases input with
  | deleteToken _ | editTag _ _ =>
    rw [react]
    exact ⟨withStore_pending e _, withStore_popup e _⟩
  | _ => cases h

theorem react_concernsPopup (h : input.concernsPopup = true) : ∃ popup, (e.react input).1 = { e with popup } := by
  cases input with
  | cancel | outside | next | previous | hover _ => exact ⟨_, rfl⟩
  | focus =>
    rw [react]
    split
    · exact ⟨e.popup, rfl⟩
    · exact ⟨_, rfl⟩
  | _ => cases h

/-- With distinct ids an input leaves one of the rows in `Rewrites`, and a change that it can make to a token is made. If
it names a token, the pending text and the popup stay, and if it concerns the popup, everything but the popup stays. -/
theorem handle_rewrites (hdistinct : (e.tokens.map (·.id)).Nodup) (input : Input) :
    Rewrites e input (e.handle input).1.tokens ∧
    (∀ row, Alters e input row → (e.handle input).1.tokens = row) ∧
    (input.namesToken = true →
      (e.handle input).1.pending = e.pending ∧ (e.handle input).1.popup = e.popup) ∧
    (input.concernsPopup = true → ∃ popup, (e.handle input).1 = { e with popup }) := by
  rw [handle_tokens, handle_pending, handle_popup]
  refine ⟨(edits_react e input).rewrites hdistinct, fun row h => h.react hdistinct, react_namesToken, ?_⟩
  intro hconcerns
  obtain ⟨popup, hreact⟩ := react_concernsPopup (e := e) hconcerns
  have hrevision : (e.react input).1.store.revision = e.store.revision := by rw [hreact]
  rw [handle_of_unchanged hrevision]
  exact ⟨popup, hreact⟩

/-- The first of two tokens is taken out while `7` is being typed. -/
theorem handle_rewrites_delete :
    let e : Editor := { store := { sequence := ⟨[⟨⟨4⟩, .operand .sub⟩, ⟨⟨9⟩, .tag "Sales"⟩]⟩ }, pending := "7" }
    let after := (e.handle (.deleteToken ⟨4⟩)).1
    (e.tokens.map (·.id)).Nodup ∧ after.tokens = [⟨⟨9⟩, .tag "Sales"⟩] ∧ after.pending = e.pending ∧
      after.popup = e.popup := by
  intro e after
  have hdistinct : (e.tokens.map (·.id)).Nodup := by decide
  have htokens : e.tokens = [] ++ ⟨⟨4⟩, .operand .sub⟩ :: [⟨⟨9⟩, .tag "Sales"⟩] := rfl
  obtain ⟨-, hrow, hkeeps, -⟩ := handle_rewrites hdistinct (.deleteToken ⟨4⟩)
  exact ⟨hdistinct, hrow _ (.erased htokens), hkeeps rfl⟩

end Editor

end FormulaBar
