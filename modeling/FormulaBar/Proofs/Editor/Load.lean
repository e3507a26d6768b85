import FormulaBar.Proofs.Editor.Changes

/-!
# FormulaBar.Proofs.Editor.Load — a load takes all tokens or none

`Editor.load` gives an editor only if it admits the tokens. `loadInPlace` is the same load as a program that changes its
editor step by step; it stops with a refusal before it has changed anything (`loadInPlace_run`). Which lists are admitted,
which refusal the others get and what an admitted list leaves behind is told for both (`load_all_or_nothing`).
-/

namespace FormulaBar

namespace Editor

variable {e loaded : Editor} {tokens : List Token}

/-! ### A load in place -/

/-- Steps over the id of a token. -/
def reserve (e : Editor) (t : Token) : Editor := { e with store := { e.store with ids := e.store.ids.reserve t.id } }

/-- Replaces the row and tells it. -/
def replaceRow (e : Editor) (tokens : List Token) : Editor :=
  { e with store := e.store.change ⟨tokens⟩ (.replaced tokens.length) }

/-- A load in the order of its effects: all checks, the ids one by one, the row, and the result. -/
def loadInPlace (tokens : List Token) : EStateM LoadError Editor Unit := do
  match TokenSequence.checkFrom [] tokens with
  | .error error => throw error
  | .ok () => pure ()
  tokens.forM fun t => modify (·.reserve t)
  modify (·.replaceRow tokens)
  modify refresh

theorem reserve_run (tokens : List Token) (e : Editor) :
    (tokens.forM fun t => modify (·.reserve t) : EStateM LoadError Editor Unit).run e =
      .ok () { e with store := { e.store with ids := e.store.ids.reserveAll tokens } } := by
  induction tokens generalizing e with
  | nil => rfl
  | cons t tokens ih => exact ih (e.reserve t)

/-- A load in place is refused with its editor as it was, or leaves the editor that the load gives. -/
theorem loadInPlace_run (tokens : List Token) (e : Editor) :
    (loadInPlace tokens).run e =
      match e.load tokens with
      | .error error => .error error e
      | .ok loaded => .ok () loaded := by
  have hload : e.load tokens = (TokenSequence.checkFrom [] tokens).map fun _ =>
      ({ e with store := { e.store with ids := e.store.ids.reserveAll tokens } }.replaceRow tokens).refresh := by
    rw [load, Store.load, TokenSequence.load]
    cases TokenSequence.checkFrom [] tokens <;> rfl
  rw [hload]
  cases hcheck : TokenSequence.checkFrom [] tokens with
  | error error =>
    rw [loadInPlace, hcheck]
    rfl
  | ok checked =>
    rw [loadInPlace, hcheck]
    simp only [EStateM.run_bind, reserve_run]
    rfl

/-! ### What a load leaves behind -/

/-- The tokens replaced the row, and the supply stepped over their ids. Subscribers were told so, and then the result.
Nothing else changed. -/
structure Replaces (e : Editor) (tokens : List Token) (loaded : Editor) : Prop where
  row : loaded.tokens = tokens
  next : loaded.store.ids.next.toNat = (tokens.map (·.id.raw.toNat + 1)).foldl max e.store.ids.next.toNat
  revision : loaded.store.revision = e.store.revision + 1
  result : loaded.result = Formula.result tokens e.bindings
  subscribers : loaded.store.subscribers = e.store.subscribers.map (·.told
    [.tokensChanged (e.store.revision + 1) (.replaced tokens.length),
      .resultChanged (e.store.revision + 1) loaded.result])
  pending : loaded.pending = e.pending
  popup : loaded.popup = e.popup
  bindings : loaded.bindings = e.bindings

theorem replaces_of_load (h : e.load tokens = .ok loaded) : Replaces e tokens loaded := by
  obtain ⟨store, hstore, rfl⟩ := load_eq_ok h
  obtain ⟨hloadable, rfl⟩ := Store.load_eq_ok_iff.1 hstore
  refine ⟨rfl, IdSupply.toNat_reserveAll hloadable.inRange e.store.ids, rfl, rfl, ?_, rfl, rfl, rfl⟩
  have hrow := Store.told_change { e.store with ids := e.store.ids.reserveAll tokens } ⟨tokens⟩
    (.replaced tokens.length)
  rw [refresh_subscribers, hrow.subscribers, List.map_map]
  exact List.map_congr_left fun s _ => Subscriber.told_told s _ _

/-- Tokens are admitted exactly if their ids are distinct and none is the greatest, no number is infinite or NaN and no
label is blank. Otherwise the refusal is that of the first token which cannot follow those before it. A refused load
changes nothing, however many tokens passed, and an admitted one replaces the row. -/
theorem load_all_or_nothing (tokens : List Token) :
    (∀ ids, ((∃ admitted, TokenSequence.load ids tokens = .ok admitted) ↔
        (tokens.map (·.id)).Nodup ∧ ∀ t ∈ tokens, t.id.raw.toNat ≠ UInt64.size - 1 ∧
          (∀ value, t.data = .number value → Binary64.isFinite value = true) ∧
          ∀ label, t.data = .tag label → Text.trimmed label ≠ "") ∧
      ∀ error, TokenSequence.load ids tokens = .error error ↔
        ∃ before t after, tokens = before ++ t :: after ∧
          (∃ admitted, TokenSequence.load ids before = .ok admitted) ∧
          TokenSequence.Refused (before.map (·.id)) t error) ∧
    ∀ e : Editor, match TokenSequence.load e.store.ids tokens with
      | .error error => e.load tokens = .error error ∧ (loadInPlace tokens).run e = .error error e
      | .ok _ => ∃ loaded, e.load tokens = .ok loaded ∧ (loadInPlace tokens).run e = .ok () loaded ∧
          Replaces e tokens loaded := by
  refine ⟨fun ids => ⟨?_, fun error => ?_⟩, fun e => ?_⟩
  · rw [TokenSequence.exists_load_iff, TokenSequence.loadable_iff]
  · rw [TokenSequence.load_eq_error_iff]
    simp only [TokenSequence.exists_load_iff]
  · have hrun := loadInPlace_run tokens e
    -- both loads check everything first, so they refuse the same lists
    split
    · next error herror =>
      have hload : e.load tokens = .error error := by
        rw [load, Store.load, herror]
        rfl
      rw [hload] at hrun
      exact ⟨hload, hrun⟩
    · next admitted hadmitted =>
      obtain ⟨loaded, hload⟩ : ∃ loaded, e.load tokens = .ok loaded := by
        rw [load, Store.load, hadmitted]
        exact ⟨_, rfl⟩
      rw [hload] at hrun
      exact ⟨loaded, hload, hrun, replaces_of_load hload⟩

/-- The id of the third token is looked at before its label. -/
example : TokenSequence.load {} [⟨⟨3⟩, .tag "Sales"⟩, ⟨⟨5⟩, .operand .mul⟩, ⟨⟨3⟩, .tag " "⟩] =
    .error (.duplicateId ⟨3⟩) := rfl

end Editor

end FormulaBar
