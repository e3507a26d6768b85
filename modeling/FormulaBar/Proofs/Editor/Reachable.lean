import FormulaBar.Proofs.Editor.Inputs

/-!
# FormulaBar.Proofs.Editor.Reachable — the states that an editor can come to

`Reachable` collects everything that can be done with an editor, and the tickets that it issued. Its invariants are
those of the single steps: the result is that of the tokens, the popup is about the pending text, and tickets are
numbered from 1 on.
-/

namespace FormulaBar

namespace Popup

variable {p p' : Popup} {ticket : Option Ticket} {t : Ticket}

/-! ### Tickets -/

theorem Step.generation (h : Step p ticket p') : p'.generation = p.generation + ticket.toList.length := by
  cases h <;> rfl

theorem Step.numbered (h : Step p ticket p') :
    ticket.toList.map (·.generation) = List.range' (p.generation + 1) ticket.toList.length := by
  cases h <;> rfl

/-- The popup waits for no ticket that was not issued yet. -/
def WaitsForIssued (p : Popup) : Prop := ∀ query n, p.state = .querying query n → n ≤ p.generation

theorem Step.waitsForIssued (h : Step p ticket p') (hp : p.WaitsForIssued) : p'.WaitsForIssued := by
  intro query n hstate
  cases h with
  | stays => exact hp query n hstate
  | hides => cases hstate
  | highlights _ _ => cases hstate
  | asks _ =>
    cases hstate
    exact Nat.le_refl _

/-- A ticket is issued exactly when the popup waits for a new number. -/
theorem Step.ticket_eq_some_iff (h : Step p ticket p') (hp : p.WaitsForIssued) :
    ticket = some t ↔ p'.state = .querying t.query t.generation ∧ t.generation = p.generation + 1 := by
  cases h with
  | stays =>
    refine ⟨by simp, ?_⟩
    rintro ⟨hstate, hnew⟩
    have hle := hp _ _ hstate
    omega
  | hides => simp [hide]
  | highlights _ _ => simp
  | asks query =>
    constructor
    · intro h
      cases h
      exact ⟨rfl, rfl⟩
    · rintro ⟨hstate, hnew⟩
      obtain ⟨number, query'⟩ := t
      cases hstate
      rfl

end Popup

namespace Editor

/-! ### Everything that can be done with an editor -/

/-- An editor that came about from a fresh one, and the tickets that it issued, oldest first. Other editors may draw on
the same supply of ids. -/
inductive Reachable : List Ticket → Editor → Prop
  | start (bindings : Bindings) (options : EditorOptions) (ids : IdSupply) : Reachable [] (start bindings options ids)
  | handle {issued e} (h : Reachable issued e) (input : Input) :
      Reachable (issued ++ (e.handle input).2.ticket.toList) (e.handle input).1
  | answered {issued e} (h : Reachable issued e) (t : Ticket) (answer : Lookup) :
      Reachable issued (e.answered t answer)
  | load {issued e e' tokens} (h : Reachable issued e) (hload : e.load tokens = .ok e') : Reachable issued e'
  | clear {issued e} (h : Reachable issued e) : Reachable issued e.clear
  | setBindings {issued e} (h : Reachable issued e) (bindings : Bindings) : Reachable issued (e.setBindings bindings)
  | installSurface {issued e} (h : Reachable issued e) : Reachable issued e.installSurface
  | subscribe {issued e} (h : Reachable issued e) : Reachable issued { e with store := e.store.subscribe.2 }
  | unsubscribe {issued e place store} (h : Reachable issued e) (hstore : e.store.unsubscribe? place = some store) :
      Reachable issued { e with store }
  | supply {issued e} (h : Reachable issued e) (ids : IdSupply) :
      Reachable issued { e with store := { e.store with ids } }

variable {issued : List Ticket} {e e' : Editor}

/-! ### Operations besides inputs -/

theorem load_eq_ok {tokens : List Token} (h : e.load tokens = .ok e') :
    ∃ store, e.store.load tokens = .ok store ∧ e' = { e with store }.refresh := by
  unfold load at h
  cases hstore : e.store.load tokens with
  | error error => rw [hstore] at h; cases h
  | ok store =>
    rw [hstore] at h
    cases h
    exact ⟨store, rfl, rfl⟩

/-- Clearing leaves no token, nothing pending and a hidden popup. -/
theorem clear_eq (e : Editor) : e.clear.tokens = [] ∧ e.clear.pending = "" ∧ e.clear.popup = e.popup.hide ∧
    e.clear.bindings = e.bindings ∧ (e.UpToDate → e.clear.UpToDate) := by
  unfold clear
  dsimp only
  split
  · next store hstore =>
    obtain ⟨sequence, hsequence, rfl⟩ := Option.map_eq_some_iff.1 hstore
    refine ⟨TokenSequence.clear?_tokens hsequence, rfl, rfl, rfl, fun _ => ?_⟩
    exact refresh_result _
  · next hnone =>
    have hempty : e.store.sequence.clear? = none := Option.map_eq_none_iff.1 hnone
    have htokens : e.tokens = [] := by
      unfold TokenSequence.clear? at hempty
      split at hempty
      · next h => exact List.isEmpty_iff.1 h
      · cases hempty
    exact ⟨htokens, rfl, rfl, rfl, fun h => h⟩

theorem unsubscribe?_tokens {s store : Store} {place : Nat} (h : s.unsubscribe? place = some store) :
    store.tokens = s.tokens := by
  unfold Store.unsubscribe? at h
  split at h
  · cases h
    rfl
  · cases h

/-! ### Invariants -/

theorem Reachable.upToDate (h : Reachable issued e) : e.UpToDate := by
  induction h with
  | start bindings options ids => rfl
  | handle _ input ih => exact handle_upToDate ih input
  | answered _ t answer ih => rw [answered_eq]; exact ih
  | load _ hload _ =>
    obtain ⟨store, -, rfl⟩ := load_eq_ok hload
    exact refresh_result _
  | @clear _ e _ ih => exact (clear_eq e).2.2.2.2 ih
  | setBindings _ bindings _ => exact refresh_result _
  | installSurface _ ih => exact ih
  | subscribe _ ih => exact ih
  | unsubscribe _ hstore ih =>
    show _ = Formula.result (Store.tokens _) _
    rw [unsubscribe?_tokens hstore]
    exact ih
  | supply _ ids ih => exact ih

/-- What holds of the popup of every editor, and of the tickets that it issued. -/
structure PopupSound (issued : List Ticket) (e : Editor) : Prop where
  fits : e.PopupFits
  waitsForIssued : e.popup.WaitsForIssued
  generation : e.popup.generation = issued.length
  numbered : issued.map (·.generation) = List.range' 1 issued.length

theorem popupSound_of_hide (h : PopupSound issued e) (hpopup : e'.popup = e.popup.hide) : PopupSound issued e' := by
  obtain ⟨-, -, hgeneration, hnumbered⟩ := h
  refine ⟨?_, ?_, ?_, hnumbered⟩
  · exact Popup.fits_of_hidden (by rw [hpopup]; rfl)
  · intro query n hstate
    rw [hpopup] at hstate
    cases hstate
  · rw [hpopup]
    exact hgeneration

theorem handle_popupSound (h : PopupSound issued e) (input : Input) :
    PopupSound (issued ++ (e.handle input).2.ticket.toList) (e.handle input).1 := by
  have hstep := handle_step e input
  refine ⟨handle_fits h.fits input, hstep.waitsForIssued h.waitsForIssued, ?_, ?_⟩
  · rw [hstep.generation, h.generation, List.length_append]
  · rw [List.map_append, hstep.numbered, h.numbered, h.generation, List.length_append, Nat.add_comm issued.length 1]
    exact List.range'_append_1

theorem answered_popupSound (h : PopupSound issued e) (t : Ticket) (answer : Lookup) :
    PopupSound issued (e.answered t answer) := by
  have hfits := answered_fits h.fits t answer
  rw [answered_eq] at hfits ⊢
  cases hresolve : e.popup.resolve? t answer with
  | none => exact h
  | some popup =>
    rw [hresolve] at hfits
    obtain ⟨-, rfl⟩ := Popup.resolve?_eq_some.1 hresolve
    refine ⟨hfits, ?_, h.generation, h.numbered⟩
    intro query n hstate
    cases hstate

theorem Reachable.popupSound (h : Reachable issued e) : PopupSound issued e := by
  induction h with
  | start bindings options ids =>
    refine ⟨Popup.fits_of_hidden rfl, ?_, rfl, rfl⟩
    intro query n hstate
    cases hstate
  | handle _ input ih => exact handle_popupSound ih input
  | answered _ t answer ih => exact answered_popupSound ih t answer
  | load _ hload ih =>
    obtain ⟨store, -, rfl⟩ := load_eq_ok hload
    exact ⟨ih.fits, ih.waitsForIssued, ih.generation, ih.numbered⟩
  | @clear _ e _ ih => exact popupSound_of_hide ih (clear_eq e).2.2.1
  | setBindings | installSurface | subscribe | unsubscribe | supply =>
    next ih => exact ⟨ih.fits, ih.waitsForIssued, ih.generation, ih.numbered⟩

end Editor

end FormulaBar
