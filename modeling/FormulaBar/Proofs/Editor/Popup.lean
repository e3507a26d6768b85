import FormulaBar.Popup

/-!
# FormulaBar.Proofs.Editor.Popup — what can happen to the popup

`Step` lists the four things that an input can do to the popup, with the ticket that it issues. `Fits` says that the
popup is about a text: if it is open, its query is the one in the text. Looking at a text makes the popup fit it, and
also open if the text has a query (`Follows`).
-/

namespace FormulaBar

namespace Popup

variable {p p' : Popup} {pending : String} {ticket : Option Ticket}

/-- What an input can do to the popup, and the ticket that it issues. -/
inductive Step (p : Popup) : Option Ticket → Popup → Prop
  | stays : Step p none p
  | hides : Step p none p.hide
  | highlights {query candidates active active'} (h : p.state = .showing query candidates active)
      (hactive : active' < candidates.length) : Step p none { p with state := .showing query candidates active' }
  | asks (query : String) :
      Step p (some ⟨p.generation + 1, query⟩)
        { p with state := .querying query (p.generation + 1), generation := p.generation + 1 }

/-- An open popup has the query of the text. -/
def Fits (p : Popup) (pending : String) : Prop :=
  ∀ query ∈ p.state.query?, ∃ span, QuerySpan.find? p.classifier pending.toList = some span ∧
    query = String.ofList span.query

/-- The popup is open exactly if the text has a query, and it is about that query. -/
def Follows (p : Popup) (pending : String) : Prop :=
  p.state.query? = (QuerySpan.find? p.classifier pending.toList).map fun span => String.ofList span.query

theorem Follows.fits (h : p.Follows pending) : p.Fits pending := by
  intro query hquery
  rw [h] at hquery
  obtain ⟨span, hspan, rfl⟩ := Option.map_eq_some_iff.1 hquery
  exact ⟨span, hspan, rfl⟩

theorem fits_of_hidden (h : p.state = .hidden) : p.Fits pending := by
  intro query hquery
  rw [h] at hquery
  cases hquery

theorem hidden_of_query?_eq_none (h : p.state.query? = none) : p.state = .hidden := by
  cases hstate : p.state with
  | hidden => rfl
  | querying _ _ => simp [hstate, PopupState.query?] at h
  | showing _ _ _ => simp [hstate, PopupState.query?] at h

/-- Over a text without a query the popup is hidden. -/
theorem Fits.hidden (h : p.Fits pending) (hnone : QuerySpan.find? p.classifier pending.toList = none) :
    p.state = .hidden := by
  refine hidden_of_query?_eq_none ?_
  rw [Option.eq_none_iff_forall_not_mem]
  intro query hquery
  obtain ⟨span, hspan, -⟩ := h query hquery
  rw [hnone] at hspan
  cases hspan

/-! ### Following the text -/

theorem observe_step (p : Popup) (pending : String) : Step p (p.observe pending).2 (p.observe pending).1 := by
  unfold observe
  split
  · exact .hides
  · dsimp only
    split
    · exact .stays
    · exact .asks _

/-- Whatever the popup was about before, it is about the text that it looks at. -/
theorem observe_follows (p : Popup) (pending : String) : (p.observe pending).1.Follows pending := by
  unfold observe Follows
  cases hspan : QuerySpan.find? p.classifier pending.toList with
  | none => simp [hide, hspan, PopupState.query?]
  | some span =>
    dsimp only
    split
    · next hsame => simp [hspan, hsame]
    · simp [hspan, PopupState.query?]

theorem observe_fits (p : Popup) (pending : String) : (p.observe pending).1.Fits pending :=
  (observe_follows p pending).fits

theorem reopen_step (p : Popup) (pending : String) : Step p (p.reopen pending).2 (p.reopen pending).1 := by
  unfold reopen observe
  split
  · exact .hides
  · exact .asks _

theorem reopen_fits (p : Popup) (pending : String) : (p.reopen pending).1.Fits pending :=
  observe_fits p.hide pending

/-! ### Moving through the candidates, and taking one -/

theorem moveTo?_eq_some {move : Nat → Nat → Option Nat} (h : p.moveTo? move = some p') :
    ∃ query candidates active active', p.state = .showing query candidates active ∧
      move candidates.length active = some active' ∧ p' = { p with state := .showing query candidates active' } := by
  unfold moveTo? at h
  split at h
  · next query candidates active hstate =>
    obtain ⟨active', hmove, rfl⟩ := Option.map_eq_some_iff.1 h
    exact ⟨query, candidates, active, active', hstate, hmove, rfl⟩
  · cases h

/-- The move ends at one of the candidates, if it is made. -/
def InRange (move : Nat → Nat → Option Nat) : Prop :=
  ∀ count active active', move count active = some active' → active' < count

/-- Moves that count round the list. -/
theorem inRange_mod (place : Nat → Nat → Nat) :
    InRange fun count active => if count = 0 then none else some (place count active % count) := by
  intro count active active' h
  dsimp only at h
  split at h
  · cases h
  · next hne =>
    cases h
    exact Nat.mod_lt _ (Nat.pos_of_ne_zero hne)

theorem inRange_to (index : Nat) : InRange fun count _ => if index < count then some index else none := by
  intro count active active' h
  dsimp only at h
  split at h
  · next hlt =>
    cases h
    exact hlt
  · cases h

theorem moveTo?_step {move : Nat → Nat → Option Nat} (hmove : InRange move) :
    Step p none ((p.moveTo? move).getD p) := by
  cases h : p.moveTo? move with
  | none => exact .stays
  | some p' =>
    obtain ⟨_, _, _, _, hstate, hactive, rfl⟩ := moveTo?_eq_some h
    exact .highlights hstate (hmove _ _ _ hactive)

theorem moveTo?_fits (h : p.Fits pending) (move : Nat → Nat → Option Nat) :
    ((p.moveTo? move).getD p).Fits pending := by
  cases hmove : p.moveTo? move with
  | none => exact h
  | some p' =>
    obtain ⟨query, _, _, _, hstate, -, rfl⟩ := moveTo?_eq_some hmove
    intro query' hquery'
    refine h query' ?_
    rw [hstate]
    exact hquery'

theorem take?_popup {index : Option Nat} {selection : Selection} (h : p.take? pending index = some (selection, p')) :
    p' = p.hide := by
  unfold take? at h
  split at h
  · obtain ⟨label, -, heq⟩ := Option.map_eq_some_iff.1 h
    cases heq
    rfl
  · cases h

/-! ### Answers -/

theorem resolve?_eq_some {t : Ticket} {answer : Lookup} :
    p.resolve? t answer = some p' ↔ p.state = .querying t.query t.generation ∧
      p' = { p with state := .showing t.query (p.candidates answer) 0 } := by
  unfold resolve?
  split
  · next h => simp [h, eq_comm]
  · next h => simp [h]

theorem resolve?_fits {t : Ticket} {answer : Lookup} (h : p.Fits pending) (hresolve : p.resolve? t answer = some p') :
    p'.Fits pending := by
  obtain ⟨hstate, rfl⟩ := resolve?_eq_some.1 hresolve
  intro query hquery
  refine h query ?_
  rw [hstate]
  exact hquery

/-! ### What a step leaves alone -/

theorem Step.classifier (h : Step p ticket p') : p'.classifier = p.classifier := by
  cases h <;> rfl

theorem Step.state_of_some {t : Ticket} (h : Step p (some t) p') : p'.state = .querying t.query t.generation := by
  cases h
  rfl

theorem Step.candidates (h : Step p ticket p') : p'.candidates = p.candidates := by
  cases h <;> rfl

end Popup

end FormulaBar
