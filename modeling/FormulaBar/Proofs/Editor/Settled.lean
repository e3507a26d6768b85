import FormulaBar.Proofs.Editor.Inputs

/-!
# FormulaBar.Proofs.Editor.Settled — an editor whose lookup has come back

With a lookup that depends on the query alone, an editor that waits for an answer is as good as one that has it.
`settled` gives it the answer. Inputs that do not read the candidates lead to the same settled editor whether the answer
has come or not (`settled_handle`).
-/

namespace FormulaBar

/-- The inputs that do the same whatever is suggested. -/
def Input.ignoresCandidates : Input → Bool
  | char _ | backspace | cancel => true
  | _ => false

variable (lookup : String → Lookup)

namespace Popup

/-- The popup with the answer that it waits for. -/
def settled (p : Popup) : Popup :=
  match p.state with
  | .querying query _ => { p with state := .showing query (p.candidates (lookup query)) 0 }
  | _ => p

variable {p : Popup}

theorem settled_of_querying {query : String} {n : Nat} (h : p.state = .querying query n) :
    p.settled lookup = { p with state := .showing query (p.candidates (lookup query)) 0 } := by
  simp only [settled, h]

theorem settled_of_not_querying (h : ∀ query n, p.state ≠ .querying query n) : p.settled lookup = p := by
  unfold settled
  split
  · next query n hstate => exact absurd hstate (h query n)
  · rfl

/-- Settling is done at once, and all but the state stays. -/
theorem settled_cases (p : Popup) :
    p.settled lookup = p ∨ ∃ query n, p.state = .querying query n ∧
      p.settled lookup = { p with state := .showing query (p.candidates (lookup query)) 0 } := by
  cases hstate : p.state with
  | querying query n => exact .inr ⟨query, n, rfl, settled_of_querying lookup hstate⟩
  | hidden => exact .inl (settled_of_not_querying lookup (by simp [hstate]))
  | showing _ _ _ => exact .inl (settled_of_not_querying lookup (by simp [hstate]))

theorem settled_not_querying (p : Popup) (query : String) (n : Nat) : (p.settled lookup).state ≠ .querying query n := by
  unfold settled
  split
  · simp
  · next hstate => exact hstate query n

@[simp] theorem settled_settled (p : Popup) : (p.settled lookup).settled lookup = p.settled lookup := by
  rcases p.settled_cases lookup with h | ⟨query, n, -, h⟩
  · rw [h, h]
  · rw [h]
    rfl

@[simp] theorem settled_hide (p : Popup) : (p.settled lookup).hide = p.hide := by
  rcases p.settled_cases lookup with h | ⟨query, n, -, h⟩ <;> rw [h]
  rfl

@[simp] theorem settled_classifier (p : Popup) : (p.settled lookup).classifier = p.classifier := by
  rcases p.settled_cases lookup with h | ⟨query, n, -, h⟩ <;> rw [h]

theorem settled_query? (p : Popup) : (p.settled lookup).state.query? = p.state.query? := by
  rcases p.settled_cases lookup with h | ⟨query, n, hstate, h⟩
  · rw [h]
  · rw [h, hstate]
    rfl

theorem state_of_settled_hidden (h : (p.settled lookup).state = .hidden) : p.state = .hidden := by
  rcases p.settled_cases lookup with hsame | ⟨query, n, -, hshowing⟩
  · rwa [hsame] at h
  · rw [hshowing] at h
    cases h

/-- A new query is looked up in the same way, and the same query stays. -/
theorem observe_settled (p : Popup) (text : String) :
    ((p.settled lookup).observe text).1.settled lookup = (p.observe text).1.settled lookup := by
  unfold observe
  rw [settled_classifier, settled_query?]
  split
  · rw [settled_hide]
  · dsimp only
    split
    · exact settled_settled lookup p
    · rcases p.settled_cases lookup with h | ⟨query, n, -, h⟩ <;> rw [h]

theorem reopen_settled (p : Popup) (text : String) : (p.settled lookup).reopen text = p.reopen text := by
  rw [reopen, settled_hide]
  rfl

end Popup

namespace Editor

/-- The editor with the answer that it waits for. -/
def settled (e : Editor) : Editor := { e with popup := e.popup.settled lookup }

variable {e : Editor}

@[simp] theorem settled_settled (e : Editor) : (e.settled lookup).settled lookup = e.settled lookup := by
  simp [settled]

theorem settled_of_not_querying (h : ∀ query n, e.popup.state ≠ .querying query n) : e.settled lookup = e := by
  rw [settled, Popup.settled_of_not_querying lookup h]

theorem settled_of_hidden (h : e.popup.state = .hidden) : e.settled lookup = e := by
  refine settled_of_not_querying lookup ?_
  intro query n hstate
  rw [h] at hstate
  cases hstate

/-- Settling brings the answer that is awaited, if there is one. -/
theorem settled_eq_answered (e : Editor) :
    e.settled lookup = e ∨ ∃ t, e.settled lookup = e.answered t (lookup t.query) := by
  rcases e.popup.settled_cases lookup with hsame | ⟨query, n, hstate, hshowing⟩
  · exact .inl (by rw [settled, hsame])
  · refine .inr ⟨⟨n, query⟩, ?_⟩
    have hresolve : e.popup.resolve? ⟨n, query⟩ (lookup query) = some (e.popup.settled lookup) := by
      rw [hshowing, Popup.resolve?, if_pos hstate]
    rw [answered_eq, hresolve]
    rfl

theorem settled_commit (e : Editor) : (e.settled lookup).commit = e.commit := by
  have hclassify : (e.settled lookup).popup.classifier.classify e.pending = e.popup.classifier.classify e.pending := by
    rw [settled, Popup.settled_classifier]
  unfold commit
  rw [show (e.settled lookup).pending = e.pending from rfl, hclassify]
  cases e.popup.classifier.classify e.pending <;> simp [append, settled, render]

theorem settled_observe (e : Editor) :
    (e.settled lookup).observe.1.settled lookup = e.observe.1.settled lookup := by
  simp only [observe, settled, Popup.observe_settled]

theorem settled_reopen (e : Editor) : (e.settled lookup).reopen.1 = e.reopen.1 := by
  simp only [reopen, settled, Popup.reopen_settled]

theorem settled_typeChar (e : Editor) (c : Char) :
    ((e.settled lookup).typeChar c).1.settled lookup = (e.typeChar c).1.settled lookup := by
  unfold typeChar
  split
  · rw [settled_commit]
  · split
    · exact settled_settled lookup e
    · exact settled_observe lookup (e.setPending (e.pending.push c))

theorem settled_backspace (e : Editor) :
    (e.settled lookup).backspace.1.settled lookup = e.backspace.1.settled lookup := by
  unfold backspace
  rw [show (e.settled lookup).pending = e.pending from rfl, show (e.settled lookup).store = e.store from rfl]
  split
  · exact settled_observe lookup (e.setPending _)
  · split
    · exact settled_settled lookup e
    · next t store _ =>
      have hmark : (e.settled lookup).mark = e.mark := by simp [mark, settled]
      rw [hmark]
      have hreopen := settled_reopen lookup ({ e with store }.setPending (t.data.editText e.mark))
      exact congrArg (settled lookup) hreopen

theorem settled_react {input : Input} (h : input.ignoresCandidates = true) (e : Editor) :
    ((e.settled lookup).react input).1.settled lookup = (e.react input).1.settled lookup := by
  cases input with
  | char c => exact settled_typeChar lookup e c
  | backspace => exact settled_backspace lookup e
  | cancel => simp [react, settled]
  | setText | confirm | advance | next | previous | hover | accept | outside | focus | deleteToken | editTag => cases h

/-- Whether the answer has come or not, the settled editor is the same after an input that ignores the candidates. -/
theorem settled_handle {input : Input} (h : input.ignoresCandidates = true) (e : Editor) :
    ((e.settled lookup).handle input).1.settled lookup = (e.handle input).1.settled lookup := by
  have hreact := settled_react lookup h e
  have hstore : ((e.settled lookup).react input).1.store = (e.react input).1.store := by
    have hsettled := congrArg (fun e => e.store) hreact
    exact hsettled
  unfold handle
  dsimp only
  rw [hstore, show (e.settled lookup).store = e.store from rfl]
  split
  · exact hreact
  · have hrefresh := congrArg refresh hreact
    exact hrefresh

end Editor

end FormulaBar
