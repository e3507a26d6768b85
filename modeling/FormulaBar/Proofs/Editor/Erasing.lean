import FormulaBar.Proofs.Editor.OnScreen
import FormulaBar.Proofs.Editor.Undo

/-!
# FormulaBar.Proofs.Editor.Erasing — holding Backspace empties the editor

Backspace shortens the pending text by one character, or takes the last token back into it, which makes the pending text
longer. `presses` counts both: a pending character is one press, and a token is one press more than its text has
characters. Every press takes one off this number (`handle_backspace_presses`), answers leave it alone, and it is zero
exactly when nothing is left. Each token that goes raises the revision by one, so the revision and the number of tokens
keep their sum.
-/

namespace FormulaBar

namespace Editor

variable {e after : Editor} {issued : List Ticket}

/-- Neither a token nor pending text is left. -/
def IsEmpty (e : Editor) : Prop := e.tokens = [] ∧ e.pending = ""

/-- How often Backspace is pressed until nothing is left: once for every pending character, and for every token once to
take it back and once for every character of its text. -/
def presses (e : Editor) : Nat :=
  e.pending.length + (e.tokens.map fun t => 1 + (t.data.editText e.mark).length).sum

theorem presses_eq_zero_iff : e.presses = 0 ↔ e.IsEmpty := by
  have hsum : (e.tokens.map fun t => 1 + (t.data.editText e.mark).length).sum = 0 ↔ e.tokens = [] := by
    cases e.tokens with
    | nil => simp
    | cons t ts => simp [Nat.add_assoc]
  rw [presses, Nat.add_eq_zero_iff, hsum, String.length_eq_zero_iff, and_comm]
  rfl

/-- Presses depend on tokens, pending text and mark only. -/
theorem presses_congr (htokens : after.tokens = e.tokens) (hpending : after.pending = e.pending)
    (hmark : after.mark = e.mark) : after.presses = e.presses := by
  rw [presses, htokens, hpending, hmark, ← presses]

/-! ### One press -/

theorem handle_mark (e : Editor) (input : Input) : (e.handle input).1.mark = e.mark := by
  rw [mark, handle_classifier, ← mark]

/-- What the popup is told changes neither the row nor the pending text. -/
theorem observe_frame (e : Editor) : e.observe.1.tokens = e.tokens ∧ e.observe.1.pending = e.pending ∧
    e.observe.1.store.revision = e.store.revision := ⟨rfl, rfl, rfl⟩

/-- Backspace takes the last pending character away. -/
theorem handle_backspace_of_pending (h : e.pending ≠ "") :
    (e.handle .backspace).1.tokens = e.tokens ∧
      (e.handle .backspace).1.pending = String.ofList e.pending.toList.dropLast ∧
      (e.handle .backspace).1.store.revision = e.store.revision := by
  have hreact : e.react .backspace = (e.setPending (String.ofList e.pending.toList.dropLast)).observe := by
    rw [react, backspace, if_pos h]
  rw [handle_tokens, handle_pending, handle_revision, hreact]
  exact observe_frame _

theorem handle_backspace_of_isEmpty (h : e.IsEmpty) : e.handle .backspace = (e, {}) := by
  obtain ⟨htokens, hpending⟩ := h
  have hnone : e.store.dropLast? = none := by
    have hlast : e.store.sequence.last? = none := by
      rw [TokenSequence.last?, List.getLast?_eq_none_iff]
      exact htokens
    rw [Store.dropLast?, TokenSequence.dropLast?, hlast]
    rfl
  have hreact : e.react .backspace = (e, none) := by simp [react, backspace, hpending, hnone]
  rw [handle_of_unchanged (by rw [hreact]), hreact]

/-- A press takes one off the number of presses, unless that is zero. A token that goes is counted in the revision. -/
theorem handle_backspace_presses (e : Editor) :
    (e.handle .backspace).1.presses = e.presses - 1 ∧
      (e.handle .backspace).1.store.revision + (e.handle .backspace).1.tokens.length =
        e.store.revision + e.tokens.length := by
  by_cases hpending : e.pending = ""
  -- without pending text the last token goes, if there is one
  · rcases List.eq_nil_or_concat e.tokens with hnil | ⟨before, last, htokens⟩
    · have hempty : e.IsEmpty := ⟨hnil, hpending⟩
      rw [handle_backspace_of_isEmpty hempty, presses_eq_zero_iff.2 hempty]
      exact ⟨rfl, rfl⟩
    · rw [List.concat_eq_append] at htokens
      obtain ⟨hrow, htext, -, hrevision⟩ := handle_backspace htokens hpending
      refine ⟨?_, ?_⟩
      -- that token cost one press more than its text, which is pending now
      · rw [presses, presses, hrow, htext, handle_mark, htokens, hpending]
        simp only [List.map_append, List.map_singleton, List.sum_append, List.sum_singleton, String.length_empty]
        omega
      · rw [hrow, hrevision, htokens, List.length_append, List.length_singleton]
        omega
  -- pending text loses one character
  · obtain ⟨hrow, htext, hrevision⟩ := handle_backspace_of_pending hpending
    refine ⟨?_, by rw [hrow, hrevision]⟩
    have hlength : 0 < e.pending.length := Nat.pos_of_ne_zero (mt String.length_eq_zero_iff.1 hpending)
    rw [presses, presses, hrow, htext, handle_mark, String.length_ofList, List.length_dropLast, String.length_toList]
    omega

/-! ### Presses in a row -/

/-- After some presses, whatever answers came in. -/
theorem Run.presses {inputs : List Input} (h : Run e inputs after) (hall : ∀ input ∈ inputs, input = .backspace) :
    after.presses = e.presses - inputs.length ∧
      after.store.revision + after.tokens.length = e.store.revision + e.tokens.length := by
  induction h with
  | start => exact ⟨rfl, rfl⟩
  | @input inputs before hbefore i ih =>
    obtain ⟨hpresses, hsum⟩ := ih fun input hinput => hall input (by simp [hinput])
    obtain rfl : i = .backspace := hall i (by simp)
    obtain ⟨hpress, hkept⟩ := handle_backspace_presses before
    rw [hpress, hpresses, hkept, hsum, List.length_append, List.length_singleton, Nat.sub_sub]
    exact ⟨rfl, rfl⟩
  | @answer inputs before _ t answer ih =>
    -- an answer changes the popup, and no press is counted for that
    obtain ⟨hpresses, hsum⟩ := ih hall
    have hmark : (before.answered t answer).mark = before.mark := by
      rw [mark, answered_classifier, ← mark]
    have hsame : (before.answered t answer).tokens = before.tokens ∧
        (before.answered t answer).pending = before.pending ∧
        (before.answered t answer).store.revision = before.store.revision := by
      rw [answered_eq]
      exact ⟨rfl, rfl, rfl⟩
    rw [presses_congr hsame.1 hsame.2.1 hmark, hsame.1, hsame.2.2]
    exact ⟨hpresses, hsum⟩

theorem Run.presses_replicate {n : Nat} (h : Run e (List.replicate n .backspace) after) :
    after.presses = e.presses - n ∧
      after.store.revision + after.tokens.length = e.store.revision + e.tokens.length := by
  simpa using h.presses fun input hinput => List.eq_of_mem_replicate hinput

/-- Over an empty editor with a hidden popup, presses and answers change nothing. -/
theorem Run.eq_of_isEmpty {inputs : List Input} (h : Run e inputs after)
    (hall : ∀ input ∈ inputs, input = .backspace) (hempty : e.IsEmpty) (hidden : e.popup.state = .hidden) :
    after = e := by
  induction h with
  | start => rfl
  | input _ i ih =>
    obtain rfl : i = .backspace := hall i (by simp)
    rw [ih fun input hinput => hall input (by simp [hinput]), handle_backspace_of_isEmpty hempty]
  | answer _ t answer ih => rw [ih hall, answered_of_hidden hidden]

/-- Inputs, and answers before, between and after them, lead from one state of an editor to another. -/
theorem Reachable.of_run {inputs : List Input} (h : Reachable issued e) (hrun : Run e inputs after) :
    ∃ issued', Reachable issued' after := by
  induction hrun with
  | start => exact ⟨issued, h⟩
  | input _ i ih =>
    obtain ⟨_, hbefore⟩ := ih
    exact ⟨_, hbefore.handle i⟩
  | answer _ t answer ih =>
    obtain ⟨_, hbefore⟩ := ih
    exact ⟨_, hbefore.answered t answer⟩

/-- Holding Backspace empties every editor after just as many presses as `presses` says, whatever answers come in
between, and not earlier. Then zero is shown, the popup is closed, each token was counted as one change, and further
presses change nothing. -/
theorem Reachable.emptied (h : Reachable issued e) :
    (∀ after, Run e (List.replicate e.presses .backspace) after →
      after.tokens = [] ∧ after.pending = "" ∧ after.result = "0" ∧ after.popup.state = .hidden ∧
      after.store.revision = e.store.revision + e.tokens.length ∧ after.handle .backspace = (after, {}) ∧
      ∀ n later, Run after (List.replicate n .backspace) later → later = after) ∧
    ∀ n after, n < e.presses → Run e (List.replicate n .backspace) after → ¬after.IsEmpty := by
  refine ⟨fun after hrun => ?_, fun n after hless hrun => ?_⟩
  -- nothing is left after as many presses, so the popup has nothing to be about
  · obtain ⟨hpresses, hsum⟩ := hrun.presses_replicate
    have hempty : after.IsEmpty := presses_eq_zero_iff.1 (by rw [hpresses, Nat.sub_self])
    obtain ⟨_, hafter⟩ := h.of_run hrun
    have hidden : after.popup.state = .hidden := hafter.popup_about_pending.2.1 (by rw [hempty.2]; rfl)
    have hzero : Number.text 0 = "0" := by decide +kernel
    have hresult : after.result = "0" := by
      rw [hafter.upToDate, hempty.1]
      exact hzero
    rw [hempty.1, List.length_nil, Nat.add_zero] at hsum
    exact ⟨hempty.1, hempty.2, hresult, hidden, hsum, handle_backspace_of_isEmpty hempty, fun n later hlater =>
      hlater.eq_of_isEmpty (fun input hinput => List.eq_of_mem_replicate hinput) hempty hidden⟩
  -- with fewer presses some are still to come
  · obtain ⟨hpresses, -⟩ := hrun.presses_replicate
    rw [← presses_eq_zero_iff, hpresses]
    omega

/-- The pending text `@é` and the token `12` are gone after five presses, with an answer behind the first. -/
theorem Reachable.emptied_twelve :
    let e := (((Editor.start {} {}).handle (.setText "12")).1.handle .confirm).1
    let e := (e.handle (.setText "@é")).1
    ∃ after, Run e (List.replicate 5 .backspace) after ∧ after.tokens = [] ∧ after.pending = "" ∧
      after.result = "0" ∧ after.store.revision = 2 := by
  intro _ e
  have he : Reachable _ e :=
    (((Reachable.start {} {} {}).handle (.setText "12")).handle .confirm).handle (.setText "@é")
  have hpresses : e.presses = 5 := by decide +kernel
  have hcounts : e.store.revision = 1 ∧ e.tokens.length = 1 := by decide +kernel
  have hrun := (((((Run.start (e := e)).input .backspace).answer ⟨1, "é"⟩ (.ok ["Café"])).input .backspace |>.input
    .backspace).input .backspace).input .backspace
  obtain ⟨htokens, hpending, hresult, -, hrevision, -⟩ := he.emptied.1 _ (by rw [hpresses]; exact hrun)
  exact ⟨_, hrun, htokens, hpending, hresult, by rw [hrevision, hcounts.1, hcounts.2]⟩

end Editor

end FormulaBar
