import FormulaBar.Proofs.Editor.Reachable
import FormulaBar.Proofs.Text.Trim

/-!
# FormulaBar.Proofs.Editor.OnScreen — the popup is about the text on screen

An open popup has the query of the pending text, so that a blank text leaves it closed. While it waits, it waits for the
last ticket issued; when it shows an answer, the labels are tidy and the highlighted one is among them (`Popup.Sound`).
Every step of the popup and every answer keep this, whichever ticket the answer is brought for.
-/

namespace FormulaBar

/-! ### Blank texts -/

namespace QuerySpan

variable {k : Classifier} {mark : Char} {cs before after : List Char}

theorem mem_of_mem_after (h : splitAtLast mark cs = some (before, after)) : ∀ c ∈ after, c ∈ cs := by
  intro c hc
  unfold splitAtLast at h
  dsimp only at h
  split at h
  · cases h
  · cases h
    exact List.mem_reverse.1 ((List.takeWhile_sublist _).subset (List.mem_reverse.1 hc))

/-- A blank text has no query, even if the mark itself is a blank. -/
theorem find?_of_blank (h : ∀ c ∈ cs, Text.isBlank c = true) : find? k cs = none := by
  unfold find?
  split
  · next before after hsplit =>
    have hafter : Text.trim after = [] := Text.trim_eq_nil_iff.2 fun c hc => h c (mem_of_mem_after hsplit c hc)
    simp [hafter]
  · have htrim : Text.trim cs = [] := Text.trim_eq_nil_iff.2 h
    simp [htrim]

end QuerySpan

namespace Popup

variable {p p' : Popup} {ticket : Option Ticket}

/-! ### What the popup shows -/

/-- A list of labels as it may be shown: none is blank or has blanks at either end, there are not too many, and the
highlighted one is in the list unless that is empty. -/
structure Listing (max : Option Nat) (candidates : List String) (active : Nat) : Prop where
  tidy : ∀ label ∈ candidates, Text.isBlankText label = false ∧ Text.trimmed label = label
  few : ∀ most ∈ max, candidates.length ≤ most
  active : active < candidates.length ∨ candidates = [] ∧ active = 0

/-- The popup waits for the last ticket, or shows a list that may be shown, or is closed. -/
structure Sound (p : Popup) : Prop where
  latest : ∀ query n, p.state = .querying query n → n = p.generation
  listing : ∀ query candidates active, p.state = .showing query candidates active →
    Listing p.maxCandidates candidates active

theorem tidy_trimmed {label : String} (h : Text.trimmed label ≠ "") :
    Text.isBlankText (Text.trimmed label) = false ∧ Text.trimmed (Text.trimmed label) = Text.trimmed label := by
  have hne : Text.trim label.toList ≠ [] := fun hnil => h (by rw [Text.trimmed, hnil])
  exact ⟨Text.isBlankText_trim hne, by simp [Text.trimmed]⟩

/-- The labels of an answer may be shown, the first of them highlighted. -/
theorem listing_candidates (p : Popup) (answer : Lookup) : Listing p.maxCandidates (p.candidates answer) 0 := by
  cases answer with
  | error error =>
    rw [candidates_error]
    exact ⟨nofun, fun most _ => Nat.zero_le most, .inr ⟨rfl, rfl⟩⟩
  | ok labels =>
    refine ⟨?_, ?_, ?_⟩
    · intro label hlabel
      rw [candidates_ok] at hlabel
      obtain ⟨hmap, hne⟩ := List.mem_filter.1 (List.mem_of_mem_take hlabel)
      obtain ⟨raw, -, rfl⟩ := List.mem_map.1 hmap
      exact tidy_trimmed (of_decide_eq_true hne)
    · intro most hmost
      rw [candidates_ok, Option.mem_def.1 hmost]
      exact List.length_take_le _ _
    · cases p.candidates (.ok labels) with
      | nil => exact .inr ⟨rfl, rfl⟩
      | cons label rest => exact .inl (Nat.succ_pos _)

/-! ### What keeps the popup sound -/

theorem sound_of_hidden (h : p.state = .hidden) : p.Sound := by
  refine ⟨fun query n hstate => ?_, fun query candidates active hstate => ?_⟩
  · rw [h] at hstate
    cases hstate
  · rw [h] at hstate
    cases hstate

theorem Step.sound (h : Step p ticket p') (hp : p.Sound) : p'.Sound := by
  cases h with
  | stays => exact hp
  | hides => exact sound_of_hidden rfl
  | highlights hstate hactive =>
    refine ⟨by rintro query n ⟨⟩, ?_⟩
    rintro query candidates active ⟨⟩
    obtain ⟨htidy, hfew, -⟩ := hp.listing _ _ _ hstate
    exact ⟨htidy, hfew, .inl hactive⟩
  | asks query =>
    refine ⟨?_, by rintro query' candidates active ⟨⟩⟩
    rintro query' n ⟨⟩
    rfl

theorem sound_of_resolve? {t : Ticket} {answer : Lookup} (h : p.resolve? t answer = some p') : p'.Sound := by
  obtain ⟨-, rfl⟩ := resolve?_eq_some.1 h
  refine ⟨by rintro query n ⟨⟩, ?_⟩
  rintro query candidates active ⟨⟩
  exact listing_candidates p answer

end Popup

namespace Editor

variable {issued : List Ticket} {e : Editor}

theorem Reachable.sound (h : Reachable issued e) : e.popup.Sound := by
  induction h with
  | start bindings options ids => exact Popup.sound_of_hidden rfl
  | handle _ input ih => exact (handle_step _ input).sound ih
  | @answered _ e _ t answer ih =>
    rw [answered_eq]
    cases hresolve : e.popup.resolve? t answer with
    | none => exact ih
    | some popup => exact Popup.sound_of_resolve? hresolve
  | load _ hload ih =>
    obtain ⟨store, -, rfl⟩ := load_eq_ok hload
    exact ih
  | @clear _ e _ _ =>
    rw [(clear_eq e).2.2.1]
    exact Popup.sound_of_hidden rfl
  | setBindings | installSurface | subscribe | unsubscribe | supply =>
    next ih => exact ih

/-- The popup of every editor is closed, or about the query of the pending text; it is closed over a blank text. It
waits for the last ticket only. The labels it shows are tidy and not too many, and it highlights one of them. -/
theorem Reachable.popup_about_pending (h : Reachable issued e) :
    (e.popup.state = .hidden ∨ ∃ span, QuerySpan.find? e.popup.classifier e.pending.toList = some span ∧
      e.popup.state.query? = some (String.ofList span.query)) ∧
    (Text.isBlankText e.pending = true → e.popup.state = .hidden) ∧ e.popup.Sound := by
  have hfits := h.popupSound.fits
  refine ⟨?_, ?_, h.sound⟩
  · cases hquery : e.popup.state.query? with
    | none => exact .inl (Popup.hidden_of_query?_eq_none hquery)
    | some query =>
      obtain ⟨span, hspan, rfl⟩ := hfits query hquery
      exact .inr ⟨span, hspan, rfl⟩
  · intro hblank
    have hall : ∀ c ∈ e.pending.toList, Text.isBlank c = true := List.all_eq_true.1 hblank
    exact hfits.hidden (QuerySpan.find?_of_blank hall)

/-- A lookup answered with a blank label and two others, of which one is highlighted. -/
theorem Reachable.popup_about_pending_sales :
    let asked := ((Editor.start {} { maxCandidates := some 2 }).handle (.setText "2 @Sal ")).1
    let e := ((asked.answered ⟨1, "Sal"⟩ (.ok [" Sales", " ", "Salary", "Salt"])).handle .next).1
    (∃ span, QuerySpan.find? e.popup.classifier e.pending.toList = some span ∧ String.ofList span.query = "Sal") ∧
      Popup.Listing (some 2) ["Sales", "Salary"] 1 := by
  intro asked e
  have he : Reachable _ e :=
    (((Reachable.start {} { maxCandidates := some 2 } {}).handle (.setText "2 @Sal ")).answered ⟨1, "Sal"⟩
      (.ok [" Sales", " ", "Salary", "Salt"])).handle .next
  obtain ⟨habout, -, hsound⟩ := he.popup_about_pending
  have hstate : e.popup.state = .showing "Sal" ["Sales", "Salary"] 1 := by decide +kernel
  rw [hstate] at habout
  obtain hhidden | ⟨span, hspan, hquery⟩ := habout
  · cases hhidden
  · exact ⟨⟨span, hspan, (Option.some.inj hquery).symm⟩, hsound.listing _ _ _ hstate⟩

end Editor

end FormulaBar
