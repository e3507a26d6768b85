import FormulaBar.Proofs.Editor.Changes
import FormulaBar.Proofs.Editor.OnScreen
import FormulaBar.Proofs.Editor.Query

/-!
# FormulaBar.Proofs.Editor.Accept — accepting a suggestion keeps the text before the query

A pending text is what stands before its query, the mark if there is one, and the query between blanks
(`QuerySpan.cut_of_find?`). While labels are shown the pending text has a query, and none of the labels is blank. So a
label that is accepted always becomes a tag, behind a token for the text before the query if that is not blank itself.
-/

namespace FormulaBar

/-! ### The parts of a pending text -/

namespace QuerySpan

variable {k : Classifier} {cs : List Char} {span : QuerySpan}

/-- A text cut at its query: what stands before it, the mark or nothing, and the query between blanks. -/
def Cut (mark : Char) (span : QuerySpan) (cs : List Char) : Prop :=
  ∃ sign left right : List Char, cs = span.before ++ (sign ++ left ++ span.query ++ right) ∧
    (sign = [] ∨ sign = [mark]) ∧ (∀ c ∈ left, Text.isBlank c = true) ∧ ∀ c ∈ right, Text.isBlank c = true

theorem cut_of_find? (h : find? k cs = some span) : Cut k.mark span cs := by
  obtain ⟨hfound, -⟩ := found_of_find? h
  cases hfound with
  | marked before after =>
    obtain ⟨right, hright, hafter⟩ := Text.trim_parts after
    refine ⟨[k.mark], after.takeWhile Text.isBlank, right, ?_, .inr rfl, mem_takeWhile_isBlank after, hright⟩
    rw [List.singleton_append, List.cons_append, List.cons_append, ← hafter]
  | unmarked =>
    obtain ⟨right, hright, hcs⟩ := Text.trim_parts cs
    refine ⟨[], [], right, ?_, .inl rfl, by simp, hright⟩
    simpa using hcs

end QuerySpan

theorem Classifier.classify_eq_none_iff {k : Classifier} {cs : List Char} :
    k.classify (String.ofList cs) = none ↔ ∀ c ∈ cs, Text.isBlank c = true := by
  simp [classify, Text.trim_eq_nil_iff]

/-! ### Taking a label -/

/-- Whether an input takes a label, and which: the highlighted one, or one by its place. -/
def Input.takes? : Input → Option (Option Nat)
  | .confirm => some none
  | .advance => some none
  | .accept index => some (some index)
  | _ => none

namespace Popup

/-- The label at a place of the list that is shown, or the highlighted one. -/
def candidate? (p : Popup) (index : Option Nat) : Option String :=
  match p.state with
  | .showing _ candidates active => candidates[index.getD active]?
  | _ => none

/-- Taking a label also takes the text before the query, if there is a query. -/
theorem take?_eq (p : Popup) (pending : String) (index : Option Nat) :
    p.take? pending index = (p.candidate? index).map fun label =>
      (⟨match QuerySpan.find? p.classifier pending.toList with
        | some span => String.ofList (Text.trim span.before)
        | none => "", label⟩, p.hide) := by
  unfold take? candidate?
  cases p.state <;> rfl

variable {p : Popup} {pending label : String} {index : Option Nat}

/-- A label is taken from the list that is shown, so the text has the query that the list answers. -/
theorem Fits.exists_span (h : p.Fits pending) (hlabel : p.candidate? index = some label) :
    ∃ span, QuerySpan.find? p.classifier pending.toList = some span := by
  unfold candidate? at hlabel
  split at hlabel
  · next query candidates active hstate =>
    obtain ⟨span, hspan, -⟩ := h query (by rw [hstate]; rfl)
    exact ⟨span, hspan⟩
  · cases hlabel

theorem Sound.tidy (h : p.Sound) (hlabel : p.candidate? index = some label) :
    Text.isBlankText label = false ∧ Text.trimmed label = label := by
  unfold candidate? at hlabel
  split at hlabel
  · next query candidates active hstate =>
    exact (h.listing query candidates active hstate).tidy label (List.mem_of_getElem? hlabel)
  · cases hlabel

end Popup

namespace Editor

variable {issued : List Ticket} {e : Editor} {index : Option Nat} {label : String}

/-- What accepting a label does to the editor: the text before the query becomes a token if it is not blank, the label
becomes a tag, and nothing stays pending. -/
structure Accepted (e : Editor) (span : QuerySpan) (label : String) (after : Editor) : Prop where
  tokens : ∃ new : List Token, after.tokens = e.tokens ++ new ∧
    new.map (·.data) = (e.popup.classifier.classify (String.ofList span.before)).toList ++ [.tag label]
  pending : after.pending = ""
  popup : after.popup = e.popup.hide

theorem accept_of_no_candidate (h : e.popup.candidate? index = none) : e.accept index = e := by
  rw [accept, Popup.take?_eq, h]
  rfl

theorem accepted_accept {span : QuerySpan} (hlabel : e.popup.candidate? index = some label)
    (hspan : QuerySpan.find? e.popup.classifier e.pending.toList = some span)
    (htidy : Text.isBlankText label = false ∧ Text.trimmed label = label) :
    Accepted e span label (e.accept index) := by
  have hne : label ≠ "" := by
    rintro rfl
    simp [Text.isBlankText] at htidy
  have haccept : e.accept index =
      (({ e with popup := e.popup.hide }.append (e.popup.classifier.classify (String.ofList span.before))).append
        (some (.tag label))).setPending "" := by
    rw [accept, Popup.take?_eq, hlabel, hspan]
    simp only [Option.map_some, htidy.2, if_neg hne]
    rw [Classifier.classify_trim]
    rfl
  rw [haccept]
  refine ⟨?_, rfl, by simp⟩
  rw [tokens, setPending_store, append_store, append_store, ← Store.appendAll_append]
  exact Store.appendAll_tokens e.store _

/-- A confirmation, an advance or an accept that takes a label does just this. -/
theorem react_takes {input : Input} (hinput : input.takes? = some index) (h : e.popup.candidate? index = some label) :
    e.react input = (e.accept index, none) := by
  cases input with
  | confirm | advance =>
    cases hinput
    have hactive : e.popup.activeCandidate? = some label := h
    simp [react, hactive]
  | accept place =>
    cases hinput
    rfl
  | _ => cases hinput

theorem react_takes_none {input : Input} (hinput : input.takes? = some index) (hconfirm : input ≠ .confirm)
    (h : e.popup.candidate? index = none) : e.react input = (e, none) := by
  cases input with
  | confirm => exact absurd rfl hconfirm
  | advance =>
    cases hinput
    have hactive : e.popup.activeCandidate? = none := h
    simp [react, hactive]
  | accept place =>
    cases hinput
    rw [react, accept_of_no_candidate h]
  | _ => cases hinput

/-- An input that takes a label loses nothing of the pending text but the query, the mark and blanks, and the only
token that it adds to it is a tag with a label that is not blank. One that finds no label to take does nothing. -/
theorem Reachable.accept_keeps_text (h : Reachable issued e) :
    (∀ input index label, input.takes? = some index → e.popup.candidate? index = some label →
      Text.isBlankText label = false ∧ Text.trimmed label = label ∧
      ∃ span, QuerySpan.find? e.popup.classifier e.pending.toList = some span ∧
        QuerySpan.Cut e.mark span e.pending.toList ∧ Accepted e span label (e.handle input).1 ∧
        (e.popup.classifier.classify (String.ofList span.before) = none ↔
          ∀ c ∈ span.before, Text.isBlank c = true)) ∧
    ∀ input index, input.takes? = some index → input ≠ .confirm → e.popup.candidate? index = none →
      e.handle input = (e, {}) := by
  constructor
  · intro input index label hinput hlabel
    -- a candidate is shown over a query only, and the query lies in the pending text
    obtain ⟨span, hspan⟩ := h.popupSound.fits.exists_span hlabel
    have htidy := h.sound.tidy hlabel
    obtain ⟨htokens, hpending, hpopup⟩ := accepted_accept hlabel hspan htidy
    have hreact := react_takes hinput hlabel
    have hcut := QuerySpan.cut_of_find? hspan
    refine ⟨htidy.1, htidy.2, span, hspan, hcut, ⟨?_, ?_, ?_⟩, Classifier.classify_eq_none_iff⟩
    · rw [handle_tokens, hreact]
      exact htokens
    · rw [handle_pending, hreact]
      exact hpending
    · rw [handle_popup, hreact]
      exact hpopup
  -- without a label to take, only a confirmation would do something
  · intro input index hinput hconfirm hnone
    have hreact := react_takes_none hinput hconfirm hnone
    rw [handle_of_unchanged (by rw [hreact]), hreact]

/-- The second of two labels is accepted behind the text `net`. -/
theorem Reachable.accept_keeps_text_sales :
    let asked := ((Editor.start {} {}).handle (.setText "net @Sal ")).1
    let e := asked.answered ⟨1, "Sal"⟩ (.ok ["Sales", "Salary"])
    (e.handle (.accept 1)).1.data = [.tag "net", .tag "Salary"] ∧ (e.handle (.accept 1)).1.pending = "" ∧
      e.handle (.accept 2) = (e, {}) := by
  intro asked e
  have he : Reachable _ e :=
    ((Reachable.start {} {} {}).handle (.setText "net @Sal ")).answered ⟨1, "Sal"⟩ (.ok ["Sales", "Salary"])
  obtain ⟨htakes, hnothing⟩ := he.accept_keeps_text
  obtain ⟨-, -, span, hspan, -, ⟨⟨new, htokens, hdata⟩, hpending, -⟩, -⟩ :=
    htakes (.accept 1) (some 1) "Salary" rfl (by decide +kernel)
  have hbefore : QuerySpan.find? e.popup.classifier e.pending.toList = some ⟨"net ".toList, "Sal".toList⟩ := by
    decide +kernel
  obtain rfl : _ = span := Option.some.inj (hbefore.symm.trans hspan)
  have hnone : e.tokens = [] := rfl
  have hnet : e.popup.classifier.classify "net " = some (.tag "net") := rfl
  refine ⟨?_, hpending, hnothing (.accept 2) (some 2) rfl (by simp) (by decide +kernel)⟩
  rw [data, htokens, hnone, List.nil_append, hdata, String.ofList_toList, hnet]
  rfl

end Editor

end FormulaBar
