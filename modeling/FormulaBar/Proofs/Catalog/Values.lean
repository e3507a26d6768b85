import FormulaBar.Catalog
import FormulaBar.Proofs.Editor.Accept
import FormulaBar.Proofs.Formula.Shown
import FormulaBar.Proofs.Suggestion.Matching
import Mathlib.Data.String.Basic

/-!
# FormulaBar.Proofs.Catalog.Values — the value of a suggestion that is accepted

A suggestion becomes a candidate without the blanks around it, the candidate becomes a tag, and the tag counts as much
as the variable of just that name. So a variable's value is shown for its suggestion if there are no blanks around the
name (`accepted_value`). A name with blanks around it passes all checks, but no suggestion leads to it: what counts is
the variable without the blanks, or zero (`accepted_value_of_padded`).
-/

namespace FormulaBar

/-! ### Values by name -/

namespace Bindings

variable {pairs : List (String × Float)} {label : String} {value : Float}

/-- Pairs with distinct labels are the entries as they stand. -/
theorem entries_ofList (h : (pairs.map (·.1)).Nodup) : (ofList pairs).entries = pairs := by
  induction pairs using List.reverseRecOn with
  | nil => rfl
  | append_singleton pairs p ih =>
    rw [List.map_append, List.nodup_append] at h
    obtain ⟨hpairs, -, hne⟩ := h
    have hkept : pairs.filter (·.1 ≠ p.1) = pairs := by
      refine List.filter_eq_self.2 fun q hq => decide_eq_true ?_
      exact hne q.1 (List.mem_map_of_mem hq) p.1 List.mem_cons_self
    rw [ofList, List.foldl_append]
    show (ofList pairs).entries.filter _ ++ [p] = _
    rw [ih hpairs, hkept]

/-- Each of them gives its label its value. -/
theorem get?_ofList (h : (pairs.map (·.1)).Nodup) :
    (ofList pairs).get? label = some value ↔ (label, value) ∈ pairs := by
  rw [get?_eq_some_iff, entries_ofList h]

end Bindings

namespace Catalog

variable {c : Catalog} {name label : String} {x v : Float} {entries : List (String × Float)}

/-- The values of a catalog that was read are allowed. -/
theorem valid_of_ofText {text : String} (h : ofText text = .ok c) : c.invalid? = none := by
  unfold ofText at h
  split at h
  · split at h
    · split at h
      · dsimp only at h
        split at h
        · cases h
        · next hvalid =>
          cases h
          exact hvalid
      · cases h
    · cases h
  · cases h

theorem nodup_names (c : Catalog) : (c.assignments.map (·.1)).Nodup := by
  rw [List.Nodup, List.pairwise_map]
  exact c.sorted.imp fun hless => ne_of_lt hless

theorem resolve_of_mem (h : (name, x) ∈ c.assignments) : c.bindings.resolve name = x := by
  rw [Bindings.resolve, bindings, (Bindings.get?_ofList c.nodup_names).2 h]
  rfl

theorem resolve_of_not_mem (h : ∀ x, (name, x) ∉ c.assignments) : c.bindings.resolve name = 0 := by
  have hnone : c.bindings.get? name = none := by
    rw [Option.eq_none_iff_forall_ne_some]
    intro x hx
    exact h x ((Bindings.get?_ofList c.nodup_names).1 hx)
  rw [Bindings.resolve, hnone]
  rfl

/-! ### What a valid catalog holds -/

theorem isFinite_of_valid (hvalid : c.invalid? = none) (hmem : (name, x) ∈ c.assignments) :
    Binary64.isFinite x = true := by
  unfold invalid? at hvalid
  split at hvalid
  · cases hvalid
  · next hnone =>
    have hvariable : invalidVariable? name x = none := List.findSome?_eq_none_iff.1 hnone _ hmem
    unfold invalidVariable? at hvariable
    split at hvariable
    · cases hvariable
    · split at hvariable
      · cases hvariable
      · next hfinite => simpa using hfinite

theorem not_blank_of_valid (hvalid : c.invalid? = none) (hlabel : label ∈ c.suggestions) :
    Text.isBlankText label = false := by
  unfold invalid? at hvalid
  split at hvalid
  · cases hvalid
  · split at hvalid
    · cases hvalid
    · next hany => exact Bool.eq_false_iff.2 fun hblank => hany (List.any_eq_true.2 ⟨label, hlabel, hblank⟩)

theorem isFinite_resolve (hvalid : c.invalid? = none) (name : String) :
    Binary64.isFinite (c.bindings.resolve name) = true := by
  by_cases h : ∃ x, (name, x) ∈ c.assignments
  · obtain ⟨x, hmem⟩ := h
    rw [resolve_of_mem hmem]
    exact isFinite_of_valid hvalid hmem
  · rw [resolve_of_not_mem fun x hmem => h ⟨x, hmem⟩]
    decide +kernel

end Catalog

/-! ### The candidates that a catalog gives -/

/-- The candidates of a catalog's answer are its matching suggestions in their places, without the blanks around. -/
theorem Catalog.candidates_lookup {c : Catalog} (hvalid : c.invalid? = none) (p : Popup) (query : String) {i : Nat}
    {label : String} (hlabel : (Suggestion.matching c.suggestions query)[i]? = some label)
    (hshown : ∀ most ∈ p.maxCandidates, i < most) :
    (p.candidates (c.lookup query))[i]? = some (Text.trimmed label) := by
  -- in a valid catalog no suggestion is blank, so none is left out
  have hkept : ((Suggestion.matching c.suggestions query).map Text.trimmed).filter (· ≠ "") =
      (Suggestion.matching c.suggestions query).map Text.trimmed := by
    refine List.filter_eq_self.2 fun trimmed htrimmed => ?_
    obtain ⟨raw, hraw, rfl⟩ := List.mem_map.1 htrimmed
    have hmem : raw ∈ c.suggestions := (Suggestion.matching_sublist c.suggestions query).subset hraw
    rw [decide_eq_true_eq, Ne, Text.trimmed_eq_empty_iff, not_blank_of_valid hvalid hmem]
    exact Bool.false_ne_true
  have hplace : ((Suggestion.matching c.suggestions query).map Text.trimmed)[i]? = some (Text.trimmed label) := by
    rw [List.getElem?_map, hlabel]
    rfl
  rw [lookup, Popup.candidates_ok, hkept]
  have hlt : i < p.maxCandidates.getD (Suggestion.matching c.suggestions query).length := by
    cases hmax : p.maxCandidates with
    | none => exact (List.getElem?_eq_some_iff.1 hlabel).1
    | some most => exact hshown most hmax
  rw [List.getElem?_take_of_lt hlt]
  exact hplace

/-! ### The tag of a candidate -/

namespace Formula

/-- A row of one tag shows the value of its label. -/
theorem result_tag {b : Bindings} {label : String} (h : Binary64.isFinite (b.resolve label) = true) (id : TokenId) :
    result [⟨id, .tag label⟩] b = Number.text (b.resolve label) := by
  rw [← result_number h id b]
  rfl

end Formula

namespace Editor

variable {issued : List Ticket} {e : Editor} {input : Input} {index : Option Nat} {name : String}

/-- Nothing but blanks stands before the query. -/
def OnlyQuery (e : Editor) : Prop := ∀ span, QuerySpan.find? e.popup.classifier e.pending.toList = some span →
  ∀ ch ∈ span.before, Text.isBlank ch = true

theorem onlyQuery_of_find? {span : QuerySpan}
    (h : QuerySpan.find? e.popup.classifier e.pending.toList = some span)
    (hblank : ∀ ch ∈ span.before, Text.isBlank ch = true) : e.OnlyQuery := by
  intro span' hspan'
  rw [h, Option.some.injEq] at hspan'
  rwa [← hspan']

/-- In an editor without tokens, a candidate that is accepted with only blanks before the query is alone in the row. -/
theorem Reachable.accepted_alone (h : Reachable issued e) (hempty : e.tokens = []) (hbefore : e.OnlyQuery)
    (hinput : input.takes? = some index) (hname : e.popup.candidate? index = some name) :
    ∃ id, (e.handle input).1.tokens = [⟨id, .tag name⟩] := by
  obtain ⟨span, hspan⟩ := h.popupSound.fits.exists_span hname
  have haccepted := accepted_accept hname hspan (h.sound.tidy hname)
  obtain ⟨new, htokens, hdata⟩ := haccepted.tokens
  rw [Classifier.classify_eq_none_iff.2 (hbefore span hspan)] at hdata
  obtain ⟨⟨id, data⟩, rfl, rfl⟩ := List.map_eq_singleton_iff.1 hdata
  refine ⟨id, ?_⟩
  rw [handle_tokens, react_takes hinput hname, htokens, hempty, List.nil_append]

/-- The value of the label is then shown. -/
theorem Reachable.accepted_result (h : Reachable issued e) (hempty : e.tokens = []) (hbefore : e.OnlyQuery)
    (hinput : input.takes? = some index) (hname : e.popup.candidate? index = some name)
    (hfinite : Binary64.isFinite (e.bindings.resolve name) = true) :
    (e.handle input).1.result = Number.text (e.bindings.resolve name) := by
  obtain ⟨id, hrow⟩ := h.accepted_alone hempty hbefore hinput hname
  rw [handle_upToDate h.upToDate input, hrow, handle_bindings, Formula.result_tag hfinite]

/-- A text that is looked up in a fresh editor puts nothing into the row. -/
theorem answered_setText (b : Bindings) (text : String) (t : Ticket) (answer : Lookup) :
    (((start b {}).handle (.setText text)).1.answered t answer).tokens = [] ∧
      (((start b {}).handle (.setText text)).1.answered t answer).bindings = b := by
  rw [answered_eq]
  refine ⟨?_, handle_bindings _ _⟩
  show (handle _ _).1.tokens = []
  rw [handle_tokens, react]
  split <;> rfl

end Editor

namespace Catalog

/-- With a valid catalog, a candidate that is accepted in an editor without tokens, with only blanks before the query,
shows the value of the variable of that name. So the value of a variable is shown for its own suggestion if there are no
blanks around the name; otherwise the variable without the blanks counts, or zero if there is none. The candidates are
the matching suggestions without the blanks around them, as many as are shown. -/
theorem accepted_value {c : Catalog} (hvalid : c.invalid? = none) :
    (∀ issued e, Editor.Reachable issued e → e.tokens = [] → e.bindings = c.bindings → e.OnlyQuery →
      ∀ input index label v, input.takes? = some index → (label, v) ∈ c.assignments →
        e.popup.candidate? index = some (Text.trimmed label) →
        (Text.trimmed label = label → (e.handle input).1.result = Number.text v) ∧
        (∀ x, (Text.trimmed label, x) ∈ c.assignments → (e.handle input).1.result = Number.text x) ∧
        ((∀ x, (Text.trimmed label, x) ∉ c.assignments) → (e.handle input).1.result = "0")) ∧
    ∀ (e : Editor) t, e.popup.state = .querying t.query t.generation →
      ∀ i label, (Suggestion.matching c.suggestions t.query)[i]? = some label →
        (∀ most ∈ e.popup.maxCandidates, i < most) →
        (e.answered t (c.lookup t.query)).popup.candidate? (some i) = some (Text.trimmed label) := by
  refine ⟨fun issued e h hempty hbindings hbefore input index label v hinput hmem hname => ?_, ?_⟩
  · have hfinite := isFinite_resolve hvalid (Text.trimmed label)
    rw [← hbindings] at hfinite
    have hresult := h.accepted_result hempty hbefore hinput hname hfinite
    rw [hbindings] at hresult
    -- whatever value the catalog assigns to the trimmed label is shown
    have hvalue {x : Float} (hx : (Text.trimmed label, x) ∈ c.assignments) :
        (e.handle input).1.result = Number.text x := by rw [hresult, resolve_of_mem hx]
    refine ⟨fun htrimmed => hvalue (by rwa [htrimmed]), fun x => hvalue, fun hnone => ?_⟩
    have hzero : Number.text 0 = "0" := by decide +kernel
    rw [hresult, resolve_of_not_mem hnone, hzero]
  · intro e t hwaits i label hlabel hshown
    have hresolve : e.popup.resolve? t (c.lookup t.query) = some _ := Popup.resolve?_eq_some.2 ⟨hwaits, rfl⟩
    rw [Editor.answered_eq, hresolve]
    exact candidates_lookup hvalid e.popup t.query hlabel hshown

/-- Of the two candidates for `sal` in the catalog that is used without a file, the first is accepted. -/
theorem accepted_value_sales :
    let asked := ((Editor.start demo.bindings {}).handle (.setText " @sal")).1
    let e := asked.answered ⟨1, "sal"⟩ (demo.lookup "sal")
    e.popup.candidate? (some 0) = some "Sales" ∧ (e.handle (.accept 0)).1.result = Number.text 1000 := by
  intro asked e
  have hvalid : demo.invalid? = none := by decide +kernel
  have he := ((Editor.Reachable.start demo.bindings {} {}).handle (.setText " @sal")).answered ⟨1, "sal"⟩
    (demo.lookup "sal")
  obtain ⟨htokens, hbindings⟩ := Editor.answered_setText demo.bindings " @sal" ⟨1, "sal"⟩ (demo.lookup "sal")
  obtain ⟨hvalue, hcandidates⟩ := accepted_value hvalid
  have hmax : asked.popup.maxCandidates = none := by decide +kernel
  have hfirst : e.popup.candidate? (some 0) = some "Sales" :=
    hcandidates asked ⟨1, "sal"⟩ (by decide +kernel) 0 "Sales" (by decide +kernel) (by simp [hmax])
  have hspan : QuerySpan.find? e.popup.classifier e.pending.toList = some ⟨[' '], ['s', 'a', 'l']⟩ := by decide +kernel
  have hbefore : e.OnlyQuery := Editor.onlyQuery_of_find? hspan (by simp [Text.isBlank])
  have hsales := hvalue _ e he htokens hbindings hbefore (.accept 0) (some 0) "Sales" 1000 rfl (by simp [demo]) hfirst
  exact ⟨hfirst, hsales.1 (by decide)⟩

/-- A catalog whose only suggestion and variable have blanks around the name. -/
def padded : Catalog := { suggestions := [" Sales "], assignments := [(" Sales ", 1000)] }

/-- It is valid and suggests the variable, which has the value 1000, but accepting the suggestion shows zero. -/
theorem accepted_value_of_padded :
    let asked := ((Editor.start padded.bindings {}).handle (.setText "Sal")).1
    let e := asked.answered ⟨1, "Sal"⟩ (padded.lookup "Sal")
    padded.invalid? = none ∧ padded.lookup "Sal" = .ok [" Sales "] ∧ e.tokens = [] ∧ e.OnlyQuery ∧
      e.popup.candidate? (some 0) = some (Text.trimmed " Sales ") ∧ (e.handle (.accept 0)).1.result = "0" ∧
      Number.text 1000 = "1000" := by
  intro asked e
  have he := ((Editor.Reachable.start padded.bindings {} {}).handle (.setText "Sal")).answered ⟨1, "Sal"⟩
    (padded.lookup "Sal")
  obtain ⟨htokens, hbindings⟩ := Editor.answered_setText padded.bindings "Sal" ⟨1, "Sal"⟩ (padded.lookup "Sal")
  have hname : e.popup.candidate? (some 0) = some "Sales" := by decide +kernel
  -- the query begins the pending text, so nothing before it is committed
  have hspan : QuerySpan.find? e.popup.classifier e.pending.toList = some ⟨[], ['S', 'a', 'l']⟩ := by decide +kernel
  have hbefore : e.OnlyQuery := Editor.onlyQuery_of_find? hspan (by simp)
  have hzero : e.bindings.resolve "Sales" = 0 := by
    rw [hbindings]
    exact resolve_of_not_mem (by simp [padded])
  have hresult := he.accepted_result htokens hbefore (show (Input.accept 0).takes? = some (some 0) from rfl) hname
    (by rw [hzero]; decide +kernel)
  refine ⟨by decide +kernel, by decide +kernel, htokens, hbefore, hname, ?_, by decide +kernel⟩
  rw [hresult, hzero]
  decide +kernel

end Catalog

end FormulaBar
