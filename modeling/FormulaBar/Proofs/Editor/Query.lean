import FormulaBar.Popup
import FormulaBar.Proofs.Token.EditText

/-!
# FormulaBar.Proofs.Editor.Query — the query of a pending text, and the token that the text would become

The popup cuts a pending text at its last mark and trims what follows (`QuerySpan.find?`); the classifier trims the
whole text and takes off a mark in front. `QuerySpan.Found` says where a query comes from, without the search. As long
as no mark stands behind other text, both readings agree: the label that is looked up is the label that is committed
(`query_reads_as_tag`). Of any text, the query is a tidy piece that starts where a character starts.
-/

namespace FormulaBar

namespace QuerySpan

variable {k : Classifier} {mark : Char} {cs before after : List Char} {span : QuerySpan}

/-! ### Where a query comes from -/

theorem splitAtLast_eq_some (h : splitAtLast mark cs = some (before, after)) : cs = before ++ mark :: after := by
  unfold splitAtLast at h
  dsimp only at h
  split at h
  · cases h
  · next first rest hdrop =>
    cases h
    obtain rfl : first = mark := by
      have hhead := List.head?_dropWhile_not (fun c => decide (c ≠ mark)) cs.reverse
      rw [hdrop] at hhead
      simpa using hhead
    calc cs = (cs.reverse.takeWhile (· ≠ first) ++ cs.reverse.dropWhile (· ≠ first)).reverse := by
          rw [List.takeWhile_append_dropWhile, List.reverse_reverse]
      _ = _ := by rw [hdrop]; simp

/-- It is the last mark that cuts the text. -/
theorem splitAtLast_not_mem (h : splitAtLast mark cs = some (before, after)) : mark ∉ after := by
  unfold splitAtLast at h
  dsimp only at h
  split at h
  · cases h
  · cases h
    intro hmem
    have hne := List.mem_takeWhile_imp (List.mem_reverse.1 hmem)
    simp at hne

theorem not_mem_of_splitAtLast (h : splitAtLast mark cs = none) : mark ∉ cs := by
  unfold splitAtLast at h
  dsimp only at h
  split at h
  · next hdrop =>
    intro hmem
    have hne := List.dropWhile_eq_nil_iff.1 hdrop mark (List.mem_reverse.2 hmem)
    simp at hne
  · cases h

theorem mem_takeWhile_isBlank (cs : List Char) : ∀ c ∈ cs.takeWhile Text.isBlank, Text.isBlank c = true :=
  fun _ hc => List.mem_takeWhile_imp hc

/-- A piece of a text, and what stands before it: all behind the last mark, or the whole text if it has no mark. -/
inductive Found (mark : Char) : List Char → QuerySpan → Prop
  | marked (before after : List Char) : mark ∉ after → Found mark (before ++ mark :: after) ⟨before, Text.trim after⟩
  | unmarked (cs : List Char) : mark ∉ cs → Found mark cs ⟨cs.takeWhile Text.isBlank, Text.trim cs⟩

/-- A piece of text that a label is looked up for: it is not empty, no operator and no number. -/
structure Asks (query : List Char) : Prop where
  ne_nil : query ≠ []
  operator : Operator.ofChars? query = none
  number : Number.ofChars? query = none

theorem asks_iff {query : List Char} :
    Asks query ↔ ¬(query = [] || (Operator.ofChars? query).isSome || (Number.ofChars? query).isSome) = true := by
  simp only [Bool.or_eq_true, decide_eq_true_eq, Option.isSome_iff_ne_none]
  grind [Asks]

/-- The query of a text is found where `Found` says, provided that it asks for a label. -/
theorem found_of_find? (h : find? k cs = some span) : Found k.mark cs span ∧ Asks span.query := by
  unfold find? at h
  dsimp only at h
  split at h
  · next before after hsplit =>
    split at h
    · cases h
    · next hasks =>
      cases h
      rw [splitAtLast_eq_some hsplit]
      exact ⟨.marked before after (splitAtLast_not_mem hsplit), asks_iff.2 hasks⟩
  · next hsplit =>
    split at h
    · cases h
    · next hasks =>
      cases h
      exact ⟨.unmarked cs (not_mem_of_splitAtLast hsplit), asks_iff.2 hasks⟩

/-- Without a mark, the text is looked up if it asks for a label as a whole. -/
theorem isSome_find?_iff (h : k.mark ∉ cs) : (find? k cs).isSome = true ↔ Asks (Text.trim cs) := by
  constructor
  · intro hsome
    obtain ⟨span, hspan⟩ := Option.isSome_iff_exists.1 hsome
    obtain ⟨hfound, hasks⟩ := found_of_find? hspan
    cases hfound with
    | marked before after => simp at h
    | unmarked => exact hasks
  · intro hasks
    rw [find?, splitAtLast_eq_none h]
    exact congrArg Option.isSome (if_neg (asks_iff.1 hasks))

/-! ### What a query looks like -/

theorem Found.trim_query (h : Found mark cs span) : Text.trim span.query = span.query := by
  cases h <;> exact Text.trim_trim _

theorem Found.mark_not_mem (h : Found mark cs span) : mark ∉ span.query := by
  have hsub {text : List Char} : Text.trim text ⊆ text := by
    obtain ⟨right, -, htext⟩ := Text.trim_parts text
    intro c hc
    rw [htext]
    simp [hc]
  cases h with
  | marked before after hafter => exact fun hmem => hafter (hsub hmem)
  | unmarked _ hcs => exact fun hmem => hcs (hsub hmem)

/-- From where the query starts the text reads as the query, or as the mark with the query behind it. -/
theorem Found.exists_rest (h : Found mark cs span) (hne : span.query ≠ []) :
    ∃ rest, cs = span.before ++ rest ∧ (Text.trim rest = span.query ∨
      ∃ blanks, (∀ c ∈ blanks, Text.isBlank c = true) ∧ Text.trim rest = mark :: (blanks ++ span.query)) := by
  cases h with
  | marked before after hafter =>
    refine ⟨mark :: after, rfl, ?_⟩
    by_cases hblank : Text.isBlank mark = true
    · have hall : ∀ c ∈ [mark], Text.isBlank c = true := by simpa using hblank
      exact .inl (Text.trim_blank_append hall after)
    · exact .inr ⟨_, mem_takeWhile_isBlank after, Text.trim_cons (by simpa using hblank) hne⟩
  | unmarked _ hcs =>
    refine ⟨cs.dropWhile Text.isBlank, List.takeWhile_append_dropWhile.symm, .inl ?_⟩
    have htrim := Text.trim_blank_append (mem_takeWhile_isBlank cs) (cs.dropWhile Text.isBlank)
    rw [List.takeWhile_append_dropWhile] at htrim
    exact htrim.symm

/-- The query starts where a character starts. -/
theorem isValid_start {s : String} {rest : List Char} (h : s.toList = span.before ++ rest) :
    (⟨span.start⟩ : String.Pos.Raw).IsValid s := by
  refine String.Pos.Raw.isValid_iff_exists_append.2 ⟨String.ofList span.before, String.ofList rest, ?_, ?_⟩
  · rw [← String.ofList_append, ← h, String.ofList_toList]
  · rw [String.Pos.Raw.ext_iff]
    exact (Text.utf8ByteSize_ofList span.before).symm

theorem start_lt {s : String} {rest : List Char} (h : s.toList = span.before ++ rest) (hne : rest ≠ []) :
    span.start < s.utf8ByteSize := by
  obtain ⟨c, rest, rfl⟩ := List.exists_cons_of_ne_nil hne
  have hsize := Text.byteLength_toList s
  rw [h, Text.byteLength_append, Text.byteLength_cons] at hsize
  have hpos := c.utf8Size_pos
  unfold start
  omega

/-! ### The token that the text would become -/

/-- A text would become a tag exactly if it asks for a label as a whole. -/
theorem classify_tag_iff {text : String} :
    (∃ label, k.classify text = some (.tag label)) ↔ Asks (Text.trim text.toList) := by
  simp only [Classifier.classify, Classifier.ofTrimmed]
  constructor
  · rintro ⟨label, h⟩
    grind [Asks]
  · rintro ⟨hne, hop, hnumber⟩
    rw [if_neg hne, hop, hnumber]
    exact ⟨_, rfl⟩

theorem classify_of_not_mem {text : String} (h : k.mark ∉ text.toList) (hasks : Asks (Text.trim text.toList)) :
    k.classify text = some (.tag (String.ofList (Text.trim text.toList))) := by
  have hmark := (Found.unmarked text.toList h).mark_not_mem
  have hlabel : k.labelOf (Text.trim text.toList) = Text.trim text.toList := by
    unfold Classifier.labelOf
    split
    · next hnil => exact hnil.symm
    · next c rest hcons =>
      have hne : c ≠ k.mark := by
        rintro rfl
        exact hmark (by simp [hcons])
      simp [hne]
  simp only [Classifier.classify, Classifier.ofTrimmed, if_neg hasks.ne_nil, hasks.operator, hasks.number, hlabel]

/-- If the text has a mark, that is its first character that is not blank, and it has no other. -/
def MarkedInFront (mark : Char) (cs : List Char) : Prop := mark ∉ (Text.trimStart cs).tail

theorem MarkedInFront.before_blank (h : MarkedInFront mark (before ++ mark :: after)) :
    ∀ c ∈ before, Text.isBlank c = true := by
  refine List.dropWhile_eq_nil_iff.1 ?_
  by_contra hne
  obtain ⟨c, rest, hcons⟩ := List.exists_cons_of_ne_nil hne
  refine h ?_
  rw [Text.trimStart, List.dropWhile_append, hcons]
  simp

/-- The label that is looked up is the label that would be committed. -/
theorem classify_of_find? {text : String} (hmark : Settings.isAmbiguousMark k.mark = false)
    (hfront : MarkedInFront k.mark text.toList) (h : find? k text.toList = some span) :
    k.classify text = some (.tag (String.ofList span.query)) ∧ ∀ c ∈ span.before, Text.isBlank c = true := by
  obtain ⟨hfound, hasks⟩ := found_of_find? h
  generalize htext : text.toList = cs at hfound hfront
  cases hfound with
  | marked before after hafter =>
    have hblank := hfront.before_blank
    refine ⟨?_, hblank⟩
    rw [← String.ofList_toList (s := text), htext, ← Classifier.classify_trim, Text.trim_blank_append hblank,
      Classifier.classify_trim]
    exact Classifier.classify_marked hmark hasks.ne_nil
  | unmarked _ hcs =>
    subst htext
    exact ⟨classify_of_not_mem hcs hasks, mem_takeWhile_isBlank _⟩

/-- A text without the mark has a query exactly if it would become a tag. If no mark stands behind other text, a query
is the label of that tag, and only blanks stand before it. In any text, with any marks, a query starts where some
character starts. It is not empty, has neither a mark in it nor blanks at its ends, and what the text holds from there
is the query, or the mark and the query, with blanks at most between and around them. -/
theorem query_reads_as_tag (pending : String) :
    (∀ s : Settings, s.invalid? = none →
      (s.mark ∉ pending.toList → ((find? ⟨s.mark⟩ pending.toList).isSome = true ↔
        ∃ label, (⟨s.mark⟩ : Classifier).classify pending = some (.tag label))) ∧
      (MarkedInFront s.mark pending.toList → ∀ span, find? ⟨s.mark⟩ pending.toList = some span →
        (⟨s.mark⟩ : Classifier).classify pending = some (.tag (String.ofList span.query)) ∧
          ∀ c ∈ span.before, Text.isBlank c = true)) ∧
    ∀ (k : Classifier) (span : QuerySpan), find? k pending.toList = some span →
      (⟨span.start⟩ : String.Pos.Raw).IsValid pending ∧ span.start < pending.utf8ByteSize ∧
      (span.query ≠ [] ∧ Text.trim span.query = span.query ∧ k.mark ∉ span.query) ∧
      ∃ rest, pending.toList = span.before ++ rest ∧ (Text.trim rest = span.query ∨
        ∃ blanks, (∀ c ∈ blanks, Text.isBlank c = true) ∧ Text.trim rest = k.mark :: (blanks ++ span.query)) := by
  refine ⟨fun s hs => ⟨fun hmark => ?_, fun hfront span hspan => ?_⟩, ?_⟩
  · rw [classify_tag_iff, isSome_find?_iff hmark]
  · exact classify_of_find? (Settings.unambiguous_of_valid hs) hfront hspan
  -- from here on the mark and the text may be any
  · intro k span hspan
    obtain ⟨hfound, hasks⟩ := found_of_find? hspan
    obtain ⟨rest, hrest, hreads⟩ := hfound.exists_rest hasks.ne_nil
    -- a query is not blank, so the text does not end before it
    have hne : rest ≠ [] := by
      rintro rfl
      rcases hreads with hquery | ⟨blanks, -, hmarked⟩
      · exact hasks.ne_nil hquery.symm
      · cases hmarked
    exact ⟨isValid_start hrest, start_lt hrest hne, ⟨hasks.ne_nil, hfound.trim_query, hfound.mark_not_mem⟩, rest, hrest,
      hreads⟩

/-- Behind a blank of two bytes and the mark `§`, the label `Prix é` is looked up, and would be committed. -/
theorem query_reads_as_tag_prix :
    let s : Settings := { mark := '§' }
    let pending := "\u00a0§ Prix é\t"
    ∃ span, find? ⟨s.mark⟩ pending.toList = some span ∧ span.start = 2 ∧
      (⟨s.mark⟩ : Classifier).classify pending = some (.tag "Prix é") ∧ (⟨2⟩ : String.Pos.Raw).IsValid pending := by
  intro s pending
  obtain ⟨hvalid, htidy⟩ := query_reads_as_tag pending
  have hs : s.invalid? = none := by decide
  have hfront : MarkedInFront s.mark pending.toList := by
    rw [MarkedInFront]
    decide +kernel
  have hspan : find? ⟨s.mark⟩ pending.toList = some ⟨['\u00a0'], "Prix é".toList⟩ := by decide +kernel
  have hlabel := ((hvalid s hs).2 hfront _ hspan).1
  have hstart : (⟨['\u00a0'], "Prix é".toList⟩ : QuerySpan).start = 2 := by decide +kernel
  obtain ⟨hboundary, -⟩ := htidy ⟨s.mark⟩ _ hspan
  rw [hstart] at hboundary
  rw [String.ofList_toList] at hlabel
  exact ⟨_, hspan, hstart, hlabel, hboundary⟩

end QuerySpan

end FormulaBar
