import FormulaBar.Proofs.Text.Case
import FormulaBar.Proofs.Text.Trim
import FormulaBar.Suggestion

/-!
# FormulaBar.Proofs.Suggestion.Matching — what a lookup in a fixed list finds

A label is found if its lower case contains the lower case of the query. A label that contains the query letter by
letter is found as well, as long as the lower case of the query is the same inside the label as by itself. That is so
for every label exactly if the query is settled (`matching_literal`), and then a longer query finds nothing that the
query does not find. A query that ends in a capital sigma behind a letter is not settled: it does not find the labels
that go on with a letter (`matching_misses_sigma`).
-/

namespace FormulaBar.Suggestion

variable {query longer : String} {labels : List String}

/-- The label contains the query letter by letter, blanks around the query aside. -/
def Holds (query label : String) : Prop := Text.trim query.toList <:+: label.toList

instance (query label : String) : Decidable (Holds query label) := inferInstanceAs (Decidable (_ <:+: _))

/-- The lower case of the label contains that of the query. -/
def Finds (query label : String) : Prop := Text.lower (Text.trim query.toList) <:+: Text.lower label.toList

instance (query label : String) : Decidable (Finds query label) := inferInstanceAs (Decidable (_ <:+: _))

theorem trim_ne_nil (h : Text.isBlankText query = false) : Text.trim query.toList ≠ [] := by
  rw [Ne, Text.trim_eq_nil_iff, ← List.all_eq_true, ← Text.isBlankText, h]
  exact Bool.false_ne_true

theorem matching_sublist (labels : List String) (query : String) : (matching labels query).Sublist labels := by
  unfold matching
  dsimp only
  split
  · exact List.nil_sublist labels
  · exact List.filter_sublist

/-- A query that is not blank is in none that is. -/
theorem not_blank_of_longer (h : Text.isBlankText query = false)
    (hlonger : Text.trim query.toList <:+: Text.trim longer.toList) : Text.isBlankText longer = false := by
  by_contra hblank
  rw [Bool.not_eq_false, Text.isBlankText, List.all_eq_true, ← Text.trim_eq_nil_iff] at hblank
  rw [hblank, List.infix_nil] at hlonger
  exact trim_ne_nil h hlonger

/-- A query that is not blank keeps the labels that it finds, in their order. -/
theorem matching_eq (h : Text.isBlankText query = false) (labels : List String) :
    matching labels query = labels.filter fun label => Finds query label := by
  rw [matching, if_neg (mt Text.lower_eq_nil_iff.1 (trim_ne_nil h))]
  refine List.filter_congr fun label _ => ?_
  rw [Bool.eq_iff_iff, Text.contains_iff, decide_eq_true_eq]
  rfl

theorem finds_of_holds (h : Text.settled (Text.trim query.toList) = true) {label : String}
    (hlabel : Holds query label) : Finds query label := Text.lower_infix_of_settled h hlabel

/-- A query that is not settled misses a label that holds it, one without blanks around it. -/
theorem exists_missed (hblank : Text.isBlankText query = false)
    (h : Text.settled (Text.trim query.toList) = false) :
    ∃ label : String, Text.trim label.toList = label.toList ∧ Holds query label ∧ ¬Finds query label := by
  have hhead := Text.head?_trim query.toList
  have hlast := Text.getLast?_trim query.toList
  have ha : Text.isBlank 'a' = false := by decide
  -- behind or before the query a letter decides how its sigma is lowered
  rcases Text.not_infix_of_unsettled h with hmissed | hmissed
  · refine ⟨String.ofList (Text.trim query.toList ++ ['a']), ?_, ?_, ?_⟩
    · rw [String.toList_ofList]
      refine Text.trim_of_ends ?_ (by simp [ha])
      rwa [List.head?_append_of_ne_nil _ (trim_ne_nil hblank)]
    · rw [Holds, String.toList_ofList]
      exact (List.prefix_append _ _).isInfix
    · rwa [Finds, String.toList_ofList]
  · refine ⟨String.ofList ('a' :: Text.trim query.toList), ?_, ?_, ?_⟩
    · rw [String.toList_ofList]
      refine Text.trim_of_ends (by simp [ha]) ?_
      rwa [← List.singleton_append, List.getLast?_append_of_ne_nil _ (trim_ne_nil hblank)]
    · rw [Holds, String.toList_ofList]
      exact (List.suffix_cons _ _).isInfix
    · rwa [Finds, String.toList_ofList]

/-- Of the labels of a list that hold the query letter by letter a lookup finds all, in order and each as often, exactly
if the query is settled. Exactly then, too, a query that holds it finds nothing more. -/
theorem matching_literal (h : Text.isBlankText query = false) :
    ((∀ labels, (matching labels query).filter (Holds query) = labels.filter (Holds query)) ↔
      Text.settled (Text.trim query.toList) = true) ∧
    ((∀ labels longer, Text.trim query.toList <:+: Text.trim longer.toList →
        (matching labels longer).Sublist (matching labels query)) ↔
      Text.settled (Text.trim query.toList) = true) := by
  refine ⟨⟨fun hall => ?_, fun hsettled labels => ?_⟩, ⟨fun hall => ?_, fun hsettled labels longer hlonger => ?_⟩⟩
  -- one label, which the query misses, is enough
  · by_contra hunsettled
    obtain ⟨label, -, hholds, hmissed⟩ := exists_missed h (Bool.eq_false_iff.2 hunsettled)
    have hlabel := hall [label]
    rw [matching_eq h] at hlabel
    simp [hholds, hmissed] at hlabel
  · rw [matching_eq h, List.filter_filter]
    refine List.filter_congr fun label _ => ?_
    by_cases hholds : Holds query label
    · simp [hholds, finds_of_holds hsettled hholds]
    · simp [hholds]
  -- a label that is missed is found by itself
  · by_contra hunsettled
    obtain ⟨label, htrim, hholds, hmissed⟩ := exists_missed h (Bool.eq_false_iff.2 hunsettled)
    have hlabel : Text.isBlankText label = false := not_blank_of_longer h (by rwa [htrim])
    have hsublist := hall [label] label (by rwa [htrim])
    have hself : Finds label label := by
      rw [Finds, htrim]
    rw [matching_eq h, matching_eq hlabel] at hsublist
    simp [hself, hmissed] at hsublist
  · rw [matching_eq h, matching_eq (not_blank_of_longer h hlonger)]
    refine List.monotone_filter_right labels fun label hfinds => ?_
    rw [decide_eq_true_eq] at hfinds ⊢
    exact (Text.lower_infix_of_settled hsettled hlonger).trans hfinds

/-- Between blanks, a query of which the sigma stands in front of a blank, in a list with a label twice. -/
theorem matching_literal_two_words :
    let query := " ΑΣ Α\t"
    Text.isBlankText query = false ∧ Text.settled (Text.trim query.toList) = true ∧
      (matching ["ΑΣ ΑΒ", "ας β", "ΒΑΣ Α", "ΑΣ ΑΒ"] query).filter (Holds query) = ["ΑΣ ΑΒ", "ΒΑΣ Α", "ΑΣ ΑΒ"] := by
  intro query
  have hblank : Text.isBlankText query = false := by decide
  have hsettled : Text.settled (Text.trim query.toList) = true := by decide +kernel
  refine ⟨hblank, hsettled, ?_⟩
  rw [(matching_literal hblank).1.2 hsettled]
  decide +kernel

/-- The label `ΑΣΑ` holds the query `ΑΣ`, whose lower case is `ας`, but its own lower case is `ασα`: the query does not
find it. The longer query `ΑΣΑ` does. -/
theorem matching_misses_sigma :
    Text.isBlankText "ΑΣ" = false ∧ Holds "ΑΣ" "ΑΣΑ" ∧ matching ["ΑΣΑ"] "ΑΣ" = [] ∧
      matching ["ΑΣΑ"] "ΑΣΑ" = ["ΑΣΑ"] := by
  refine ⟨by decide, ⟨[], ['Α'], rfl⟩, ?_, ?_⟩ <;> decide +kernel

end FormulaBar.Suggestion
