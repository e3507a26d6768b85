import FormulaBar.Text.Blank
import Mathlib.Data.List.Basic
import Mathlib.Data.List.TakeWhile

/-!
# FormulaBar.Proofs.Text.Trim — taking blanks off both ends

Trimming leaves nothing of a blank text, and leaves a text that starts and ends with other characters as it is, whatever
blanks stand around it (`trim_between`). So blanks around any text do not count (`trim_padded`).
-/

namespace FormulaBar.Text

theorem trim_eq_nil_iff {cs : List Char} : trim cs = [] ↔ ∀ c ∈ cs, isBlank c = true := by
  rw [trim, trimEnd, List.reverse_eq_nil_iff, List.dropWhile_eq_nil_iff, trimStart]
  simp only [List.mem_reverse]
  constructor
  · intro h
    refine List.dropWhile_eq_nil_iff.1 ?_
    by_contra hne
    have hfirst := List.head_dropWhile_not isBlank hne
    rw [h _ (List.head_mem hne)] at hfirst
    cases hfirst
  · intro h c hc
    exact h c ((List.dropWhile_sublist _).subset hc)

theorem trimStart_blank_append {before : List Char} (h : ∀ c ∈ before, isBlank c = true) (cs : List Char) :
    trimStart (before ++ cs) = trimStart cs := List.dropWhile_append_of_pos h

theorem trim_blank_append {before : List Char} (h : ∀ c ∈ before, isBlank c = true) (cs : List Char) :
    trim (before ++ cs) = trim cs := by
  rw [trim, trimStart_blank_append h, ← trim]

theorem trimEnd_append_blank {after : List Char} (h : ∀ c ∈ after, isBlank c = true) (cs : List Char) :
    trimEnd (cs ++ after) = trimEnd cs := by
  have hreverse : ∀ c ∈ after.reverse, isBlank c = true := fun c hc => h c (List.mem_reverse.1 hc)
  rw [trimEnd, List.reverse_append, List.dropWhile_append_of_pos hreverse]
  rfl

theorem trimStart_of_head {cs : List Char} (h : ∀ c ∈ cs.head?, isBlank c = false) : trimStart cs = cs := by
  cases cs with
  | nil => rfl
  | cons c cs => exact List.dropWhile_cons_of_neg (by simp [h c rfl])

theorem trimEnd_of_getLast {cs : List Char} (h : ∀ c ∈ cs.getLast?, isBlank c = false) : trimEnd cs = cs := by
  have hstart : trimStart cs.reverse = cs.reverse := trimStart_of_head (by simpa using h)
  rw [trimEnd, ← trimStart, hstart, List.reverse_reverse]

theorem trim_of_ends {cs : List Char} (hhead : ∀ c ∈ cs.head?, isBlank c = false)
    (hlast : ∀ c ∈ cs.getLast?, isBlank c = false) : trim cs = cs := by
  rw [trim, trimStart_of_head hhead, trimEnd_of_getLast hlast]

theorem trim_of_not_blank {cs : List Char} (h : ∀ c ∈ cs, isBlank c = false) : trim cs = cs :=
  trim_of_ends (fun c hc => h c (List.mem_of_mem_head? hc)) fun c hc => h c (List.mem_of_getLast? hc)

/-- Blanks around a text go, and the text stays. -/
theorem trim_between {before cs after : List Char} (hbefore : ∀ c ∈ before, isBlank c = true)
    (hafter : ∀ c ∈ after, isBlank c = true) (hne : cs ≠ []) (hhead : ∀ c ∈ cs.head?, isBlank c = false)
    (hlast : ∀ c ∈ cs.getLast?, isBlank c = false) : trim (before ++ cs ++ after) = cs := by
  have hstart : trimStart (cs ++ after) = cs ++ after := by
    obtain ⟨c, rest, rfl⟩ := List.exists_cons_of_ne_nil hne
    exact trimStart_of_head hhead
  rw [trim, List.append_assoc, trimStart_blank_append hbefore, hstart, trimEnd_append_blank hafter,
    trimEnd_of_getLast hlast]

theorem head?_trimStart (cs : List Char) : ∀ c ∈ (trimStart cs).head?, isBlank c = false := by
  intro c hc
  have hne : trimStart cs ≠ [] := by
    intro hnil
    simp [hnil] at hc
  rw [List.head?_eq_some_head hne] at hc
  cases hc
  exact List.head_dropWhile_not isBlank hne

theorem getLast?_trimEnd (cs : List Char) : ∀ c ∈ (trimEnd cs).getLast?, isBlank c = false := by
  rw [trimEnd, List.getLast?_reverse]
  exact head?_trimStart cs.reverse

theorem trimEnd_prefix (cs : List Char) : trimEnd cs <+: cs := by
  rw [trimEnd, ← List.reverse_suffix, List.reverse_reverse]
  exact List.dropWhile_suffix isBlank

/-- What trimming takes off a text is blank: the blanks it starts with, and more at its end. -/
theorem trim_parts (cs : List Char) :
    ∃ after, (∀ c ∈ after, isBlank c = true) ∧ cs = cs.takeWhile isBlank ++ trim cs ++ after := by
  have hblank : ∀ c ∈ ((trimStart cs).reverse.takeWhile isBlank).reverse, isBlank c = true := by
    intro c hc
    exact List.mem_takeWhile_imp (List.mem_reverse.1 hc)
  have hend : trimStart cs = trim cs ++ ((trimStart cs).reverse.takeWhile isBlank).reverse := by
    rw [trim, trimEnd, ← List.reverse_append, List.takeWhile_append_dropWhile, List.reverse_reverse]
  refine ⟨_, hblank, ?_⟩
  rw [List.append_assoc, ← hend]
  exact List.takeWhile_append_dropWhile.symm

theorem head?_trim (cs : List Char) : ∀ c ∈ (trim cs).head?, isBlank c = false := by
  intro c hc
  refine head?_trimStart cs c ?_
  obtain ⟨after, hafter⟩ := trimEnd_prefix (trimStart cs)
  rw [← hafter, List.head?_append, show (trimEnd (trimStart cs)).head? = some c from hc]
  rfl

theorem getLast?_trim (cs : List Char) : ∀ c ∈ (trim cs).getLast?, isBlank c = false := getLast?_trimEnd _

@[simp] theorem trim_trim (cs : List Char) : trim (trim cs) = trim cs :=
  trim_of_ends (head?_trim cs) (getLast?_trim cs)

theorem trim_padded {before after : List Char} (hbefore : ∀ c ∈ before, isBlank c = true)
    (hafter : ∀ c ∈ after, isBlank c = true) (cs : List Char) : trim (before ++ cs ++ after) = trim cs := by
  by_cases hnil : trim cs = []
  · rw [hnil, trim_eq_nil_iff]
    rw [trim_eq_nil_iff] at hnil
    simp only [List.forall_mem_append]
    exact ⟨⟨hbefore, hnil⟩, hafter⟩
  · obtain ⟨more, hmore, hparts⟩ := trim_parts cs
    have hstart : ∀ c ∈ before ++ cs.takeWhile isBlank, isBlank c = true :=
      List.forall_mem_append.2 ⟨hbefore, fun c hc => List.mem_takeWhile_imp hc⟩
    have hend : ∀ c ∈ more ++ after, isBlank c = true := List.forall_mem_append.2 ⟨hmore, hafter⟩
    calc trim (before ++ cs ++ after)
        = trim (before ++ (cs.takeWhile isBlank ++ trim cs ++ more) ++ after) := by rw [← hparts]
      _ = trim ((before ++ cs.takeWhile isBlank) ++ trim cs ++ (more ++ after)) := by simp only [List.append_assoc]
      _ = trim cs := trim_between hstart hend hnil (head?_trim cs) (getLast?_trim cs)

/-- A character that is not blank stays in front of a text, and so do the blanks behind it. -/
theorem trim_cons {c : Char} {cs : List Char} (hc : isBlank c = false) (hne : trim cs ≠ []) :
    trim (c :: cs) = c :: (cs.takeWhile isBlank ++ trim cs) := by
  obtain ⟨after, hafter, hparts⟩ := trim_parts cs
  have hlast : ∀ last ∈ (c :: (cs.takeWhile isBlank ++ trim cs)).getLast?, isBlank last = false := by
    rw [← List.cons_append, List.getLast?_append_of_ne_nil _ hne]
    exact getLast?_trim cs
  have hnone : ∀ c ∈ ([] : List Char), isBlank c = true := by simp
  have htrim := trim_between hnone hafter (List.cons_ne_nil c _) (by simp [hc]) hlast
  rwa [List.nil_append, List.cons_append, ← hparts] at htrim

theorem trimmed_eq_empty_iff {s : String} : trimmed s = "" ↔ isBlankText s = true := by
  rw [trimmed, String.ofList_eq_empty_iff, trim_eq_nil_iff, isBlankText, List.all_eq_true]

theorem isBlankText_trim {cs : List Char} (h : trim cs ≠ []) : isBlankText (String.ofList (trim cs)) = false := by
  have hblank : ¬∀ c ∈ trim cs, isBlank c = true := by rwa [← trim_eq_nil_iff, trim_trim]
  simpa [isBlankText] using hblank

end FormulaBar.Text
