/-!
# FormulaBar.Bindings — the values of variables

Labels are compared as they are, case and all. A label that has no value counts as zero in a formula.
-/

namespace FormulaBar

/-- Labels with their values, each label once. -/
structure Bindings where
  entries : List (String × Float) := []
  distinct : (entries.map (·.1)).Nodup := by decide

namespace Bindings

/-- The value of a label. -/
def get? (b : Bindings) (label : String) : Option Float :=
  (b.entries.find? (·.1 = label)).map (·.2)

theorem nodup_insert {entries : List (String × Float)} (h : (entries.map (·.1)).Nodup) (label : String)
    (value : Float) : ((entries.filter (·.1 ≠ label) ++ [(label, value)]).map (·.1)).Nodup := by
  have hkept : ((entries.filter (·.1 ≠ label)).map (·.1)).Nodup := h.sublist (List.filter_sublist.map _)
  rw [List.map_append, List.nodup_append]
  refine ⟨hkept, List.pairwise_singleton _ _, ?_⟩
  intro other hother new hnew hsame
  obtain ⟨p, hp, rfl⟩ := List.mem_map.1 hother
  have hne : p.1 ≠ label := of_decide_eq_true (List.mem_filter.1 hp).2
  exact hne (hsame.trans (List.mem_singleton.1 hnew))

/-- Gives a label a value in place of the one it had. -/
def insert (b : Bindings) (label : String) (value : Float) : Bindings where
  entries := b.entries.filter (·.1 ≠ label) ++ [(label, value)]
  distinct := nodup_insert b.distinct label value

/-- The bindings of a list of pairs; a later pair wins. -/
def ofList (pairs : List (String × Float)) : Bindings :=
  pairs.foldl (fun b (label, value) => b.insert label value) {}

/-- Number of labels with a value. -/
def size (b : Bindings) : Nat := b.entries.length

/-- The labels with a value. -/
def labels (b : Bindings) : List String := b.entries.map (·.1)

/-- The value that a tag stands for in a formula. -/
def resolve (b : Bindings) (label : String) : Float := (b.get? label).getD 0

/-! ### What a label has -/

/-- A label has one value: that of its entry. -/
theorem get?_eq_some_iff {b : Bindings} {label : String} {value : Float} :
    b.get? label = some value ↔ (label, value) ∈ b.entries := by
  constructor
  · intro h
    obtain ⟨p, hp, rfl⟩ := Option.map_eq_some_iff.1 h
    have hlabel : p.1 = label := by simpa using List.find?_some hp
    rw [← hlabel]
    exact List.mem_of_find?_eq_some hp
  · intro hmem
    obtain ⟨before, after, hentries⟩ := List.append_of_mem hmem
    have hdistinct := b.distinct
    rw [hentries, List.map_append, List.nodup_append] at hdistinct
    -- no entry before this one has the label
    have hbefore : before.find? (·.1 = label) = none := by
      rw [List.find?_eq_none]
      intro p hp hlabel
      exact hdistinct.2.2 p.1 (List.mem_map_of_mem hp) label List.mem_cons_self (of_decide_eq_true hlabel)
    simp [get?, hentries, List.find?_append, hbefore]

/-! ### What an insertion changes -/

@[simp] theorem get?_insert_self (b : Bindings) (label : String) (value : Float) :
    (b.insert label value).get? label = some value := by
  rw [get?_eq_some_iff]
  exact List.mem_append_right _ List.mem_cons_self

theorem get?_insert_of_ne (b : Bindings) {label other : String} (h : other ≠ label) (value : Float) :
    (b.insert label value).get? other = b.get? other := by
  ext x
  rw [get?_eq_some_iff, get?_eq_some_iff]
  simp [insert, h]

end Bindings

end FormulaBar
