import FormulaBar.Proofs.Editor.Changes

/-!
# FormulaBar.Proofs.Editor.Pasting — a text typed key by key, and the same text pasted

A key that is neither an operator nor a control character puts its character behind the pending text, and the popup
looks at the whole. Pasting puts all characters there at once. While a text is typed the popup may close and open again,
but what it is about depends only on the text that it looked at last (`Popup.observe_follows`). So both ways end with
the same pending text and the same query (`typing_eq_pasting`), and neither touches a token.
-/

namespace FormulaBar

namespace Popup

variable {p p' : Popup} {pending : String}

/-- An answer adds the candidates, and the query stays. -/
theorem resolve?_follows {t : Ticket} {answer : Lookup} (h : p.Follows pending)
    (hresolve : p.resolve? t answer = some p') : p'.Follows pending := by
  obtain ⟨hstate, rfl⟩ := resolve?_eq_some.1 hresolve
  rw [Follows, hstate] at h
  exact h

theorem view_visible (p : Popup) : p.view.visible = p.state.query?.isSome := by
  unfold view
  cases p.state <;> rfl

theorem view_query (p : Popup) : p.view.query = p.state.query?.getD "" := by
  unfold view
  cases p.state <;> rfl

/-- Two popups with one mark that follow one text look alike, but for the candidates. -/
theorem Follows.view_eq (h : p.Follows pending) (h' : p'.Follows pending) (hmark : p.classifier = p'.classifier) :
    p.view.visible = p'.view.visible ∧ p.view.query = p'.view.query := by
  have hquery : p.state.query? = p'.state.query? := by rw [h, h', hmark]
  rw [view_visible, view_visible, view_query, view_query, hquery]
  exact ⟨rfl, rfl⟩

end Popup

namespace Editor

variable {e e' e'' : Editor} {c : Char} {cs : List Char} {text : String}

/-! ### What one input does -/

/-- The character joins the pending text when it is typed: it is no operator, parenthesis or control character. -/
def Joins (c : Char) : Prop := Operator.ofChar? c = none ∧ Text.isControl c = false

theorem handle_char_of_joins (e : Editor) (hc : Joins c) : e.handle (.char c) =
    ((e.setPending (e.pending.push c)).observe.1, { ticket := (e.setPending (e.pending.push c)).observe.2 }) := by
  have hreact : e.react (.char c) = (e.setPending (e.pending.push c)).observe := by
    simp [react, typeChar, hc.1, hc.2]
  rw [handle_of_unchanged (by rw [hreact]; rfl), hreact]

theorem tokensChanged_setText (e : Editor) (text : String) : (e.handle (.setText text)).2.tokensChanged = false := by
  have hstore : (e.react (.setText text)).1.store = e.store := by
    rw [react]
    split <;> rfl
  rw [handle_of_unchanged (by rw [hstore])]

theorem handle_setText (hne : text ≠ e.pending) : e.handle (.setText text) =
    ((e.setPending text).observe.1, { ticket := (e.setPending text).observe.2 }) := by
  have hreact : e.react (.setText text) = (e.setPending text).observe := by simp [react, hne]
  rw [handle_of_unchanged (by rw [hreact]; rfl), hreact]

/-! ### What a text does -/

/-- From `e` to `e'` some characters came behind the pending text. If there were any, the popup is about the whole. -/
structure Extends (e : Editor) (cs : List Char) (e' : Editor) : Prop where
  pending : e'.pending = e.pending ++ String.ofList cs
  store : e'.store = e.store
  result : e'.result = e.result
  follows : cs ≠ [] → e'.popup.Follows e'.pending

theorem Extends.refl (e : Editor) : Extends e [] e := ⟨by simp, rfl, rfl, by simp⟩

theorem Extends.answered (h : Extends e cs e') (t : Ticket) (answer : Lookup) :
    Extends e cs (e'.answered t answer) := by
  rw [answered_eq]
  refine ⟨h.pending, h.store, h.result, fun hne => ?_⟩
  cases hresolve : e'.popup.resolve? t answer with
  | none => exact h.follows hne
  | some popup => exact Popup.resolve?_follows (h.follows hne) hresolve

/-- One more key: the popup looks at the text again, whatever it was about until then. -/
theorem Extends.typed (h : Extends e cs e') (hc : Joins c) : Extends e (cs ++ [c]) (e'.handle (.char c)).1 := by
  have hpending : e'.pending.push c = e.pending ++ String.ofList (cs ++ [c]) := by
    rw [h.pending, ← String.toList_inj]
    simp
  rw [handle_char_of_joins e' hc]
  exact ⟨hpending, h.store, h.result, fun _ => Popup.observe_follows _ _⟩

/-- All characters at once. -/
theorem Extends.pasted (h : Extends e [] e') (hne : cs ≠ []) :
    Extends e cs (e'.handle (.setText (e.pending ++ String.ofList cs))).1 := by
  have hsame : e'.pending = e.pending := by simpa using h.pending
  have hlonger : e.pending ++ String.ofList cs ≠ e'.pending := by
    rw [hsame, ne_eq, ← String.toList_inj]
    simpa using hne
  rw [handle_setText hlonger]
  exact ⟨rfl, h.store, h.result, fun _ => Popup.observe_follows _ _⟩

theorem Run.extends_of_typing (h : Run e (cs.map .char) e') (hcs : ∀ c ∈ cs, Joins c) : Extends e cs e' := by
  generalize hinputs : cs.map Input.char = inputs at h
  induction h generalizing cs with
  | start =>
    rw [List.map_eq_nil_iff.1 hinputs]
    exact .refl e
  | input _ i ih =>
    obtain ⟨before, last, rfl, hbefore, hlast⟩ := List.map_eq_append_iff.1 hinputs
    obtain ⟨c, rfl, rfl⟩ := List.map_eq_singleton_iff.1 hlast
    obtain ⟨hold, hnew⟩ := List.forall_mem_append.1 hcs
    exact (ih hold hbefore).typed (hnew c (List.mem_singleton_self c))
  | answer _ t answer ih => exact (ih hcs hinputs).answered t answer

/-- Answers alone leave it at that. -/
theorem Extends.answers (h : Extends e cs e') (hrun : Run e' [] e'') : Extends e cs e'' := by
  generalize hinputs : ([] : List Input) = inputs at hrun
  induction hrun with
  | start => exact h
  | input _ i _ => simp at hinputs
  | answer _ t answer ih => exact (ih hinputs).answered t answer

theorem Run.extends_of_pasting (h : Run e [.setText (e.pending ++ String.ofList cs)] e') (hne : cs ≠ []) :
    Extends e cs e' := by
  have hrun : Run e ([] ++ [.setText (e.pending ++ String.ofList cs)]) e' := h
  obtain ⟨before, hbefore, hafter⟩ := hrun.of_concat
  have hpasted := ((Extends.refl e).answers hbefore).pasted hne
  exact hpasted.answers hafter

/-! ### Both ways agree -/

/-- Some characters that join the pending text are typed one by one, or pasted behind it at once, with any answers to
lookups before, between and after the inputs. Either way they stand behind the pending text and no token changes, and
the popup is open in both cases or in none, with the same query. -/
theorem typing_eq_pasting (e : Editor) (w : String) (hne : w ≠ "") (hw : ∀ c ∈ w.toList, Joins c)
    (typed pasted : Editor) (htyped : Run e (w.toList.map .char) typed)
    (hpasted : Run e [.setText (e.pending ++ w)] pasted) :
    (typed.pending = e.pending ++ w ∧ pasted.pending = e.pending ++ w) ∧
    (typed.store = e.store ∧ pasted.store = e.store) ∧ (typed.result = e.result ∧ pasted.result = e.result) ∧
    (typed.popup.view.visible = pasted.popup.view.visible ∧ typed.popup.view.query = pasted.popup.view.query) ∧
    ∀ mid : Editor, (∀ c ∈ w.toList, (mid.handle (.char c)).2.tokensChanged = false) ∧
      ∀ text, (mid.handle (.setText text)).2.tokensChanged = false := by
  have hlist : w.toList ≠ [] := by simpa using hne
  have ht : Extends e w.toList typed := htyped.extends_of_typing hw
  have hp : Extends e w.toList pasted := by
    refine Run.extends_of_pasting ?_ hlist
    rwa [String.ofList_toList]
  -- both ways end in one text with a popup that follows it; the answers may differ, but not what is asked
  obtain ⟨htext, htstore, htresult, htfollows⟩ := ht
  obtain ⟨hptext, hpstore, hpresult, hpfollows⟩ := hp
  have hlook : pasted.popup.Follows typed.pending := by
    rw [htext, ← hptext]
    exact hpfollows hlist
  have hmark : typed.popup.classifier = pasted.popup.classifier := by rw [htyped.classifier, hpasted.classifier]
  rw [String.ofList_toList] at htext hptext
  have hview := (htfollows hlist).view_eq hlook hmark
  refine ⟨⟨htext, hptext⟩, ⟨htstore, hpstore⟩, ⟨htresult, hpresult⟩, hview, ?_⟩
  -- no key and no paste on the way touches the row
  intro mid
  refine ⟨fun c hc => ?_, tokensChanged_setText mid⟩
  rw [handle_char_of_joins mid (hw c hc)]

/-- While `a @b` is typed, the query `a` is looked up and answered, vanishes at the mark, and `b` takes its place. -/
theorem typing_eq_pasting_behind_mark : ∃ typed pasted : Editor,
    Run (start {} {}) ("a @b".toList.map .char) typed ∧ Run (start {} {}) [.setText "a @b"] pasted ∧
      typed.popup.view.visible = true ∧ typed.popup.view.query = "b" ∧ pasted.popup.view.visible = true ∧
      pasted.popup.view.query = "b" := by
  have htyped := (((((Run.start (e := start {} {})).input (.char 'a')).answer ⟨1, "a"⟩ (.ok ["abc"])).input
    (.char ' ')).input (.char '@')).input (.char 'b')
  have hpasted := (Run.start (e := start {} {})).input (.setText "a @b")
  obtain ⟨-, -, -, ⟨hvisible, hquery⟩, -⟩ := typing_eq_pasting (start {} {}) "a @b" (by decide)
    (by simp [Joins, Operator.ofChar?, Text.isControl]) _ _ htyped hpasted
  have hshown : ((start {} {}).handle (.setText "a @b")).1.popup.view =
      { visible := true, query := "b", loading := true } := by decide +kernel
  refine ⟨_, _, htyped, hpasted, ?_, ?_, ?_, ?_⟩
  · rw [hvisible, hshown]
  · rw [hquery, hshown]
  · rw [hshown]
  · rw [hshown]

end Editor

end FormulaBar
