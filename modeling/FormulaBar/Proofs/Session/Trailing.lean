import FormulaBar.Proofs.Editor.Undo
import FormulaBar.Proofs.Session.Export

/-!
# FormulaBar.Proofs.Session.Trailing — what is left pending is committed as typed

A replay may start on an editor with an open popup, and what that popup waits for never comes back. Until a key sends
the first lookup out nothing is in flight, and from then on every answer is that of its query (`Unsent.sound`). So on
any editor the keys alone decide what a replay ends with, one step for each press (`struck`, `Leads.plays`). The presses
at the end close the popup before they commit, whatever comes back in between, so the pending text becomes a token as it
was typed (`run_commits_as_typed`).
-/

namespace FormulaBar

namespace Editor

variable {e e' : Editor} {inputs : List Input}

/-- With a hidden popup a confirmation appends what the pending text stands for. -/
theorem handle_confirm_tokens (hidden : e.popup.state = .hidden) :
    ∃ new, (e.handle .confirm).1.tokens = e.tokens ++ new ∧
      new.map (·.data) = (e.popup.classifier.classify e.pending).toList := by
  have hactive : e.popup.activeCandidate? = none := by simp [Popup.activeCandidate?, hidden]
  have hreact : e.react .confirm = (e.commit, none) := by simp [react, hactive]
  rw [handle_tokens, hreact, tokens, commit_store]
  exact Store.appendAll_tokens e.store _

/-- Settling is an answer that may come in a run. -/
theorem Run.settled (h : Run e inputs e') (lookup : String → Lookup) : Run e inputs (e'.settled lookup) := by
  rcases settled_eq_answered lookup e' with hsame | ⟨t, hanswered⟩
  · rwa [hsame]
  · rw [hanswered]
    exact h.answer t _

end Editor

namespace Replay

open Session Editor

variable {lookup : String → Lookup} {s s' : Session} {e e' : Editor} {p : Press} {presses : List Press} {t : Ticket}

/-! ### The first lookup -/

/-- No lookup was sent out. -/
structure Unsent (s : Session) : Prop where
  outstanding : s.outstanding = []
  inFlight : s.inFlight = 0

theorem Unsent.not_passes (h : Unsent s) : ¬Passes lookup s s' := by
  obtain ⟨hwaiting, hasking, hreplies⟩ := outstanding_eq_nil_iff.1 h.outstanding
  intro hpass
  cases hpass with
  | wake ht => simp [hwaiting] at ht
  | answer ht => simp [hasking] at ht
  | receive hreceive => simp [receive?_eq_none.2 hreplies] at hreceive

/-- A popup that asks forgets what it was about. -/
theorem step_of_hide {popup popup' : Popup} (h : Popup.Step popup (some t) popup') :
    Popup.Step popup.hide (some t) popup' := by
  cases h
  exact .asks _

/-- The first lookup begins a history, as if the popup had been hidden before it. -/
theorem Unsent.sound (h : Unsent s) {input : Input} (hticket : (s.editor.handle input).2.ticket = some t) :
    Sound lookup (s.respond input).1 := by
  have hstep := handle_step s.editor input
  rw [hticket] at hstep
  -- an open popup would not fit the empty record, and the popup that asks does not depend on it
  let closed : Session := { s with editor := { s.editor with popup := s.editor.popup.hide } }
  have hstart : Consistent closed.editor.popup.generation {} closed :=
    consistent_of_none_outstanding rfl h.outstanding h.inFlight
  have hsent := consistent_respond_of_some hstart (e := (s.editor.handle input).1) (step_of_hide hstep)
  rw [respond_of_some hticket]
  exact ⟨_, _, hsent, by simp⟩

/-! ### Only the keys matter, on any editor -/

/-- What a press does when a lookup that it sends out is answered at once, and nothing else is. -/
def struck (lookup : String → Lookup) (e : Editor) (p : Press) : Editor :=
  match (e.handle p.input).2.ticket with
  | some _ => (e.handle p.input).1.settled lookup
  | none => (e.handle p.input).1

theorem not_querying_of_step {popup popup' : Popup} (h : Popup.Step popup none popup')
    (hpopup : ∀ query n, popup.state ≠ .querying query n) : ∀ query n, popup'.state ≠ .querying query n := by
  cases h with
  | stays => exact hpopup
  | hides => simp
  | highlights => simp

/-- If the editor waits for nothing before the press, every answer is there at once. -/
theorem struck_eq_pressed (h : ∀ query n, e.popup.state ≠ .querying query n) (p : Press) :
    struck lookup e p = pressed lookup e p := by
  have hstep := handle_step e p.input
  unfold struck pressed
  split
  · rfl
  · next hticket =>
    rw [hticket] at hstep
    exact (settled_of_not_querying lookup (not_querying_of_step hstep h)).symm

/-- Whatever comes back, the editor of the session becomes `e`. -/
def Leads (lookup : String → Lookup) (s : Session) (e : Editor) : Prop :=
  Unsent s ∧ s.editor = e ∨ Sound lookup s ∧ s.editor.settled lookup = e

theorem Leads.pending (h : Leads lookup s e) : s.editor.pending = e.pending := by
  rcases h with ⟨-, rfl⟩ | ⟨-, rfl⟩ <;> rfl

theorem Leads.eq_of_idle (h : Leads lookup s e) (hidle : s.inFlight = 0) : s.editor = e := by
  rcases h with ⟨-, rfl⟩ | ⟨hsound, rfl⟩
  · rfl
  · exact (hsound.settled_of_idle hidle).symm

theorem Leads.passes (h : Leads lookup s e) (hpass : Passes lookup s s') : Leads lookup s' e := by
  rcases h with ⟨hunsent, -⟩ | ⟨hsound, rfl⟩
  · exact absurd hpass hunsent.not_passes
  · exact .inr ⟨hsound.passes hpass, settled_passes hsound hpass⟩

theorem Leads.respond (h : Leads lookup s e) (hp : Ready p ∨ e.popup.state = .hidden)
    (hidle : p.waits = true → s.inFlight = 0) : Leads lookup (s.respond p.input).1 (struck lookup e p) := by
  rcases h with ⟨hunsent, rfl⟩ | ⟨hsound, rfl⟩
  · cases hticket : (s.editor.handle p.input).2.ticket with
    | none =>
      refine .inl ⟨?_, ?_⟩
      · rw [respond_of_none hticket]
        exact ⟨hunsent.outstanding, hunsent.inFlight⟩
      · rw [respond_editor, struck, hticket]
    | some t =>
      refine .inr ⟨hunsent.sound hticket, ?_⟩
      rw [respond_editor, struck, hticket]
  · refine .inr ⟨hsound.respond p.input, ?_⟩
    rw [respond_settled hsound hp hidle]
    exact (struck_eq_pressed (Popup.settled_not_querying lookup s.editor.popup) p).symm

/-- Every press is ready, or it finds the popup hidden. -/
def Punctual (lookup : String → Lookup) : Editor → List Press → Prop
  | _, [] => True
  | e, p :: presses => (Ready p ∨ e.popup.state = .hidden) ∧ Punctual lookup (struck lookup e p) presses

theorem punctual_keys (keys : List Key) (e : Editor) : Punctual lookup e (keys.map Key.press) := by
  induction keys generalizing e with
  | nil => trivial
  | cons k keys ih => exact ⟨.inl (ready_key k), ih _⟩

/-- Whatever the schedule, the presses alone decide what the session leads to. -/
theorem Leads.plays (h : Leads lookup s e) (hplays : Plays lookup s presses s')
    (hpunctual : Punctual lookup e presses) : Leads lookup s' (presses.foldl (struck lookup) e) := by
  induction hplays generalizing e with
  | done _ => exact h
  | passes hpass _ ih => exact ih (h.passes hpass) hpunctual
  | press p hidle _ ih =>
    obtain ⟨hp, hrest⟩ := hpunctual
    exact ih (h.respond hp hidle) hrest

/-! ### The presses at the end -/

theorem struck_cancel (e : Editor) (waits : Bool) :
    struck lookup e ⟨.cancel, waits⟩ = { e with popup := e.popup.hide } := by
  rw [struck, handle_ticket]
  exact handle_cancel e

theorem struck_confirm (e : Editor) (waits : Bool) : struck lookup e ⟨.confirm, waits⟩ = (e.handle .confirm).1 := by
  rw [struck, handle_ticket]
  rfl

theorem punctual_closing (keepPending : Bool) (e : Editor) : Punctual lookup e (closing keepPending e) := by
  unfold closing
  split
  · trivial
  · refine ⟨.inl (.inr rfl), .inr ?_, trivial⟩
    rw [struck_cancel]
    rfl

/-- The editor at the end of a replay. -/
def ended (lookup : String → Lookup) (keepPending : Bool) (e : Editor) (keys : List Key) : Editor :=
  let played := (keys.map Key.press).foldl (struck lookup) e
  (closing keepPending played).foldl (struck lookup) played

theorem report_eq_ended {debounce : Nat} {keepPending : Bool} {keys : List Key} {report : Report}
    (h : Reports lookup debounce keepPending e keys report) :
    report = Report.ofEditor (ended lookup keepPending e keys) := by
  obtain ⟨hkeys, hclosing, hsettled, hidle⟩ := h
  rename_i played closed settled
  have hstart : Leads lookup { editor := e, debounce } e := .inl ⟨⟨rfl, rfl⟩, rfl⟩
  have hplayed := hstart.plays hkeys (punctual_keys keys e)
  rw [closing, hplayed.pending, ← closing] at hclosing
  have hclosed := hplayed.plays hclosing (punctual_closing keepPending _)
  have hend := hclosed.plays hsettled trivial
  exact congrArg Report.ofEditor (hend.eq_of_idle hidle)

theorem run_eq_ended (lookup : String → Lookup) (keepPending : Bool) (e : Editor) (keys : List Key) (debounce : Nat) :
    run lookup keepPending e keys debounce = Report.ofEditor (ended lookup keepPending e keys) :=
  report_eq_ended (reports_run lookup e keepPending keys debounce)

/-- On any editor every schedule ends with the report of `run`, and there is such a schedule for every delay. -/
theorem reports_iff_eq_run (debounce : Nat) (keepPending : Bool) (keys : List Key) (report : Report) :
    Reports lookup debounce keepPending e keys report ↔ report = run lookup keepPending e keys := by
  rw [run_eq_ended]
  constructor
  · exact report_eq_ended
  · rintro rfl
    rw [← run_eq_ended lookup keepPending e keys debounce]
    exact reports_run lookup e keepPending keys debounce

/-! ### What is committed -/

theorem run_struck {inputs : List Input} (h : Run e inputs e') (p : Press) :
    Run e (inputs ++ [p.input]) (struck lookup e' p) := by
  have hhandled := h.input p.input
  unfold struck
  split
  · exact hhandled.settled lookup
  · exact hhandled

theorem run_presses {inputs : List Input} (h : Run e inputs e') (presses : List Press) :
    ∃ inputs', Run e inputs' (presses.foldl (struck lookup) e') := by
  induction presses generalizing inputs e' with
  | nil => exact ⟨inputs, h⟩
  | cons p presses ih => exact ih (run_struck h p)

theorem run_ended (lookup : String → Lookup) (keepPending : Bool) (e : Editor) (keys : List Key) :
    ∃ inputs, Run e inputs (ended lookup keepPending e keys) := by
  obtain ⟨inputs, hkeys⟩ : ∃ inputs, Run e inputs ((keys.map Key.press).foldl (struck lookup) e) :=
    run_presses .start _
  exact run_presses hkeys _

/-- The presses at the end add the token of the pending text, and leave a blank text alone. -/
theorem closing_commits (hfits : e.PopupFits) {e' : Editor} (h : (closing false e).foldl (struck lookup) e = e') :
    (∃ new, e'.tokens = e.tokens ++ new ∧ new.map (·.data) = (e.popup.classifier.classify e.pending).toList) ∧
      e'.popup.state = .hidden ∧ e'.pending = if Text.isBlankText e.pending then e.pending else "" := by
  by_cases hblank : Text.isBlankText e.pending = true
  · have hall : ∀ c ∈ e.pending.toList, Text.isBlank c = true := List.all_eq_true.1 hblank
    have hnone : e.popup.classifier.classify e.pending = none := by
      rw [← String.ofList_toList (s := e.pending)]
      exact Classifier.classify_eq_none_iff.2 hall
    rw [closing, if_pos (by simp [hblank])] at h
    subst h
    exact ⟨⟨[], by simp [hnone]⟩, hfits.hidden (QuerySpan.find?_of_blank hall), by simp [hblank]⟩
  · rw [closing, if_neg (by simp [hblank]), List.foldl_cons, List.foldl_cons, List.foldl_nil, struck_cancel,
      struck_confirm] at h
    subst h
    have hidden : ({ e with popup := e.popup.hide } : Editor).popup.state = .hidden := rfl
    obtain ⟨-, hpending, hhidden⟩ := handle_confirm_of_hidden hidden
    exact ⟨handle_confirm_tokens hidden, hhidden, by rw [hpending, if_neg hblank]⟩

/-- A script is replayed from any editor that can come up, with its trailing text kept and with it committed. Each way
there is one report, whatever the schedule and the delay of the lookups. The committed tokens are the kept ones and what
the kept text stands for as typed, whatever was suggested; their result is shown; and nothing is suggested or left
pending, but for a text of blanks. -/
theorem run_commits_as_typed {issued : List Ticket} (he : Reachable issued e) (lookup : String → Lookup)
    (keys : List Key) :
    let kept := run lookup true e keys
    let committed := run lookup false e keys
    (∀ debounce report, (Reports lookup debounce true e keys report ↔ report = kept) ∧
      (Reports lookup debounce false e keys report ↔ report = committed)) ∧
    (∃ new, committed.tokens = kept.tokens ++ new ∧
      new.map (·.data) = (e.popup.classifier.classify kept.pending).toList) ∧
    committed.result = Formula.result committed.tokens e.bindings ∧ committed.candidates = [] ∧
    committed.pending = if Text.isBlankText kept.pending then kept.pending else "" := by
  intro kept committed
  -- both runs strike the same keys; the closing ones of the second commit what the first keeps
  obtain ⟨typed, hkept⟩ := run_ended lookup true e keys
  obtain ⟨entered, hcommitted⟩ := run_ended lookup false e keys
  have hclosing : (closing false (ended lookup true e keys)).foldl (struck lookup) (ended lookup true e keys) =
      ended lookup false e keys := rfl
  obtain ⟨htokens, hhidden, hpending⟩ := closing_commits (hkept.fits he.popupSound.fits) hclosing
  have hresult := hcommitted.upToDate he.upToDate
  rw [UpToDate, hcommitted.bindings] at hresult
  rw [hkept.classifier] at htokens
  -- the reports are those of the editors at the end, on any schedule
  have hkeptReport : kept = Report.ofEditor (ended lookup true e keys) := run_eq_ended lookup true e keys 0
  have hcommittedReport : committed = Report.ofEditor (ended lookup false e keys) := run_eq_ended lookup false e keys 0
  refine ⟨fun debounce report => ⟨reports_iff_eq_run .., reports_iff_eq_run ..⟩, ?_⟩
  rw [hkeptReport, hcommittedReport]
  refine ⟨htokens, hresult, ?_, hpending⟩
  simp [Report.ofEditor, Popup.view, hhidden]

/-- The popup of the editor already waits for labels for `Re`. The label `Revenue` is suggested for `Rev`, and not
taken. -/
theorem run_commits_as_typed_rev :
    let e := ((Editor.start {} {}).handle (.setText "Re")).1
    let lookup : String → Lookup := fun _ => .ok ["Revenue"]
    let kept := run lookup true e [.char 'v']
    let committed := run lookup false e [.char 'v']
    kept.pending = "Rev" ∧ kept.candidates = ["Revenue"] ∧
      committed.tokens.map (·.data) = [.tag "Rev"] ∧ committed.pending = "" ∧ committed.candidates = [] := by
  intro e lookup kept committed
  have he : Reachable _ e := (Reachable.start {} {} {}).handle (.setText "Re")
  obtain ⟨-, ⟨new, htokens, hdata⟩, -, hcandidates, hpending⟩ := run_commits_as_typed he lookup [.char 'v']
  have hkept : kept = Report.ofEditor (ended lookup true e [.char 'v']) := run_eq_ended lookup true e [.char 'v'] 0
  have hrev : kept.pending = "Rev" := by
    rw [hkept]
    decide +kernel
  have hnone : kept.tokens = [] := by
    rw [hkept]
    decide +kernel
  have hclassify : e.popup.classifier.classify "Rev" = some (.tag "Rev") := rfl
  refine ⟨hrev, ?_, ?_, ?_, hcandidates⟩
  · rw [hkept]
    decide +kernel
  · change committed.tokens = kept.tokens ++ new at htokens
    change new.map (·.data) = (e.popup.classifier.classify kept.pending).toList at hdata
    rw [htokens, hnone, List.nil_append, hdata, hrev, hclassify]
    rfl
  · change committed.pending = if Text.isBlankText kept.pending then kept.pending else "" at hpending
    rw [hpending, hrev]
    rfl

end Replay

end FormulaBar
