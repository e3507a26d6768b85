import FormulaBar.Replay
import FormulaBar.Proofs.Editor.Settled
import FormulaBar.Proofs.Session.History

/-!
# FormulaBar.Proofs.Session.Timing — a replay does not depend on timing

`Reports` plays a script with delays that pass, answers and receptions at any time in between; only the keys that read
the candidates wait until nothing is in flight. Whatever the schedule, the settled editor is that of the keys alone
(`plays_settled`), so there is one report, and it is the one that `run` gives.
-/

namespace FormulaBar

/-! ### Schedules -/

/-- An input, and whether it waits until no lookup is in flight. -/
structure Press where
  input : Input
  waits : Bool

/-- The press of a key. -/
def Key.press (k : Key) : Press := ⟨k.input, k.readsCandidates⟩

namespace Replay

open Session

/-- Something happens while no key is pressed: a delay is over, a lookup is answered, or a reply is received. -/
inductive Passes (lookup : String → Lookup) : Session → Session → Prop
  | wake {s t} (ht : t ∈ s.waiting) : Passes lookup s (s.wake t)
  | answer {s t} (ht : t ∈ s.asking) : Passes lookup s (s.answer t (lookup t.query))
  | receive {s s' accepted} (h : s.receive? = some (s', accepted)) : Passes lookup s s'

/-- The presses are made in order, and anything happens before, between and after them. -/
inductive Plays (lookup : String → Lookup) : Session → List Press → Session → Prop
  | done (s : Session) : Plays lookup s [] s
  | passes {s s' s'' presses} (h : Passes lookup s s') (hrest : Plays lookup s' presses s'') :
      Plays lookup s presses s''
  | press {s s'' presses} (p : Press) (hidle : p.waits = true → s.inFlight = 0)
      (hrest : Plays lookup (s.respond p.input).1 presses s'') : Plays lookup s (p :: presses) s''

/-- The presses that commit what is pending at the end, unless it is to be kept. -/
def closing (keepPending : Bool) (e : Editor) : List Press :=
  if keepPending || Text.isBlankText e.pending then [] else [⟨.cancel, false⟩, ⟨.confirm, false⟩]

/-- Some schedule of the lookups ends with this report. -/
inductive Reports (lookup : String → Lookup) (debounce : Nat) (keepPending : Bool) (e : Editor) (keys : List Key) :
    Report → Prop
  | intro {played closed settled} (hkeys : Plays lookup { editor := e, debounce } (keys.map Key.press) played)
      (hclosing : Plays lookup played (closing keepPending played.editor) closed)
      (hsettled : Plays lookup closed [] settled) (hidle : settled.inFlight = 0) :
      Reports lookup debounce keepPending e keys (Report.ofEditor settled.editor)

variable {lookup : String → Lookup} {s s' s'' : Session} {p : Press} {presses more : List Press}

theorem Plays.trans (h : Plays lookup s presses s') (h' : Plays lookup s' more s'') :
    Plays lookup s (presses ++ more) s'' := by
  induction h with
  | done _ => exact h'
  | passes hpass _ ih => exact .passes hpass (ih h')
  | press p hidle _ ih => exact .press p hidle (ih h')

/-! ### Answers that depend on the query alone -/

/-- The session has a history in which every answer is that of the query. -/
def Sound (lookup : String → Lookup) (s : Session) : Prop :=
  ∃ before r, Consistent before r s ∧ ∀ t answer, (t, answer) ∈ r.given → answer = lookup t.query

theorem sound_start {e : Editor} (hidden : e.popup.state = .hidden) (debounce : Nat) :
    Sound lookup { editor := e, debounce } := ⟨_, _, consistent_start hidden debounce, by simp⟩

theorem Sound.respond (h : Sound lookup s) (input : Input) : Sound lookup (s.respond input).1 := by
  obtain ⟨before, r, hr, hgiven⟩ := h
  exact ⟨before, _, consistent_respond hr input, hgiven⟩

theorem Sound.passes (h : Sound lookup s) (hpass : Passes lookup s s') : Sound lookup s' := by
  obtain ⟨before, r, hr, hgiven⟩ := h
  cases hpass with
  | wake ht => exact ⟨before, r, consistent_wake hr ht, hgiven⟩
  | @answer t ht =>
    refine ⟨before, _, consistent_answer hr ht (lookup t.query), ?_⟩
    intro u a hmem
    rcases List.mem_append.1 hmem with hold | hnew
    · exact hgiven u a hold
    · cases List.mem_singleton.1 hnew
      rfl
  | receive hreceive =>
    obtain ⟨reply, rest, hreplies, happly⟩ := receive?_eq_some.1 hreceive
    have hnext := consistent_receive hr hreplies
    rw [happly] at hnext
    exact ⟨before, _, hnext, hgiven⟩

theorem Sound.plays (h : Sound lookup s) (hplays : Plays lookup s presses s') : Sound lookup s' := by
  induction hplays with
  | done _ => exact h
  | passes hpass _ ih => exact ih (h.passes hpass)
  | press p _ _ ih => exact ih (h.respond p.input)

theorem Sound.settled_of_idle (h : Sound lookup s) (hidle : s.inFlight = 0) : s.editor.settled lookup = s.editor := by
  obtain ⟨before, r, hr, -⟩ := h
  exact Editor.settled_of_not_querying lookup (not_querying_of_idle hr hidle)

/-! ### Only the keys matter -/

/-- A reply gives the editor nothing but the answer that it waits for. -/
theorem settled_passes (h : Sound lookup s) (hpass : Passes lookup s s') :
    s'.editor.settled lookup = s.editor.settled lookup := by
  cases hpass with
  | wake ht => rw [wake_editor]
  | answer ht => rfl
  -- only a reply can change the editor
  | receive hreceive =>
    obtain ⟨before, r, hr, hgiven⟩ := h
    obtain ⟨reply, rest, hreplies, happly⟩ := receive?_eq_some.1 hreceive
    rw [apply_eq] at happly
    obtain ⟨rfl, -⟩ := Prod.mk.inj happly
    cases htaken : reply.takenBy? s.editor with
    | none => rfl
    | some e =>
      obtain ⟨ticket, answer⟩ := reply
      obtain ⟨a, hanswer, hstate, rfl⟩ := takenBy?_eq_some.1 htaken
      cases hanswer
      -- the answer is the one that `lookup` gives, as all answers are
      have ha : a = lookup ticket.query := hgiven ticket a (hr.given ticket a (by simp [hreplies]))
      subst ha
      simp only [Option.getD_some, Editor.settled, Popup.settled_of_querying lookup hstate]
      rfl

/-- What a press does when every answer is there at once. -/
def pressed (lookup : String → Lookup) (e : Editor) (p : Press) : Editor := (e.handle p.input).1.settled lookup

/-- The press waits for the candidates, or it ignores them. -/
def Ready (p : Press) : Prop := p.waits = true ∨ p.input.ignoresCandidates = true

/-- Every press is ready, or it finds the popup hidden. -/
def Timely (lookup : String → Lookup) : Editor → List Press → Prop
  | _, [] => True
  | e, p :: presses => (Ready p ∨ e.popup.state = .hidden) ∧ Timely lookup (pressed lookup e p) presses

theorem ready_key (k : Key) : Ready k.press := by
  cases k with
  | char | backspace | escape => exact .inr rfl
  | enter | tab | up | down => exact .inl rfl

theorem timely_keys (keys : List Key) (e : Editor) : Timely lookup e (keys.map Key.press) := by
  induction keys generalizing e with
  | nil => trivial
  | cons k keys ih => exact ⟨.inl (ready_key k), ih _⟩

theorem timely_closing (keepPending : Bool) (e : Editor) : Timely lookup e (closing keepPending e) := by
  unfold closing
  split
  · trivial
  · have hidden : (pressed lookup e ⟨.cancel, false⟩).popup.state = .hidden := by
      simp [pressed, Editor.settled, Editor.react, Popup.settled]
    exact ⟨.inl (.inr rfl), .inr hidden, trivial⟩

theorem respond_settled (h : Sound lookup s) (hp : Ready p ∨ (s.editor.settled lookup).popup.state = .hidden)
    (hidle : p.waits = true → s.inFlight = 0) :
    (s.respond p.input).1.editor.settled lookup = pressed lookup (s.editor.settled lookup) p := by
  rw [respond_editor, pressed]
  rcases hp with (hwaits | hignores) | hidden
  · rw [h.settled_of_idle (hidle hwaits)]
  · exact (Editor.settled_handle lookup hignores s.editor).symm
  · rw [Editor.settled_of_hidden lookup (Popup.state_of_settled_hidden lookup hidden)]

/-- Whatever the schedule, the settled editor is that of the presses alone. -/
theorem plays_settled (hplays : Plays lookup s presses s') (h : Sound lookup s)
    (htimely : Timely lookup (s.editor.settled lookup) presses) :
    s'.editor.settled lookup = presses.foldl (pressed lookup) (s.editor.settled lookup) := by
  induction hplays with
  | done _ => rfl
  | passes hpass _ ih =>
    have hsame := settled_passes h hpass
    rw [← hsame] at htimely ⊢
    exact ih (h.passes hpass) htimely
  | press p hidle _ ih =>
    obtain ⟨hp, hrest⟩ := htimely
    have hstep := respond_settled h hp hidle
    rw [← hstep] at hrest
    rw [List.foldl_cons, ← hstep]
    exact ih (h.respond p.input) hrest

/-- The editor after keys and closing presses, when every answer is there at once. -/
def keysOnly (lookup : String → Lookup) (keepPending : Bool) (e : Editor) (keys : List Key) : Editor :=
  let played := (keys.map Key.press).foldl (pressed lookup) (e.settled lookup)
  (closing keepPending played).foldl (pressed lookup) played

theorem report_eq {debounce : Nat} {keepPending : Bool} {e : Editor} {keys : List Key} {report : Report}
    (hidden : e.popup.state = .hidden) (h : Reports lookup debounce keepPending e keys report) :
    report = Report.ofEditor (keysOnly lookup keepPending e keys) := by
  obtain ⟨hkeys, hclosing, hsettled, hidle⟩ := h
  rename_i played closed settled
  have hstart : Sound lookup { editor := e, debounce } := sound_start hidden debounce
  have hplayed := hstart.plays hkeys
  have hclosed := hplayed.plays hclosing
  have hkeysEditor := plays_settled hkeys hstart (timely_keys keys _)
  have hsame : closing keepPending played.editor = closing keepPending (played.editor.settled lookup) := rfl
  rw [hsame] at hclosing
  have hclosingEditor := plays_settled hclosing hplayed (timely_closing keepPending _)
  have hsettledEditor := plays_settled hsettled hclosed trivial
  rw [(hclosed.plays hsettled).settled_of_idle hidle, List.foldl_nil, hclosingEditor, hkeysEditor] at hsettledEditor
  rw [hsettledEditor]
  rfl

/-! ### The schedule of `run` -/

/-- The number in flight counts the tickets. -/
def Counted (s : Session) : Prop := s.inFlight = s.outstanding.length

theorem Counted.respond (h : Counted s) (input : Input) : Counted (s.respond input).1 := by
  cases hticket : (s.editor.handle input).2.ticket with
  | none =>
    rw [respond_of_none hticket]
    exact h
  | some t =>
    have hperm := dispatch_outstanding { s with editor := (s.editor.handle input).1 } t
    rw [respond_of_some hticket, Counted, dispatch_inFlight, hperm.length_eq]
    exact congrArg (· + 1) h

theorem Counted.passes (h : Counted s) (hpass : Passes lookup s s') : Counted s' := by
  cases hpass with
  | wake ht => rwa [Counted, wake_inFlight, (wake_outstanding ht).length_eq]
  | answer ht => rwa [Counted, (answer_outstanding ht _).length_eq]
  | receive hreceive =>
    obtain ⟨reply, rest, hreplies, happly⟩ := receive?_eq_some.1 hreceive
    rw [Counted, (receive_outstanding hreplies).length_eq] at h
    rw [apply_eq] at happly
    obtain ⟨rfl, -⟩ := Prod.mk.inj happly
    exact congrArg (· - 1) h

theorem Counted.plays (h : Counted s) (hplays : Plays lookup s presses s') : Counted s' := by
  induction hplays with
  | done _ => exact h
  | passes hpass _ ih => exact ih (h.passes hpass)
  | press p _ _ ih => exact ih (h.respond p.input)

theorem plays_pump (lookup : String → Lookup) (s : Session) : Plays lookup s [] s.pump.1 := by
  induction s using pump_induction with
  | nil s _ => exact .done s
  | receive s s' accepted hreceive ih => exact .passes (.receive hreceive) ih

@[simp] theorem pump_replies (s : Session) : s.pump.1.replies = [] := by
  induction s using pump_induction with
  | nil s hnil => exact hnil
  | receive s s' accepted hreceive ih => exact ih

theorem pump_lists (s : Session) : s.pump.1.waiting = s.waiting ∧ s.pump.1.asking = s.asking := by
  induction s using pump_induction with
  | nil s _ => exact ⟨rfl, rfl⟩
  | receive s s' accepted hreceive ih =>
    obtain ⟨reply, rest, -, happly⟩ := receive?_eq_some.1 hreceive
    rw [apply_eq] at happly
    obtain ⟨rfl, -⟩ := Prod.mk.inj happly
    exact ih

theorem plays_wakes (lookup : String → Lookup) (s : Session) (ts : List Ticket) (h : s.waiting = ts) :
    Plays lookup s [] (ts.foldl wake s) ∧ (ts.foldl wake s).waiting = [] := by
  induction ts generalizing s with
  | nil => exact ⟨.done s, h⟩
  | cons t ts ih =>
    have hrest : (s.wake t).waiting = ts := by
      unfold wake
      dsimp only
      split <;> simp [h]
    obtain ⟨hplays, hnone⟩ := ih (s.wake t) hrest
    exact ⟨.passes (.wake (by simp [h])) hplays, hnone⟩

theorem plays_answers (lookup : String → Lookup) (s : Session) (ts : List Ticket) (h : s.asking = ts) :
    Plays lookup s [] (ts.foldl (fun s t => s.answer t (lookup t.query)) s) ∧
      (ts.foldl (fun s t => s.answer t (lookup t.query)) s).asking = [] ∧
      (ts.foldl (fun s t => s.answer t (lookup t.query)) s).waiting = s.waiting := by
  induction ts generalizing s with
  | nil => exact ⟨.done s, h, rfl⟩
  | cons t ts ih =>
    have hrest : (s.answer t (lookup t.query)).asking = ts := by simp [Session.answer, h]
    obtain ⟨hplays, hnone, hwaiting⟩ := ih (s.answer t (lookup t.query)) hrest
    exact ⟨.passes (.answer (by simp [h])) hplays, hnone, hwaiting⟩

theorem plays_settle (lookup : String → Lookup) (s : Session) : Plays lookup s [] (s.settle lookup) := by
  obtain ⟨hwake, -⟩ := plays_wakes lookup s s.waiting rfl
  obtain ⟨hanswer, -, -⟩ := plays_answers lookup s.wakeAll s.wakeAll.asking rfl
  exact (hwake.trans hanswer).trans (plays_pump lookup _)

/-- Settling leaves nothing in flight. -/
theorem settle_idle (lookup : String → Lookup) (h : Counted s) : (s.settle lookup).inFlight = 0 := by
  obtain ⟨-, hwaiting⟩ := plays_wakes lookup s s.waiting rfl
  obtain ⟨-, hasking, hsame⟩ := plays_answers lookup s.wakeAll s.wakeAll.asking rfl
  obtain ⟨hpumpWaiting, hpumpAsking⟩ := pump_lists (s.wakeAll.answerAll lookup)
  have hcounted : Counted (s.settle lookup) := h.plays (plays_settle lookup s)
  have hempty : (s.settle lookup).outstanding = [] := by
    refine outstanding_eq_nil_iff.2 ⟨hpumpWaiting.trans ?_, hpumpAsking.trans hasking, pump_replies _⟩
    rw [answerAll, hsame, wakeAll, hwaiting]
  rw [hcounted, hempty]
  rfl

theorem replies_of_idle (h : Counted s) (hidle : s.inFlight = 0) : s.replies = [] := by
  rw [h] at hidle
  obtain ⟨-, -, hreplies⟩ := outstanding_eq_nil_iff.1 (List.eq_nil_of_length_eq_zero hidle)
  exact hreplies

theorem plays_handle (lookup : String → Lookup) (h : Counted s) (hidle : p.waits = true → s.inFlight = 0) :
    Plays lookup s [p] (s.handle p.input).1 := by
  refine (plays_pump lookup s).trans (.press p ?_ (.done _))
  intro hwaits
  rw [pump_of_nil (replies_of_idle h (hidle hwaits))]
  exact hidle hwaits

theorem plays_key (lookup : String → Lookup) (h : Counted s) (k : Key) :
    Plays lookup s [k.press] (press lookup s k) := by
  unfold press
  split
  · have hsettle := plays_settle lookup s
    have hhandle := plays_handle (p := k.press) lookup (h.plays hsettle) fun _ => settle_idle lookup h
    exact hsettle.trans hhandle
  · next hreads =>
    refine plays_handle (p := k.press) lookup h fun hwaits => ?_
    have hwaits' : k.readsCandidates = true := hwaits
    simp only [hwaits', Bool.true_and, decide_eq_true_eq] at hreads
    omega

theorem plays_keys (lookup : String → Lookup) (h : Counted s) (keys : List Key) :
    Plays lookup s (keys.map Key.press) (keys.foldl (press lookup) s) := by
  induction keys generalizing s with
  | nil => exact .done s
  | cons k keys ih =>
    have hkey := plays_key lookup h k
    exact hkey.trans (ih (h.plays hkey))

theorem plays_finish (lookup : String → Lookup) (h : Counted s) (keepPending : Bool) :
    Plays lookup s (closing keepPending s.editor) (finish keepPending s) := by
  unfold closing finish
  split
  · exact .done s
  · have hcancel := plays_handle (p := ⟨.cancel, false⟩) lookup h (by simp)
    have hconfirm := plays_handle (p := ⟨.confirm, false⟩) lookup (h.plays hcancel) (by simp)
    exact hcancel.trans hconfirm

theorem reports_run (lookup : String → Lookup) (e : Editor) (keepPending : Bool) (keys : List Key) (debounce : Nat) :
    Reports lookup debounce keepPending e keys (run lookup keepPending e keys debounce) := by
  have hstart : Counted { editor := e, debounce } := rfl
  have hkeys := plays_keys lookup hstart keys
  have hplayed := hstart.plays hkeys
  have hfinish := plays_finish lookup hplayed keepPending
  have hidle := settle_idle lookup (hplayed.plays hfinish)
  exact .intro hkeys hfinish (plays_settle lookup _) hidle

/-- Every schedule of the lookups, with any delay, ends with the same report: the one that `run` gives. -/
theorem reports_iff (lookup : String → Lookup) (debounce : Nat) (keepPending : Bool) (bindings : Bindings)
    (options : EditorOptions) (ids : IdSupply) (keys : List Key) (report : Report) :
    Reports lookup debounce keepPending (Editor.start bindings options ids) keys report ↔
      report = run lookup keepPending (Editor.start bindings options ids) keys := by
  have hidden : (Editor.start bindings options ids).popup.state = .hidden := rfl
  have hrun := report_eq hidden (reports_run lookup _ keepPending keys 0)
  constructor
  · intro h
    rw [hrun]
    exact report_eq hidden h
  · rintro rfl
    rw [hrun, ← report_eq hidden (reports_run lookup _ keepPending keys debounce)]
    exact reports_run lookup _ keepPending keys debounce

end Replay

end FormulaBar
