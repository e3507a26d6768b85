import FormulaBar.Session
import FormulaBar.Proofs.Editor.Reachable
import Mathlib.Data.List.Nodup
import Mathlib.Data.List.Range

/-!
# FormulaBar.Proofs.Session.History — lookups that are overtaken never show

`History` lets inputs, delays that pass, answers and receptions happen in any order, and records them. `Consistent` is
what holds at every moment of it: every ticket is in one place, the number in flight counts them, and a popup that waits
does so for the last ticket, which will be answered. So lookups that were overtaken are never shown, and what a
popup waits for is in flight.
-/

namespace FormulaBar

namespace Session

open Editor

/-! ### Histories -/

/-- What happened in a session, oldest first: the tickets that were sent out, the answers that lookups were given, and
the replies that were received, with whether the editor took them. -/
structure Record where
  issued : List Ticket := []
  given : List (Ticket × Lookup) := []
  received : List (Reply × Bool) := []

/-- A session on the editor `e` can come to the state `s`, and the record tells how. -/
inductive History (e : Editor) (debounce : Nat) : Record → Session → Prop
  | start : History e debounce {} { editor := e, debounce }
  | respond {r s} (h : History e debounce r s) (input : Input) :
      History e debounce { r with issued := r.issued ++ (s.respond input).2.ticket.toList } (s.respond input).1
  | wake {r s t} (h : History e debounce r s) (ht : t ∈ s.waiting) : History e debounce r (s.wake t)
  | answer {r s t} (h : History e debounce r s) (ht : t ∈ s.asking) (answer : Lookup) :
      History e debounce { r with given := r.given ++ [(t, answer)] } (s.answer t answer)
  | receive {r s reply rest} (h : History e debounce r s) (hreplies : s.replies = reply :: rest) :
      History e debounce
        { r with received := r.received ++ [(reply, ({ s with replies := rest }.apply reply).2)] }
        ({ s with replies := rest }.apply reply).1

/-! ### What each step does -/

variable {s s' : Session} {t : Ticket}

/-- The tickets in flight: those that wait, those that ask, and those of replies that were not received. -/
def outstanding (s : Session) : List Ticket := s.waiting ++ s.asking ++ s.replies.map (·.ticket)

theorem outstanding_eq_nil_iff : s.outstanding = [] ↔ s.waiting = [] ∧ s.asking = [] ∧ s.replies = [] := by
  simp only [outstanding, List.append_eq_nil_iff, List.map_eq_nil_iff, and_assoc]

/-- The lookup of a ticket is in flight and was not skipped. -/
def Expects (s : Session) (t : Ticket) : Prop :=
  t ∈ s.waiting ∨ t ∈ s.asking ∨ ∃ answer, ⟨t, some answer⟩ ∈ s.replies

theorem respond_of_none {input : Input} (h : (s.editor.handle input).2.ticket = none) :
    s.respond input = ({ s with editor := (s.editor.handle input).1 }, (s.editor.handle input).2) := by
  simp only [respond, h]

theorem respond_of_some {input : Input} (h : (s.editor.handle input).2.ticket = some t) :
    s.respond input =
      ({ s with editor := (s.editor.handle input).1 }.dispatch t, (s.editor.handle input).2) := by
  simp only [respond, h]

@[simp] theorem dispatch_editor (s : Session) (t : Ticket) : (s.dispatch t).editor = s.editor := by
  unfold dispatch
  dsimp only
  split <;> rfl

@[simp] theorem dispatch_latest (s : Session) (t : Ticket) : (s.dispatch t).latest = t.generation := by
  unfold dispatch
  dsimp only
  split <;> rfl

@[simp] theorem dispatch_inFlight (s : Session) (t : Ticket) : (s.dispatch t).inFlight = s.inFlight + 1 := by
  unfold dispatch
  dsimp only
  split <;> rfl

@[simp] theorem dispatch_replies (s : Session) (t : Ticket) : (s.dispatch t).replies = s.replies := by
  unfold dispatch
  dsimp only
  split <;> rfl

theorem expects_dispatch (s : Session) (t : Ticket) : (s.dispatch t).Expects t := by
  unfold dispatch Expects
  dsimp only
  split
  · exact .inr (.inl (by simp))
  · exact .inl (by simp)

@[simp] theorem respond_outcome (s : Session) (input : Input) : (s.respond input).2 = (s.editor.handle input).2 := by
  cases h : (s.editor.handle input).2.ticket with
  | none => rw [respond_of_none h]
  | some t => rw [respond_of_some h]

@[simp] theorem respond_editor (s : Session) (input : Input) :
    (s.respond input).1.editor = (s.editor.handle input).1 := by
  cases h : (s.editor.handle input).2.ticket with
  | none => rw [respond_of_none h]
  | some t => rw [respond_of_some h, dispatch_editor]

/-- A ticket may stand at the end of any of the three places. -/
theorem perm_three (t : Ticket) (as bs cs : List Ticket) :
    (as ++ [t] ++ bs ++ cs).Perm (t :: (as ++ bs ++ cs)) ∧ (as ++ (bs ++ [t]) ++ cs).Perm (t :: (as ++ bs ++ cs)) ∧
      (as ++ bs ++ (cs ++ [t])).Perm (t :: (as ++ bs ++ cs)) := by
  refine ⟨?_, ?_, ?_⟩
  · simp only [List.append_assoc, List.singleton_append]
    exact List.perm_middle
  · rw [← List.append_assoc as, List.append_assoc _ [t]]
    exact List.perm_middle
  · rw [← List.append_assoc]
    exact List.perm_append_singleton t _

theorem dispatch_outstanding (s : Session) (t : Ticket) : (s.dispatch t).outstanding.Perm (t :: s.outstanding) := by
  obtain ⟨hfirst, hsecond, -⟩ := perm_three t s.waiting s.asking (s.replies.map (·.ticket))
  unfold dispatch outstanding
  dsimp only
  split
  · exact hsecond
  · exact hfirst

theorem wake_outstanding (ht : t ∈ s.waiting) : (s.wake t).outstanding.Perm s.outstanding := by
  have hold : s.outstanding.Perm (t :: (s.waiting.erase t ++ s.asking ++ s.replies.map (·.ticket))) :=
    ((List.perm_cons_erase ht).append_right _).append_right _
  obtain ⟨-, hsecond, hthird⟩ := perm_three t (s.waiting.erase t) s.asking (s.replies.map (·.ticket))
  refine List.Perm.trans ?_ hold.symm
  unfold wake outstanding
  dsimp only
  split
  · exact hsecond
  · rw [List.map_append]
    exact hthird

theorem answer_outstanding (ht : t ∈ s.asking) (answer : Lookup) :
    (s.answer t answer).outstanding.Perm s.outstanding := by
  have hasking : s.asking.Perm (s.asking.erase t ++ [t]) :=
    (List.perm_cons_erase ht).trans (List.perm_append_singleton t _).symm
  have hold := (hasking.append_left s.waiting).append_right (s.replies.map (·.ticket))
  obtain ⟨-, hsecond, hthird⟩ := perm_three t s.waiting (s.asking.erase t) (s.replies.map (·.ticket))
  refine List.Perm.trans ?_ (hold.trans hsecond).symm
  unfold Session.answer outstanding
  rw [List.map_append]
  exact hthird

theorem apply_eq (s : Session) (r : Reply) :
    s.apply r =
      ({ s with editor := (r.takenBy? s.editor).getD s.editor, inFlight := s.inFlight - 1 },
        (r.takenBy? s.editor).isSome) := by
  unfold apply
  dsimp only
  split <;> rename_i h <;> rw [h] <;> rfl

/-- The editor takes a reply exactly if it was not skipped and the popup waits for its ticket. -/
theorem takenBy?_eq_some {r : Reply} {e e' : Editor} :
    r.takenBy? e = some e' ↔ ∃ answer, r.answer = some answer ∧
      e.popup.state = .querying r.ticket.query r.ticket.generation ∧
      e' = { e with popup := { e.popup with state := .showing r.ticket.query (e.popup.candidates answer) 0 } } := by
  unfold Reply.takenBy?
  rw [Option.bind_eq_some_iff]
  constructor
  · rintro ⟨answer, hanswer, hresolve⟩
    obtain ⟨popup, hpopup, rfl⟩ := Option.map_eq_some_iff.1 hresolve
    obtain ⟨hstate, rfl⟩ := Popup.resolve?_eq_some.1 hpopup
    exact ⟨answer, hanswer, hstate, rfl⟩
  · rintro ⟨answer, hanswer, hstate, rfl⟩
    refine ⟨answer, hanswer, ?_⟩
    rw [Editor.resolve?, Popup.resolve?_eq_some.2 ⟨hstate, rfl⟩]
    rfl

/-! ### What holds at every moment -/

/-- The session agrees with its record. Before it, `before` tickets had been issued. -/
structure Consistent (before : Nat) (r : Record) (s : Session) : Prop where
  numbered : r.issued.map (·.generation) = List.range' (before + 1) r.issued.length
  generation : s.editor.popup.generation = before + r.issued.length
  latest : ∀ t ∈ r.issued.getLast?, s.latest = t.generation
  conserved : r.issued.Perm (s.outstanding ++ r.received.map (·.1.ticket))
  inFlight : s.inFlight = s.outstanding.length
  given : ∀ t answer, ⟨t, some answer⟩ ∈ s.replies → (t, answer) ∈ r.given
  querying : ∀ query n, s.editor.popup.state = .querying query n →
    r.issued.getLast? = some ⟨n, query⟩ ∧ s.Expects ⟨n, query⟩
  showing : ∀ query candidates active, s.editor.popup.state = .showing query candidates active →
    ∃ t answer, r.issued.getLast? = some t ∧ t.query = query ∧ (t, answer) ∈ r.given ∧
      candidates = s.editor.popup.candidates answer

variable {before : Nat} {r : Record}

/-- With a hidden popup and nothing in flight, a history may begin. -/
theorem consistent_of_none_outstanding (hidden : s.editor.popup.state = .hidden) (hnone : s.outstanding = [])
    (hidle : s.inFlight = 0) : Consistent s.editor.popup.generation {} s := by
  obtain ⟨-, -, hreplies⟩ := outstanding_eq_nil_iff.1 hnone
  refine ⟨rfl, rfl, by simp, ?_, ?_, by simp [hreplies], ?_, ?_⟩
  · rw [hnone]
    exact List.Perm.refl []
  · rw [hnone]
    exact hidle
  · intro query n hstate
    rw [hidden] at hstate
    cases hstate
  · intro query candidates active hstate
    rw [hidden] at hstate
    cases hstate

theorem consistent_start {e : Editor} (hidden : e.popup.state = .hidden) (debounce : Nat) :
    Consistent e.popup.generation {} { editor := e, debounce } :=
  consistent_of_none_outstanding (s := { editor := e, debounce }) hidden rfl rfl

/-- An input for which nothing is looked up. -/
theorem consistent_respond_of_none (h : Consistent before r s) {e : Editor}
    (hstep : Popup.Step s.editor.popup none e.popup) : Consistent before r { s with editor := e } := by
  have hgeneration := hstep.generation
  have hcandidates := hstep.candidates
  refine ⟨h.numbered, hgeneration.trans h.generation, h.latest, h.conserved, h.inFlight, h.given, ?_, ?_⟩
  · intro query n hstate
    refine h.querying query n ?_
    dsimp only at hstate
    -- a popup that waits now waited before the input
    generalize e.popup = popup at hstep hstate
    cases hstep with
    | stays => exact hstate
    | hides => cases hstate
    | highlights _ _ => cases hstate
  · intro query candidates active hstate
    dsimp only at hstate ⊢
    rw [hcandidates]
    -- a list that is shown now was shown before, perhaps with another place
    generalize e.popup = popup at hstep hstate
    cases hstep with
    | stays => exact h.showing query candidates active hstate
    | hides => cases hstate
    | highlights hold _ =>
      cases hstate
      exact h.showing _ _ _ hold

/-- An input that sends a lookup out. -/
theorem consistent_respond_of_some (h : Consistent before r s) {e : Editor}
    (hstep : Popup.Step s.editor.popup (some t) e.popup) :
    Consistent before { r with issued := r.issued ++ [t] } ({ s with editor := e }.dispatch t) := by
  have hgeneration : e.popup.generation = s.editor.popup.generation + 1 := hstep.generation
  have hnumbered : [t.generation] = List.range' (s.editor.popup.generation + 1) 1 := hstep.numbered
  have hperm := dispatch_outstanding { s with editor := e } t
  have hlast : (r.issued ++ [t]).getLast? = some t := List.getLast?_concat
  -- only the new ticket is added: it is the last, it is in flight, and the popup waits for it
  refine ⟨?_, ?_, ?_, ?_, ?_, ?_, ?_, ?_⟩
  · rw [List.map_append, h.numbered, List.map_singleton, hnumbered, h.generation, List.length_append,
      Nat.add_right_comm before]
    exact List.range'_append_1
  · rw [dispatch_editor, hgeneration, h.generation, List.length_append]
    rfl
  · intro u hu
    rw [hlast] at hu
    cases hu
    exact dispatch_latest _ t
  · refine (h.conserved.append_right [t]).trans ?_
    exact (List.perm_append_singleton t _).trans (hperm.append_right _).symm
  · rw [dispatch_inFlight, hperm.length_eq]
    exact congrArg (· + 1) h.inFlight
  · rw [dispatch_replies]
    exact h.given
  · intro query n hstate
    rw [dispatch_editor, hstep.state_of_some] at hstate
    cases hstate
    exact ⟨hlast, expects_dispatch _ t⟩
  · intro query candidates active hstate
    rw [dispatch_editor, hstep.state_of_some] at hstate
    cases hstate

theorem consistent_respond (h : Consistent before r s) (input : Input) :
    Consistent before { r with issued := r.issued ++ (s.respond input).2.ticket.toList } (s.respond input).1 := by
  have hstep := handle_step s.editor input
  rw [respond_outcome]
  cases hticket : (s.editor.handle input).2.ticket with
  | none =>
    rw [hticket] at hstep
    rw [respond_of_none hticket, Option.toList_none, List.append_nil]
    exact consistent_respond_of_none h hstep
  | some t =>
    rw [hticket] at hstep
    rw [respond_of_some hticket]
    exact consistent_respond_of_some h hstep

/-! ### Lookups that go on -/

@[simp] theorem wake_editor (s : Session) (t : Ticket) : (s.wake t).editor = s.editor := by
  unfold wake
  dsimp only
  split <;> rfl

@[simp] theorem wake_inFlight (s : Session) (t : Ticket) : (s.wake t).inFlight = s.inFlight := by
  unfold wake
  dsimp only
  split <;> rfl

@[simp] theorem wake_latest (s : Session) (t : Ticket) : (s.wake t).latest = s.latest := by
  unfold wake
  dsimp only
  split <;> rfl

/-- Only a lookup that was skipped leaves a reply when its delay is over. -/
theorem wake_replies {a : Lookup} {u : Ticket} : ⟨u, some a⟩ ∈ (s.wake t).replies ↔ ⟨u, some a⟩ ∈ s.replies := by
  unfold wake
  dsimp only
  split <;> simp

/-- A lookup is not skipped while its ticket is the last one. -/
theorem expects_wake {u : Ticket} (hlatest : s.latest = u.generation) (h : s.Expects u) : (s.wake t).Expects u := by
  -- a lookup that asks goes on asking
  have hasking : ∀ v ∈ s.asking, v ∈ (s.wake t).asking := by
    intro v hv
    unfold wake
    dsimp only
    split
    · exact List.mem_append_left _ hv
    · exact hv
  rcases h with hwaiting | hasks | ⟨a, hreply⟩
  -- the lookup in question is the one that wakes, or another
  · by_cases hu : u = t
    · subst hu
      refine .inr (.inl ?_)
      unfold wake
      rw [if_pos hlatest]
      simp
    · refine .inl ?_
      have hkept := (List.mem_erase_of_ne hu).2 hwaiting
      unfold wake
      dsimp only
      split <;> exact hkept
  · exact .inr (.inl (hasking u hasks))
  · exact .inr (.inr ⟨a, wake_replies.2 hreply⟩)

theorem consistent_wake (h : Consistent before r s) (ht : t ∈ s.waiting) : Consistent before r (s.wake t) := by
  have hperm := wake_outstanding ht
  refine ⟨h.numbered, ?_, ?_, ?_, ?_, ?_, ?_, ?_⟩
  · rw [wake_editor]
    exact h.generation
  · rw [wake_latest]
    exact h.latest
  · exact h.conserved.trans (hperm.append_right _).symm
  · rw [wake_inFlight, hperm.length_eq]
    exact h.inFlight
  · intro u a hreply
    exact h.given u a (wake_replies.1 hreply)
  · intro query n hstate
    rw [wake_editor] at hstate
    obtain ⟨hlast, hexpects⟩ := h.querying query n hstate
    exact ⟨hlast, expects_wake (h.latest _ hlast) hexpects⟩
  · rw [wake_editor]
    exact h.showing

theorem expects_answer {u : Ticket} (a : Lookup) (h : s.Expects u) : (s.answer t a).Expects u := by
  rcases h with hwaiting | hasks | ⟨b, hreply⟩
  · exact .inl hwaiting
  · by_cases hu : u = t
    · subst hu
      exact .inr (.inr ⟨a, by simp [Session.answer]⟩)
    · exact .inr (.inl ((List.mem_erase_of_ne hu).2 hasks))
  · exact .inr (.inr ⟨b, List.mem_append_left _ hreply⟩)

theorem consistent_answer (h : Consistent before r s) (ht : t ∈ s.asking) (a : Lookup) :
    Consistent before { r with given := r.given ++ [(t, a)] } (s.answer t a) := by
  have hperm := answer_outstanding ht a
  refine ⟨h.numbered, h.generation, h.latest, ?_, ?_, ?_, ?_, ?_⟩
  · exact h.conserved.trans (hperm.append_right _).symm
  · rw [hperm.length_eq]
    exact h.inFlight
  · intro u b hreply
    rcases List.mem_append.1 hreply with hold | hnew
    · exact List.mem_append_left _ (h.given u b hold)
    · cases List.mem_singleton.1 hnew
      exact List.mem_append_right _ (List.mem_singleton_self _)
  · intro query n hstate
    obtain ⟨hlast, hexpects⟩ := h.querying query n hstate
    exact ⟨hlast, expects_answer a hexpects⟩
  · intro query candidates active hstate
    obtain ⟨u, b, hlast, hquery, hgiven, hcandidates⟩ := h.showing query candidates active hstate
    exact ⟨u, b, hlast, hquery, List.mem_append_left _ hgiven, hcandidates⟩

/-! ### Replies that are received -/

variable {reply : Reply} {rest : List Reply}

/-- A reply that the editor takes is the one to the last ticket. -/
theorem taken_is_last (h : Consistent before r s) {e : Editor} (htaken : reply.takenBy? s.editor = some e) :
    r.issued.getLast? = some reply.ticket ∧
      s.editor.popup.state = .querying reply.ticket.query reply.ticket.generation := by
  obtain ⟨a, -, hstate, -⟩ := takenBy?_eq_some.1 htaken
  exact ⟨(h.querying _ _ hstate).1, hstate⟩

theorem receive_outstanding (hreplies : s.replies = reply :: rest) :
    s.outstanding.Perm (reply.ticket :: { s with replies := rest }.outstanding) := by
  unfold outstanding
  rw [hreplies, List.map_cons]
  exact List.perm_middle

/-- What a reception changes besides the editor. -/
theorem consistent_queue (h : Consistent before r s) (hreplies : s.replies = reply :: rest) (taken : Bool) :
    r.issued.Perm
        ({ s with replies := rest }.outstanding ++ (r.received ++ [(reply, taken)]).map (·.1.ticket)) ∧
      s.inFlight - 1 = { s with replies := rest }.outstanding.length ∧
      ∀ t answer, ⟨t, some answer⟩ ∈ rest → (t, answer) ∈ r.given := by
  have hperm := receive_outstanding hreplies
  refine ⟨?_, ?_, ?_⟩
  · refine h.conserved.trans ((hperm.append_right _).trans ?_)
    rw [List.map_append, ← List.append_assoc]
    exact (List.perm_append_singleton reply.ticket _).symm
  · rw [h.inFlight, hperm.length_eq]
    rfl
  · intro t answer ht
    refine h.given t answer ?_
    rw [hreplies]
    exact List.mem_cons_of_mem _ ht

/-- A ticket that the popup waits for is still answered when the editor left the first reply alone. -/
theorem expects_of_not_taken {query : String} {n : Nat} (hreplies : s.replies = reply :: rest)
    (hstate : s.editor.popup.state = .querying query n) (htaken : reply.takenBy? s.editor = none)
    (hexpects : s.Expects ⟨n, query⟩) : { s with replies := rest }.Expects ⟨n, query⟩ := by
  rcases hexpects with hwaiting | hasks | ⟨answer, hreply⟩
  · exact .inl hwaiting
  · exact .inr (.inl hasks)
  · rw [hreplies] at hreply
    rcases List.mem_cons.1 hreply with rfl | hrest
    · -- the popup waits for this reply, so the editor would have taken it
      have htakes := (takenBy?_eq_some (r := ⟨⟨n, query⟩, some answer⟩)).2 ⟨answer, rfl, hstate, rfl⟩
      rw [htaken] at htakes
      cases htakes
    · exact .inr (.inr ⟨answer, hrest⟩)

theorem consistent_receive (h : Consistent before r s) (hreplies : s.replies = reply :: rest) :
    Consistent before
      { r with received := r.received ++ [(reply, ({ s with replies := rest }.apply reply).2)] }
      ({ s with replies := rest }.apply reply).1 := by
  obtain ⟨hconserved, hinFlight, hgiven⟩ := consistent_queue h hreplies (reply.takenBy? s.editor).isSome
  rw [apply_eq]
  cases htaken : reply.takenBy? s.editor with
  | none =>
    rw [htaken] at hconserved
    refine ⟨h.numbered, h.generation, h.latest, hconserved, hinFlight, hgiven, ?_, h.showing⟩
    -- the popup still waits, so its reply is still to come
    intro query n hstate
    obtain ⟨hlast, hexpects⟩ := h.querying query n hstate
    have hstill := expects_of_not_taken (s := s) hreplies hstate htaken hexpects
    exact ⟨hlast, hstill⟩
  | some e =>
    rw [htaken] at hconserved
    obtain ⟨hlast, -⟩ := taken_is_last h htaken
    obtain ⟨a, hanswer, hstate, rfl⟩ := takenBy?_eq_some.1 htaken
    -- the popup shows the answer now
    refine ⟨h.numbered, h.generation, h.latest, hconserved, hinFlight, hgiven, ?_, ?_⟩
    · intro query n hquerying
      cases hquerying
    · intro query candidates active hshowing
      cases hshowing
      obtain ⟨ticket, answer⟩ := reply
      cases hanswer
      exact ⟨ticket, a, hlast, rfl, h.given ticket a (by simp [hreplies]), rfl⟩

theorem History.consistent {e : Editor} {debounce : Nat} (h : History e debounce r s)
    (hidden : e.popup.state = .hidden) : Consistent e.popup.generation r s := by
  induction h with
  | start => exact consistent_start hidden debounce
  | respond _ input ih => exact consistent_respond ih input
  | wake _ ht ih => exact consistent_wake ih ht
  | answer _ ht a ih => exact consistent_answer ih ht a
  | receive _ hreplies ih => exact consistent_receive ih hreplies

/-! ### Inputs of the session -/

theorem receive?_eq_some {accepted : Bool} :
    s.receive? = some (s', accepted) ↔
      ∃ reply rest, s.replies = reply :: rest ∧ { s with replies := rest }.apply reply = (s', accepted) := by
  unfold receive?
  cases hreplies : s.replies with
  | nil => simp
  | cons reply rest => simp

theorem receive?_eq_none : s.receive? = none ↔ s.replies = [] := by
  unfold receive?
  cases s.replies <;> simp

theorem pump_of_nil (h : s.replies = []) : s.pump.1 = s := by
  rw [Session.pump]
  split
  · rfl
  · next hreceive =>
    rw [receive?_eq_none.2 h] at hreceive
    cases hreceive

theorem pump_of_receive? {accepted : Bool} (h : s.receive? = some (s', accepted)) : s.pump.1 = s'.pump.1 := by
  rw [Session.pump]
  split
  · next hnone =>
    rw [h] at hnone
    cases hnone
  · next hreceive =>
    rw [h] at hreceive
    cases hreceive
    rfl

/-- What holds of an empty queue, and is carried over one reception, holds of a session and what `pump` leaves of it. -/
@[elab_as_elim]
theorem pump_induction {motive : Session → Session → Prop} (nil : ∀ s, s.replies = [] → motive s s)
    (receive : ∀ s s' accepted, s.receive? = some (s', accepted) → motive s' s'.pump.1 → motive s s'.pump.1)
    (s : Session) : motive s s.pump.1 := by
  induction s using Session.pump.induct with
  | case1 s hnone =>
    have hreplies := receive?_eq_none.1 hnone
    rw [pump_of_nil hreplies]
    exact nil s hreplies
  | case2 s s' accepted hreceive _ _ _ ih =>
    rw [pump_of_receive? hreceive]
    exact receive s s' accepted hreceive ih

/-- Receiving every reply in the queue is one reception after another. -/
theorem History.pump {e : Editor} {debounce : Nat} (h : History e debounce r s) :
    ∃ received, History e debounce { r with received } s.pump.1 ∧
      s.pump.1.editor.popup.generation = s.editor.popup.generation := by
  induction s using pump_induction generalizing r with
  | nil s _ => exact ⟨r.received, h, rfl⟩
  | receive s s' accepted hreceive ih =>
    obtain ⟨reply, rest, hreplies, happly⟩ := receive?_eq_some.1 hreceive
    have hnext := h.receive hreplies
    rw [happly] at hnext
    obtain ⟨received, hpump, hgeneration⟩ := ih hnext
    refine ⟨received, hpump, hgeneration.trans ?_⟩
    rw [apply_eq] at happly
    obtain ⟨rfl, -⟩ := Prod.mk.inj happly
    cases htaken : reply.takenBy? s.editor with
    | none => rfl
    | some e' =>
      obtain ⟨a, -, -, rfl⟩ := takenBy?_eq_some.1 htaken
      rfl

/-! ### The guarantees -/

/-- The replies of a record that the editor took. -/
def Record.taken (r : Record) : List Ticket := (r.received.filter (·.2)).map (·.1.ticket)

theorem mem_outstanding_of_expects (h : s.Expects t) : t ∈ s.outstanding := by
  rcases h with hwaiting | hasks | ⟨answer, hreply⟩
  · simp [outstanding, hwaiting]
  · simp [outstanding, hasks]
  · have hmem := List.mem_map_of_mem (f := (·.ticket)) hreply
    exact List.mem_append_right _ hmem

/-- While nothing is in flight, the popup does not wait. -/
theorem not_querying_of_idle (h : Consistent before r s) (hnone : s.inFlight = 0) (query : String) (n : Nat) :
    s.editor.popup.state ≠ .querying query n := by
  intro hstate
  have hmem := mem_outstanding_of_expects (h.querying query n hstate).2
  have hpos := List.length_pos_of_mem hmem
  rw [h.inFlight] at hnone
  omega

theorem waitsForIssued (h : Consistent before r s) : s.editor.popup.WaitsForIssued := by
  intro query n hstate
  obtain ⟨hlast, -⟩ := h.querying query n hstate
  have hmem := List.mem_map_of_mem (f := (·.generation)) (List.mem_of_getLast? hlast)
  rw [h.numbered] at hmem
  have hbound : n < before + 1 + r.issued.length := (List.mem_range'_1.1 hmem).2
  rw [h.generation]
  omega

theorem issued_nodup (h : Consistent before r s) : r.issued.Nodup := by
  refine List.Nodup.of_map (·.generation) ?_
  rw [h.numbered]
  exact List.nodup_range'

/-- With the tickets that the editor issued before the session. -/
theorem numbered_from_one {past : List Ticket} {e : Editor} (hpast : Reachable past e)
    (h : Consistent e.popup.generation r s) :
    (past ++ r.issued).map (·.generation) = List.range' 1 (past ++ r.issued).length := by
  have hsound := hpast.popupSound
  have hnumbered := h.numbered
  rw [hsound.generation] at hnumbered
  rw [List.map_append, hsound.numbered, hnumbered, List.length_append, Nat.add_comm past.length 1]
  exact List.range'_append_1

/-- An input gives a ticket exactly when the popup waits for a new number then. -/
theorem History.handle_ticket {e : Editor} {debounce : Nat} (h : History e debounce r s)
    (hidden : e.popup.state = .hidden) (input : Input) :
    (s.handle input).2.ticket = some t ↔
      (s.handle input).1.editor.popup.state = .querying t.query t.generation ∧
        t.generation = s.editor.popup.generation + 1 := by
  obtain ⟨received, hpump, hgeneration⟩ := h.pump
  have hwaits := waitsForIssued (hpump.consistent hidden)
  have hstep := handle_step s.pump.1.editor input
  rw [Session.handle, respond_outcome, respond_editor, ← hgeneration]
  exact hstep.ticket_eq_some_iff hwaits

theorem taken_nodup (h : Consistent before r s) : r.taken.Nodup := by
  have hall : (s.outstanding ++ r.received.map (·.1.ticket)).Nodup := h.conserved.nodup_iff.1 (issued_nodup h)
  have hreceived : (r.received.map (·.1.ticket)).Nodup := (List.nodup_append.1 hall).2.1
  exact hreceived.sublist (List.filter_sublist.map _)

theorem inFlight_add_received (h : Consistent before r s) : s.inFlight + r.received.length = r.issued.length := by
  rw [h.inFlight, h.conserved.length_eq, List.length_append, List.length_map]

theorem inFlight_pos (h : Consistent before r s) (hne : s.replies ≠ []) : 0 < s.inFlight := by
  obtain ⟨reply, rest, hreplies⟩ := List.exists_cons_of_ne_nil hne
  rw [h.inFlight, (receive_outstanding hreplies).length_eq]
  exact Nat.succ_pos _

/-- While nothing is in flight, an open popup shows the answer to the last ticket. -/
theorem shows_last_of_idle (h : Consistent before r s) (hnone : s.inFlight = 0) :
    s.editor.popup.state = .hidden ∨
      ∃ t answer active, r.issued.getLast? = some t ∧ (t, answer) ∈ r.given ∧
        s.editor.popup.state = .showing t.query (s.editor.popup.candidates answer) active := by
  cases hstate : s.editor.popup.state with
  | hidden => exact .inl rfl
  | querying query n => exact absurd hstate (not_querying_of_idle h hnone query n)
  | showing query candidates active =>
    obtain ⟨t, answer, hlast, rfl, hgiven, rfl⟩ := h.showing query candidates active hstate
    exact .inr ⟨t, answer, active, hlast, hgiven, rfl⟩

/-- For a session on any editor with a hidden popup, at every moment of every order of events:

* tickets are numbered from 1 on, and an input gives a ticket exactly when the popup waits for that new number then;
* the editor takes only the reply to the last ticket while the popup waits for it, and none twice;
* `inFlight` counts the lookups that were sent out and not received, so it is positive when there is one to receive;
* if none is in flight, the popup is hidden, or it shows the answer that was given to the last ticket. -/
theorem History.last_ticket_wins (past : List Ticket) (e : Editor) (hpast : Reachable past e)
    (hidden : e.popup.state = .hidden) (debounce : Nat) (r : Record) (s : Session) (h : History e debounce r s) :
    ((past ++ r.issued).map (·.generation) = List.range' 1 (past ++ r.issued).length ∧
      ∀ input t, (s.handle input).2.ticket = some t ↔
        (s.handle input).1.editor.popup.state = .querying t.query t.generation ∧
          t.generation = s.editor.popup.generation + 1) ∧
    ((∀ reply rest, s.replies = reply :: rest → ({ s with replies := rest }.apply reply).2 = true →
        r.issued.getLast? = some reply.ticket ∧
          s.editor.popup.state = .querying reply.ticket.query reply.ticket.generation) ∧
      r.taken.Nodup) ∧
    (s.inFlight + r.received.length = r.issued.length ∧
      r.issued.Perm (s.outstanding ++ r.received.map (·.1.ticket)) ∧ (s.replies ≠ [] → 0 < s.inFlight)) ∧
    (s.inFlight = 0 → s.editor.popup.state = .hidden ∨
      ∃ t answer active, r.issued.getLast? = some t ∧ (t, answer) ∈ r.given ∧
        s.editor.popup.state = .showing t.query (s.editor.popup.candidates answer) active) := by
  have hconsistent := h.consistent hidden
  refine ⟨⟨?_, ?_⟩, ⟨?_, ?_⟩, ⟨?_, ?_, ?_⟩, ?_⟩
  · exact numbered_from_one hpast hconsistent
  · intro input t
    exact h.handle_ticket hidden input
  · intro reply rest hreplies haccepted
    rw [apply_eq] at haccepted
    obtain ⟨e', htaken⟩ := Option.isSome_iff_exists.1 haccepted
    exact taken_is_last hconsistent htaken
  · exact taken_nodup hconsistent
  · exact inFlight_add_received hconsistent
  · exact hconsistent.conserved
  · exact inFlight_pos hconsistent
  · exact shows_last_of_idle hconsistent

/-- The first of two lookups is skipped, and the answer to the second is shown: a label loses its blanks, and a blank
one is left out. -/
theorem History.last_ticket_wins_over_skipped :
    ∃ r s, History (Editor.start {} {}) 5 r s ∧ s.inFlight = 0 ∧ r.issued = [⟨1, "a"⟩, ⟨2, "ab"⟩] ∧
      r.given = [(⟨2, "ab"⟩, .ok [" abc", " ", "abd"])] ∧
      ∃ active, s.editor.popup.state = .showing "ab" ["abc", "abd"] active := by
  have htyped : History (Editor.start {} {}) 5 _ _ := (History.start.respond (.char 'a')).respond (.char 'b')
  have hskipped := htyped.wake (t := ⟨1, "a"⟩) (by decide +kernel)
  have hasked := hskipped.wake (t := ⟨2, "ab"⟩) (by decide +kernel)
  have hanswered := hasked.answer (t := ⟨2, "ab"⟩) (by decide +kernel) (.ok [" abc", " ", "abd"])
  have hreceived := @History.receive _ _ _ _ ⟨⟨1, "a"⟩, none⟩ _ hanswered rfl
  have hshown := @History.receive _ _ _ _ ⟨⟨2, "ab"⟩, some (.ok [" abc", " ", "abd"])⟩ _ hreceived rfl
  refine ⟨_, _, hshown, by decide +kernel, by decide +kernel, rfl, ?_⟩
  obtain ⟨-, -, -, hidle⟩ := History.last_ticket_wins [] _ (.start {} {} {}) rfl 5 _ _ hshown
  rcases hidle (by decide +kernel) with hidden | ⟨t, answer, active, -, hgiven, hstate⟩
  · exact absurd hidden (by decide +kernel)
  · obtain ⟨rfl, rfl⟩ := Prod.mk.inj (List.mem_singleton.1 hgiven)
    rw [Popup.candidates_ok] at hstate
    exact ⟨active, hstate.trans (congrArg (PopupState.showing "ab" · active) (by decide +kernel))⟩

end Session

end FormulaBar
