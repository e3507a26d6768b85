import FormulaBar.Editor

/-!
# FormulaBar.Session — an editor whose lookups take time

A lookup that is sent out waits for a while, if there is a delay, and is then skipped if a later one was sent out in the
meantime. Otherwise it asks, and some time later it is answered. What comes of it stands in a queue until the session
receives it, in the order in which lookups came back. The editor ignores the answers that it no longer waits for.
-/

namespace FormulaBar

/-- What came of a lookup: its answer, unless it was skipped. -/
structure Reply where
  ticket : Ticket
  answer : Option Lookup

/-- The editor with the answer; `none` when it was skipped or is no longer awaited. -/
def Reply.takenBy? (r : Reply) (e : Editor) : Option Editor := r.answer.bind (e.resolve? r.ticket)

/-- An editor with its lookups: those that wait, those that ask, and the replies that were not received yet. -/
structure Session where
  editor : Editor
  /-- The delay of a lookup, in milliseconds. -/
  debounce : Nat := 0
  /-- The number of the last ticket that was sent out. -/
  latest : Nat := 0
  /-- Number of lookups sent out and not received yet. -/
  inFlight : Nat := 0
  waiting : List Ticket := []
  asking : List Ticket := []
  replies : List Reply := []

namespace Session

/-! ### What a lookup does -/

/-- Sends a lookup out. -/
def dispatch (s : Session) (ticket : Ticket) : Session :=
  let s := { s with latest := ticket.generation, inFlight := s.inFlight + 1 }
  if s.debounce = 0 then { s with asking := s.asking ++ [ticket] } else { s with waiting := s.waiting ++ [ticket] }

/-- The delay of a lookup is over. -/
def wake (s : Session) (ticket : Ticket) : Session :=
  let s := { s with waiting := s.waiting.erase ticket }
  if s.latest = ticket.generation then { s with asking := s.asking ++ [ticket] }
  else { s with replies := s.replies ++ [⟨ticket, none⟩] }

/-- A lookup that asked is answered. -/
def answer (s : Session) (ticket : Ticket) (answer : Lookup) : Session :=
  { s with asking := s.asking.erase ticket, replies := s.replies ++ [⟨ticket, some answer⟩] }

/-! ### What the session does -/

/-- Applies a reply, and says whether the editor took it. -/
def apply (s : Session) (r : Reply) : Session × Bool :=
  let s := { s with inFlight := s.inFlight - 1 }
  match r.takenBy? s.editor with
  | some editor => ({ s with editor }, true)
  | none => (s, false)

@[simp] theorem apply_replies (s : Session) (r : Reply) : (s.apply r).1.replies = s.replies := by
  unfold apply
  dsimp only
  split <;> rfl

/-- Receives the reply that came first; `none` when there is none. -/
def receive? (s : Session) : Option (Session × Bool) :=
  match s.replies with
  | [] => none
  | r :: replies => some ({ s with replies }.apply r)

theorem receive?_replies {s s' : Session} {accepted : Bool} (h : s.receive? = some (s', accepted)) :
    s'.replies.length < s.replies.length := by
  unfold receive? at h
  split at h
  · cases h
  · next r replies hreplies =>
    have hs := congrArg (fun p => p.1.replies) (Option.some.inj h)
    rw [apply_replies] at hs
    rw [← hs, hreplies]
    exact Nat.lt_succ_self _

/-- Receives every reply in the queue and counts those that the editor took. -/
def pump (s : Session) : Session × Nat :=
  match _h : s.receive? with
  | none => (s, 0)
  | some (s', accepted) =>
    let (s'', count) := s'.pump
    (s'', count + accepted.toNat)
termination_by s.replies.length
decreasing_by exact receive?_replies _h

/-- The editor handles an input, and the lookup that it asks for is sent out. -/
def respond (s : Session) (input : Input) : Session × Outcome :=
  let (editor, outcome) := s.editor.handle input
  let s := { s with editor }
  match outcome.ticket with
  | some ticket => (s.dispatch ticket, outcome)
  | none => (s, outcome)

/-- Receives what came back, then handles an input. -/
def handle (s : Session) (input : Input) : Session × Outcome := s.pump.1.respond input

/-- Every delay passes, the oldest lookup first. -/
def wakeAll (s : Session) : Session := s.waiting.foldl wake s

/-- Every lookup that asks is answered, the oldest first. -/
def answerAll (lookup : String → Lookup) (s : Session) : Session :=
  s.asking.foldl (fun s ticket => s.answer ticket (lookup ticket.query)) s

/-- Waits until every lookup has come back and was received. -/
def settle (lookup : String → Lookup) (s : Session) : Session := (s.wakeAll.answerAll lookup).pump.1

end Session

end FormulaBar
