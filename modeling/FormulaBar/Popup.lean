import FormulaBar.Suggestion
import FormulaBar.Token.Classifier

/-!
# FormulaBar.Popup — the list of suggested labels

While a label is being typed, the popup finds the query in the pending text, asks for a lookup by issuing a ticket, and
shows the answer. Tickets are numbered; an answer counts only while the popup still waits for its ticket. Operations
that find nothing to do give `none`.
-/

namespace FormulaBar

/-- A lookup to be made, and the number under which its answer is awaited. -/
structure Ticket where
  generation : Nat
  query : String
deriving DecidableEq, Repr

/-- The query inside a pending text, and the text before it. -/
structure QuerySpan where
  before : List Char
  query : List Char
deriving DecidableEq, Repr

namespace QuerySpan

/-- The place where the query, or the mark before it, starts: a count of bytes. -/
def start (s : QuerySpan) : Nat := Text.byteLength s.before

/-- Cuts a text at the last occurrence of a character. -/
def splitAtLast (mark : Char) (cs : List Char) : Option (List Char × List Char) :=
  let after := cs.reverse.takeWhile (· ≠ mark)
  match cs.reverse.dropWhile (· ≠ mark) with
  | [] => none
  | _ :: before => some (before.reverse, after.reverse)

/-- The query of a pending text: what follows the last mark, or the whole text when there is no mark. There is none
when that is blank, an operator or a number. -/
def find? (k : Classifier) (pending : List Char) : Option QuerySpan :=
  let span : QuerySpan := match splitAtLast k.mark pending with
    | some (before, after) => ⟨before, Text.trim after⟩
    | none => ⟨pending.takeWhile Text.isBlank, Text.trim pending⟩
  if span.query = [] || (Operator.ofChars? span.query).isSome || (Number.ofChars? span.query).isSome then none
  else some span

end QuerySpan

/-- What the popup is doing. -/
inductive PopupState
  | hidden
  | querying (query : String) (generation : Nat)
  | showing (query : String) (candidates : List String) (active : Nat)
deriving DecidableEq, Repr

/-- The popup: its rules, its state and the number of the last ticket. -/
structure Popup where
  classifier : Classifier := {}
  maxCandidates : Option Nat := none
  state : PopupState := .hidden
  generation : Nat := 0
deriving DecidableEq, Repr

/-- The popup as it is drawn. -/
structure PopupView where
  visible : Bool := false
  query : String := ""
  candidates : List String := []
  active : Nat := 0
  loading : Bool := false
deriving DecidableEq, Repr

/-- A suggestion that was taken, and the pending text before its query, without blanks at either end. -/
structure Selection where
  preceding : String
  label : String
deriving DecidableEq, Repr

namespace PopupState

/-- The query that the popup is about. -/
def query? : PopupState → Option String
  | hidden => none
  | querying query _ => some query
  | showing query _ _ => some query

end PopupState

namespace Popup

/-- The popup as it is drawn. -/
def view (p : Popup) : PopupView :=
  match p.state with
  | .hidden => {}
  | .querying query _ => { visible := true, query, loading := true }
  | .showing query candidates active => { visible := true, query, candidates, active }

/-- The candidate that is highlighted. -/
def activeCandidate? (p : Popup) : Option String :=
  match p.state with
  | .showing _ candidates active => candidates[active]?
  | _ => none

/-- Closes the popup. -/
def hide (p : Popup) : Popup := { p with state := .hidden }

@[simp] theorem state_hide (p : Popup) : p.hide.state = .hidden := rfl

@[simp] theorem view_hide (p : Popup) : p.hide.view = {} := rfl

@[simp] theorem activeCandidate?_hide (p : Popup) : p.hide.activeCandidate? = none := rfl

@[simp] theorem generation_hide (p : Popup) : p.hide.generation = p.generation := rfl

/-- Follows a change of the pending text: a new query is looked up, and no query closes the popup. -/
def observe (p : Popup) (pending : String) : Popup × Option Ticket :=
  match QuerySpan.find? p.classifier pending.toList with
  | none => (p.hide, none)
  | some span =>
    let query := String.ofList span.query
    if p.state.query? = some query then (p, none)
    else
      let generation := p.generation + 1
      ({ p with state := .querying query generation, generation }, some ⟨generation, query⟩)

/-- Looks the query up again even if it did not change. -/
def reopen (p : Popup) (pending : String) : Popup × Option Ticket := p.hide.observe pending

/-- The labels to show of an answer: without blanks at either end, none of them blank, and not too many. A failure
shows none. -/
def candidates (p : Popup) (answer : Lookup) : List String :=
  let labels := match answer with
    | .ok labels => (labels.map Text.trimmed).filter (· ≠ "")
    | .error _ => []
  match p.maxCandidates with
  | some max => labels.take max
  | none => labels

@[simp] theorem candidates_error (p : Popup) (error : LookupError) : p.candidates (.error error) = [] := by
  unfold candidates
  cases p.maxCandidates with
  | some max => exact List.take_nil
  | none => rfl

/-- The labels in their order: each without blanks at either end, those left out that are blank, and of the others the
first ones, all of them if there is no limit. -/
theorem candidates_ok (p : Popup) (labels : List String) :
    p.candidates (.ok labels) =
      ((labels.map Text.trimmed).filter (· ≠ "")).take (p.maxCandidates.getD labels.length) := by
  have hlength : ((labels.map Text.trimmed).filter (· ≠ "")).length ≤ labels.length := by
    calc ((labels.map Text.trimmed).filter (· ≠ "")).length
      _ ≤ (labels.map Text.trimmed).length := List.length_filter_le _ _
      _ = labels.length := List.length_map _
  unfold candidates
  cases p.maxCandidates with
  | some max => rfl
  | none => exact (List.take_of_length_le hlength).symm

/-- Shows the answer to a ticket, if the popup waits for that one. -/
def resolve? (p : Popup) (ticket : Ticket) (answer : Lookup) : Option Popup :=
  if p.state = .querying ticket.query ticket.generation then
    some { p with state := .showing ticket.query (p.candidates answer) 0 }
  else none

/-- Highlights the candidate that `move` gives for the number of candidates and the active one. -/
def moveTo? (p : Popup) (move : Nat → Nat → Option Nat) : Option Popup :=
  match p.state with
  | .showing query candidates active =>
    (move candidates.length active).map fun active => { p with state := .showing query candidates active }
  | _ => none

/-- Highlights the next candidate; the first one follows the last. -/
def next? (p : Popup) : Option Popup :=
  p.moveTo? fun count active => if count = 0 then none else some ((active + 1) % count)

/-- Highlights the previous candidate; the last one precedes the first. -/
def previous? (p : Popup) : Option Popup :=
  p.moveTo? fun count active => if count = 0 then none else some ((active + count - 1) % count)

/-- Highlights a candidate by its place in the list. -/
def hover? (p : Popup) (index : Nat) : Option Popup :=
  p.moveTo? fun count _ => if index < count then some index else none

/-- Takes a candidate, the active one unless told otherwise, and closes the popup. -/
def take? (p : Popup) (pending : String) (index : Option Nat) : Option (Selection × Popup) :=
  match p.state with
  | .showing _ candidates active =>
    (candidates[index.getD active]?).map fun label =>
      let preceding := match QuerySpan.find? p.classifier pending.toList with
        | some span => String.ofList (Text.trim span.before)
        | none => ""
      (⟨preceding, label⟩, p.hide)
  | _ => none

end Popup

end FormulaBar
