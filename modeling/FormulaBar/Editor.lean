import FormulaBar.Formula
import FormulaBar.Popup
import FormulaBar.Store

/-!
# FormulaBar.Editor — editing a formula key by key

The editor turns inputs into tokens. Characters gather in the pending text; an operator, a confirmation or the choice
of a suggestion commits it. Backspace over an empty pending text takes the last token back into it. After every change
of the tokens the formula is evaluated again and the result published.
-/

namespace FormulaBar

/-- What can happen to the editor from outside. -/
inductive Input
  | char (c : Char)
  | setText (text : String)
  | confirm
  | advance
  | backspace
  | cancel
  | next
  | previous
  | hover (index : Nat)
  | accept (index : Nat)
  | outside
  | focus
  | deleteToken (id : TokenId)
  | editTag (id : TokenId) (label : String)
deriving DecidableEq, Repr

/-- What an input did: whether the tokens changed, and the lookup that is now wanted. -/
structure Outcome where
  tokensChanged : Bool := false
  ticket : Option Ticket := none
deriving DecidableEq, Repr

/-- The rules of an editor: the mark of tags and the greatest number of suggestions shown. -/
structure EditorOptions where
  mark : Char := '@'
  maxCandidates : Option Nat := none
deriving DecidableEq, Repr

/-- The editor. A surface, if there is one, has been shown the texts `shown`, oldest first. -/
structure Editor where
  store : Store := {}
  popup : Popup := {}
  bindings : Bindings := {}
  pending : String := ""
  result : String := Number.text 0
  shown : Option (List String) := none

namespace Editor

/-- An editor without tokens, which takes the ids of new ones from a supply. -/
def start (bindings : Bindings) (options : EditorOptions) (ids : IdSupply := {}) : Editor :=
  { store := { ids }, popup := { classifier := ⟨options.mark⟩, maxCandidates := options.maxCandidates }, bindings }

/-- The tokens from left to right. -/
def tokens (e : Editor) : List Token := e.store.tokens

/-- The character that marks a tag. -/
def mark (e : Editor) : Char := e.popup.classifier.mark

/-- Shows the pending text on the surface. -/
def render (e : Editor) : Editor := { e with shown := e.shown.map (· ++ [e.pending]) }

@[simp] theorem render_store (e : Editor) : e.render.store = e.store := rfl

@[simp] theorem render_pending (e : Editor) : e.render.pending = e.pending := rfl

@[simp] theorem render_popup (e : Editor) : e.render.popup = e.popup := rfl

/-- Puts a surface in place. -/
def installSurface (e : Editor) : Editor := { e with shown := some [] }.render

/-- Changes the pending text. -/
def setPending (e : Editor) (text : String) : Editor := { e with pending := text }.render

@[simp] theorem setPending_store (e : Editor) (text : String) : (e.setPending text).store = e.store := rfl

@[simp] theorem setPending_pending (e : Editor) (text : String) : (e.setPending text).pending = text := rfl

/-- Evaluates the formula and publishes the result. -/
def refresh (e : Editor) : Editor :=
  let result := Formula.result e.tokens e.bindings
  { e with result, store := e.store.publish result }

@[simp] theorem refresh_tokens (e : Editor) : e.refresh.tokens = e.tokens := rfl

@[simp] theorem refresh_result (e : Editor) :
    e.refresh.result = Formula.result e.refresh.tokens e.refresh.bindings := rfl

/-- Changes the values of variables. -/
def setBindings (e : Editor) (bindings : Bindings) : Editor := { e with bindings }.refresh

/-- Replaces all tokens and leaves the pending text alone. -/
def load (e : Editor) (tokens : List Token) : Except LoadError Editor := do
  let store ← e.store.load tokens
  return { e with store }.refresh

/-- Removes all tokens and the pending text. -/
def clear (e : Editor) : Editor :=
  let e := { e with popup := e.popup.hide }.setPending ""
  match e.store.clear? with
  | some store => { e with store }.refresh
  | none => e

/-- Brings the answer to a ticket; `none` when it is no longer awaited. -/
def resolve? (e : Editor) (ticket : Ticket) (answer : Lookup) : Option Editor :=
  (e.popup.resolve? ticket answer).map fun popup => { e with popup }

/-- Puts a token at the right end, if there is one to put. -/
def append (e : Editor) : Option TokenData → Editor
  | some data => { e with store := (e.store.append data).2 }
  | none => e

/-- Turns the pending text into a token and closes the popup. A blank text goes without leaving one. -/
def commit (e : Editor) : Editor :=
  let e := e.append (e.popup.classifier.classify e.pending)
  { e with pending := "", popup := e.popup.hide }.render

/-- Turns a suggestion into a tag, and the text before its query into a token of its own. -/
def accept (e : Editor) (index : Option Nat) : Editor :=
  match e.popup.take? e.pending index with
  | none => e
  | some (selection, popup) =>
    let e := { e with popup }
    let label := Text.trimmed selection.label
    if label = "" then e
    else
      let e := e.append (e.popup.classifier.classify selection.preceding)
      (e.append (some (.tag label))).setPending ""

/-- Lets the popup follow the pending text. -/
def observe (e : Editor) : Editor × Option Ticket :=
  let (popup, ticket) := e.popup.observe e.pending
  ({ e with popup }, ticket)

/-- Looks the pending text up, whatever the popup showed. -/
def reopen (e : Editor) : Editor × Option Ticket :=
  let (popup, ticket) := e.popup.reopen e.pending
  ({ e with popup }, ticket)

/-- A typed character: an operator commits what is pending and becomes a token, a control character does nothing, and
any other is added to the pending text. -/
def typeChar (e : Editor) (c : Char) : Editor × Option Ticket :=
  match Operator.ofChar? c with
  | some op => (e.commit.append (some (.operand op)), none)
  | none => if Text.isControl c then (e, none) else (e.setPending (e.pending.push c)).observe

/-- Takes the last character of the pending text away, or the last token back into it. -/
def backspace (e : Editor) : Editor × Option Ticket :=
  if e.pending ≠ "" then (e.setPending (String.ofList e.pending.toList.dropLast)).observe
  else
    match e.store.dropLast? with
    | none => (e, none)
    | some (t, store) => ({ e with store }.setPending (t.data.editText e.mark)).reopen

/-- Changes the popup, if there is anything to change. -/
def withPopup (e : Editor) (popup : Option Popup) : Editor :=
  { e with popup := popup.getD e.popup }

/-- Changes the store, if there is anything to change. -/
def withStore (e : Editor) (store : Option Store) : Editor :=
  { e with store := store.getD e.store }

/-- What an input does before the formula is evaluated again, and the lookup that is then wanted. -/
def react (e : Editor) : Input → Editor × Option Ticket
  | .char c => e.typeChar c
  | .setText text => if text = e.pending then (e, none) else (e.setPending text).observe
  | .confirm => (if e.popup.activeCandidate?.isSome then e.accept none else e.commit, none)
  | .advance => (if e.popup.activeCandidate?.isSome then e.accept none else e, none)
  | .backspace => e.backspace
  | .cancel => ({ e with popup := e.popup.hide }, none)
  | .outside => ({ e with popup := e.popup.hide }, none)
  | .next => (e.withPopup e.popup.next?, none)
  | .previous => (e.withPopup e.popup.previous?, none)
  | .hover index => (e.withPopup (e.popup.hover? index), none)
  | .accept index => (e.accept (some index), none)
  | .focus => if Text.isBlankText e.pending then (e, none) else e.reopen
  | .deleteToken id => (e.withStore (e.store.erase? id), none)
  | .editTag id label => (e.withStore (e.store.relabel? id label), none)

/-- Handles an input. -/
def handle (e : Editor) (input : Input) : Editor × Outcome :=
  let (after, ticket) := e.react input
  if after.store.revision = e.store.revision then (after, { ticket })
  else (after.refresh, { tokensChanged := true, ticket })

/-- Types a text character by character and gives what each one did. -/
def type (e : Editor) : List Char → Editor × List Outcome
  | [] => (e, [])
  | c :: cs =>
    let (e, outcome) := e.handle (.char c)
    let (e, outcomes) := e.type cs
    (e, outcome :: outcomes)

end Editor

end FormulaBar
