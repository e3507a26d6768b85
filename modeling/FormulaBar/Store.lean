import FormulaBar.Token.Sequence

/-!
# FormulaBar.Store — an observable row of tokens

The store owns the tokens of a formula and counts their changes. Every change raises the revision by one and is told to
all subscribers; an operation that changes nothing tells nothing. A subscriber is known by its place in the order
of subscription and keeps the events it received.
-/

namespace FormulaBar

/-- What happened to the tokens. -/
inductive TokenChange
  | appended (id : TokenId)
  | removed (id : TokenId)
  | updated (id : TokenId)
  | replaced (count : Nat)
  | cleared
deriving DecidableEq, Repr

/-- What subscribers are told, with the revision that it belongs to. -/
inductive Event
  | tokensChanged (revision : Nat) (change : TokenChange)
  | resultChanged (revision : Nat) (result : String)
deriving DecidableEq, Repr

namespace Event

/-- A change of the tokens. -/
def isTokensChanged : Event → Bool
  | tokensChanged _ _ => true
  | resultChanged _ _ => false

/-- The result that was published. -/
def result? : Event → Option String
  | tokensChanged _ _ => none
  | resultChanged _ result => some result

end Event

/-- A subscriber: whether it still listens, and the events it holds, oldest first. -/
structure Subscriber where
  listens : Bool := true
  events : List Event := []
deriving DecidableEq, Repr

namespace Subscriber

/-- Takes an event in, if it listens. -/
def receive (s : Subscriber) (event : Event) : Subscriber :=
  if s.listens then { s with events := s.events ++ [event] } else s

/-- How many changes of the tokens it holds. -/
def tokenChanges (s : Subscriber) : Nat := s.events.countP Event.isTokensChanged

/-- How many results it holds. -/
def results (s : Subscriber) : Nat := s.events.countP (!·.isTokensChanged)

/-- The latest result it holds. -/
def lastResult? (s : Subscriber) : Option String := s.events.reverse.findSome? Event.result?

end Subscriber

/-- Tokens, the ids for new ones, the number of changes so far and all subscribers. -/
structure Store where
  sequence : TokenSequence := {}
  ids : IdSupply := {}
  revision : Nat := 0
  subscribers : List Subscriber := []

namespace Store

/-- The tokens from left to right. -/
def tokens (s : Store) : List Token := s.sequence.tokens

/-- Tells every subscriber. -/
def emit (s : Store) (event : Event) : Store :=
  { s with subscribers := s.subscribers.map (·.receive event) }

/-- Counts and tells a change of the tokens to `sequence`. -/
def change (s : Store) (sequence : TokenSequence) (what : TokenChange) : Store :=
  let revision := s.revision + 1
  { s with sequence, revision }.emit (.tokensChanged revision what)

/-- Puts a new token at the right end. -/
def append (s : Store) (data : TokenData) : TokenId × Store :=
  let (id, sequence, ids) := s.sequence.append s.ids data
  (id, { s with ids }.change sequence (.appended id))

/-- Removes a token; `none` when there is none with this id. -/
def erase? (s : Store) (id : TokenId) : Option Store :=
  (s.sequence.erase? id).map (s.change · (.removed id))

/-- Removes the token at the right end; `none` when there is none. -/
def dropLast? (s : Store) : Option (Token × Store) :=
  s.sequence.dropLast?.map fun (t, sequence) => (t, s.change sequence (.removed t.id))

/-- Relabels a tag; `none` when that changes nothing. -/
def relabel? (s : Store) (id : TokenId) (label : String) : Option Store :=
  (s.sequence.relabel? id label).map (s.change · (.updated id))

/-- Replaces all tokens by others from outside, or refuses them. -/
def load (s : Store) (tokens : List Token) : Except LoadError Store := do
  let (sequence, ids) ← TokenSequence.load s.ids tokens
  return { s with ids }.change sequence (.replaced tokens.length)

/-- Removes every token; `none` when there is none. -/
def clear? (s : Store) : Option Store := s.sequence.clear?.map (s.change · .cleared)

/-- Tells a result for the present revision. -/
def publish (s : Store) (result : String) : Store := s.emit (.resultChanged s.revision result)

/-- Adds a subscriber and gives its place. -/
def subscribe (s : Store) : Nat × Store :=
  (s.subscribers.length, { s with subscribers := s.subscribers ++ [{}] })

/-- The subscriber at a place. -/
def subscriber? (s : Store) (place : Nat) : Option Subscriber := s.subscribers[place]?

/-- Stops telling a subscriber; `none` when it does not listen. -/
def unsubscribe? (s : Store) (place : Nat) : Option Store :=
  match s.subscriber? place with
  | some ⟨true, events⟩ => some { s with subscribers := s.subscribers.set place ⟨false, events⟩ }
  | _ => none

/-- Makes a subscriber forget the events it holds. -/
def forgetEvents (s : Store) (place : Nat) : Store :=
  { s with subscribers := s.subscribers.modify place fun sub => { sub with events := [] } }

/-! ### Events leave the tokens alone, and a change counts once -/

@[simp] theorem emit_tokens (s : Store) (event : Event) : (s.emit event).tokens = s.tokens := rfl

@[simp] theorem emit_revision (s : Store) (event : Event) : (s.emit event).revision = s.revision := rfl

@[simp] theorem publish_tokens (s : Store) (result : String) : (s.publish result).tokens = s.tokens := rfl

@[simp] theorem publish_revision (s : Store) (result : String) : (s.publish result).revision = s.revision := rfl

@[simp] theorem change_tokens (s : Store) (sequence : TokenSequence) (what : TokenChange) :
    (s.change sequence what).tokens = sequence.tokens := rfl

@[simp] theorem change_revision (s : Store) (sequence : TokenSequence) (what : TokenChange) :
    (s.change sequence what).revision = s.revision + 1 := rfl

@[simp] theorem append_revision (s : Store) (data : TokenData) : (s.append data).2.revision = s.revision + 1 := rfl

end Store

end FormulaBar
