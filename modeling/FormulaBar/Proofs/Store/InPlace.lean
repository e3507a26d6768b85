import FormulaBar.Store
import FormulaBar.Proofs.Token.Supply

/-!
# FormulaBar.Proofs.Store.InPlace — the operations of a store as programs that change it

`Store` gives another store for an operation, or none. Here each operation is a program that changes the row first and
then says whether it did: it compares lengths, takes the last token off whether there is one or not, or writes into the
row. The programs and the functions agree (`Operation.inPlace_run`), so one that answers `false` has left everything
as it was, whatever it wrote on the way.
-/

namespace FormulaBar

namespace TokenSequence

variable {s : TokenSequence} {id : TokenId}

/-! ### Programs for a row -/

/-- Keeps the tokens with another id and compares the lengths. -/
def eraseInPlace (id : TokenId) : StateM TokenSequence Bool := do
  let before := (← get).tokens.length
  modify fun s => ⟨s.tokens.filter (·.id ≠ id)⟩
  return (← get).tokens.length != before

/-- Takes the token at the right end off. -/
def dropLastInPlace : StateM TokenSequence (Option Token) :=
  modifyGet fun s => (s.tokens.getLast?, ⟨s.tokens.dropLast⟩)

/-- Looks up the first token with this id and writes a label into it, if that is a tag with another label. -/
def relabelInPlace (id : TokenId) (label : String) : StateM TokenSequence Bool := do
  let label := Text.trimmed label
  if label = "" then return false
  let row := (← get).tokens
  let some place := row.findIdx? (·.id = id) | return false
  let some ⟨_, .tag current⟩ := row[place]? | return false
  if current = label then return false
  modify fun s => ⟨s.tokens.modify place fun t => { t with data := .tag label }⟩
  return true

/-- Removes every token, and says whether there was one. -/
def clearInPlace : StateM TokenSequence Bool := do
  let changed := !(← get).tokens.isEmpty
  set (⟨[]⟩ : TokenSequence)
  return changed

/-- The row got shorter exactly if a token had the id; otherwise the filter kept all. -/
theorem eraseInPlace_run (id : TokenId) (s : TokenSequence) :
    (eraseInPlace id).run s = ((s.erase? id).isSome, (s.erase? id).getD s) := by
  have hrun : (eraseInPlace id).run s =
      ((s.tokens.filter (·.id ≠ id)).length != s.tokens.length, ⟨s.tokens.filter (·.id ≠ id)⟩) := rfl
  rw [hrun, erase?]
  split
  -- one token at least is left out
  · next hmem =>
    have hlt : (s.tokens.filter (·.id ≠ id)).length < s.tokens.length := by
      rw [List.length_filter_lt_length_iff_exists]
      simpa using hmem
    have hne : ((s.tokens.filter (·.id ≠ id)).length != s.tokens.length) = true := by
      rw [bne_iff_ne]
      omega
    rw [hne]
    rfl
  -- no token is left out
  · next hmem =>
    have hall : s.tokens.filter (·.id ≠ id) = s.tokens := by
      rw [List.filter_eq_self]
      simpa using hmem
    rw [hall, bne_self_eq_false]
    rfl

theorem dropLastInPlace_run (s : TokenSequence) :
    dropLastInPlace.run s = (s.dropLast?.map (·.1), (s.dropLast?.map (·.2)).getD s) := by
  have hrun : dropLastInPlace.run s = (s.tokens.getLast?, ⟨s.tokens.dropLast⟩) := rfl
  rw [hrun, dropLast?, last?]
  cases hlast : s.tokens.getLast? with
  | some t => rfl
  | none =>
    -- the program has taken a token off an empty row
    have hnil : s.tokens = [] := List.getLast?_eq_none_iff.1 hlast
    have hsame : (⟨s.tokens.dropLast⟩ : TokenSequence) = s := by rw [hnil]; exact congrArg mk hnil.symm
    rw [hsame]
    rfl

/-- The row in which the first token with this id has another label, by the place of that token. -/
theorem relabelFirst_eq (id : TokenId) (label : String) (ts : List Token) :
    relabelFirst id label ts =
      (ts.findIdx? (·.id = id)).bind fun place =>
        match ts[place]? with
        | some ⟨_, .tag current⟩ =>
          if current = label then none else some (ts.modify place fun t => { t with data := .tag label })
        | _ => none := by
  induction ts with
  | nil => rfl
  | cons t ts ih =>
    rw [relabelFirst, List.findIdx?_cons]
    by_cases hid : t.id = id
    · rw [if_pos hid, if_pos (by simpa using hid)]
      obtain ⟨_, data⟩ := t
      cases data <;> rfl
    · rw [if_neg hid, if_neg (by simpa using hid), ih]
      cases ts.findIdx? (·.id = id) with
      | none => rfl
      | some place =>
        -- the token in question stands one place further right
        rw [Option.bind_some, Option.map_some, Option.bind_some, List.getElem?_cons_succ]
        cases ts[place]? with
        | none => rfl
        | some u =>
          obtain ⟨_, data⟩ := u
          cases data with
          | tag current => by_cases hsame : current = label <;> simp [hsame]
          | number | operand => rfl

theorem relabelInPlace_run (id : TokenId) (label : String) (s : TokenSequence) :
    (relabelInPlace id label).run s = ((s.relabel? id label).isSome, (s.relabel? id label).getD s) := by
  rw [relabel?, relabelFirst_eq, relabelInPlace]
  by_cases hblank : Text.trimmed label = ""
  · rw [if_pos hblank, if_pos hblank]
    rfl
  rw [if_neg hblank, if_neg hblank]
  simp only [StateT.run_bind, StateT.run_get, pure_bind]
  -- no token has the id, or the first that has it stands at `place`
  cases hplace : s.tokens.findIdx? (·.id = id) with
  | none => rfl
  | some place =>
    simp only [Option.bind_some]
    cases s.tokens[place]? with
    | none => rfl
    | some t =>
      obtain ⟨_, data⟩ := t
      cases data with
      | number | operand => rfl
      | tag current =>
        by_cases hsame : current = Text.trimmed label
        · simp only [if_pos hsame]
          rfl
        · simp only [if_neg hsame]
          rfl

theorem clearInPlace_run (s : TokenSequence) :
    clearInPlace.run s = (s.clear?.isSome, s.clear?.getD s) := by
  have hrun : clearInPlace.run s = (!s.tokens.isEmpty, ⟨[]⟩) := rfl
  rw [hrun, clear?]
  split
  · next hempty =>
    have hnil : s.tokens = [] := List.isEmpty_iff.1 hempty
    rw [hempty]
    exact congrArg (fun ts => (false, mk ts)) hnil.symm
  · next hempty =>
    rw [Bool.eq_false_iff.2 hempty]
    rfl

end TokenSequence

namespace Store

/-! ### Everything that can be done with a store -/

inductive Operation
  | append (data : TokenData)
  | erase (id : TokenId)
  | dropLast
  | relabel (id : TokenId) (label : String)
  | load (tokens : List Token)
  | clear
  | publish (result : String)
  | subscribe
  | unsubscribe (place : Nat)

/-- The operation is one on the tokens. -/
def Operation.edits : Operation → Bool
  | publish _ | subscribe | unsubscribe _ => false
  | _ => true

/-- The store after an operation; `none` if the operation says that it changed nothing. -/
def perform? (s : Store) : Operation → Option Store
  | .append data => some (s.append data).2
  | .erase id => s.erase? id
  | .dropLast => s.dropLast?.map (·.2)
  | .relabel id label => s.relabel? id label
  | .load tokens => (s.load tokens).toOption
  | .clear => s.clear?
  | .publish result => some (s.publish result)
  | .subscribe => some s.subscribe.2
  | .unsubscribe place => s.unsubscribe? place

/-- The store after an operation, which is the same if that changed nothing. -/
def perform (s : Store) (op : Operation) : Store := (s.perform? op).getD s

/-- The store after some operations. -/
def performAll (s : Store) (ops : List Operation) : Store := ops.foldl perform s

variable {s s' : Store} {op : Operation}

theorem perform_of_some (h : s.perform? op = some s') : s.perform op = s' := by
  rw [perform, h]
  rfl

theorem perform_of_none (h : s.perform? op = none) : s.perform op = s := by
  rw [perform, h]
  rfl

theorem performAll_append (s : Store) (ops more : List Operation) :
    s.performAll (ops ++ more) = (s.performAll ops).performAll more := List.foldl_append

/-! ### Programs for a store -/

/-- Runs a program for the row. -/
def onSequence {α : Type} (program : StateM TokenSequence α) : StateM Store α :=
  modifyGet fun s =>
    let (a, sequence) := program.run s.sequence
    (a, { s with sequence })

/-- Counts a change of the row and tells it. -/
def announce (what : TokenChange) : StateM Store Unit := do
  modify fun s => { s with revision := s.revision + 1 }
  let revision := (← get).revision
  modify (·.emit (.tokensChanged revision what))

/-- Announces a change if a program for the row says that it made it. -/
def changeInPlace (program : StateM TokenSequence Bool) (what : TokenChange) : StateM Store Bool := do
  if !(← onSequence program) then return false
  announce what
  return true

/-- Puts a new token at the right end. -/
def appendInPlace (data : TokenData) : StateM Store TokenId := do
  let id ← modifyGet fun s => (s.ids.fresh.1, { s with ids := s.ids.fresh.2 })
  onSequence (modify fun row => ⟨row.tokens ++ [⟨id, data⟩]⟩)
  announce (.appended id)
  return id

/-- Takes the token at the right end off and announces it. -/
def dropLastInPlace : StateM Store (Option Token) := do
  let some t ← onSequence TokenSequence.dropLastInPlace | return none
  announce (.removed t.id)
  return some t

/-- Steps over the ids of some tokens, one by one. -/
def reserveInPlace (tokens : List Token) : StateM Store Unit :=
  tokens.forM fun t => modify fun s => { s with ids := s.ids.reserve t.id }

/-- A load in the order of its effects: all checks, the ids one by one, and the row. -/
def loadInPlace (tokens : List Token) : StateM Store (Except LoadError Unit) := do
  match TokenSequence.checkFrom [] tokens with
  | .error error => return .error error
  | .ok () =>
    reserveInPlace tokens
    modify fun s => { s with sequence := ⟨tokens⟩ }
    announce (.replaced tokens.length)
    return .ok ()

/-- Stops telling the subscriber at a place and compares how many still listen. -/
def unsubscribeInPlace (place : Nat) : StateM Store Bool := do
  let before := (← get).subscribers.countP (·.listens)
  modify fun s => { s with subscribers := s.subscribers.modify place fun sub => { sub with listens := false } }
  return (← get).subscribers.countP (·.listens) != before

/-- An operation as a program, with its answer: whether it changed something. -/
def Operation.inPlace : Operation → StateM Store Bool
  | append data => do
    let _ ← appendInPlace data
    return true
  | erase id => changeInPlace (TokenSequence.eraseInPlace id) (.removed id)
  | dropLast => return (← dropLastInPlace).isSome
  | relabel id label => changeInPlace (TokenSequence.relabelInPlace id label) (.updated id)
  | load tokens => return (← loadInPlace tokens).isOk
  | clear => changeInPlace TokenSequence.clearInPlace .cleared
  | publish result => do
    let revision := (← get).revision
    modify (·.emit (.resultChanged revision result))
    return true
  | subscribe => do
    modify fun s => { s with subscribers := s.subscribers ++ [{}] }
    return true
  | unsubscribe place => unsubscribeInPlace place

/-! ### The programs agree with the functions -/

theorem onSequence_run {α : Type} (program : StateM TokenSequence α) (s : Store) :
    (onSequence program).run s = ((program.run s.sequence).1, { s with sequence := (program.run s.sequence).2 }) := rfl

/-- A program that answers `false` only where it left the row alone leaves the store alone then. -/
theorem changeInPlace_run {program : StateM TokenSequence Bool} {what : TokenChange} {result : Option TokenSequence}
    {s : Store} (h : program.run s.sequence = (result.isSome, result.getD s.sequence)) :
    (changeInPlace program what).run s =
      ((result.map (s.change · what)).isSome, (result.map (s.change · what)).getD s) := by
  rw [changeInPlace, StateT.run_bind, onSequence_run, h]
  cases result with
  | none => rfl
  | some sequence => rfl

theorem dropLastInPlace_run (s : Store) :
    dropLastInPlace.run s = (s.dropLast?.map (·.1), (s.dropLast?.map (·.2)).getD s) := by
  rw [dropLastInPlace, StateT.run_bind, onSequence_run, TokenSequence.dropLastInPlace_run, dropLast?]
  cases s.sequence.dropLast? with
  | none => rfl
  | some dropped => rfl

theorem reserveInPlace_run (tokens : List Token) (s : Store) :
    (reserveInPlace tokens).run s = ((), { s with ids := s.ids.reserveAll tokens }) := by
  induction tokens generalizing s with
  | nil => rfl
  | cons t tokens ih => exact ih { s with ids := s.ids.reserve t.id }

/-- A load is refused before it has written anything. -/
theorem loadInPlace_run (tokens : List Token) (s : Store) :
    (loadInPlace tokens).run s = ((s.load tokens).map fun _ => (), (s.load tokens).toOption.getD s) := by
  have hload : s.load tokens = (TokenSequence.checkFrom [] tokens).map fun _ =>
      { s with ids := s.ids.reserveAll tokens }.change ⟨tokens⟩ (.replaced tokens.length) := by
    rw [load, TokenSequence.load]
    cases TokenSequence.checkFrom [] tokens <;> rfl
  rw [hload, loadInPlace]
  cases TokenSequence.checkFrom [] tokens with
  | error error => rfl
  | ok checked =>
    rw [StateT.run_bind, reserveInPlace_run]
    rfl

/-- One listener fewer is left exactly if the subscriber at this place listened. -/
theorem unsubscribeInPlace_run (place : Nat) (s : Store) :
    (unsubscribeInPlace place).run s = ((s.unsubscribe? place).isSome, (s.unsubscribe? place).getD s) := by
  have hrun : (unsubscribeInPlace place).run s =
      ((s.subscribers.modify place fun sub => { sub with listens := false }).countP (·.listens) !=
          s.subscribers.countP (·.listens),
        { s with subscribers := s.subscribers.modify place fun sub => { sub with listens := false } }) := rfl
  rw [hrun, unsubscribe?, subscriber?]
  cases hplace : s.subscribers[place]? with
  | none =>
    have hlength : s.subscribers.length ≤ place := List.getElem?_eq_none_iff.1 hplace
    -- there is no such subscriber
    rw [List.modify_eq_self hlength, bne_self_eq_false]
    rfl
  | some sub =>
    -- the subscriber at `place` stops listening, which takes one off the count unless it did not listen
    obtain ⟨listens, events⟩ := sub
    obtain ⟨hlt, hsub⟩ := List.getElem?_eq_some_iff.1 hplace
    have hset : s.subscribers.modify place (fun sub => { sub with listens := false }) =
        s.subscribers.set place ⟨false, events⟩ := by
      rw [List.modify_eq_set_getElem?, hplace]
      rfl
    rw [hset]
    cases listens with
    | false =>
      have hsame : s.subscribers.set place ⟨false, events⟩ = s.subscribers := by
        rw [← hsub, List.set_getElem_self]
      rw [hsame, bne_self_eq_false]
      rfl
    | true =>
      have hsome : 0 < s.subscribers.countP (·.listens) := by
        rw [List.countP_pos_iff]
        exact ⟨_, List.mem_of_getElem? hplace, rfl⟩
      have hcount : (s.subscribers.set place ⟨false, events⟩).countP (·.listens) =
          s.subscribers.countP (·.listens) - 1 := by
        rw [List.countP_set hlt, hsub]
        rfl
      have hne : ((s.subscribers.set place ⟨false, events⟩).countP (·.listens) !=
          s.subscribers.countP (·.listens)) = true := by
        rw [bne_iff_ne]
        omega
      rw [hne]
      rfl

/-- The answer of an operation in place is whether there is another store, and the state is that store, or the old one
if there is none. -/
theorem Operation.inPlace_run (op : Operation) (s : Store) :
    op.inPlace.run s = ((s.perform? op).isSome, s.perform op) := by
  cases op with
  | append data => rfl
  | erase id => exact changeInPlace_run (TokenSequence.eraseInPlace_run id s.sequence)
  | dropLast =>
    rw [inPlace, StateT.run_bind, dropLastInPlace_run, perform, perform?]
    cases s.dropLast? <;> rfl
  | relabel id label => exact changeInPlace_run (TokenSequence.relabelInPlace_run id label s.sequence)
  | load tokens =>
    rw [inPlace, StateT.run_bind, loadInPlace_run, perform, perform?]
    cases s.load tokens <;> rfl
  | clear => exact changeInPlace_run (TokenSequence.clearInPlace_run s.sequence)
  | publish result => rfl
  | subscribe => rfl
  | unsubscribe place => exact unsubscribeInPlace_run place s

/-- An operation that answers `false` has left the store as it was. -/
theorem Operation.unchanged_of_false (op : Operation) (s : Store) (h : (op.inPlace.run s).1 = false) :
    (op.inPlace.run s).2 = s := by
  rw [inPlace_run] at h ⊢
  exact perform_of_none (Option.not_isSome_iff_eq_none.1 (Bool.eq_false_iff.1 h))

/-- Some operations one after the other, each in place. -/
theorem mapM_inPlace_run (ops : List Operation) (s : Store) :
    ((ops.mapM Operation.inPlace).run s).2 = s.performAll ops := by
  induction ops generalizing s with
  | nil => rfl
  | cons op ops ih =>
    rw [List.mapM_cons, StateT.run_bind, op.inPlace_run s]
    exact ih (s.perform op)

end Store

end FormulaBar
