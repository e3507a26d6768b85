import FormulaBar.Token.Basic

/-!
# FormulaBar.Token.Sequence — the row of tokens

A sequence is the tokens of a formula from left to right. Its operations say whether they changed it: an unknown id,
an empty sequence or a token that has no label leave it as it is. Tokens from outside are admitted only as a whole
(`load`), and then the supply steps over their ids.
-/

namespace FormulaBar

/-- Why tokens from outside are refused. -/
inductive LoadError
  | duplicateId (id : TokenId)
  | idOutOfRange (id : TokenId)
  | nonFiniteNumber (value : Float)
  | emptyTag

namespace LoadError

/-- The text of the refusal. -/
def message : LoadError → String
  | duplicateId id => "duplicate token id " ++ id.text
  | idOutOfRange id => "token id " ++ id.text ++ " is out of range"
  | nonFiniteNumber value => "number token is not finite: " ++ Number.text value
  | emptyTag => "tag token has an empty label"

end LoadError

/-- What a token may hold: a finite number, an operator, or a label that is not blank. -/
def TokenData.check : TokenData → Except LoadError Unit
  | .number value => if Binary64.isFinite value then .ok () else .error (.nonFiniteNumber value)
  | .operand _ => .ok ()
  | .tag label => if Text.isBlankText label then .error .emptyTag else .ok ()

/-- The tokens of a formula, from left to right. -/
structure TokenSequence where
  tokens : List Token := []

namespace TokenSequence

/-- Checks the tokens of a list in order, given the ids before them: first the id, then what the token holds. -/
def checkFrom (seen : List TokenId) : List Token → Except LoadError Unit
  | [] => .ok ()
  | t :: ts => do
    if seen.contains t.id then throw (.duplicateId t.id)
    if t.id = .greatest then throw (.idOutOfRange t.id)
    t.data.check
    checkFrom (t.id :: seen) ts

/-- Admits a list of tokens from outside and steps over their ids. -/
def load (ids : IdSupply) (tokens : List Token) : Except LoadError (TokenSequence × IdSupply) := do
  checkFrom [] tokens
  return (⟨tokens⟩, tokens.foldl (fun ids t => ids.reserve t.id) ids)

/-- The token with this id. -/
def get? (s : TokenSequence) (id : TokenId) : Option Token := s.tokens.find? (·.id = id)

/-- The token at the right end. -/
def last? (s : TokenSequence) : Option Token := s.tokens.getLast?

/-- Puts a new token with a fresh id at the right end. -/
def append (s : TokenSequence) (ids : IdSupply) (data : TokenData) : TokenId × TokenSequence × IdSupply :=
  let (id, ids) := ids.fresh
  (id, ⟨s.tokens ++ [⟨id, data⟩]⟩, ids)

/-- Removes the token with this id; `none` when there is none. -/
def erase? (s : TokenSequence) (id : TokenId) : Option TokenSequence :=
  if s.tokens.any (·.id = id) then some ⟨s.tokens.filter (·.id ≠ id)⟩ else none

/-- Removes the token at the right end and gives it; `none` when there is none. -/
def dropLast? (s : TokenSequence) : Option (Token × TokenSequence) :=
  s.last?.map fun t => (t, ⟨s.tokens.dropLast⟩)

/-- Puts another label on the first token with this id, if that is a tag with a different label. -/
def relabelFirst (id : TokenId) (label : String) : List Token → Option (List Token)
  | [] => none
  | t :: ts =>
    if t.id = id then
      match t.data with
      | .tag current => if current = label then none else some (⟨t.id, .tag label⟩ :: ts)
      | _ => none
    else (relabelFirst id label ts).map (t :: ·)

/-- Relabels a tag; `none` when that changes nothing: a blank label, the same label, or no tag with this id. -/
def relabel? (s : TokenSequence) (id : TokenId) (label : String) : Option TokenSequence :=
  let label := Text.trimmed label
  if label = "" then none else (relabelFirst id label s.tokens).map (⟨·⟩)

/-- Removes every token; `none` when there is none. -/
def clear? (s : TokenSequence) : Option TokenSequence :=
  if s.tokens.isEmpty then none else some {}

/-! ### What the operations do to the row -/

@[simp] theorem append_tokens (s : TokenSequence) (ids : IdSupply) (data : TokenData) :
    (s.append ids data).2.1.tokens = s.tokens ++ [⟨⟨ids.next⟩, data⟩] := rfl

@[simp] theorem append_id (s : TokenSequence) (ids : IdSupply) (data : TokenData) :
    (s.append ids data).1 = ⟨ids.next⟩ := rfl

theorem erase?_tokens {s t : TokenSequence} {id : TokenId} (h : s.erase? id = some t) :
    t.tokens = s.tokens.filter (·.id ≠ id) := by
  unfold erase? at h
  split at h <;> cases h
  rfl

theorem erase?_eq_none_iff {s : TokenSequence} {id : TokenId} :
    s.erase? id = none ↔ ∀ t ∈ s.tokens, t.id ≠ id := by
  simp [erase?]

theorem dropLast?_tokens {s rest : TokenSequence} {t : Token} (h : s.dropLast? = some (t, rest)) :
    s.tokens = rest.tokens ++ [t] := by
  obtain ⟨u, hu, h⟩ := Option.map_eq_some_iff.1 h
  cases h
  have hne : s.tokens ≠ [] := by
    intro hnil
    simp [last?, hnil] at hu
  have hlast : s.tokens.getLast hne = t := by
    rw [last?, List.getLast?_eq_some_getLast hne] at hu
    exact Option.some.inj hu
  rw [← hlast, List.dropLast_concat_getLast hne]

theorem relabelFirst_ids {id : TokenId} {label : String} {ts us : List Token}
    (h : relabelFirst id label ts = some us) : us.map (·.id) = ts.map (·.id) := by
  induction ts generalizing us with
  | nil => cases h
  | cons t ts ih =>
    rw [relabelFirst] at h
    split at h
    · split at h
      · split at h <;> cases h
        rfl
      · cases h
    · obtain ⟨vs, hv, rfl⟩ := Option.map_eq_some_iff.1 h
      rw [List.map_cons, List.map_cons, ih hv]

theorem clear?_tokens {s t : TokenSequence} (h : s.clear? = some t) : t.tokens = [] := by
  unfold clear? at h
  split at h <;> cases h
  rfl

end TokenSequence

end FormulaBar
