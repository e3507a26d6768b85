import FormulaBar.Proofs.Editor.Changes
import FormulaBar.Proofs.Store.InPlace

/-!
# FormulaBar.Proofs.Store.Log — the events of a subscriber are the history of the store

Each operation of a store either says that it changed nothing, and then it did not, or counts and tells one change of
the tokens (`perform_edit`); the same holds of the operations as programs (`Operation.inPlace`). What subscribers hear is therefore a log without gaps: `Follows` says which changes were
told during some operations, and that the ids of the row can be worked out from the ids before them. A bulk load tells
only the length of the new row.
-/

namespace FormulaBar

namespace TokenChange

/-- The ids of a row after a change, worked out from those before; `none` behind a bulk load, which does not tell them. -/
def replay? (ids : List TokenId) : TokenChange → Option (List TokenId)
  | appended id => some (ids ++ [id])
  | removed id => some (ids.erase id)
  | updated _ => some ids
  | replaced _ => none
  | cleared => some []

/-- The change leads from some ids to others, as far as it tells. -/
structure Explains (change : TokenChange) (ids ids' : List TokenId) : Prop where
  replay : ∀ known ∈ change.replay? ids, ids' = known
  replaced : ∀ count, change = .replaced count → ids'.length = count

theorem explains_of_replay {change : TokenChange} {ids ids' : List TokenId} (h : change.replay? ids = some ids') :
    change.Explains ids ids' := by
  refine ⟨fun known hknown => ?_, ?_⟩
  · rw [h] at hknown
    exact Option.some.inj hknown
  · rintro count rfl
    cases h

/-- Without a bulk load the ids can be worked out to the end. -/
theorem exists_replay {changes : List TokenChange} (h : ∀ count, .replaced count ∉ changes) (ids : List TokenId) :
    ∃ known, changes.foldlM replay? ids = some known := by
  induction changes generalizing ids with
  | nil => exact ⟨ids, rfl⟩
  | cons change changes ih =>
    have hrest : ∀ count, .replaced count ∉ changes := fun count hmem => h count (List.mem_cons_of_mem _ hmem)
    cases hnext : change.replay? ids with
    | none =>
      cases change with
      | replaced count => exact absurd List.mem_cons_self (h count)
      | _ => cases hnext
    | some next =>
      obtain ⟨known, hknown⟩ := ih hrest next
      refine ⟨known, ?_⟩
      rw [List.foldlM_cons, hnext]
      exact hknown

end TokenChange

namespace Store

/-- The ids of the tokens from left to right. -/
def rowIds (s : Store) : List TokenId := s.tokens.map (·.id)

/-- No two tokens have one id, at any moment. -/
def DistinctAlong (s : Store) : List Operation → Prop
  | [] => s.rowIds.Nodup
  | op :: ops => s.rowIds.Nodup ∧ (s.perform op).DistinctAlong ops

instance decidableDistinctAlong : (s : Store) → (ops : List Operation) → Decidable (s.DistinctAlong ops)
  | s, [] => inferInstanceAs (Decidable s.rowIds.Nodup)
  | s, op :: ops =>
    have := decidableDistinctAlong (s.perform op) ops
    inferInstanceAs (Decidable (s.rowIds.Nodup ∧ (s.perform op).DistinctAlong ops))

variable {s s' : Store} {op : Operation} {place : Nat}

theorem DistinctAlong.of_append {ops more : List Operation} (h : s.DistinctAlong (ops ++ more)) :
    s.DistinctAlong ops ∧ (s.performAll ops).DistinctAlong more := by
  induction ops generalizing s with
  | nil =>
    refine ⟨?_, h⟩
    cases more with
    | nil => exact h
    | cons op more => exact h.1
  | cons op ops ih =>
    obtain ⟨hnow, hlater⟩ := h
    exact ⟨⟨hnow, (ih hlater).1⟩, (ih hlater).2⟩

/-! ### What an operation on the tokens tells -/

theorem told_of_eq {change : TokenChange} (h : s' = s.change s'.sequence change) : Told s [change] s' := by
  have htold := told_change s s'.sequence change
  rwa [← h] at htold

/-- Of an input's edits, one that tells something changes the tokens. -/
theorem Edit.tokens_ne {change : TokenChange} (h : Edit s s') (htold : Told s [change] s') : s'.tokens ≠ s.tokens := by
  obtain ⟨changes, -, hcounted, hchanged⟩ := h.told
  refine hchanged.1 fun hnil => ?_
  have hrevision := hcounted.revision
  rw [htold.revision, hnil] at hrevision
  simp at hrevision

theorem load_eq_some {tokens : List Token} (h : (s.load tokens).toOption = some s') :
    s'.tokens = tokens ∧ Told s [.replaced tokens.length] s' := by
  cases hload : s.load tokens with
  | error error => rw [hload] at h; cases h
  | ok loaded =>
    rw [hload] at h
    cases h
    obtain ⟨-, rfl⟩ := load_eq_ok_iff.1 hload
    exact ⟨rfl, ⟨rfl, rfl⟩⟩

theorem clear?_eq_some (h : s.clear? = some s') :
    s.tokens ≠ [] ∧ s'.tokens = [] ∧ s' = s.change s'.sequence .cleared := by
  obtain ⟨sequence, hsequence, rfl⟩ := Option.map_eq_some_iff.1 h
  refine ⟨?_, TokenSequence.clear?_tokens hsequence, rfl⟩
  intro hnil
  have hnone : s.sequence.clear? = none := by
    rw [TokenSequence.clear?, if_pos]
    exact List.isEmpty_iff.2 hnil
  rw [hsequence] at hnone
  cases hnone

/-- An operation that changed the tokens told one change. The row is another one then, a bulk load apart, and the
change explains its ids. -/
theorem told_of_perform? (hedits : op.edits) (h : s.perform? op = some s') :
    ∃ change, Told s [change] s' ∧ (s'.tokens ≠ s.tokens ∨ ∃ count, change = .replaced count) ∧
      (s.rowIds.Nodup → change.Explains s.rowIds s'.rowIds) := by
  cases op with
  | append data =>
    cases h
    have htokens : (s.append data).2.tokens = s.tokens ++ [⟨⟨s.ids.next⟩, data⟩] := rfl
    refine ⟨.appended ⟨s.ids.next⟩, ⟨rfl, rfl⟩, .inl (by simp [htokens]), fun _ => ?_⟩
    refine TokenChange.explains_of_replay (congrArg some ?_)
    rw [rowIds, rowIds, htokens, List.map_append]
    rfl
  | erase id =>
    obtain ⟨-, htokens, heq⟩ := erase?_eq_some h
    have htold := told_of_eq heq
    refine ⟨_, htold, .inl ((Edit.erases h).tokens_ne htold), fun hdistinct => ?_⟩
    refine TokenChange.explains_of_replay (congrArg some ?_)
    rw [hdistinct.erase_eq_filter, rowIds, rowIds, htokens, List.filter_map]
    congr 1
    -- the ids are distinct, so erasing one is leaving it out
    exact List.filter_congr fun t _ => Bool.eq_iff_iff.2 (by simp)
  | dropLast =>
    obtain ⟨⟨t, dropped⟩, hdrop, rfl⟩ := Option.map_eq_some_iff.1 h
    obtain ⟨htokens, heq⟩ := dropLast?_eq_some hdrop
    have htold := told_of_eq heq
    refine ⟨_, htold, .inl ((Edit.drops hdrop).tokens_ne htold), fun hdistinct => ?_⟩
    have hrow : s.rowIds = dropped.rowIds ++ [t.id] := by rw [rowIds, htokens, List.map_append]; rfl
    -- the last id is no other token's, so erasing it takes it off the end
    have hfresh : t.id ∉ dropped.rowIds := by
      rw [hrow] at hdistinct
      exact fun hmem => List.disjoint_of_nodup_append hdistinct hmem List.mem_cons_self
    refine TokenChange.explains_of_replay (congrArg some ?_)
    rw [hrow, List.erase_append_right _ hfresh, List.erase_cons_head, List.append_nil]
  | relabel id label =>
    obtain ⟨-, heq, before, t, after, current, htokens, -, -, -, hafter⟩ := relabel?_eq_some h
    have htold := told_of_eq heq
    refine ⟨_, htold, .inl ((Edit.relabels h).tokens_ne htold), fun _ => ?_⟩
    refine TokenChange.explains_of_replay (congrArg some ?_)
    -- the id stays the same
    simp [rowIds, htokens, hafter]
  | load tokens =>
    obtain ⟨htokens, htold⟩ := load_eq_some h
    refine ⟨_, htold, .inr ⟨_, rfl⟩, fun _ => ⟨?_, ?_⟩⟩
    -- a bulk load does not tell the ids, only how many there are
    · rintro known ⟨⟩
    · rintro count ⟨⟩
      rw [rowIds, htokens, List.length_map]
  | clear =>
    obtain ⟨hne, htokens, heq⟩ := clear?_eq_some h
    refine ⟨_, told_of_eq heq, .inl (fun hsame => hne (hsame.symm.trans htokens)), fun _ => ?_⟩
    refine TokenChange.explains_of_replay (congrArg some ?_)
    rw [rowIds, htokens]
    rfl
  | publish | subscribe | unsubscribe => cases hedits

/-- Of the operations on the tokens, one that says that it changed nothing leaves the store alone, and any other counts
and tells exactly one change. -/
theorem perform_edit (s : Store) (hedits : op.edits) :
    s.perform? op = none ∧ s.perform op = s ∨
      ∃ change, Told s [change] (s.perform op) ∧
        ((s.perform op).tokens ≠ s.tokens ∨ ∃ count, change = .replaced count) := by
  cases h : s.perform? op with
  | none => exact .inl ⟨rfl, perform_of_none h⟩
  | some s' =>
    obtain ⟨change, htold, hchanged, -⟩ := told_of_perform? hedits h
    rw [perform_of_some h]
    exact .inr ⟨change, htold, hchanged⟩

/-! ### What subscribers hear of some operations -/

theorem Told.subscriber? {changes : List TokenChange} {old : Subscriber} (h : Told s changes s')
    (hold : s.subscriber? place = some old) :
    s'.subscriber? place = some (old.told (announcements s.revision changes)) := by
  have hplace : s.subscribers[place]? = some old := hold
  rw [Store.subscriber?, h.subscribers, List.getElem?_map, hplace]
  rfl

/-- During some operations these events were told, among them these changes of the tokens. Whoever listened all the
time holds them, and whoever did not listen holds nothing new. If no two tokens had one id, the ids then are what the
changes make of the ids before, and a bulk load at the end told how many there are. -/
structure Follows (s : Store) (ops : List Operation) (events : List Event) (changes : List TokenChange) : Prop where
  announced : events.filter (·.isTokensChanged) = announcements s.revision changes
  revision : (s.performAll ops).revision = s.revision + changes.length
  received : ∀ place old, s.subscriber? place = some old → (.unsubscribe place ∈ ops → old.listens = false) →
    (s.performAll ops).subscriber? place = some (old.told events)
  replay : s.DistinctAlong ops →
    ∀ known ∈ changes.foldlM TokenChange.replay? s.rowIds, (s.performAll ops).rowIds = known
  replaced : s.DistinctAlong ops →
    ∀ count, changes.getLast? = some (.replaced count) → (s.performAll ops).rowIds.length = count

theorem follows_nil (s : Store) : Follows s [] [] [] where
  announced := rfl
  revision := rfl
  received place old hold _ := by rw [Subscriber.told_nil]; exact hold
  replay _ known hknown := Option.some.inj hknown
  replaced _ count hlast := by cases hlast

theorem Follows.trans {ops more : List Operation} {events events' : List Event} {changes changes' : List TokenChange}
    (h : Follows s ops events changes) (h' : Follows (s.performAll ops) more events' changes') :
    Follows s (ops ++ more) (events ++ events') (changes ++ changes') := by
  have hall := s.performAll_append ops more
  constructor
  · rw [List.filter_append, h.announced, h'.announced, h.revision, announcements_append]
  · rw [hall, h'.revision, h.revision, List.length_append, Nat.add_assoc]
  -- whoever listens during both parts hears both, one after the other
  · intro place old hold hsilent
    have hfirst := h.received place old hold fun hmem => hsilent (List.mem_append_left _ hmem)
    have hlistens : (old.told events).listens = old.listens := by
      unfold Subscriber.told
      split <;> rfl
    rw [hall, h'.received place _ hfirst, Subscriber.told_told]
    exact fun hmem => hlistens.trans (hsilent (List.mem_append_right _ hmem))
  -- the ids after the first part are worked out first
  · intro hdistinct known hknown
    obtain ⟨hfirst, hsecond⟩ := hdistinct.of_append
    rw [List.foldlM_append] at hknown
    obtain ⟨middle, hmiddle, hrest⟩ := Option.bind_eq_some_iff.1 hknown
    rw [hall]
    rw [← h.replay hfirst middle hmiddle] at hrest
    exact h'.replay hsecond known hrest
  · intro hdistinct count hlast
    obtain ⟨hfirst, hsecond⟩ := hdistinct.of_append
    rw [hall]
    -- the last change is one of the second part, or there was none in it
    rcases List.eq_nil_or_concat' changes' with rfl | ⟨front, change, rfl⟩
    · rw [List.append_nil] at hlast
      rw [h'.replay hsecond _ rfl]
      exact h.replaced hfirst count hlast
    · refine h'.replaced hsecond count ?_
      rw [← List.append_assoc, List.getLast?_concat] at hlast
      rw [List.getLast?_concat, hlast]

/-- An operation that leaves tokens and revision alone. -/
theorem follows_of_unchanged {events : List Event} (hevents : events.filter (·.isTokensChanged) = [])
    (htokens : (s.perform op).tokens = s.tokens) (hrevision : (s.perform op).revision = s.revision)
    (hreceived : ∀ place old, s.subscriber? place = some old → (op = .unsubscribe place → old.listens = false) →
      (s.perform op).subscriber? place = some (old.told events)) : Follows s [op] events [] where
  announced := hevents
  revision := hrevision
  received place old hold hsilent :=
    hreceived place old hold fun heq => hsilent (by rw [heq]; exact List.mem_cons_self)
  replay _ known hknown := by
    cases hknown
    show (s.perform op).tokens.map (·.id) = _
    rw [htokens]
    rfl
  replaced _ count hlast := by cases hlast

theorem unsubscribe?_eq_some (h : s.unsubscribe? place = some s') :
    ∃ events, s.subscriber? place = some ⟨true, events⟩ ∧
      s' = { s with subscribers := s.subscribers.set place ⟨false, events⟩ } := by
  unfold unsubscribe? at h
  split at h
  · next events hplace =>
    cases h
    exact ⟨events, hplace, rfl⟩
  · cases h

theorem follows_one (s : Store) (op : Operation) : ∃ events changes, Follows s [op] events changes := by
  cases hperform : s.perform? op with
  | none =>
    have hsame := perform_of_none hperform
    refine ⟨[], [], follows_of_unchanged rfl (by rw [hsame]) (by rw [hsame]) ?_⟩
    intro place old hold _
    rw [hsame, Subscriber.told_nil]
    exact hold
  | some s' =>
    have hnext := perform_of_some hperform
    by_cases hedits : op.edits
    -- a change: everybody who listens is told, and the ids follow
    · obtain ⟨change, htold, -, hexplains⟩ := told_of_perform? hedits hperform
      have hall : s.performAll [op] = s' := hnext
      refine ⟨announcements s.revision [change], [change], rfl, ?_, ?_, ?_, ?_⟩
      · rw [hall, htold.revision]
      · intro place old hold _
        rw [hall]
        exact htold.subscriber? hold
      · intro hdistinct known hknown
        rw [hall]
        refine (hexplains hdistinct.1).replay known ?_
        simpa using hknown
      · rintro hdistinct count ⟨⟩
        rw [hall]
        exact (hexplains hdistinct.1).replaced count rfl
    -- the other operations leave the tokens alone
    · cases op with
      | publish result =>
        refine ⟨[.resultChanged s.revision result], [], follows_of_unchanged rfl rfl rfl ?_⟩
        intro place old hold _
        have hplace : s.subscribers[place]? = some old := hold
        rw [hnext]
        cases hperform
        rw [Store.subscriber?, publish, emit, List.getElem?_map, hplace]
        rfl
      | subscribe =>
        refine ⟨[], [], follows_of_unchanged rfl rfl rfl ?_⟩
        intro place old hold _
        obtain ⟨hlt, -⟩ := List.getElem?_eq_some_iff.1 hold
        rw [Subscriber.told_nil, ← hold]
        exact List.getElem?_append_left hlt
      | unsubscribe ended =>
        obtain ⟨events, hlistens, heq⟩ := unsubscribe?_eq_some hperform
        refine ⟨[], [], follows_of_unchanged rfl (by rw [hnext, heq]; rfl) (by rw [hnext, heq]) ?_⟩
        intro place old hold hsilent
        -- the subscriber who leaves is another, since this one still listens
        have hne : ended ≠ place := by
          rintro rfl
          rw [hlistens] at hold
          cases hold
          cases hsilent rfl
        rw [hnext, heq, Subscriber.told_nil, ← hold]
        exact List.getElem?_set_ne hne
      | _ => exact absurd rfl hedits

/-- Any operations tell some events. -/
theorem exists_follows (s : Store) (ops : List Operation) : ∃ events changes, Follows s ops events changes := by
  induction ops generalizing s with
  | nil => exact ⟨[], [], follows_nil s⟩
  | cons op ops ih =>
    obtain ⟨events, changes, hfirst⟩ := follows_one s op
    obtain ⟨events', changes', hrest⟩ := ih (s.perform op)
    exact ⟨_, _, hfirst.trans hrest⟩

theorem subscriber?_subscribe (s : Store) : s.subscribe.2.subscriber? s.subscribe.1 = some {} :=
  List.getElem?_concat_length

theorem subscriber?_subscribe_of_some {old : Subscriber} (h : s.subscriber? place = some old) :
    s.subscribe.2.subscriber? place = some old := by
  obtain ⟨hlt, -⟩ := List.getElem?_eq_some_iff.1 h
  rw [← h]
  exact List.getElem?_append_left hlt

/-- Whoever stopped listening holds the same events for ever. -/
theorem subscriber?_unsubscribed {events : List Event} (h : s.subscriber? place = some ⟨true, events⟩)
    (later : List Operation) :
    ((s.perform (.unsubscribe place)).performAll later).subscriber? place = some ⟨false, events⟩ := by
  have hlt : place < s.subscribers.length := (List.getElem?_eq_some_iff.1 h).1
  have hended : (s.perform (.unsubscribe place)).subscriber? place = some ⟨false, events⟩ := by
    have hperform : s.perform? (.unsubscribe place) =
        some { s with subscribers := s.subscribers.set place ⟨false, events⟩ } := by
      rw [perform?, unsubscribe?, h]
    rw [perform_of_some hperform]
    exact List.getElem?_set_self hlt
  obtain ⟨events', changes, hfollows⟩ := exists_follows (s.perform (.unsubscribe place)) later
  exact hfollows.received place _ hended fun _ => rfl

/-- What the next subscriber of a store holds after some operations, and what that says about the store. -/
structure Logged (s : Store) (during : List Operation) (events : List Event) (changes : List TokenChange) : Prop where
  /-- It still listens and holds these events. -/
  held : (s.subscribe.2.performAll during).subscriber? s.subscribe.1 = some ⟨true, events⟩
  /-- Among them are the changes of the tokens, numbered on from the revision at its subscription, and no other. -/
  announced : events.filter (·.isTokensChanged) = announcements s.revision changes
  /-- The last one has the revision of now. -/
  revision : (s.subscribe.2.performAll during).revision = s.revision + changes.length
  /-- Everybody else who listened all the time was told the same. -/
  everybody : ∀ other old, s.subscriber? other = some old → old.listens = true → .unsubscribe other ∉ during →
    (s.subscribe.2.performAll during).subscriber? other = some ⟨true, old.events ++ events⟩
  /-- Without a bulk load, the changes lead from the ids at the subscription to the ids now. -/
  replay : (∀ count, .replaced count ∉ changes) →
    changes.foldlM TokenChange.replay? s.rowIds = some (s.subscribe.2.performAll during).rowIds
  /-- A bulk load just now told how many ids there are. -/
  replaced : ∀ count, changes.getLast? = some (.replaced count) →
    (s.subscribe.2.performAll during).rowIds.length = count
  /-- If it stops listening now, it holds the same events for ever. -/
  closed : ∀ later, (((s.subscribe.2.performAll during).perform (.unsubscribe s.subscribe.1)).performAll
    later).subscriber? s.subscribe.1 = some ⟨false, events⟩

/-- As long as it listens, a subscriber holds the history of the store since its subscription, whatever is done with
the store. The operations are programs that change the store in place: one that answers `false` has left it as it was,
and any other operation on the tokens has told exactly one change. -/
theorem subscriber_holds_history {s : Store} {during : List Operation}
    (hdistinct : s.subscribe.2.DistinctAlong during) (hstays : .unsubscribe s.subscribe.1 ∉ during) :
    (∃ events changes, Logged s during events changes) ∧
      (∀ (s : Store) (ops : List Operation), ((ops.mapM Operation.inPlace).run s).2 = s.performAll ops) ∧
      ∀ (s : Store) (op : Operation), op.inPlace.run s = ((s.perform? op).isSome, s.perform op) ∧
        ((op.inPlace.run s).1 = false → (op.inPlace.run s).2 = s) ∧
        (s.perform? op = none → s.perform op = s) ∧
        (op.edits → s.perform? op ≠ none → ∃ change, Told s [change] (s.perform op) ∧
          ((s.perform op).tokens ≠ s.tokens ∨ ∃ count, change = .replaced count)) := by
  obtain ⟨events, changes, hfollows⟩ := exists_follows s.subscribe.2 during
  have hheld := hfollows.received _ _ (subscriber?_subscribe s) fun hmem => absurd hmem hstays
  refine ⟨⟨events, changes, hheld, hfollows.announced, hfollows.revision, ?_, ?_, ?_, ?_⟩, ?_, ?_⟩
  · rintro other ⟨listens, old⟩ hold rfl hother
    exact hfollows.received other _ (subscriber?_subscribe_of_some hold) fun hmem => absurd hmem hother
  · intro hloads
    obtain ⟨known, hknown⟩ := TokenChange.exists_replay hloads s.rowIds
    rw [hknown, hfollows.replay hdistinct known hknown]
  · exact hfollows.replaced hdistinct
  · exact subscriber?_unsubscribed hheld
  · intro s ops
    exact mapM_inPlace_run ops s
  · refine fun s op => ⟨op.inPlace_run s, op.unchanged_of_false s, perform_of_none, fun hedits hsome => ?_⟩
    exact (perform_edit s hedits).resolve_left fun hnone => hsome hnone.1

/-- Five changes beside a refused one, a result and a subscriber who leaves. -/
theorem subscriber_holds_history_five :
    let s := Store.performAll {} [.append (.tag "x"), .subscribe]
    let during : List Operation := [.append (.operand .add), .erase ⟨1⟩, .publish "0", .dropLast, .dropLast,
      .unsubscribe 0, .load [⟨⟨9⟩, .tag "y"⟩, ⟨⟨4⟩, .operand .sub⟩], .relabel ⟨9⟩ " z "]
    ∃ events changes, Logged s during events changes ∧ changes.length = 5 := by
  intro s during
  have hdistinct : s.subscribe.2.DistinctAlong during := by decide
  have hplace : s.subscribe.1 = 1 := rfl
  have hstays : .unsubscribe s.subscribe.1 ∉ during := by simp [during, hplace]
  obtain ⟨⟨events, changes, hlogged⟩, -⟩ := subscriber_holds_history hdistinct hstays
  have hnow : (s.subscribe.2.performAll during).revision = 6 := by decide
  have hbefore : s.revision = 1 := by decide
  have hrevision := hlogged.revision
  exact ⟨events, changes, hlogged, by omega⟩

end Store

end FormulaBar
