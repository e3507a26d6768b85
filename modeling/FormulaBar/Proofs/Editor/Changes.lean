import FormulaBar.Proofs.Editor.Reachable
import FormulaBar.Proofs.Token.Classifier
import FormulaBar.Proofs.Token.Loads

/-!
# FormulaBar.Proofs.Editor.Changes — what subscribers are told of an input

`Store.Edit` lists what an input can do to the tokens: put at most two at the right end, or change the row once.
`Editor.Edits` says which input can do which of it, by one case analysis of all inputs (`edits_react`). `Told` follows
such changes through the store: each raises the revision by one and is told once, in order. From these follows what an
input announces (`handle_announces`), and that every token of an editor could be loaded again (`Reachable.admissible`).
-/

namespace FormulaBar

/-! ### Events -/

/-- The events of some changes of the tokens, told behind a revision. -/
def announcements (revision : Nat) : List TokenChange → List Event
  | [] => []
  | change :: changes => .tokensChanged (revision + 1) change :: announcements (revision + 1) changes

theorem announcements_append (revision : Nat) (changes more : List TokenChange) :
    announcements revision (changes ++ more) =
      announcements revision changes ++ announcements (revision + changes.length) more := by
  induction changes generalizing revision with
  | nil => rfl
  | cons change changes ih =>
    rw [List.cons_append, announcements, ih, announcements, List.length_cons, Nat.add_assoc,
      Nat.add_comm 1 changes.length, List.cons_append]

/-- The subscriber after some events, if it listens. -/
def Subscriber.told (s : Subscriber) (events : List Event) : Subscriber :=
  if s.listens then { s with events := s.events ++ events } else s

theorem Subscriber.told_nil (s : Subscriber) : s.told [] = s := by
  simp [told]

theorem Subscriber.told_told (s : Subscriber) (events more : List Event) :
    (s.told events).told more = s.told (events ++ more) := by
  by_cases h : s.listens <;> simp [told, h]

namespace Store

variable {s s' s'' : Store}

/-- From `s` to `s'` some changes were counted and told, one after another. -/
structure Told (s : Store) (changes : List TokenChange) (s' : Store) : Prop where
  revision : s'.revision = s.revision + changes.length
  subscribers : s'.subscribers = s.subscribers.map (·.told (announcements s.revision changes))

theorem Told.refl (s : Store) : Told s [] s := by
  refine ⟨rfl, ?_⟩
  simp [announcements, Subscriber.told_nil]

theorem Told.trans {changes more : List TokenChange} (h : Told s changes s') (h' : Told s' more s'') :
    Told s (changes ++ more) s'' := by
  refine ⟨?_, ?_⟩
  · rw [h'.revision, h.revision, List.length_append, Nat.add_assoc]
  · rw [h'.subscribers, h.subscribers, h.revision, announcements_append]
    simp [Subscriber.told_told]

theorem told_change (s : Store) (sequence : TokenSequence) (what : TokenChange) :
    Told s [what] (s.change sequence what) := ⟨rfl, rfl⟩

theorem told_append (s : Store) (d : TokenData) : ∃ change, Told s [change] (s.append d).2 := ⟨_, rfl, rfl⟩

/-! ### What an input does to the tokens -/

/-- Puts new tokens at the right end. -/
def appendAll (s : Store) (data : List TokenData) : Store := data.foldl (fun s d => (s.append d).2) s

/-- What an input can do to the tokens. -/
inductive Edit (s : Store) : Store → Prop
  | appends (data : List TokenData) (hlength : data.length ≤ 2) (hcheck : ∀ d ∈ data, d.check = .ok ()) :
      Edit s (s.appendAll data)
  | drops {t s'} (h : s.dropLast? = some (t, s')) : Edit s s'
  | erases {id s'} (h : s.erase? id = some s') : Edit s s'
  | relabels {id label s'} (h : s.relabel? id label = some s') : Edit s s'

@[simp] theorem appendAll_nil (s : Store) : s.appendAll [] = s := rfl

@[simp] theorem appendAll_cons (s : Store) (d : TokenData) (data : List TokenData) :
    s.appendAll (d :: data) = (s.append d).2.appendAll data := rfl

theorem appendAll_append (s : Store) (data more : List TokenData) :
    s.appendAll (data ++ more) = (s.appendAll data).appendAll more := List.foldl_append

theorem told_appendAll (s : Store) (data : List TokenData) :
    ∃ changes, changes.length = data.length ∧ Told s changes (s.appendAll data) := by
  induction data generalizing s with
  | nil => exact ⟨[], rfl, .refl s⟩
  | cons d data ih =>
    obtain ⟨change, hfirst⟩ := told_append s d
    obtain ⟨changes, hlength, hrest⟩ := ih (s.append d).2
    exact ⟨[change] ++ changes, by simp [hlength], hfirst.trans hrest⟩

/-- The new tokens follow the old ones, with the ids that the supply hands out next. -/
theorem appendAll_issues (s : Store) (data : List TokenData) :
    ∃ new : List Token, (s.appendAll data).tokens = s.tokens ++ new ∧ new.map (·.data) = data ∧
      ∀ i t, new[i]? = some t → t.id.raw = s.ids.next + UInt64.ofNat i := by
  induction data generalizing s with
  | nil => exact ⟨[], (List.append_nil _).symm, rfl, by simp⟩
  | cons d data ih =>
    obtain ⟨new, htokens, hdata, hids⟩ := ih (s.append d).2
    refine ⟨⟨⟨s.ids.next⟩, d⟩ :: new, ?_, by rw [List.map_cons, hdata], ?_⟩
    · rw [show (s.append d).2.tokens = s.tokens ++ [⟨⟨s.ids.next⟩, d⟩] from rfl, List.append_assoc] at htokens
      exact htokens
    · intro i t ht
      cases i with
      | zero =>
        cases ht
        simp
      | succ i =>
        have hid : t.id.raw = s.ids.next + 1 + UInt64.ofNat i := hids i t ht
        have hsucc : UInt64.ofNat (i + 1) = UInt64.ofNat i + 1 := UInt64.ofNat_add i 1
        rw [hid, hsucc, UInt64.add_assoc, UInt64.add_comm 1]

theorem appendAll_tokens (s : Store) (data : List TokenData) :
    ∃ new : List Token, (s.appendAll data).tokens = s.tokens ++ new ∧ new.map (·.data) = data := by
  obtain ⟨new, htokens, hdata, -⟩ := appendAll_issues s data
  exact ⟨new, htokens, hdata⟩

/-- The last token can be taken away. -/
theorem dropLast?_concat {before : List Token} {last : Token} (h : s.tokens = before ++ [last]) :
    s.dropLast? = some (last, s.change ⟨before⟩ (.removed last.id)) := by
  have hrow : s.sequence.tokens = before ++ [last] := h
  simp [dropLast?, TokenSequence.dropLast?, TokenSequence.last?, hrow]

theorem dropLast?_eq_some {t : Token} (h : s.dropLast? = some (t, s')) :
    s.tokens = s'.tokens ++ [t] ∧ s' = s.change s'.sequence (.removed t.id) := by
  obtain ⟨⟨u, sequence⟩, hsequence, heq⟩ := Option.map_eq_some_iff.1 h
  cases heq
  exact ⟨TokenSequence.dropLast?_tokens hsequence, rfl⟩

/-- A token that is there can be taken out. -/
theorem erase?_of_mem {t : Token} (h : t ∈ s.tokens) :
    s.erase? t.id = some (s.change ⟨s.tokens.filter (·.id ≠ t.id)⟩ (.removed t.id)) := by
  have hany : s.sequence.tokens.any (·.id = t.id) = true := List.any_eq_true.2 ⟨t, h, by simp⟩
  rw [erase?, TokenSequence.erase?, if_pos hany]
  rfl

theorem erase?_eq_some {id : TokenId} (h : s.erase? id = some s') :
    (∃ t ∈ s.tokens, t.id = id) ∧ s'.tokens = s.tokens.filter (·.id ≠ id) ∧
      s' = s.change s'.sequence (.removed id) := by
  obtain ⟨sequence, hsequence, rfl⟩ := Option.map_eq_some_iff.1 h
  refine ⟨?_, TokenSequence.erase?_tokens hsequence, rfl⟩
  by_contra hnone
  have habsent : s.sequence.erase? id = none :=
    TokenSequence.erase?_eq_none_iff.2 fun t ht hid => hnone ⟨t, ht, hid⟩
  rw [hsequence] at habsent
  cases habsent

theorem load_eq_ok_iff {tokens : List Token} : s.load tokens = .ok s' ↔
    TokenSequence.Loadable tokens ∧
      s' = { s with ids := s.ids.reserveAll tokens }.change ⟨tokens⟩
        (.replaced tokens.length) := by
  constructor
  · intro h
    obtain ⟨⟨row, ids⟩, hload, hchange⟩ := bind_eq_ok.1 h
    obtain ⟨hloadable, rfl, rfl⟩ := TokenSequence.load_eq_ok_iff.1 hload
    exact ⟨hloadable, (Except.ok.inj hchange).symm⟩
  · rintro ⟨hloadable, rfl⟩
    exact bind_eq_ok.2 ⟨_, TokenSequence.load_eq_ok_iff.2 ⟨hloadable, rfl, rfl⟩, rfl⟩

end Store

/-- Relabelling replaces one tag by another. -/
theorem TokenSequence.relabelFirst_eq_some {id : TokenId} {label : String} {ts us : List Token}
    (h : relabelFirst id label ts = some us) :
    ∃ before t after current, ts = before ++ t :: after ∧ t.id = id ∧ t.data = .tag current ∧ current ≠ label ∧
      us = before ++ ⟨t.id, .tag label⟩ :: after := by
  induction ts generalizing us with
  | nil => cases h
  | cons t ts ih =>
    rw [relabelFirst] at h
    split at h
    -- the first token with this id: only a tag with another label is changed
    · next hid =>
      split at h
      · next current hdata =>
        split at h
        · cases h
        · next hne =>
          cases h
          exact ⟨[], t, ts, current, rfl, hid, hdata, hne, rfl⟩
      · cases h
    -- the token stands further right
    · obtain ⟨vs, hvs, rfl⟩ := Option.map_eq_some_iff.1 h
      obtain ⟨before, u, after, current, rfl, hid, hdata, hne, rfl⟩ := ih hvs
      exact ⟨t :: before, u, after, current, rfl, hid, hdata, hne, rfl⟩

namespace Store

variable {s s' : Store}

theorem relabel?_of_relabelFirst {id : TokenId} {label : String} {row : List Token} (hblank : Text.trimmed label ≠ "")
    (h : TokenSequence.relabelFirst id (Text.trimmed label) s.tokens = some row) :
    s.relabel? id label = some (s.change ⟨row⟩ (.updated id)) := by
  have hrow : TokenSequence.relabelFirst id (Text.trimmed label) s.sequence.tokens = some row := h
  rw [relabel?, TokenSequence.relabel?, if_neg hblank, hrow]
  rfl

theorem relabel?_eq_some {id : TokenId} {label : String} (h : s.relabel? id label = some s') :
    Text.trimmed label ≠ "" ∧ s' = s.change s'.sequence (.updated id) ∧
      ∃ before t after current, s.tokens = before ++ t :: after ∧ t.id = id ∧ t.data = .tag current ∧
        current ≠ Text.trimmed label ∧ s'.tokens = before ++ ⟨t.id, .tag (Text.trimmed label)⟩ :: after := by
  obtain ⟨sequence, hsequence, rfl⟩ := Option.map_eq_some_iff.1 h
  unfold TokenSequence.relabel? at hsequence
  dsimp only at hsequence
  split at hsequence
  · cases hsequence
  · next hne =>
    obtain ⟨us, hus, rfl⟩ := Option.map_eq_some_iff.1 hsequence
    exact ⟨hne, rfl, TokenSequence.relabelFirst_eq_some hus⟩

/-- At most two changes are told, and some exactly if the tokens are not the same. -/
theorem Edit.told (h : Edit s s') :
    ∃ changes, changes.length ≤ 2 ∧ Told s changes s' ∧ (changes ≠ [] ↔ s'.tokens ≠ s.tokens) := by
  -- one change to another row
  have once {t : Store} (what : TokenChange) (heq : t = s.change t.sequence what) (hne : t.tokens ≠ s.tokens) :
      ∃ changes, changes.length ≤ 2 ∧ Told s changes t ∧ (changes ≠ [] ↔ t.tokens ≠ s.tokens) := by
    refine ⟨[what], by simp, ?_, by simpa using hne⟩
    have htold := told_change s t.sequence what
    rwa [← heq] at htold
  cases h with
  | appends data hlength _ =>
    obtain ⟨changes, hcount, htold⟩ := told_appendAll s data
    obtain ⟨new, htokens, rfl⟩ := appendAll_tokens s data
    refine ⟨changes, hcount ▸ hlength, htold, ?_⟩
    rw [htokens, ← List.length_pos_iff, hcount, List.length_map, List.length_pos_iff]
    simp
  | drops hdrop =>
    obtain ⟨htokens, heq⟩ := dropLast?_eq_some hdrop
    exact once _ heq (by simp [htokens])
  | erases herase =>
    obtain ⟨⟨t, ht, rfl⟩, htokens, heq⟩ := erase?_eq_some herase
    refine once _ heq ?_
    rw [htokens, Ne, List.filter_eq_self]
    intro hall
    simpa using hall t ht
  | relabels hrelabel =>
    obtain ⟨-, heq, before, t, after, current, htokens, -, hdata, hne, hafter⟩ := relabel?_eq_some hrelabel
    refine once _ heq ?_
    rw [hafter, htokens]
    intro hsame
    have htoken := (List.cons.inj (List.append_cancel_left hsame)).1
    rw [← htoken] at hdata
    exact hne (TokenData.tag.inj hdata).symm

/-- Every token could be loaded, if those before could. -/
theorem Edit.admissible (h : Edit s s') (hs : ∀ t ∈ s.tokens, t.data.check = .ok ()) :
    ∀ t ∈ s'.tokens, t.data.check = .ok () := by
  cases h with
  | appends data _ hcheck =>
    obtain ⟨new, htokens, rfl⟩ := appendAll_tokens s data
    rw [htokens]
    intro t ht
    rcases List.mem_append.1 ht with hold | hnew
    · exact hs t hold
    · exact hcheck _ (List.mem_map_of_mem hnew)
  | drops hdrop =>
    obtain ⟨htokens, -⟩ := dropLast?_eq_some hdrop
    intro t ht
    exact hs t (by simp [htokens, ht])
  | erases herase =>
    obtain ⟨-, htokens, -⟩ := erase?_eq_some herase
    intro t ht
    rw [htokens] at ht
    exact hs t (List.mem_of_mem_filter ht)
  | relabels hrelabel =>
    obtain ⟨hlabel, -, before, u, after, current, htokens, -, -, -, hafter⟩ := relabel?_eq_some hrelabel
    intro t ht
    rw [hafter, List.mem_append, List.mem_cons] at ht
    rcases ht with hbefore | rfl | hmem
    · exact hs t (by simp [htokens, hbefore])
    -- a label that is blank is refused, so the new one is not
    · exact TokenData.check_tag (fun hnil => hlabel (by rw [Text.trimmed, hnil]))
    · exact hs t (by simp [htokens, hmem])

/-- At most two tokens were put at the right end, each with what a token may hold. -/
def Appends (s s' : Store) : Prop :=
  ∃ data : List TokenData, data.length ≤ 2 ∧ (∀ d ∈ data, d.check = .ok ()) ∧ s' = s.appendAll data

theorem Appends.refl (s : Store) : s.Appends s := ⟨[], by simp, by simp, rfl⟩

end Store

/-- The input can put tokens at the right end. Of the characters, only an operator can. -/
def Input.appends : Input → Bool
  | .char c => (Operator.ofChar? c).isSome
  | .confirm | .advance | .accept _ => true
  | _ => false

namespace Editor

variable {issued : List Ticket} {e e' : Editor}

theorem append_store (e : Editor) (d : Option TokenData) : (e.append d).store = e.store.appendAll d.toList := by
  cases d <;> rfl

theorem commit_store (e : Editor) :
    e.commit.store = e.store.appendAll (e.popup.classifier.classify e.pending).toList := by
  rw [commit, render_store]
  exact append_store e _

theorem observe_store (e : Editor) : e.observe.1.store = e.store := rfl

theorem reopen_store (e : Editor) : e.reopen.1.store = e.store := rfl

theorem length_toList_le (d : Option TokenData) : d.toList.length ≤ 1 := by
  cases d <;> simp

/-- What was classified, and a token that follows it. -/
theorem appends_classified (s : Store) {k : Classifier} {text : String} {d : Option TokenData}
    (hd : ∀ d' ∈ d, d'.check = .ok ()) : s.Appends (s.appendAll ((k.classify text).toList ++ d.toList)) := by
  refine ⟨_, ?_, ?_, rfl⟩
  · rw [List.length_append]
    exact Nat.add_le_add (length_toList_le _) (length_toList_le _)
  · intro d' hd'
    rcases List.mem_append.1 hd' with hclassified | hlast
    · exact Classifier.check_classify (Option.mem_toList.1 hclassified)
    · exact hd d' (Option.mem_toList.1 hlast)

theorem appends_commit (e : Editor) : e.store.Appends e.commit.store := by
  rw [commit_store, ← List.append_nil (Option.toList _)]
  exact appends_classified e.store (d := none) (by simp)

theorem appends_accept (e : Editor) (index : Option Nat) : e.store.Appends (e.accept index).store := by
  unfold accept
  split
  · exact .refl _
  · next selection popup _ =>
    dsimp only
    split
    · exact .refl _
    · next hlabel =>
      rw [setPending_store, append_store, append_store, ← Store.appendAll_append]
      refine appends_classified e.store ?_
      rintro d ⟨⟩
      exact TokenData.check_tag (fun hnil => hlabel (by rw [Text.trimmed, hnil]))

/-- What an input can do to the store. -/
inductive Edits (e : Editor) : Input → Store → Prop
  | nothing (input : Input) : Edits e input e.store
  | appends {input store} (hinput : input.appends = true) (h : e.store.Appends store) : Edits e input store
  | drops {t store} (hpending : e.pending = "") (h : e.store.dropLast? = some (t, store)) : Edits e .backspace store
  | erases {id store} (h : e.store.erase? id = some store) : Edits e (.deleteToken id) store
  | relabels {id label store} (h : e.store.relabel? id label = some store) : Edits e (.editTag id label) store

theorem Edits.edit {input : Input} {store : Store} (h : Edits e input store) : e.store.Edit store := by
  cases h with
  | nothing => exact .appends [] (by simp) (by simp)
  | appends _ h =>
    obtain ⟨data, hlength, hcheck, rfl⟩ := h
    exact .appends data hlength hcheck
  | drops _ h => exact .drops h
  | erases h => exact .erases h
  | relabels h => exact .relabels h

theorem edits_withStore {input : Input} {store : Option Store} (h : ∀ s ∈ store, Edits e input s) :
    Edits e input (e.withStore store).store := by
  cases store with
  | none => exact .nothing input
  | some s => exact h s rfl

theorem edits_react (e : Editor) (input : Input) : Edits e input (e.react input).1.store := by
  cases input with
  | char c =>
    rw [react, typeChar]
    split
    -- an operator ends the pending text and is a token itself
    · next op hop =>
      refine .appends (Option.isSome_of_eq_some hop) ?_
      rw [append_store, commit_store, ← Store.appendAll_append]
      exact appends_classified e.store (by rintro d ⟨⟩; rfl)
    -- any other character is pending text, which the store does not see
    · split
      · exact .nothing _
      · rw [observe_store, setPending_store]
        exact .nothing _
  | setText text =>
    rw [react]
    split
    · exact .nothing _
    · rw [observe_store, setPending_store]
      exact .nothing _
  | confirm =>
    refine .appends rfl ?_
    rw [react]
    dsimp only
    split
    · exact appends_accept e none
    · exact appends_commit e
  | advance =>
    refine .appends rfl ?_
    rw [react]
    dsimp only
    split
    · exact appends_accept e none
    · exact .refl _
  | backspace =>
    rw [react, backspace]
    split
    -- pending text loses its last character
    · rw [observe_store, setPending_store]
      exact .nothing _
    · next hpending =>
      split
      · exact .nothing _
      -- without pending text the last token comes back as text
      · next hdrop =>
        rw [reopen_store, setPending_store]
        exact .drops (by simpa using hpending) hdrop
  | cancel | outside | next | previous | hover _ => exact .nothing _
  | accept index =>
    refine .appends rfl ?_
    rw [react]
    exact appends_accept e (some index)
  | focus =>
    rw [react]
    split
    · exact .nothing _
    · rw [reopen_store]
      exact .nothing _
  | deleteToken id => exact edits_withStore fun s hs => .erases hs
  | editTag id label => exact edits_withStore fun s hs => .relabels hs

/-- Every input does one of these things to the tokens. -/
theorem edit_react (e : Editor) (input : Input) : e.store.Edit (e.react input).1.store := (edits_react e input).edit

/-! ### Results and events -/

/-- What subscribers are told of an input: the changes of the tokens and, if there are any, the result then. -/
def announced (revision : Nat) (changes : List TokenChange) (result : String) : List Event :=
  announcements revision changes ++
    if changes = [] then [] else [.resultChanged (revision + changes.length) result]

theorem refresh_subscribers (e : Editor) : e.refresh.store.subscribers =
    e.store.subscribers.map (·.told [.resultChanged e.store.revision e.refresh.result]) := rfl

/-- Handling the input told every subscriber these changes of the tokens and, if there are any, the new result. -/
structure Announces (e : Editor) (input : Input) (changes : List TokenChange) : Prop where
  atMostTwo : changes.length ≤ 2
  revision : (e.handle input).1.store.revision = e.store.revision + changes.length
  subscribers : (e.handle input).1.store.subscribers =
    e.store.subscribers.map (·.told (announced e.store.revision changes (e.handle input).1.result))
  outcome : (e.handle input).2.tokensChanged = true ↔ changes ≠ []
  tokens : changes ≠ [] ↔ (e.handle input).1.tokens ≠ e.tokens

theorem handle_of_unchanged {input : Input} (h : (e.react input).1.store.revision = e.store.revision) :
    e.handle input = ((e.react input).1, { ticket := (e.react input).2 }) := if_pos h

theorem handle_of_changed {input : Input} (h : (e.react input).1.store.revision ≠ e.store.revision) :
    e.handle input = ((e.react input).1.refresh, { tokensChanged := true, ticket := (e.react input).2 }) := if_neg h

theorem handle_announces (e : Editor) (input : Input) : ∃ changes, Announces e input changes := by
  obtain ⟨changes, hlength, ⟨hrevision, hsubscribers⟩, htokens⟩ := (edit_react e input).told
  have hcounted : (e.handle input).1.store.revision = e.store.revision + changes.length := by
    rw [handle_revision, hrevision]
  have hchanged : changes ≠ [] ↔ (e.handle input).1.tokens ≠ e.tokens := by rwa [handle_tokens]
  by_cases hnil : changes = []
  · subst hnil
    have hhandle := handle_of_unchanged hrevision
    refine ⟨[], hlength, hcounted, ?_, by simp [hhandle], hchanged⟩
    rw [hhandle]
    simpa [announced, announcements] using hsubscribers
  · have hcount := List.length_pos_iff.2 hnil
    have hmore : (e.react input).1.store.revision ≠ e.store.revision := by omega
    have hhandle := handle_of_changed hmore
    refine ⟨changes, hlength, hcounted, ?_, by simp [hhandle, hnil], hchanged⟩
    rw [hhandle, refresh_subscribers, hsubscribers, hrevision, announced, if_neg hnil, List.map_map]
    exact List.map_congr_left fun s _ => Subscriber.told_told s _ _

/-- The result of an editor is always that of its tokens. An input announces to every subscriber its changes of the
tokens, two at most, and then the new result, or nothing if the tokens stay. -/
theorem Reachable.result_and_events (h : Reachable issued e) :
    e.result = Formula.result e.tokens e.bindings ∧ ∀ input, ∃ changes, Announces e input changes :=
  ⟨h.upToDate, handle_announces e⟩

/-- Behind a typed `1`, the operator `+` is told as two changes with one result. -/
theorem Reachable.result_and_events_of_operator :
    let fresh := Editor.start {} {}
    let e := (Editor.handle { fresh with store := fresh.store.subscribe.2 } (.char '1')).1
    ∃ changes : List TokenChange, changes.length = 2 ∧
      (e.handle (.char '+')).1.store.subscribers =
        [Subscriber.told {} (announced 0 changes (e.handle (.char '+')).1.result)] := by
  intro fresh e
  have he : Reachable _ e := (Reachable.start {} {} {}).subscribe.handle (.char '1')
  obtain ⟨changes, -, hrevision, hsubscribers, -, -⟩ := (Reachable.result_and_events he).2 (.char '+')
  have hzero : e.store.revision = 0 := by decide +kernel
  have htwo : (e.handle (.char '+')).1.store.revision = 2 := by decide +kernel
  have hone : e.store.subscribers = [{}] := by decide +kernel
  rw [hzero] at hrevision hsubscribers
  rw [hone, List.map_singleton] at hsubscribers
  exact ⟨changes, by omega, hsubscribers⟩

/-! ### The tokens of an editor -/

/-- Every token of an editor could be loaded. -/
theorem Reachable.admissible (h : Reachable issued e) : ∀ t ∈ e.tokens, t.data.check = .ok () := by
  induction h with
  | start bindings options ids => simp [tokens, Editor.start, Store.tokens]
  | handle _ input ih =>
    rw [handle_tokens]
    exact (edit_react _ input).admissible ih
  | answered _ t answer ih => rw [answered_eq]; exact ih
  | load _ hload _ =>
    obtain ⟨store, hstore, rfl⟩ := load_eq_ok hload
    obtain ⟨hloadable, rfl⟩ := Store.load_eq_ok_iff.1 hstore
    exact hloadable.sound
  | clear _ _ => simp [clear_eq]
  | setBindings _ _ ih | installSurface _ ih | subscribe _ ih | supply _ _ ih => exact ih
  | unsubscribe _ hstore ih =>
    rw [tokens, unsubscribe?_tokens hstore]
    exact ih

end Editor

end FormulaBar
