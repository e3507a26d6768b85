import FormulaBar.Proofs.Store.Log

/-!
# FormulaBar.Proofs.Editor.Workbook — editors that share the supply of ids

The ids of all tokens of a program come from one supply, whatever editor they are made in. `Workbook.History` runs some
editors on it, with the record of the ids that it handed out and of those that were loaded. One action adds to the record
what it does to the supply, and does to the ids of its editor one of the things that `IdSupply.Rows` allows
(`Editor.rows_act`). Together with what is known of one editor it follows that the tokens of every editor can be loaded
into any other (`Workbook.Exportable`).
-/

namespace FormulaBar

open IdUse

namespace Editor

variable {issued : List Ticket} {e : Editor}

/-! ### Actions -/

/-- Everything that can be done with an editor. -/
inductive Action
  | handle (input : Input)
  | answer (ticket : Ticket) (answer : Lookup)
  | load (tokens : List Token)
  | clear
  | setBindings (bindings : Bindings)
  | installSurface
  | subscribe
  | unsubscribe (place : Nat)

/-- The editor after an action; a refused load and an answer to a stale ticket leave it as it is. -/
def act (e : Editor) : Action → Editor
  | .handle input => (e.handle input).1
  | .answer ticket answer => e.answered ticket answer
  | .load tokens => (e.load tokens).toOption.getD e
  | .clear => e.clear
  | .setBindings bindings => e.setBindings bindings
  | .installSurface => e.installSurface
  | .subscribe => { e with store := e.store.subscribe.2 }
  | .unsubscribe place => e.withStore (e.store.unsubscribe? place)

/-- What an action does to the supply of ids: an input takes those of the tokens that it puts behind the others, and a
load brings its own. -/
def idUses (e : Editor) : Action → List IdUse
  | .handle input => ((e.handle input).1.tokens.drop e.tokens.length).map (.issued ·.id)
  | .load tokens => if (e.load tokens).isOk then tokens.map (.loaded ·.id) else []
  | _ => []

/-- The editor takes the next ids from this supply. -/
def drawOn (e : Editor) (ids : IdSupply) : Editor := { e with store := { e.store with ids } }

theorem Reachable.act (h : Reachable issued e) (action : Action) : ∃ issued', Reachable issued' (e.act action) := by
  cases action with
  | handle input => exact ⟨_, h.handle input⟩
  | answer ticket answer => exact ⟨_, h.answered ticket answer⟩
  | load tokens =>
    rw [Editor.act]
    cases hload : e.load tokens with
    | error error => exact ⟨_, h⟩
    | ok loaded => exact ⟨_, h.load hload⟩
  | clear => exact ⟨_, h.clear⟩
  | setBindings bindings => exact ⟨_, h.setBindings bindings⟩
  | installSurface => exact ⟨_, h.installSurface⟩
  | subscribe => exact ⟨_, h.subscribe⟩
  | unsubscribe place =>
    rw [Editor.act]
    cases hstore : e.store.unsubscribe? place with
    | none => exact ⟨_, h⟩
    | some store => exact ⟨_, h.unsubscribe hstore⟩

end Editor

/-! ### The ids of one editor -/

namespace Store

variable {s s' : Store} {uses : List IdUse} {rows : List (List TokenId)} {place : Nat}

theorem rows_appendAll (h : IdSupply.Rows uses s.ids rows) (hrow : rows[place]? = some s.rowIds)
    (data : List TokenData) :
    ∃ new, (s.appendAll data).tokens = s.tokens ++ new ∧
      IdSupply.Rows (uses ++ new.map (.issued ·.id)) (s.appendAll data).ids
        (rows.set place (s.appendAll data).rowIds) := by
  induction data generalizing s uses rows with
  | nil =>
    refine ⟨[], (List.append_nil _).symm, ?_⟩
    have hsame := h.keeps hrow (List.Sublist.refl _)
    simpa using hsame
  | cons d data ih =>
    have hplace : place < rows.length := (List.getElem?_eq_some_iff.1 hrow).1
    -- the first token takes the next id, and the others those behind it
    have htokens : (s.append d).2.tokens = s.tokens ++ [⟨s.ids.fresh.1, d⟩] := rfl
    have hids : (s.append d).2.rowIds = s.rowIds ++ [s.ids.fresh.1] := by
      rw [rowIds, htokens, List.map_append]
      rfl
    have hfirst := h.issues hrow
    rw [← hids] at hfirst
    obtain ⟨new, hnew, hrest⟩ := ih (s := (s.append d).2) hfirst (List.getElem?_set_self hplace)
    refine ⟨⟨s.ids.fresh.1, d⟩ :: new, ?_, ?_⟩
    · rw [appendAll_cons, hnew, htokens, List.append_assoc]
      rfl
    · rw [List.set_set] at hrest
      simpa using hrest

/-- What an input does to the tokens, and which ids it takes. -/
theorem rows_edit (hedit : Edit s s') (h : IdSupply.Rows uses s.ids rows) (hrow : rows[place]? = some s.rowIds) :
    IdSupply.Rows (uses ++ (s'.tokens.drop s.tokens.length).map (.issued ·.id)) s'.ids
      (rows.set place s'.rowIds) := by
  -- a row with fewer tokens takes no id
  have fewer {t : Store} (hids : t.ids = s.ids) (hsub : t.rowIds.Sublist s.rowIds) :
      IdSupply.Rows (uses ++ (t.tokens.drop s.tokens.length).map (.issued ·.id)) t.ids (rows.set place t.rowIds) := by
    have hlength : t.tokens.length ≤ s.tokens.length := by simpa [rowIds] using hsub.length_le
    rw [List.drop_eq_nil_of_le hlength, hids]
    simpa using h.keeps hrow hsub
  cases hedit with
  | appends data _ _ =>
    obtain ⟨new, hnew, hrows⟩ := rows_appendAll h hrow data
    rwa [hnew, List.drop_left]
  | drops hdrop =>
    obtain ⟨htokens, heq⟩ := dropLast?_eq_some hdrop
    refine fewer (by rw [heq]; rfl) ?_
    rw [rowIds, rowIds, htokens, List.map_append]
    exact List.sublist_append_left _ _
  | erases herase =>
    obtain ⟨-, htokens, heq⟩ := erase?_eq_some herase
    refine fewer (by rw [heq]; rfl) ?_
    rw [rowIds, rowIds, htokens]
    exact List.filter_sublist.map _
  | relabels hrelabel =>
    obtain ⟨-, heq, before, t, after, current, htokens, -, -, -, hafter⟩ := relabel?_eq_some hrelabel
    refine fewer (by rw [heq]; rfl) ?_
    rw [rowIds, rowIds, htokens, hafter]
    simp

end Store

namespace Editor

variable {e : Editor} {uses : List IdUse} {rows : List (List TokenId)} {place : Nat}

theorem clear_ids (e : Editor) : e.clear.store.ids = e.store.ids := by
  unfold clear
  dsimp only
  split
  · next store hstore =>
    obtain ⟨-, -, heq⟩ := Store.clear?_eq_some hstore
    rw [heq]
    rfl
  · rfl

theorem rows_of_load {tokens : List Token} {e' : Editor} (h : IdSupply.Rows uses e.store.ids rows)
    (hload : e.load tokens = .ok e') :
    IdSupply.Rows (uses ++ tokens.map (.loaded ·.id)) e'.store.ids (rows.set place e'.store.rowIds) := by
  obtain ⟨store, hstore, rfl⟩ := load_eq_ok hload
  obtain ⟨hloadable, rfl⟩ := Store.load_eq_ok_iff.1 hstore
  exact h.loads place hloadable.distinct hloadable.inRange

theorem exists_load {tokens : List Token} (h : TokenSequence.Loadable tokens) (target : Editor) :
    ∃ loaded, target.load tokens = .ok loaded ∧ loaded.tokens = tokens ∧
      loaded.result = Formula.result tokens target.bindings := by
  have hstore := (Store.load_eq_ok_iff (s := target.store)).2 ⟨h, rfl⟩
  exact ⟨_, bind_eq_ok.2 ⟨_, hstore, rfl⟩, rfl, rfl⟩

/-- What an action does to the ids of the editor and to the supply. -/
theorem rows_act (h : IdSupply.Rows uses e.store.ids rows) (hrow : rows[place]? = some e.store.rowIds)
    (action : Action) :
    IdSupply.Rows (uses ++ e.idUses action) (e.act action).store.ids (rows.set place (e.act action).store.rowIds) := by
  -- an action that brings no token in
  have quiet (hnone : e.idUses action = []) (hids : (e.act action).store.ids = e.store.ids)
      (hsub : (e.act action).tokens.Sublist e.tokens) :
      IdSupply.Rows (uses ++ e.idUses action) (e.act action).store.ids
        (rows.set place (e.act action).store.rowIds) := by
    rw [hnone, List.append_nil, hids]
    exact h.keeps hrow (hsub.map _)
  cases action with
  | handle input =>
    have hrows := Store.rows_edit (edit_react e input) h hrow
    have htokens : (e.handle input).1.store.tokens = (e.react input).1.store.tokens := handle_tokens e input
    rw [idUses, act, handle_ids, handle_tokens, Store.rowIds, htokens]
    exact hrows
  | answer ticket answer =>
    have heq : e.act (.answer ticket answer) = _ := answered_eq e ticket answer
    exact quiet rfl (by rw [heq]) (by rw [heq]; exact List.Sublist.refl _)
  | load tokens =>
    rw [idUses, act]
    cases hload : e.load tokens with
    | error error => simpa [Except.isOk, Except.toBool, Except.toOption] using h.keeps hrow (List.Sublist.refl _)
    | ok e' => exact rows_of_load h hload
  | clear =>
    have hnil : (e.act .clear).tokens = [] := (clear_eq e).1
    exact quiet rfl (clear_ids e) (by rw [hnil]; exact List.nil_sublist _)
  | setBindings | installSurface | subscribe => exact quiet rfl rfl (List.Sublist.refl _)
  | unsubscribe ended =>
    have hsame : (e.act (.unsubscribe ended)).store.ids = e.store.ids ∧
        (e.act (.unsubscribe ended)).tokens = e.tokens := by
      rw [act, withStore]
      cases hstore : e.store.unsubscribe? ended with
      | none => exact ⟨rfl, rfl⟩
      | some store =>
        obtain ⟨_, -, rfl⟩ := Store.unsubscribe?_eq_some hstore
        exact ⟨rfl, rfl⟩
    exact quiet rfl hsame.1 (by rw [hsame.2])

end Editor

/-! ### Several editors -/

/-- Some editors that draw on one supply of ids. -/
structure Workbook where
  ids : IdSupply := {}
  editors : List Editor := []

namespace Workbook

/-- Editors that were opened and used in turn, with everything that happened to the supply. -/
inductive History : List IdUse → Workbook → Prop
  | start : History [] {}
  | opens {uses w} (h : History uses w) (bindings : Bindings) (options : EditorOptions) :
      History uses { w with editors := w.editors ++ [Editor.start bindings options] }
  | acts {uses w e} (h : History uses w) (place : Nat) (he : w.editors[place]? = some e) (action : Editor.Action) :
      History (uses ++ (e.drawOn w.ids).idUses action)
        ⟨((e.drawOn w.ids).act action).store.ids, w.editors.set place ((e.drawOn w.ids).act action)⟩

variable {uses : List IdUse} {w : Workbook}

theorem History.rows (h : History uses w) : IdSupply.Rows uses w.ids (w.editors.map (·.store.rowIds)) := by
  induction h with
  | start => exact .start
  | opens _ bindings options ih =>
    rw [List.map_append]
    exact ih.opens
  | @acts uses w e _ place he action ih =>
    have hrow : (w.editors.map (·.store.rowIds))[place]? = some (e.drawOn w.ids).store.rowIds := by
      rw [List.getElem?_map, he]
      rfl
    rw [List.map_set]
    exact Editor.rows_act ih hrow action

theorem History.reachable (h : History uses w) : ∀ e ∈ w.editors, ∃ issued, Editor.Reachable issued e := by
  induction h with
  | start => simp
  | opens _ bindings options ih =>
    exact List.forall_mem_append.2 ⟨ih, List.forall_mem_singleton.2 ⟨_, .start bindings options {}⟩⟩
  | @acts uses w e _ place he action ih =>
    intro e' he'
    rcases List.mem_or_eq_of_mem_set he' with hold | rfl
    · exact ih e' hold
    · obtain ⟨issued, hreach⟩ := ih e (List.mem_of_getElem? he)
      exact (hreach.supply w.ids).act action

/-- The tokens of an editor are in order: -/
structure Exportable (w : Workbook) (e : Editor) : Prop where
  /-- no two have one id, -/
  distinct : (e.tokens.map (·.id)).Nodup
  /-- the supply is past all of their ids, -/
  behind : ∀ t ∈ e.tokens, t.id.raw.toNat < w.ids.next.toNat
  /-- their numbers are finite, -/
  finite : ∀ t ∈ e.tokens, ∀ value, t.data = .number value → Binary64.isFinite value = true
  /-- no label is blank, -/
  labelled : ∀ t ∈ e.tokens, ∀ label, t.data = .tag label → Text.isBlankText label = false
  /-- and they can be loaded into any editor, which has the same result then if it has the same bindings. -/
  loads : ∀ target : Editor, ∃ loaded, target.load e.tokens = .ok loaded ∧ loaded.tokens = e.tokens ∧
    (target.bindings = e.bindings → loaded.result = e.result)

theorem History.loadable (h : History uses w) (hroom : HasRoom uses) {e : Editor} (he : e ∈ w.editors) :
    TokenSequence.Loadable e.tokens := by
  have hrow : e.store.rowIds ∈ w.editors.map (·.store.rowIds) := List.mem_map_of_mem he
  obtain ⟨issued, hreach⟩ := h.reachable e he
  refine ⟨h.rows.nodup hroom _ hrow, fun t ht => ?_, hreach.admissible⟩
  exact TokenId.ne_greatest_of_lt (h.rows.lt_next hroom _ hrow _ (List.mem_map_of_mem ht))

/-- With room, no token of any editor has the next id. -/
theorem History.next_ne (h : History uses w) (hroom : HasRoom uses) :
    ∀ e ∈ w.editors, ∀ t ∈ e.tokens, t.id ≠ w.ids.fresh.1 := by
  intro e he t ht
  have hrow : e.store.rowIds ∈ w.editors.map (·.store.rowIds) := List.mem_map_of_mem he
  exact h.rows.next_ne hroom _ hrow _ (List.mem_map_of_mem ht)

/-- As long as the supply has room, its record is complete, an id that it hands out was neither handed out nor loaded
before in any editor, and the tokens of every editor are in order. -/
theorem History.exportable (h : History uses w) (hroom : HasRoom uses) :
    IdSupply.Log uses w.ids ∧
      (∀ before id, before ++ [.issued id] <+: uses → ∀ use ∈ before, use.id ≠ id) ∧
      ∀ e ∈ w.editors, w.Exportable e := by
  refine ⟨h.rows.log, fun before id hbefore => (h.rows.log.fresh hroom hbefore).1, fun e he => ?_⟩
  -- its ids are known from the record of the supply, its tokens from its own history
  have hloadable := h.loadable hroom he
  have hrow : e.store.rowIds ∈ w.editors.map (·.store.rowIds) := List.mem_map_of_mem he
  obtain ⟨issued, hreach⟩ := h.reachable e he
  refine ⟨hloadable.distinct, ?_, ?_, ?_, ?_⟩
  · intro t ht
    exact h.rows.lt_next hroom _ hrow _ (List.mem_map_of_mem ht)
  · intro t ht value hdata
    have hcheck := hloadable.sound t ht
    rw [hdata] at hcheck
    exact TokenData.check_number_eq_ok_iff.1 hcheck
  · intro t ht label hdata
    have hcheck := hloadable.sound t ht
    rw [hdata] at hcheck
    exact TokenData.check_tag_eq_ok_iff.1 hcheck
  · intro target
    obtain ⟨loaded, hload, htokens, hresult⟩ := target.exists_load hloadable
    refine ⟨loaded, hload, htokens, fun hbindings => ?_⟩
    rw [hresult, hbindings]
    exact hreach.upToDate.symm

/-- A tag is loaded into one editor, and an operator typed into another. -/
theorem History.exportable_of_two :
    let first := (Editor.start {} {}).act (.load [⟨⟨9⟩, .tag "x"⟩])
    let second := ((Editor.start {} {}).drawOn first.store.ids).act (.handle (.char '+'))
    let w : Workbook := ⟨second.store.ids, [first, second]⟩
    History [.loaded ⟨9⟩, .issued ⟨10⟩] w ∧ HasRoom [.loaded ⟨9⟩, .issued ⟨10⟩] ∧ w.Exportable second := by
  intro first second w
  have hopened := (History.start.opens {} {}).opens {} {}
  have hloaded := hopened.acts 0 rfl (.load [⟨⟨9⟩, .tag "x"⟩])
  have h : History [.loaded ⟨9⟩, .issued ⟨10⟩] w := hloaded.acts 1 rfl (.handle (.char '+'))
  have hroom : HasRoom [.loaded ⟨9⟩, .issued ⟨10⟩] := h.rows.log.hasRoom_iff.2 (by simp [TokenId.greatest])
  exact ⟨h, hroom, (exportable h hroom).2.2 second (List.mem_cons_of_mem _ List.mem_cons_self)⟩

end Workbook

end FormulaBar
