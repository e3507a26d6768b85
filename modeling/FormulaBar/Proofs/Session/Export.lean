import FormulaBar.Proofs.Editor.Accept
import FormulaBar.Proofs.Editor.Workbook
import FormulaBar.Proofs.Session.Timing

/-!
# FormulaBar.Proofs.Session.Export — the tokens of a replay can be loaded

A pending text becomes at most one token. If it counts as one already, an input brings at most one token more
(`react_growth`), so a replay takes at most one id for each press, and as long as there are that many ids no two of its
tokens have one. What is known of every editor then gives that the reported tokens can be loaded, and that their result
is the reported one (`run_loadable`).
-/

namespace FormulaBar

namespace Editor

/-! ### How fast the row grows -/

/-- The number of tokens that the pending text can still become. -/
def held (e : Editor) : Nat := if e.pending = "" then 0 else 1

variable {e e' : Editor}

theorem held_le_one (e : Editor) : e.held ≤ 1 := by
  unfold held
  split <;> omega

theorem held_of_empty (h : e.pending = "") : e.held = 0 := if_pos h

/-- A text becomes a token only if it is not empty. -/
theorem length_classify_le (e : Editor) {text : String} (h : e.pending = "" → text = "") :
    (e.popup.classifier.classify text).toList.length ≤ e.held := by
  unfold held
  split
  · next hempty => rw [h hempty]; simp [Classifier.classify]
  · exact length_toList_le _

/-- From `e` to `e'` at most one token came up that was not there or pending. -/
def Grows (e e' : Editor) : Prop := e'.tokens.length - e.tokens.length + e'.held ≤ e.held + 1

theorem grows_of_length_le (h : e'.tokens.length ≤ e.tokens.length) : Grows e e' := by
  have hheld := e'.held_le_one
  unfold Grows
  omega

theorem grows_of_store (h : e'.store = e.store) : Grows e e' :=
  grows_of_length_le (by rw [tokens, tokens, h])

/-- Some tokens are put at the end, and nothing is pending then. -/
theorem grows_of_appends (data : List TokenData) (hstore : e'.store = e.store.appendAll data)
    (hlength : data.length ≤ e.held + 1) (hpending : e'.pending = "") : Grows e e' := by
  obtain ⟨new, htokens, rfl⟩ := e.store.appendAll_tokens data
  have hsame : e'.tokens = e.tokens ++ new := by rw [tokens, hstore, htokens]; rfl
  rw [Grows, hsame, held_of_empty hpending, List.length_append]
  rw [List.length_map] at hlength
  omega

theorem grows_commit (e : Editor) : Grows e e.commit :=
  grows_of_appends _ (commit_store e) (Nat.le_succ_of_le (e.length_classify_le id)) rfl

theorem grows_operator (e : Editor) (op : Operator) : Grows e (e.commit.append (some (.operand op))) := by
  refine grows_of_appends ((e.popup.classifier.classify e.pending).toList ++ [.operand op]) ?_ ?_ rfl
  · rw [append_store, commit_store, ← Store.appendAll_append]
    rfl
  · rw [List.length_append]
    exact Nat.add_le_add_right (e.length_classify_le id) 1

theorem preceding_of_empty {p popup : Popup} {pending : String} {index : Option Nat} {selection : Selection}
    (h : p.take? pending index = some (selection, popup)) (hempty : pending = "") : selection.preceding = "" := by
  rw [hempty, Popup.take?_eq] at h
  obtain ⟨label, -, hselection⟩ := Option.map_eq_some_iff.1 h
  cases hselection
  rfl

/-- A label becomes a tag, and the text before its query becomes a token only if something is pending. -/
theorem grows_accept (e : Editor) (index : Option Nat) : Grows e (e.accept index) := by
  unfold accept
  split
  · exact grows_of_store rfl
  · next selection popup htake =>
    obtain rfl := Popup.take?_popup htake
    dsimp only
    split
    · exact grows_of_store rfl
    · refine grows_of_appends ((e.popup.classifier.classify selection.preceding).toList ++
        [.tag (Text.trimmed selection.label)]) ?_ ?_ rfl
      · rw [setPending_store, append_store, append_store, ← Store.appendAll_append]
        rfl
      · rw [List.length_append]
        exact Nat.add_le_add_right (e.length_classify_le (preceding_of_empty htake)) 1

theorem grows_withStore (e : Editor) {store : Option Store} (h : ∀ s ∈ store, s.tokens.length ≤ e.tokens.length) :
    Grows e (e.withStore store) := by
  cases store with
  | none => exact grows_of_store rfl
  | some s => exact grows_of_length_le (h s rfl)

theorem react_grows (e : Editor) (input : Input) : Grows e (e.react input).1 := by
  have hsame : Grows e e := grows_of_store rfl
  cases input with
  | char c =>
    rw [react, typeChar]
    split
    -- an operator may end the pending text, so it brings two tokens
    · exact grows_operator e _
    · split
      · exact hsame
      · exact grows_of_store (observe_store _)
  | setText text =>
    rw [react]
    split
    · exact hsame
    · exact grows_of_store (observe_store _)
  | confirm =>
    rw [react]
    dsimp only
    split
    · exact grows_accept e none
    · exact grows_commit e
  | advance =>
    rw [react]
    dsimp only
    split
    · exact grows_accept e none
    · exact hsame
  | backspace =>
    rw [react, backspace]
    split
    · exact grows_of_store (observe_store _)
    · split
      · exact hsame
      -- the last token becomes pending text
      · next t store hdrop =>
        refine grows_of_length_le ?_
        have hlength := congrArg List.length (Store.dropLast?_eq_some hdrop).1
        rw [List.length_append] at hlength
        exact Nat.le_of_add_right_le hlength.ge
  | cancel | outside | next | previous | hover _ => exact grows_of_store rfl
  | accept index => exact grows_accept e (some index)
  | focus =>
    rw [react]
    split
    · exact hsame
    · exact grows_of_store rfl
  | deleteToken id =>
    refine grows_withStore e fun s hs => ?_
    rw [(Store.erase?_eq_some hs).2.1]
    exact List.length_filter_le _ _
  | editTag id label =>
    refine grows_withStore e fun s hs => ?_
    obtain ⟨-, -, before, t, after, current, htokens, -, -, -, hafter⟩ := Store.relabel?_eq_some hs
    rw [hafter, tokens, htokens]
    simp

/-- An input brings at most one token more, if a pending text counts as a token. -/
theorem handle_grows (e : Editor) (input : Input) : Grows e (e.handle input).1 := by
  have hreact := react_grows e input
  rwa [Grows, held, ← handle_tokens, ← handle_pending] at hreact

/-! ### Settled editors -/

variable {issued : List Ticket}

/-- Settling brings the answer to the ticket that is awaited. -/
theorem Reachable.settled (h : Reachable issued e) (lookup : String → Lookup) :
    Reachable issued (e.settled lookup) := by
  rcases settled_eq_answered lookup e with hsame | ⟨t, hanswered⟩
  · rwa [hsame]
  · rw [hanswered]
    exact h.answered t _

end Editor

namespace Replay

open Editor

variable {bindings : Bindings} {n : Nat} {e : Editor}

/-! ### What a press keeps -/

/-- What is known of an editor after `n` presses on a fresh one: -/
structure Played (bindings : Bindings) (n : Nat) (e : Editor) : Prop where
  reachable : ∃ issued, Reachable issued e
  bindings : e.bindings = bindings
  /-- its tokens took fresh ids, at most one for each press. -/
  ids : ∃ ids : List TokenId, ids.length + e.held ≤ n ∧
    IdSupply.Rows (ids.map .issued) e.store.ids [e.store.rowIds]

theorem played_start (bindings : Bindings) (options : EditorOptions) :
    Played bindings 0 (Editor.start bindings options) :=
  ⟨⟨_, .start bindings options {}⟩, rfl, [], Nat.le_refl _, IdSupply.Rows.start.opens⟩

theorem Played.settled (h : Played bindings n e) (lookup : String → Lookup) :
    Played bindings n (e.settled lookup) := by
  obtain ⟨issued, hreach⟩ := h.reachable
  exact ⟨⟨issued, hreach.settled lookup⟩, h.bindings, h.ids⟩

theorem Played.handle (h : Played bindings n e) (input : Input) : Played bindings (n + 1) (e.handle input).1 := by
  obtain ⟨issued, hreach⟩ := h.reachable
  obtain ⟨ids, hcount, hrows⟩ := h.ids
  have hgrows := handle_grows e input
  have hmore := rows_act hrows (rfl : [e.store.rowIds][0]? = some _) (.handle input)
  refine ⟨⟨_, hreach.handle input⟩, (handle_bindings e input).trans h.bindings,
    ids ++ ((e.handle input).1.tokens.drop e.tokens.length).map (·.id), ?_, ?_⟩
  · rw [Grows] at hgrows
    rw [List.length_append, List.length_map, List.length_drop]
    omega
  · rw [List.map_append, List.map_map]
    exact hmore

theorem Played.presses (h : Played bindings n e) (lookup : String → Lookup) (presses : List Press) :
    Played bindings (n + presses.length) (presses.foldl (pressed lookup) e) := by
  induction presses generalizing n e with
  | nil => exact h
  | cons p presses ih =>
    rw [List.length_cons, Nat.add_comm presses.length, ← Nat.add_assoc]
    exact ih ((h.handle p.input).settled lookup)

/-! ### What a replay reports -/

theorem Played.loadable (h : Played bindings n e) (hroom : n < TokenId.greatest.raw.toNat) :
    TokenSequence.Loadable e.tokens := by
  obtain ⟨issued, hreach⟩ := h.reachable
  obtain ⟨ids, hcount, hrows⟩ := h.ids
  have hids : IdUse.HasRoom (ids.map .issued) := by
    refine ⟨?_, fun id later hsuffix => ?_⟩
    · have hle : IdUse.issuedCount (ids.map .issued) ≤ (ids.map IdUse.issued).length := List.countP_le_length
      rw [List.length_map] at hle
      omega
    · have hmem := hsuffix.subset List.mem_cons_self
      simp at hmem
  refine ⟨hrows.nodup hids _ (List.mem_singleton_self _), fun t ht => ?_, hreach.admissible⟩
  exact TokenId.ne_greatest_of_lt (hrows.lt_next hids _ (List.mem_singleton_self _) _ (List.mem_map_of_mem ht))

theorem length_closing_le (keepPending : Bool) (e : Editor) : (closing keepPending e).length ≤ 2 := by
  unfold closing
  split <;> simp

theorem played_keysOnly (lookup : String → Lookup) (keepPending : Bool) (bindings : Bindings) (options : EditorOptions)
    (keys : List Key) :
    ∃ n ≤ keys.length + 2, Played bindings n (keysOnly lookup keepPending (Editor.start bindings options) keys) := by
  have hstart := (played_start bindings options).settled lookup
  have hkeys := hstart.presses lookup (keys.map Key.press)
  refine ⟨_, ?_, hkeys.presses lookup (closing keepPending _)⟩
  have hclosing := length_closing_le keepPending
    ((keys.map Key.press).foldl (pressed lookup) ((Editor.start bindings options).settled lookup))
  rw [List.length_map]
  omega

/-- Unless there are more keys than ids, the reported tokens can be loaded, and the reported result is theirs. -/
theorem run_loadable (lookup : String → Lookup) (keepPending : Bool) (bindings : Bindings) (options : EditorOptions)
    {keys : List Key} (hroom : keys.length + 2 < TokenId.greatest.raw.toNat) (debounce : Nat) :
    let report := run lookup keepPending (Editor.start bindings options) keys debounce
    TokenSequence.Loadable report.tokens ∧ report.result = Formula.result report.tokens bindings := by
  intro report
  have hidden : (Editor.start bindings options).popup.state = .hidden := rfl
  have hreport : report = Report.ofEditor (keysOnly lookup keepPending (Editor.start bindings options) keys) :=
    report_eq hidden (reports_run lookup (Editor.start bindings options) keepPending keys debounce)
  obtain ⟨n, hn, hplayed⟩ := played_keysOnly lookup keepPending bindings options keys
  obtain ⟨issued, hreach⟩ := hplayed.reachable
  have hresult := hreach.upToDate
  rw [UpToDate, hplayed.bindings] at hresult
  rw [hreport]
  exact ⟨hplayed.loadable (Nat.lt_of_le_of_lt hn hroom), hresult⟩

end Replay

namespace Script

/-- A key that stands before others. -/
theorem length_of_cons_keys {key : Key} {rest : Except ScriptError (List Key)} {keys : List Key} {n : Nat}
    (h : (do return key :: (← rest)) = Except.ok keys) (hrest : ∀ more, rest = .ok more → more.length ≤ n) :
    keys.length ≤ n + 1 := by
  obtain ⟨more, hmore, hkeys⟩ := bind_eq_ok.1 h
  cases hkeys
  exact Nat.succ_le_succ (hrest more hmore)

/-- A key takes at least one character. -/
theorem length_keysFrom_le (offset : Nat) (cs : List Char) {keys : List Key} (h : keysFrom offset cs = .ok keys) :
    keys.length ≤ cs.length := by
  fun_induction keysFrom offset cs generalizing keys with
  | case1 =>
    cases h
    exact Nat.le_refl _
  | case2 _ _ ih => exact Nat.le_succ_of_le (length_of_cons_keys h fun _ => ih)
  | case3 | case4 | case7 => cases h
  | case5 _ cs _ name brace rest hdrop key _ =>
    rename_i ih
    have hlength := (List.dropWhile_sublist (· ≠ '\x7d') (l := cs)).length_le
    rw [hdrop, List.length_cons] at hlength
    have hcount := length_of_cons_keys h fun _ => ih
    rw [List.length_cons]
    omega
  | case6 _ _ ih => exact Nat.le_succ_of_le (length_of_cons_keys h fun _ => ih)
  | case8 _ c cs _ _ _ _ ih => exact length_of_cons_keys h fun _ => ih

theorem length_keys_le {script : String} {keys : List Key} (h : Script.keys script = .ok keys) :
    keys.length ≤ script.length := by
  rw [← String.length_toList]
  exact length_keysFrom_le 0 script.toList h

end Script

end FormulaBar
