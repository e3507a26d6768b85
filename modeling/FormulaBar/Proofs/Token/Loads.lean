import FormulaBar.Proofs.Text.Trim
import FormulaBar.Proofs.Token.Supply

/-!
# FormulaBar.Proofs.Token.Loads — which tokens can be loaded

A list of tokens is admitted exactly if it is `Loadable`, and otherwise refused for its first token that cannot follow
those before it (`load_eq_error_iff`). `History` loads sequences and appends to them. Appended tokens
get new ids as long as the supply does not hand out the greatest. There the check on a load falls one short: it refuses
the greatest id itself but admits the one before it, and the supply then stands at the greatest.
-/

namespace FormulaBar

/-! ### The check on a load -/

theorem TokenData.check_number_eq_ok_iff {value : Float} :
    (TokenData.number value).check = .ok () ↔ Binary64.isFinite value = true := by
  rw [check]
  split <;> simp_all

theorem TokenData.check_tag_eq_ok_iff {label : String} :
    (TokenData.tag label).check = .ok () ↔ Text.isBlankText label = false := by
  rw [check]
  split <;> simp_all

/-- What is wrong with what a token holds. -/
theorem TokenData.check_eq_error_iff {d : TokenData} {error : LoadError} : d.check = .error error ↔
    (∃ value, d = .number value ∧ Binary64.isFinite value = false ∧ error = .nonFiniteNumber value) ∨
      ∃ label, d = .tag label ∧ Text.trimmed label = "" ∧ error = .emptyTag := by
  constructor
  · intro h
    cases d with
    | number value =>
      rw [check] at h
      split at h
      · cases h
      · next hvalue =>
        cases h
        exact .inl ⟨value, rfl, by simpa using hvalue, rfl⟩
    | operand op => cases h
    | tag label =>
      rw [check] at h
      split at h
      · next hlabel =>
        cases h
        exact .inr ⟨label, rfl, Text.trimmed_eq_empty_iff.2 hlabel, rfl⟩
      · cases h
  · rintro (⟨value, rfl, hvalue, rfl⟩ | ⟨label, rfl, hlabel, rfl⟩)
    · rw [check, if_neg (by simp [hvalue])]
    · rw [check, if_pos (Text.trimmed_eq_empty_iff.1 hlabel)]

theorem TokenData.check_eq_ok_iff {d : TokenData} : d.check = .ok () ↔
    (∀ value, d = .number value → Binary64.isFinite value = true) ∧
      ∀ label, d = .tag label → Text.trimmed label ≠ "" := by
  cases d with
  | number value => simp [check_number_eq_ok_iff]
  | operand op => simp [check]
  | tag label => simp [check_tag_eq_ok_iff, Text.trimmed_eq_empty_iff]

namespace TokenSequence

open IdUse

/-- Tokens that may come in from outside: no id twice, none the greatest, and each holds what a token may hold. -/
structure Loadable (tokens : List Token) : Prop where
  distinct : (tokens.map (·.id)).Nodup
  inRange : ∀ t ∈ tokens, t.id ≠ .greatest
  sound : ∀ t ∈ tokens, t.data.check = .ok ()

theorem checkFrom_cons (seen : List TokenId) (t : Token) (ts : List Token) : checkFrom seen (t :: ts) =
    if t.id ∈ seen then .error (.duplicateId t.id)
    else if t.id = .greatest then .error (.idOutOfRange t.id)
    else t.data.check.bind fun _ => checkFrom (t.id :: seen) ts := by
  rw [checkFrom]
  simp only [List.contains_iff_mem]
  rfl

theorem checkFrom_cons_eq_ok_iff {seen : List TokenId} {t : Token} {ts : List Token} :
    checkFrom seen (t :: ts) = .ok () ↔
      t.id ∉ seen ∧ t.id ≠ .greatest ∧ t.data.check = .ok () ∧ checkFrom (t.id :: seen) ts = .ok () := by
  rw [checkFrom_cons]
  split
  · next hseen => simp [hseen]
  · next hseen =>
    split
    · next hgreatest => simp [hgreatest]
    · next hgreatest => cases t.data.check <;> simp [hseen, hgreatest, Except.bind]

theorem checkFrom_eq_ok_iff {seen : List TokenId} {ts : List Token} :
    checkFrom seen ts = .ok () ↔ (∀ t ∈ ts, t.id ∉ seen) ∧ Loadable ts := by
  induction ts generalizing seen with
  | nil => exact ⟨fun _ => ⟨by simp, ⟨by simp, by simp, by simp⟩⟩, fun _ => rfl⟩
  | cons t ts ih =>
    rw [checkFrom_cons_eq_ok_iff, ih]
    constructor
    -- the first token is new to those before it, and the others to it
    · rintro ⟨hseen, hgreatest, hcheck, hfresh, ⟨hdistinct, hinRange, hsound⟩⟩
      refine ⟨List.forall_mem_cons.2 ⟨hseen, fun u hu hmem => hfresh u hu (List.mem_cons_of_mem _ hmem)⟩, ?_,
        List.forall_mem_cons.2 ⟨hgreatest, hinRange⟩, List.forall_mem_cons.2 ⟨hcheck, hsound⟩⟩
      rw [List.map_cons, List.nodup_cons]
      refine ⟨fun hmem => ?_, hdistinct⟩
      obtain ⟨u, hu, hid⟩ := List.mem_map.1 hmem
      exact hfresh u hu (hid ▸ List.mem_cons_self)
    · rintro ⟨hfresh, ⟨hdistinct, hinRange, hsound⟩⟩
      rw [List.map_cons, List.nodup_cons] at hdistinct
      obtain ⟨hseen, hfresh⟩ := List.forall_mem_cons.1 hfresh
      obtain ⟨hgreatest, hinRange⟩ := List.forall_mem_cons.1 hinRange
      obtain ⟨hcheck, hsound⟩ := List.forall_mem_cons.1 hsound
      -- the same, from the distinct ids of the whole list
      refine ⟨hseen, hgreatest, hcheck, fun u hu hmem => ?_, hdistinct.2, hinRange, hsound⟩
      rcases List.mem_cons.1 hmem with hid | hmem
      · exact hdistinct.1 (hid ▸ List.mem_map_of_mem hu)
      · exact hfresh u hu hmem

/-- Exactly the loadable tokens are admitted, as they are, and the supply steps over their ids. -/
theorem load_eq_ok_iff {ids ids' : IdSupply} {tokens : List Token} {row : TokenSequence} :
    load ids tokens = .ok (row, ids') ↔
      Loadable tokens ∧ row = ⟨tokens⟩ ∧ ids' = ids.reserveAll tokens := by
  have hload : Loadable tokens ↔ checkFrom [] tokens = .ok () := by simp [checkFrom_eq_ok_iff]
  rw [hload, load]
  cases checkFrom [] tokens with
  | error error => simp [bind, Except.bind]
  | ok checked => simp [bind, Except.bind, pure, Except.pure, IdSupply.reserveAll, eq_comm]

theorem Loadable.load {tokens : List Token} (h : Loadable tokens) (ids : IdSupply) :
    ∃ ids', TokenSequence.load ids tokens = .ok (⟨tokens⟩, ids') := ⟨_, load_eq_ok_iff.2 ⟨h, rfl, rfl⟩⟩

theorem loadable_of_load {ids : IdSupply} {tokens : List Token} {again : TokenSequence × IdSupply}
    (h : TokenSequence.load ids tokens = .ok again) : Loadable tokens := (load_eq_ok_iff.1 h).1

theorem exists_load_iff {ids : IdSupply} {tokens : List Token} :
    (∃ admitted, TokenSequence.load ids tokens = .ok admitted) ↔ Loadable tokens := by
  constructor
  · rintro ⟨admitted, h⟩
    exact loadable_of_load h
  · intro h
    obtain ⟨ids', hload⟩ := h.load ids
    exact ⟨_, hload⟩

/-- What makes some tokens loadable. -/
theorem loadable_iff {tokens : List Token} : Loadable tokens ↔
    (tokens.map (·.id)).Nodup ∧ ∀ t ∈ tokens, t.id.raw.toNat ≠ UInt64.size - 1 ∧
      (∀ value, t.data = .number value → Binary64.isFinite value = true) ∧
      ∀ label, t.data = .tag label → Text.trimmed label ≠ "" := by
  simp only [← TokenData.check_eq_ok_iff, ← TokenId.eq_greatest_iff.not]
  constructor
  · rintro ⟨hdistinct, hinRange, hsound⟩
    exact ⟨hdistinct, fun t ht => ⟨hinRange t ht, hsound t ht⟩⟩
  · rintro ⟨hdistinct, hall⟩
    exact ⟨hdistinct, fun t ht => (hall t ht).1, fun t ht => (hall t ht).2⟩

/-! ### A refused load -/

/-- Why a token is refused behind tokens with these ids. What it holds is looked at only if its id will do. -/
inductive Refused (used : List TokenId) (t : Token) : LoadError → Prop
  | duplicate (h : t.id ∈ used) : Refused used t (.duplicateId t.id)
  | outOfRange (hnew : t.id ∉ used) (h : t.id.raw.toNat = UInt64.size - 1) : Refused used t (.idOutOfRange t.id)
  | notFinite {value} (hnew : t.id ∉ used) (hrange : t.id.raw.toNat ≠ UInt64.size - 1) (hdata : t.data = .number value)
      (h : Binary64.isFinite value = false) : Refused used t (.nonFiniteNumber value)
  | blank {label} (hnew : t.id ∉ used) (hrange : t.id.raw.toNat ≠ UInt64.size - 1) (hdata : t.data = .tag label)
      (h : Text.trimmed label = "") : Refused used t .emptyTag

section Refused

variable {used used' : List TokenId} {t : Token} {before after : List Token} {error : LoadError}

theorem Refused.of_perm (h : Refused used t error) (hperm : used.Perm used') : Refused used' t error := by
  have hmem : t.id ∈ used ↔ t.id ∈ used' := hperm.mem_iff
  cases h with
  | duplicate h => exact .duplicate (hmem.1 h)
  | outOfRange hnew h => exact .outOfRange (mt hmem.2 hnew) h
  | notFinite hnew hrange hdata h => exact .notFinite (mt hmem.2 hnew) hrange hdata h
  | blank hnew hrange hdata h => exact .blank (mt hmem.2 hnew) hrange hdata h

/-- A check fails at its first token, or behind it. -/
theorem checkFrom_cons_eq_error_iff : checkFrom used (t :: after) = .error error ↔ Refused used t error ∨
    t.id ∉ used ∧ t.id ≠ .greatest ∧ t.data.check = .ok () ∧ checkFrom (t.id :: used) after = .error error := by
  rw [checkFrom_cons]
  constructor
  · intro h
    -- in the order of the checks: the id is used, it is the greatest, or the token holds something refused
    split at h
    · next hused =>
      cases h
      exact .inl (.duplicate hused)
    · next hnew =>
      split at h
      · next hgreatest =>
        cases h
        exact .inl (.outOfRange hnew (TokenId.eq_greatest_iff.1 hgreatest))
      · next hgreatest =>
        have hrange := mt TokenId.eq_greatest_iff.2 hgreatest
        cases hcheck : t.data.check with
        | ok checked =>
          rw [hcheck] at h
          exact .inr ⟨hnew, hgreatest, rfl, h⟩
        | error found =>
          rw [hcheck] at h
          cases h
          rcases TokenData.check_eq_error_iff.1 hcheck with ⟨value, hdata, hvalue, rfl⟩ | ⟨label, hdata, hlabel, rfl⟩
          · exact .inl (.notFinite hnew hrange hdata hvalue)
          · exact .inl (.blank hnew hrange hdata hlabel)
  -- each refusal fails at its own check, after the checks before it passed
  · rintro (hrefused | ⟨hnew, hgreatest, hcheck, h⟩)
    · cases hrefused with
      | duplicate h => rw [if_pos h]
      | outOfRange hnew h => rw [if_neg hnew, if_pos (TokenId.eq_greatest_iff.2 h)]
      | notFinite hnew hrange hdata h =>
        rw [if_neg hnew, if_neg (mt TokenId.eq_greatest_iff.1 hrange),
          TokenData.check_eq_error_iff.2 (.inl ⟨_, hdata, h, rfl⟩)]
        rfl
      | blank hnew hrange hdata h =>
        rw [if_neg hnew, if_neg (mt TokenId.eq_greatest_iff.1 hrange),
          TokenData.check_eq_error_iff.2 (.inr ⟨_, hdata, h, rfl⟩)]
        rfl
    · rw [if_neg hnew, if_neg hgreatest, hcheck]
      exact h

/-- A check fails at the token behind those that pass. -/
theorem checkFrom_eq_error_iff {tokens : List Token} : checkFrom used tokens = .error error ↔
    ∃ before t after, tokens = before ++ t :: after ∧ checkFrom used before = .ok () ∧
      Refused (before.map (·.id) ++ used) t error := by
  constructor
  · intro h
    induction tokens generalizing used with
    | nil => cases h
    | cons t tokens ih =>
      rcases checkFrom_cons_eq_error_iff.1 h with hrefused | ⟨hnew, hgreatest, hcheck, hrest⟩
      -- refused at once
      · exact ⟨[], t, tokens, rfl, rfl, hrefused⟩
      -- passed, so the refusal is behind it
      · obtain ⟨before, u, after, rfl, hbefore, hrefused⟩ := ih hrest
        have hpasses := checkFrom_cons_eq_ok_iff.2 ⟨hnew, hgreatest, hcheck, hbefore⟩
        exact ⟨t :: before, u, after, rfl, hpasses, hrefused.of_perm List.perm_middle⟩
  · rintro ⟨before, t, after, rfl, hbefore, hrefused⟩
    induction before generalizing used with
    | nil => exact checkFrom_cons_eq_error_iff.2 (.inl hrefused)
    | cons u before ih =>
      obtain ⟨hnew, hgreatest, hcheck, hrest⟩ := checkFrom_cons_eq_ok_iff.1 hbefore
      have hbehind := ih hrest (hrefused.of_perm List.perm_middle.symm)
      exact checkFrom_cons_eq_error_iff.2 (.inr ⟨hnew, hgreatest, hcheck, hbehind⟩)

/-- Tokens are refused for the first of them that cannot follow those before it. -/
theorem load_eq_error_iff {ids : IdSupply} {tokens : List Token} : load ids tokens = .error error ↔
    ∃ before t after, tokens = before ++ t :: after ∧ Loadable before ∧ Refused (before.map (·.id)) t error := by
  have hload : load ids tokens = .error error ↔ checkFrom [] tokens = .error error := by
    rw [load]
    cases checkFrom [] tokens <;> simp [bind, Except.bind, pure, Except.pure]
  rw [hload, checkFrom_eq_error_iff]
  simp [checkFrom_eq_ok_iff]

end Refused

/-! ### A token behind a load -/

/-- The row with one more token could be loaded again, exactly if the supply was not at the greatest id and no loaded
id was the last one before it. -/
theorem loadable_append_iff {ids ids' : IdSupply} {tokens : List Token} {row : TokenSequence} {data : TokenData}
    (h : load ids tokens = .ok (row, ids')) (hdata : data.check = .ok ()) :
    Loadable (row.append ids' data).2.1.tokens ↔
      ids.fresh.1 ≠ .greatest ∧ ∀ t ∈ tokens, t.id.raw.toNat + 1 < TokenId.greatest.raw.toNat := by
  -- the supply is behind all loaded ids; it may still reach the greatest
  obtain ⟨hloadable, rfl, rfl⟩ := load_eq_ok_iff.1 h
  have hlt := (IdSupply.toNat_lt_reserveAll hloadable.inRange ids).2
  have hnext (id : TokenId) : id ≠ .greatest ↔ id.raw.toNat ≤ TokenId.greatest.raw.toNat - 1 := by
    constructor
    · intro hne
      have hid := TokenId.toNat_lt_greatest hne
      omega
    · rintro hle rfl
      rw [TokenId.greatest_toNat] at hle
      omega
  have hbound : (ids.reserveAll tokens).next.toNat ≤ TokenId.greatest.raw.toNat - 1 ↔ _ :=
    IdSupply.toNat_reserveAll_le_iff hloadable.inRange
  have hroom : (ids.reserveAll tokens).fresh.1 ≠ .greatest ↔
      ids.fresh.1 ≠ .greatest ∧ ∀ t ∈ tokens, t.id.raw.toNat + 1 < TokenId.greatest.raw.toNat := by
    rw [hnext, hnext]
    refine hbound.trans (and_congr_right fun _ => forall₂_congr fun t _ => ?_)
    omega
  rw [← hroom, append_tokens]
  constructor
  · intro hmore
    exact hmore.inRange _ (List.mem_append_right _ List.mem_cons_self)
  -- the new id differs from those behind which it was handed out
  · intro hfresh
    refine ⟨?_, List.forall_mem_append.2 ⟨hloadable.inRange, List.forall_mem_singleton.2 hfresh⟩,
      List.forall_mem_append.2 ⟨hloadable.sound, List.forall_mem_singleton.2 hdata⟩⟩
    rw [List.map_append, List.map_singleton, ← List.concat_eq_append]
    refine List.Nodup.concat (fun hmem => ?_) hloadable.distinct
    obtain ⟨t, ht, hid⟩ := List.mem_map.1 hmem
    have hless := hlt t ht
    rw [hid] at hless
    exact Nat.lt_irrefl _ hless

/-! ### Loading and appending -/

/-- Sequences that draw on one supply, with everything that happened to it: each was new or loaded, and tokens were
appended to it. -/
inductive History : List IdUse → IdSupply → List TokenSequence → Prop
  | start : History [] {} []
  | opens {uses ids rows} (h : History uses ids rows) : History uses ids (rows ++ [⟨[]⟩])
  | loads {uses ids rows tokens row ids'} (h : History uses ids rows) (hload : load ids tokens = .ok (row, ids')) :
      History (uses ++ tokens.map (.loaded ·.id)) ids' (rows ++ [row])
  | appends {uses ids rows row} (h : History uses ids rows) (place : Nat) (hrow : rows[place]? = some row)
      (data : TokenData) :
      History (uses ++ [.issued (row.append ids data).1]) (row.append ids data).2.2
        (rows.set place (row.append ids data).2.1)

variable {uses : List IdUse} {ids : IdSupply} {rows : List TokenSequence}

theorem History.idRows (h : History uses ids rows) :
    IdSupply.Rows uses ids (rows.map fun row => row.tokens.map (·.id)) := by
  induction h with
  | start => exact .start
  | opens _ ih =>
    rw [List.map_append]
    exact ih.opens
  | @loads uses ids rows tokens row ids' _ hload ih =>
    obtain ⟨hloadable, rfl, rfl⟩ := load_eq_ok_iff.1 hload
    have hrows := ih.opens.loads rows.length hloadable.distinct hloadable.inRange
    rw [List.set_append_right _ _ (by simp)] at hrows
    simpa using hrows
  | @appends uses ids rows row _ place hrow data ih =>
    have hids : (rows.map fun row => row.tokens.map (·.id))[place]? = some (row.tokens.map (·.id)) := by
      rw [List.getElem?_map, hrow]
      rfl
    have hrows := ih.issues hids
    rw [List.map_set, append_tokens, List.map_append]
    exact hrows

/-- Exactly as long as no append gives the greatest id, the ids of loads with the appends behind them stay below it.
Until then an append gives an id that none had before, and every row whose tokens hold what they may could be loaded
again. A load may well lead there: behind it, a row with one more token could be loaded again exactly if the supply was
not at the greatest id and no loaded id was the last one before it. -/
theorem History.append_fresh (h : History uses ids rows) :
    (HasRoom uses ↔ ∀ id, .issued id ∈ uses → id ≠ .greatest) ∧
    (HasRoom uses →
      (∀ before id, before ++ [.issued id] <+: uses → ∀ use ∈ before, use.id ≠ id) ∧
      (∀ row ∈ rows, ∀ t ∈ row.tokens, t.id ≠ ids.fresh.1) ∧
      ∀ row ∈ rows, (∀ t ∈ row.tokens, t.data.check = .ok ()) → ∃ ids', load ids row.tokens = .ok (row, ids')) ∧
    ∀ tokens row ids' data, load ids tokens = .ok (row, ids') → data.check = .ok () →
      ((∃ again, load (row.append ids' data).2.2 (row.append ids' data).2.1.tokens = .ok again) ↔
        ids.fresh.1 ≠ .greatest ∧ ∀ t ∈ tokens, t.id.raw.toNat + 1 < TokenId.greatest.raw.toNat) := by
  have hidRows := h.idRows
  refine ⟨hidRows.log.hasRoom_iff, fun hroom => ⟨?_, ?_, ?_⟩, ?_⟩
  · intro before id hbefore
    exact (hidRows.log.fresh hroom hbefore).1
  · intro row hrow t ht
    exact hidRows.next_ne hroom _ (List.mem_map_of_mem hrow) _ (List.mem_map_of_mem ht)
  · intro row hrow hsound
    refine Loadable.load ⟨hidRows.nodup hroom _ (List.mem_map_of_mem hrow), fun t ht => ?_, hsound⟩ ids
    exact TokenId.ne_greatest_of_lt (hidRows.lt_next hroom _ (List.mem_map_of_mem hrow) _ (List.mem_map_of_mem ht))
  · intro tokens row ids' data hload hdata
    rw [← loadable_append_iff hload hdata]
    constructor
    · rintro ⟨again, hagain⟩
      exact loadable_of_load hagain
    · intro hloadable
      obtain ⟨ids'', hagain⟩ := hloadable.load (row.append ids' data).2.2
      exact ⟨_, hagain⟩

/-- Two tokens are loaded and two appended. -/
theorem History.append_fresh_of_two :
    let tokens : List Token := [⟨⟨9⟩, .tag "x"⟩, ⟨⟨4⟩, .operand .sub⟩]
    let uses : List IdUse := [.loaded ⟨9⟩, .loaded ⟨4⟩, .issued ⟨10⟩, .issued ⟨11⟩]
    let row : TokenSequence := ⟨tokens ++ [⟨⟨10⟩, .tag "y"⟩, ⟨⟨11⟩, .tag "z"⟩]⟩
    History uses ⟨12⟩ [row] ∧ HasRoom uses ∧ ∀ use ∈ uses.dropLast, use.id ≠ ⟨11⟩ := by
  intro tokens uses row
  have hload : load {} tokens = .ok (⟨tokens⟩, ⟨10⟩) := rfl
  have hfirst := (History.start.loads hload).appends 0 rfl (.tag "y")
  have h : History uses ⟨12⟩ [row] := hfirst.appends 0 rfl (.tag "z")
  have hroom : HasRoom uses := (append_fresh h).1.2 (by simp [uses, TokenId.greatest])
  exact ⟨h, hroom, ((append_fresh h).2.1 hroom).1 _ _ (List.prefix_refl uses)⟩

/-- The id before the greatest is admitted. The next token then gets the greatest, so that its row is refused, and the
one behind it gets an id that is in use. -/
theorem append_behind_last_id :
    let tokens : List Token := [⟨⟨0⟩, .tag "a"⟩, ⟨⟨18446744073709551614⟩, .tag "b"⟩]
    ∃ row ids, load {} tokens = .ok (row, ids) ∧ (row.append ids (.tag "c")).1 = .greatest ∧
      let (_, more, ids) := row.append ids (.tag "c")
      load ids more.tokens = .error (.idOutOfRange .greatest) ∧
        ∃ t ∈ more.tokens, t.id = (more.append ids (.tag "d")).1 := by
  intro tokens
  exact ⟨⟨tokens⟩, ⟨18446744073709551615⟩, rfl, rfl, rfl, _, List.mem_cons_self, rfl⟩

end TokenSequence

end FormulaBar
