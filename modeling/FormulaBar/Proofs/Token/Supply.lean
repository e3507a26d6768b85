import FormulaBar.Token.Sequence
import Mathlib.Data.List.Nodup

/-!
# FormulaBar.Proofs.Token.Supply — ids that are handed out, and ids that are loaded

`IdSupply.Log` records everything that happened to a supply: the ids it handed out and those it stepped over for loaded
tokens. As long as the record leaves room (`IdUse.HasRoom`), the supply does not count round, and an id that is handed
out differs from all ids before it (`Log.fresh`). There is room exactly as long as the greatest id was not handed out
(`Log.hasRoom_iff`). `IdSupply.Rows` follows rows of ids that draw on one supply.
-/

namespace FormulaBar

theorem TokenId.greatest_toNat : TokenId.greatest.raw.toNat = 18446744073709551615 := rfl

theorem TokenId.eq_greatest_iff {id : TokenId} : id = .greatest ↔ id.raw.toNat = UInt64.size - 1 := by
  constructor
  · rintro rfl
    rfl
  · intro h
    exact congrArg TokenId.mk (UInt64.toNat_inj.1 h)

theorem TokenId.toNat_lt_greatest {id : TokenId} (h : id ≠ .greatest) : id.raw.toNat < TokenId.greatest.raw.toNat := by
  have hlt := id.raw.toNat_lt
  have hne : id.raw.toNat ≠ TokenId.greatest.raw.toNat := fun heq => h (congrArg TokenId.mk (UInt64.toNat_inj.1 heq))
  rw [greatest_toNat] at hne ⊢
  omega

theorem TokenId.ne_greatest_of_lt {id : TokenId} {next : UInt64} (h : id.raw.toNat < next.toNat) : id ≠ .greatest := by
  rintro rfl
  have hlt := next.toNat_lt
  rw [greatest_toNat] at h
  omega

/-! ### One id -/

namespace IdSupply

/-- A fresh id is followed by a greater one, unless the supply counts round. -/
theorem toNat_succ {n : UInt64} (h : n.toNat < TokenId.greatest.raw.toNat) : (n + 1).toNat = n.toNat + 1 := by
  rw [TokenId.greatest_toNat] at h
  rw [UInt64.toNat_add, UInt64.toNat_one, Nat.mod_eq_of_lt (by omega)]

/-- Stepping over an id raises the next one to the id behind it. -/
theorem toNat_reserve (ids : IdSupply) {id : TokenId} (h : id ≠ .greatest) :
    (ids.reserve id).next.toNat = max ids.next.toNat (id.raw.toNat + 1) := by
  have hmax : (ids.reserve id).next = if ids.next ≤ id.raw + 1 then id.raw + 1 else ids.next := by
    simp only [reserve, if_neg h]
    rfl
  have hsucc := toNat_succ (TokenId.toNat_lt_greatest h)
  rw [hmax, ← hsucc]
  split
  · next hle => exact (Nat.max_eq_right (UInt64.le_iff_toNat_le.1 hle)).symm
  · next hle => exact (Nat.max_eq_left (Nat.le_of_not_le fun hge => hle (UInt64.le_iff_toNat_le.2 hge))).symm

/-- Steps over the ids of some tokens. -/
def reserveAll (ids : IdSupply) (tokens : List Token) : IdSupply := tokens.foldl (fun ids t => ids.reserve t.id) ids

/-- Stepping over some ids leads to the one behind the greatest of them, or nowhere. -/
theorem toNat_reserveAll {tokens : List Token} (h : ∀ t ∈ tokens, t.id ≠ .greatest) (ids : IdSupply) :
    (ids.reserveAll tokens).next.toNat = (tokens.map (·.id.raw.toNat + 1)).foldl max ids.next.toNat := by
  unfold reserveAll
  induction tokens generalizing ids with
  | nil => rfl
  | cons t tokens ih =>
    obtain ⟨hfirst, hrest⟩ := List.forall_mem_cons.1 h
    rw [List.foldl_cons, ih hrest, toNat_reserve ids hfirst, List.map_cons, List.foldl_cons]

/-- Stepping over some ids leads no further than to the one behind the greatest of them. -/
theorem toNat_reserveAll_le_iff {tokens : List Token} (h : ∀ t ∈ tokens, t.id ≠ .greatest) {ids : IdSupply}
    {bound : Nat} : (ids.reserveAll tokens).next.toNat ≤ bound ↔
      ids.next.toNat ≤ bound ∧ ∀ t ∈ tokens, t.id.raw.toNat < bound := by
  unfold reserveAll
  induction tokens generalizing ids with
  | nil => simp
  | cons t tokens ih =>
    obtain ⟨hfirst, hrest⟩ := List.forall_mem_cons.1 h
    rw [List.foldl_cons, ih hrest, toNat_reserve ids hfirst, Nat.max_le, List.forall_mem_cons, and_assoc,
      Nat.succ_le_iff]

/-- Stepping over some ids leaves all of them behind. -/
theorem toNat_lt_reserveAll {tokens : List Token} (h : ∀ t ∈ tokens, t.id ≠ .greatest) (ids : IdSupply) :
    ids.next.toNat ≤ (ids.reserveAll tokens).next.toNat ∧
      ∀ t ∈ tokens, t.id.raw.toNat < (ids.reserveAll tokens).next.toNat :=
  (toNat_reserveAll_le_iff h).1 (Nat.le_refl _)

end IdSupply

/-! ### What happens to ids -/

/-- An id was handed out, or came in with a loaded token. -/
inductive IdUse
  | issued (id : TokenId)
  | loaded (id : TokenId)

namespace IdUse

/-- The id. -/
def id : IdUse → TokenId
  | issued id => id
  | loaded id => id

/-- The number of ids that were handed out. -/
def issuedCount (uses : List IdUse) : Nat := uses.countP fun | issued _ => true | loaded _ => false

/-- Neither the ids handed out from the first one on nor those handed out behind a loaded one reach the greatest. -/
def HasRoom (uses : List IdUse) : Prop :=
  issuedCount uses < TokenId.greatest.raw.toNat ∧
    ∀ id later, .loaded id :: later <:+ uses → id.raw.toNat + issuedCount later < TokenId.greatest.raw.toNat

/-- The id that comes next, if ids had no end. -/
def follow (next : Nat) : IdUse → Nat
  | issued _ => next + 1
  | loaded id => max next (id.raw.toNat + 1)

theorem issuedCount_issued (id : TokenId) (uses : List IdUse) :
    issuedCount (.issued id :: uses) = issuedCount uses + 1 := List.countP_cons_of_pos rfl

theorem issuedCount_loaded (id : TokenId) (uses : List IdUse) :
    issuedCount (.loaded id :: uses) = issuedCount uses := List.countP_cons_of_neg (by simp)

theorem loaded_suffix_cons {use : IdUse} {uses later : List IdUse} {id : TokenId} :
    .loaded id :: later <:+ use :: uses ↔ (.loaded id = use ∧ later = uses) ∨ .loaded id :: later <:+ uses := by
  rw [List.suffix_cons_iff, List.cons.injEq]

theorem le_foldl_follow (next : Nat) (uses : List IdUse) : next ≤ uses.foldl follow next := by
  induction uses generalizing next with
  | nil => exact Nat.le_refl _
  | cons use uses ih =>
    have hstep : next ≤ follow next use := by
      cases use with
      | issued id => exact Nat.le_succ _
      | loaded id => exact Nat.le_max_left _ _
    exact Nat.le_trans hstep (ih _)

/-- How far the ids are counted from `next` on. -/
theorem foldl_follow_le_iff {uses : List IdUse} {next bound : Nat} : uses.foldl follow next ≤ bound ↔
    next + issuedCount uses ≤ bound ∧
      ∀ id later, .loaded id :: later <:+ uses → id.raw.toNat + 1 + issuedCount later ≤ bound := by
  induction uses generalizing next with
  | nil => simp [issuedCount]
  | cons use uses ih =>
    rw [List.foldl_cons, ih]
    -- an id that is handed out counts for every loaded one before it
    cases use with
    | issued id =>
      rw [issuedCount_issued, follow]
      constructor
      · rintro ⟨hcount, hloaded⟩
        refine ⟨by omega, fun id' later hsuffix => ?_⟩
        rcases loaded_suffix_cons.1 hsuffix with ⟨heq, -⟩ | hrest
        · cases heq
        · exact hloaded id' later hrest
      · rintro ⟨hcount, hloaded⟩
        exact ⟨by omega, fun id' later hsuffix => hloaded id' later (hsuffix.trans (List.suffix_cons _ _))⟩
    -- a loaded id bounds what may be handed out after it
    | loaded id =>
      rw [issuedCount_loaded, follow]
      constructor
      · rintro ⟨hcount, hloaded⟩
        refine ⟨by omega, fun id' later hsuffix => ?_⟩
        rcases loaded_suffix_cons.1 hsuffix with ⟨heq, rfl⟩ | hrest
        · cases heq
          omega
        · exact hloaded id' later hrest
      · rintro ⟨hcount, hloaded⟩
        have hid := hloaded id uses (List.suffix_refl _)
        exact ⟨by omega, fun id' later hsuffix => hloaded id' later (hsuffix.trans (List.suffix_cons _ _))⟩

/-- There is room exactly if counting from 1 ends at the greatest id at the latest. -/
theorem hasRoom_iff_le {uses : List IdUse} : HasRoom uses ↔ uses.foldl follow 1 ≤ TokenId.greatest.raw.toNat := by
  rw [foldl_follow_le_iff, HasRoom, Nat.add_comm 1, Nat.succ_le_iff]
  refine and_congr_right fun _ => forall₃_congr fun id later _ => ?_
  omega

theorem HasRoom.of_append {uses more : List IdUse} (h : HasRoom (uses ++ more)) : HasRoom uses := by
  rw [hasRoom_iff_le, List.foldl_append] at h
  exact hasRoom_iff_le.2 (Nat.le_trans (le_foldl_follow _ _) h)

end IdUse

/-! ### The record of a supply -/

namespace IdSupply

open IdUse

/-- A supply that started afresh, with everything that happened to it, oldest first. -/
inductive Log : List IdUse → IdSupply → Prop
  | start : Log [] {}
  | issue {uses ids} (h : Log uses ids) : Log (uses ++ [.issued ids.fresh.1]) ids.fresh.2
  | reserve {uses ids id} (h : Log uses ids) (hid : id ≠ .greatest) : Log (uses ++ [.loaded id]) (ids.reserve id)

variable {uses : List IdUse} {ids : IdSupply}

theorem Log.reserveAll {tokens : List Token} (h : Log uses ids) (htokens : ∀ t ∈ tokens, t.id ≠ .greatest) :
    Log (uses ++ tokens.map (.loaded ·.id)) (ids.reserveAll tokens) := by
  unfold IdSupply.reserveAll
  induction tokens generalizing uses ids with
  | nil => simpa using h
  | cons t tokens ih =>
    have hrest := ih (h.reserve (htokens t List.mem_cons_self)) fun u hu => htokens u (List.mem_cons_of_mem _ hu)
    simpa using hrest

/-- With room, the supply is where counting without an end would be. -/
theorem Log.next_eq (h : Log uses ids) (hroom : HasRoom uses) : ids.next.toNat = uses.foldl follow 1 := by
  induction h with
  | start => rfl
  | @issue uses ids _ ih =>
    have hnext := ih hroom.of_append
    rw [hasRoom_iff_le, List.foldl_concat, follow, ← hnext] at hroom
    rw [List.foldl_concat, follow, ← hnext]
    exact toNat_succ (Nat.lt_of_succ_le hroom)
  | reserve _ hid ih =>
    rw [List.foldl_concat, follow, ← ih hroom.of_append]
    exact toNat_reserve _ hid

/-- With room, every id so far lies below the next one. -/
theorem Log.lt_next (h : Log uses ids) (hroom : HasRoom uses) : ∀ use ∈ uses, use.id.raw.toNat < ids.next.toNat := by
  have hlt : ∀ use ∈ uses, use.id.raw.toNat < uses.foldl follow 1 := by
    induction h with
    | start => simp
    | @issue uses ids hbefore ih =>
      intro use huse
      rw [List.foldl_concat, follow]
      rcases List.mem_append.1 huse with hold | hnew
      · exact Nat.lt_succ_of_lt (ih hroom.of_append use hold)
      · rw [List.mem_singleton.1 hnew, ← hbefore.next_eq hroom.of_append]
        exact Nat.lt_succ_self _
    | reserve _ _ ih =>
      intro use huse
      rw [List.foldl_concat, follow]
      rcases List.mem_append.1 huse with hold | hnew
      · exact Nat.lt_of_lt_of_le (ih hroom.of_append use hold) (Nat.le_max_left _ _)
      · rw [List.mem_singleton.1 hnew]
        exact Nat.le_max_right _ _
  rwa [← h.next_eq hroom] at hlt

/-- With room, the next id differs from all ids so far. -/
theorem Log.next_ne (h : Log uses ids) (hroom : HasRoom uses) : ∀ use ∈ uses, use.id ≠ ids.fresh.1 := by
  intro use huse hsame
  have hlt := h.lt_next hroom use huse
  rw [hsame] at hlt
  exact Nat.lt_irrefl _ hlt

/-- With room, an id that was handed out differs from all ids before it, and is not the greatest. -/
theorem Log.fresh {before : List IdUse} {id : TokenId} (h : Log uses ids) (hroom : HasRoom uses)
    (hbefore : before ++ [.issued id] <+: uses) : (∀ use ∈ before, use.id ≠ id) ∧ id ≠ .greatest := by
  induction h with
  | start => simp at hbefore
  | @issue uses ids hlog ih =>
    rcases List.prefix_concat_iff.1 hbefore with heq | hprefix
    · obtain ⟨rfl, hid⟩ := List.append_inj' heq rfl
      cases hid
      refine ⟨hlog.next_ne hroom.of_append, fun hgreatest => ?_⟩
      have hnext := hlog.next_eq hroom.of_append
      rw [hasRoom_iff_le, List.foldl_concat, follow, ← hnext, ← hgreatest] at hroom
      exact Nat.lt_irrefl _ hroom
    · exact ih hroom.of_append hprefix
  | reserve _ _ ih =>
    rcases List.prefix_concat_iff.1 hbefore with heq | hprefix
    · obtain ⟨-, hid⟩ := List.append_inj' heq rfl
      cases hid
    · exact ih hroom.of_append hprefix

/-- There is room as long as the greatest id was not handed out. -/
theorem Log.hasRoom_iff (h : Log uses ids) : HasRoom uses ↔ ∀ id, .issued id ∈ uses → id ≠ .greatest := by
  constructor
  · intro hroom id hid
    obtain ⟨before, after, rfl⟩ := List.append_of_mem hid
    have hprefix : before ++ [.issued id] <+: before ++ .issued id :: after := ⟨after, by simp⟩
    exact (h.fresh hroom hprefix).2
  · intro hids
    induction h with
    | start => exact hasRoom_iff_le.2 (by rw [TokenId.greatest_toNat]; decide)
    | @issue uses ids hlog ih =>
      have hroom := ih fun id hid => hids id (List.mem_append_left _ hid)
      have hlt := TokenId.toNat_lt_greatest (hids ids.fresh.1 (by simp))
      rw [hasRoom_iff_le, List.foldl_concat, follow, ← hlog.next_eq hroom]
      exact hlt
    | @reserve uses ids id hlog hid ih =>
      have hroom := ih fun id hid => hids id (List.mem_append_left _ hid)
      rw [hasRoom_iff_le, List.foldl_concat, follow]
      exact Nat.max_le.2 ⟨hasRoom_iff_le.1 hroom, TokenId.toNat_lt_greatest hid⟩

/-! ### Rows of ids -/

/-- Some rows of ids that draw on one supply, with everything that happened to it. -/
inductive Rows : List IdUse → IdSupply → List (List TokenId) → Prop
  | start : Rows [] {} []
  | opens {uses ids rows} (h : Rows uses ids rows) : Rows uses ids (rows ++ [[]])
  | issues {uses ids rows place row} (h : Rows uses ids rows) (hrow : rows[place]? = some row) :
      Rows (uses ++ [.issued ids.fresh.1]) ids.fresh.2 (rows.set place (row ++ [ids.fresh.1]))
  | keeps {uses ids rows place row row'} (h : Rows uses ids rows) (hrow : rows[place]? = some row)
      (hsub : row'.Sublist row) : Rows uses ids (rows.set place row')
  | loads {uses ids rows} {tokens : List Token} (h : Rows uses ids rows) (place : Nat)
      (hdistinct : (tokens.map (·.id)).Nodup) (hids : ∀ t ∈ tokens, t.id ≠ .greatest) :
      Rows (uses ++ tokens.map (.loaded ·.id)) (ids.reserveAll tokens) (rows.set place (tokens.map (·.id)))

variable {rows : List (List TokenId)}

theorem Rows.log (h : Rows uses ids rows) : Log uses ids := by
  induction h with
  | start => exact .start
  | opens _ ih => exact ih
  | issues _ _ ih => exact ih.issue
  | keeps _ _ _ ih => exact ih
  | loads _ _ _ hids ih => exact ih.reserveAll hids

theorem forall_mem_set {P : List TokenId → Prop} {row : List TokenId} {place : Nat} (hold : ∀ row ∈ rows, P row)
    (hnew : P row) : ∀ row' ∈ rows.set place row, P row' := by
  intro row' hrow'
  rcases List.mem_or_eq_of_mem_set hrow' with hmem | rfl
  · exact hold row' hmem
  · exact hnew

/-- Every id in a row was handed out or loaded. -/
theorem Rows.used (h : Rows uses ids rows) : ∀ row ∈ rows, ∀ id ∈ row, ∃ use ∈ uses, use.id = id := by
  -- a longer record has the ids of a shorter one
  have later {uses : List IdUse} (more : List IdUse) {row : List TokenId}
      (hrow : ∀ id ∈ row, ∃ use ∈ uses, use.id = id) : ∀ id ∈ row, ∃ use ∈ uses ++ more, use.id = id := by
    intro id hid
    obtain ⟨use, huse, hsame⟩ := hrow id hid
    exact ⟨use, List.mem_append_left _ huse, hsame⟩
  induction h with
  | start => simp
  | opens _ ih => exact List.forall_mem_append.2 ⟨ih, by simp⟩
  | @issues uses ids rows place row _ hrow ih =>
    refine forall_mem_set (fun row' hrow' => later _ (ih row' hrow')) (List.forall_mem_append.2 ⟨?_, ?_⟩)
    · exact later _ (ih row (List.mem_of_getElem? hrow))
    · exact List.forall_mem_singleton.2 ⟨_, List.mem_append_right _ List.mem_cons_self, rfl⟩
  | keeps _ hrow hsub ih =>
    exact forall_mem_set ih fun id hid => ih _ (List.mem_of_getElem? hrow) id (hsub.subset hid)
  | loads _ _ _ _ ih =>
    refine forall_mem_set (fun row hrow => later _ (ih row hrow)) fun id hid => ?_
    obtain ⟨t, ht, rfl⟩ := List.mem_map.1 hid
    exact ⟨_, List.mem_append_right _ (List.mem_map_of_mem ht), rfl⟩

/-- With room, every id in a row lies below the next one. -/
theorem Rows.lt_next (h : Rows uses ids rows) (hroom : HasRoom uses) :
    ∀ row ∈ rows, ∀ id ∈ row, id.raw.toNat < ids.next.toNat := by
  intro row hrow id hid
  obtain ⟨use, huse, rfl⟩ := h.used row hrow id hid
  exact h.log.lt_next hroom use huse

/-- With room, no row has the next id. -/
theorem Rows.next_ne (h : Rows uses ids rows) (hroom : HasRoom uses) :
    ∀ row ∈ rows, ∀ id ∈ row, id ≠ ids.fresh.1 := by
  intro row hrow id hid
  obtain ⟨use, huse, rfl⟩ := h.used row hrow id hid
  exact h.log.next_ne hroom use huse

/-- With room, no row has an id twice. -/
theorem Rows.nodup (h : Rows uses ids rows) (hroom : HasRoom uses) : ∀ row ∈ rows, row.Nodup := by
  induction h with
  | start => simp
  | opens _ ih => exact List.forall_mem_append.2 ⟨ih hroom, by simp⟩
  | @issues uses ids rows place row hrows hrow ih =>
    have hmem := List.mem_of_getElem? hrow
    refine forall_mem_set (ih hroom.of_append) ?_
    rw [← List.concat_eq_append]
    refine List.Nodup.concat (fun hin => ?_) (ih hroom.of_append row hmem)
    exact Nat.lt_irrefl _ (hrows.lt_next hroom.of_append row hmem _ hin)
  | keeps _ hrow hsub ih =>
    exact forall_mem_set (ih hroom) ((ih hroom _ (List.mem_of_getElem? hrow)).sublist hsub)
  | loads _ _ hdistinct _ ih => exact forall_mem_set (ih hroom.of_append) hdistinct

end IdSupply

end FormulaBar
