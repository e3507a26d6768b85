import FormulaBar.Proofs.Editor.Changes

/-!
# FormulaBar.Proofs.Editor.FreshIds — the supply stays ahead of the tokens

A new token takes the next id of the supply, which no token has as long as all ids of the row lie below it
(`Store.Ahead`). Every input keeps this (`handle_ahead`), and loading tokens brings it about, since the supply steps over
their ids (`load_ahead`). It ends only when the supply, which is a word, counts round.
-/

namespace FormulaBar

namespace Store

/-- All ids of the row were handed out before the next one. -/
def Ahead (s : Store) : Prop := ∀ t ∈ s.tokens, t.id.raw < s.ids.next

variable {s s' : Store}

theorem Ahead.fresh_ne (h : s.Ahead) : ∀ t ∈ s.tokens, t.id ≠ s.ids.fresh.1 := by
  intro t ht hid
  have hlt := h t ht
  rw [hid] at hlt
  exact absurd hlt (UInt64.lt_irrefl _)

/-- A row with no other ids, over the same supply. -/
theorem Ahead.of_ids (h : s.Ahead) (hids : s'.ids = s.ids) (hrow : s'.tokens.map (·.id) ⊆ s.tokens.map (·.id)) :
    s'.Ahead := by
  intro t ht
  obtain ⟨u, hu, hid⟩ := List.mem_map.1 (hrow (List.mem_map_of_mem ht))
  rw [hids, ← hid]
  exact h u hu

theorem Ahead.append (h : s.Ahead) (hroom : s.ids.next.toNat < TokenId.greatest.raw.toNat) (d : TokenData) :
    (s.append d).2.Ahead := by
  have hnext : s.ids.next < s.ids.next + 1 := by
    rw [UInt64.lt_iff_toNat_lt, IdSupply.toNat_succ hroom]
    exact Nat.lt_succ_self _
  intro t ht
  rcases List.mem_append.1 ht with hold | hnew
  · exact UInt64.lt_trans (h t hold) hnext
  · rw [List.mem_singleton.1 hnew]
    exact hnext

theorem Ahead.appendAll {data : List TokenData} (h : s.Ahead)
    (hroom : s.ids.next.toNat + data.length ≤ TokenId.greatest.raw.toNat) : (s.appendAll data).Ahead := by
  induction data generalizing s with
  | nil => exact h
  | cons d data ih =>
    rw [List.length_cons] at hroom
    refine ih (h.append (by omega) d) ?_
    show (s.ids.next + 1).toNat + data.length ≤ TokenId.greatest.raw.toNat
    rw [IdSupply.toNat_succ (by omega)]
    omega

theorem Edit.ahead (h : Edit s s') (hs : s.Ahead) (hroom : s.ids.next.toNat + 2 ≤ TokenId.greatest.raw.toNat) :
    s'.Ahead := by
  cases h with
  | appends data hlength _ => exact hs.appendAll (by omega)
  | drops hdrop =>
    obtain ⟨htokens, heq⟩ := dropLast?_eq_some hdrop
    exact hs.of_ids (by rw [heq]; rfl) (by simp [htokens])
  | erases herase =>
    obtain ⟨-, htokens, heq⟩ := erase?_eq_some herase
    refine hs.of_ids (by rw [heq]; rfl) ?_
    rw [htokens]
    exact List.map_subset _ (List.filter_subset_self _)
  | relabels hrelabel =>
    obtain ⟨-, heq, before, t, after, current, htokens, -, -, -, hafter⟩ := relabel?_eq_some hrelabel
    exact hs.of_ids (by rw [heq]; rfl) (by simp [htokens, hafter])

theorem ahead_of_load {tokens : List Token} (h : s.load tokens = .ok s') : s'.Ahead := by
  obtain ⟨hloadable, rfl⟩ := load_eq_ok_iff.1 h
  exact fun t ht => UInt64.lt_iff_toNat_lt.2 ((IdSupply.toNat_lt_reserveAll hloadable.inRange s.ids).2 t ht)

end Store

namespace Editor

/-- Inputs keep the supply ahead of the tokens, as long as it does not count round. -/
theorem handle_ahead {e : Editor} (h : e.store.Ahead)
    (hroom : e.store.ids.next.toNat + 2 ≤ TokenId.greatest.raw.toNat) (input : Input) :
    (e.handle input).1.store.Ahead := by
  have hreact := (edit_react e input).ahead h hroom
  unfold Store.Ahead at hreact ⊢
  rw [handle_ids]
  rwa [show (e.handle input).1.store.tokens = (e.react input).1.store.tokens from handle_tokens e input]

theorem load_ahead {e e' : Editor} {tokens : List Token} (h : e.load tokens = .ok e') : e'.store.Ahead := by
  obtain ⟨store, hstore, rfl⟩ := load_eq_ok h
  have hahead : store.Ahead := Store.ahead_of_load hstore
  exact hahead

end Editor

end FormulaBar
