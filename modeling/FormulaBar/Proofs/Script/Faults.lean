import FormulaBar.Proofs.Script.Spelling

/-!
# FormulaBar.Proofs.Script.Faults — where a script breaks off

A script that is read may be continued: what follows it is read as by itself, only that errors count from the start of
the whole (`keysFrom_append`, `keysFrom_moved`). So a script fails at the first brace that belongs to no key, behind a
script that is read, and this brace alone decides the error (`keys_break_off`).
-/

namespace FormulaBar

namespace ScriptError

theorem moved_zero (e : ScriptError) : e.moved 0 = e := by cases e <;> rfl

theorem moved_moved (e : ScriptError) (m n : Nat) : (e.moved m).moved n = e.moved (m + n) := by
  cases e <;> simp only [moved, Nat.add_assoc]

/-- At most one error starts a text. -/
theorem Starts.unique {e f : ScriptError} {cs : List Char} (he : e.Starts cs) (hf : f.Starts cs) : e = f := by
  have heq : Except.error (e.moved 0) = Except.error (f.moved 0) :=
    (Script.keysFrom_starts he 0).symm.trans (Script.keysFrom_starts hf 0)
  rw [moved_zero, moved_zero] at heq
  exact Except.error.inj heq

end ScriptError

namespace Script

/-- Where a script starts decides the places of its errors and nothing else. -/
theorem keysFrom_moved (offset n : Nat) (cs : List Char) :
    keysFrom (offset + n) cs = (keysFrom offset cs).mapError (·.moved n) := by
  induction cs using spellings generalizing offset with
  | nil => rw [keysFrom_nil, keysFrom_nil]; rfl
  | key k word rest hword ih =>
    rw [keysFrom_spelling hword, keysFrom_spelling hword, Nat.add_right_comm, ih]
    cases keysFrom (offset + Text.byteLength word) rest <;> rfl
  | fault e cs he =>
    rw [keysFrom_starts he, keysFrom_starts he, ← ScriptError.moved_moved]
    rfl

/-- What follows a script that is read is read behind it. -/
theorem keysFrom_append {ks : List Key} {cs : List Char} (h : Spelling ks cs) (offset : Nat) (rest : List Char) :
    keysFrom offset (cs ++ rest) = (keysFrom (offset + Text.byteLength cs) rest).map (ks ++ ·) := by
  induction h generalizing offset with
  | nil =>
    rw [List.nil_append, Text.byteLength_nil, Nat.add_zero]
    cases keysFrom offset rest <;> rfl
  | @cons k ks word more hword _ ih =>
    rw [List.append_assoc, keysFrom_spelling hword, ih, Text.byteLength_append, Nat.add_assoc]
    cases keysFrom (offset + (Text.byteLength word + Text.byteLength more)) rest <;> rfl

/-- A text fails exactly if it has a fault behind a spelling of keys. -/
theorem keysFrom_eq_error_iff {offset : Nat} {cs : List Char} {e : ScriptError} :
    keysFrom offset cs = .error e ↔
      ∃ ks read rest f, cs = read ++ rest ∧ Spelling ks read ∧ ScriptError.Starts f rest ∧
        e = f.moved (offset + Text.byteLength read) := by
  constructor
  · intro h
    -- the first key or fault is cut off; the offset moves on behind a key
    induction cs using spellings generalizing offset with
    | nil =>
      rw [keysFrom_nil] at h
      cases h
    | key k word rest hword ih =>
      rw [keysFrom_spelling hword] at h
      have hrest : keysFrom (offset + Text.byteLength word) rest = .error e := by
        -- the key itself does not fail, so the error is from behind it
        cases hmore : keysFrom (offset + Text.byteLength word) rest with
        | ok more => rw [hmore] at h; cases h
        | error f => rw [hmore] at h; cases h; rfl
      obtain ⟨ks, read, tail, f, rfl, hread, hf, rfl⟩ := ih hrest
      refine ⟨k :: ks, word ++ read, tail, f, by rw [List.append_assoc], .cons hword hread, hf, ?_⟩
      rw [Text.byteLength_append, Nat.add_assoc]
    | fault f cs hf =>
      rw [keysFrom_starts hf] at h
      cases h
      exact ⟨[], [], cs, f, rfl, .nil, hf, rfl⟩
  · rintro ⟨ks, read, rest, f, rfl, hread, hf, rfl⟩
    rw [keysFrom_append hread, keysFrom_starts hf]
    rfl

/-- A script may be put behind one that is read: its keys follow, or its error with the length of the first in bytes
added. A script fails exactly if behind a script that is read stands a brace that belongs to no key: one that closes and
is alone, one that opens and is neither doubled nor closed, or one that opens a name of no key. The error points at that
brace and is the only one for it. -/
theorem keys_break_off :
    (∀ (a b : String) (ks : List Key), keys a = .ok ks →
      (∀ more, keys b = .ok more → keys (a ++ b) = .ok (ks ++ more)) ∧
      ∀ e, keys b = .error e → keys (a ++ b) = .error (e.moved a.utf8ByteSize)) ∧
    (∀ (s : String) (e : ScriptError), keys s = .error e ↔
      ∃ (a r : String) (ks : List Key) (f : ScriptError),
        s = a ++ r ∧ keys a = .ok ks ∧ f.Starts r.toList ∧ e = f.moved a.utf8ByteSize) ∧
    ∀ (r : List Char) (e f : ScriptError), e.Starts r → f.Starts r → e = f := by
  refine ⟨?_, ?_, fun _ _ _ => ScriptError.Starts.unique⟩
  · intro a b ks ha
    -- keys of the first text stand in front, and errors move behind it
    have happend : keys (a ++ b) = ((keys b).mapError (·.moved a.utf8ByteSize)).map (ks ++ ·) := by
      rw [keys, String.toList_append, keysFrom_append (keysFrom_eq_ok_iff.1 ha), keysFrom_moved, Text.byteLength_toList]
      rfl
    constructor
    · intro more hb
      rw [happend, hb]
      rfl
    · intro e hb
      rw [happend, hb]
      rfl
  · intro s e
    rw [keys, keysFrom_eq_error_iff]
    constructor
    -- between lists of characters and strings, nothing else changes
    · rintro ⟨ks, read, rest, f, hs, hread, hf, rfl⟩
      refine ⟨String.ofList read, String.ofList rest, ks, f, ?_, ?_, ?_, ?_⟩
      · rw [← String.ofList_append, ← hs, String.ofList_toList]
      · rw [keys, String.toList_ofList]
        exact keysFrom_eq_ok_iff.2 hread
      · rwa [String.toList_ofList]
      · rw [← Text.byteLength_toList, String.toList_ofList, Nat.zero_add]
    · rintro ⟨a, r, ks, f, rfl, ha, hf, rfl⟩
      refine ⟨ks, a.toList, r.toList, f, String.toList_append, keysFrom_eq_ok_iff.1 ha, hf, ?_⟩
      rw [Text.byteLength_toList, Nat.zero_add]

/-- Behind `é{{`, which takes four bytes, a key is read and an unknown name is found four bytes further on. -/
theorem keys_break_off_at_name :
    keys "é\x7b\x7b" = .ok [.char 'é', .char '\x7b'] ∧ keys "\x7bTab\x7d" = .ok [.tab] ∧
      keys "x\x7bhome\x7d" = .error (.unknownKey "home" 1) ∧
      keys ("é\x7b\x7b" ++ "\x7bTab\x7d") = .ok [.char 'é', .char '\x7b', .tab] ∧
      keys ("é\x7b\x7b" ++ "x\x7bhome\x7d") = .error (.unknownKey "home" 5) := by
  have ha : keys "é\x7b\x7b" = .ok [.char 'é', .char '\x7b'] := by decide +kernel
  have hkey : keys "\x7bTab\x7d" = .ok [.tab] := by decide +kernel
  have hname : keys "x\x7bhome\x7d" = .error (.unknownKey "home" 1) := by decide +kernel
  have hsize : "é\x7b\x7b".utf8ByteSize = 4 := by decide
  have hfault := (keys_break_off.1 _ _ _ ha).2 _ hname
  rw [hsize] at hfault
  exact ⟨ha, hkey, hname, (keys_break_off.1 _ _ _ ha).1 _ hkey, hfault⟩

end Script

end FormulaBar
