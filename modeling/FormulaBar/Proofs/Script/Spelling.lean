import FormulaBar.Script
import FormulaBar.Proofs.Expr.Reading
import FormulaBar.Proofs.Text.Trim

/-!
# FormulaBar.Proofs.Script.Spelling — scripts and the keys they spell

A key has one or more spellings: a typed character is spelled as itself, a brace as two, and a named key as one of its
names between braces, in any letter case and with blanks around it. At the front of a text stands either the spelling
of a key or a brace that belongs to none (`front`), and all that is proved of scripts is an induction over this choice
(`spellings`). So a script is read as a row of keys exactly if it is a spelling of that row (`keys_eq_ok_iff`), and every
row of keys has one.
-/

namespace FormulaBar

/-! ### Names -/

namespace Key

/-- The names of a key, in lower case. -/
def names : Key → List String
  | char _ => []
  | enter => ["enter", "return"]
  | tab => ["tab"]
  | backspace => ["bs", "backspace"]
  | escape => ["esc", "escape"]
  | up => ["up"]
  | down => ["down"]

theorem ofName?_eq_some_iff {name : List Char} {k : Key} :
    ofName? name = some k ↔ ∃ n ∈ k.names, name = n.toList := by
  constructor
  · intro h
    unfold ofName? at h
    split at h
    all_goals cases h
    all_goals simp [names]
  · rintro ⟨n, hn, rfl⟩
    cases k with
    | char c => cases hn
    | enter | tab | backspace | escape | up | down =>
      simp only [names, List.mem_cons, List.not_mem_nil, or_false] at hn
      rcases hn with rfl | rfl <;> rfl

theorem ofName?_eq_none_iff {name : List Char} :
    ofName? name = none ↔ ∀ k : Key, ∀ n ∈ k.names, name ≠ n.toList := by
  rw [Option.eq_none_iff_forall_ne_some]
  simp only [ne_eq, ofName?_eq_some_iff, not_exists, not_and]

/-- Names hold neither capitals nor blanks nor braces. -/
theorem plain_of_mem_names {k : Key} {n : String} (hn : n ∈ k.names) :
    ∀ c ∈ n.toList, c.toLower = c ∧ Text.isBlank c = false ∧ c ≠ '\x7b' ∧ c ≠ '\x7d' := by
  have hplain : n.toList.all fun c => c.toLower = c ∧ Text.isBlank c = false ∧ c ≠ '\x7b' ∧ c ≠ '\x7d' := by
    cases k with
    | char c => cases hn
    | enter | tab | backspace | escape | up | down =>
      simp only [names, List.mem_cons, List.not_mem_nil, or_false] at hn
      rcases hn with rfl | rfl <;> decide
  exact fun c hc => of_decide_eq_true (List.all_eq_true.1 hplain c hc)

end Key

theorem Text.toLower_of_isBlank {c : Char} (h : isBlank c = true) : c.toLower = c := by
  have hcode : ¬(65 ≤ c.toNat ∧ c.toNat ≤ 90) := by
    simp only [isBlank, Bool.or_eq_true, Bool.and_eq_true, decide_eq_true_eq, beq_iff_eq] at h
    omega
  refine dif_neg fun hletter => hcode ?_
  simpa [UInt32.le_iff_toNat_le] using hletter

/-! ### Spellings -/

/-- A text that a key is written as. -/
inductive Key.Spelling : Key → List Char → Prop
  | typed {c : Char} (hopen : c ≠ '\x7b') (hclose : c ≠ '\x7d') : Spelling (.char c) [c]
  | openBrace : Spelling (.char '\x7b') ['\x7b', '\x7b']
  | closeBrace : Spelling (.char '\x7d') ['\x7d', '\x7d']
  | named {k : Key} {n : String} {before name after : List Char} (hn : n ∈ k.names)
      (hname : name.map Char.toLower = n.toList) (hbefore : ∀ c ∈ before, Text.isBlank c = true)
      (hafter : ∀ c ∈ after, Text.isBlank c = true) :
      Spelling k ('\x7b' :: (before ++ name ++ after ++ ['\x7d']))

/-- Every key has a spelling. -/
theorem Key.exists_spelling (k : Key) : ∃ word, k.Spelling word := by
  have hnamed {k : Key} {n : String} (hn : n ∈ k.names) : ∃ word, k.Spelling word := by
    have hlower : n.toList.map Char.toLower = n.toList :=
      (List.map_congr_left fun c hc => (plain_of_mem_names hn c hc).1).trans (List.map_id _)
    have hnil : ∀ c ∈ ([] : List Char), Text.isBlank c = true := by simp
    exact ⟨_, .named hn hlower hnil hnil⟩
  cases k with
  | char c =>
    by_cases hopen : c = '\x7b'
    · subst hopen
      exact ⟨_, .openBrace⟩
    · by_cases hclose : c = '\x7d'
      · subst hclose
        exact ⟨_, .closeBrace⟩
      · exact ⟨_, .typed hopen hclose⟩
  | enter | tab | backspace | escape | up | down => exact hnamed List.mem_cons_self

namespace Script

/-- A spelling of a row of keys: one of each key, in a row. -/
inductive Spelling : List Key → List Char → Prop
  | nil : Spelling [] []
  | cons {k : Key} {ks : List Key} {word rest : List Char} (hword : k.Spelling word) (hrest : Spelling ks rest) :
      Spelling (k :: ks) (word ++ rest)

theorem exists_spelling (ks : List Key) : ∃ text, Spelling ks text := by
  induction ks with
  | nil => exact ⟨[], .nil⟩
  | cons k ks ih =>
    obtain ⟨word, hword⟩ := k.exists_spelling
    obtain ⟨rest, hrest⟩ := ih
    exact ⟨word ++ rest, .cons hword hrest⟩

end Script

/-- The text starts with a brace that belongs to no key. Offsets are counted from that brace. -/
inductive ScriptError.Starts : ScriptError → List Char → Prop
  | strayBrace {rest : List Char} (hclose : rest.head? ≠ some '\x7d') : Starts (.strayBrace 0) ('\x7d' :: rest)
  | unterminated {rest : List Char} (hopen : rest.head? ≠ some '\x7b') (hclose : '\x7d' ∉ rest) :
      Starts (.unterminated 0) ('\x7b' :: rest)
  | unknownKey {name rest : List Char} (hopen : name.head? ≠ some '\x7b') (hclose : '\x7d' ∉ name)
      (hname : ∀ k : Key, ∀ n ∈ k.names, (Text.trim name).map Char.toLower ≠ n.toList) :
      Starts (.unknownKey (String.ofList name) 0) ('\x7b' :: (name ++ '\x7d' :: rest))

/-- The same error with its place moved on. -/
def ScriptError.moved (n : Nat) : ScriptError → ScriptError
  | unknownKey name offset => unknownKey name (offset + n)
  | unterminated offset => unterminated (offset + n)
  | strayBrace offset => strayBrace (offset + n)

namespace Script

/-! ### The front of a text -/

/-- What stands between the braces of a named key holds no brace, and its name is found. -/
theorem named_parts {k : Key} {n : String} {before name after : List Char} (hn : n ∈ k.names)
    (hname : name.map Char.toLower = n.toList) (hbefore : ∀ c ∈ before, Text.isBlank c = true)
    (hafter : ∀ c ∈ after, Text.isBlank c = true) :
    (∀ c ∈ before ++ name ++ after, c ≠ '\x7b' ∧ c ≠ '\x7d') ∧
      Key.ofName? ((Text.trim (before ++ name ++ after)).map Char.toLower) = some k := by
  -- letters of a name are neither blanks nor braces, in either case
  have hletter : ∀ c ∈ name, Text.isBlank c.toLower = false ∧ c.toLower ≠ '\x7b' ∧ c.toLower ≠ '\x7d' := by
    intro c hc
    refine (Key.plain_of_mem_names hn c.toLower ?_).2
    rw [← hname]
    exact List.mem_map_of_mem hc
  constructor
  · have hblank {c : Char} (hc : Text.isBlank c = true) : c ≠ '\x7b' ∧ c ≠ '\x7d' := by
      constructor <;> (rintro rfl; cases hc)
    have hplain : ∀ c ∈ name, c ≠ '\x7b' ∧ c ≠ '\x7d' := by
      intro c hc
      have hc := hletter c hc
      exact ⟨by rintro rfl; exact hc.2.1 rfl, by rintro rfl; exact hc.2.2 rfl⟩
    simp only [List.forall_mem_append]
    exact ⟨⟨fun c hc => hblank (hbefore c hc), hplain⟩, fun c hc => hblank (hafter c hc)⟩
  -- blanks around the name are trimmed away, and nothing of the name
  · have htrim : Text.trim name = name := by
      refine Text.trim_of_not_blank fun c hc => ?_
      by_contra hblank
      have hlower := (hletter c hc).1
      rw [Text.toLower_of_isBlank (by simpa using hblank)] at hlower
      exact hblank hlower
    rw [Text.trim_padded hbefore hafter, htrim, hname, Key.ofName?_eq_some_iff]
    exact ⟨n, hn, rfl⟩

/-- What stands between braces is read as a name. -/
theorem keysFrom_braces {inner : List Char} (hopen : inner.head? ≠ some '\x7b') (hclose : '\x7d' ∉ inner) (offset : Nat)
    (rest : List Char) :
    keysFrom offset ('\x7b' :: (inner ++ '\x7d' :: rest)) =
      match Key.ofName? ((Text.trim inner).map Char.toLower) with
      | none => .error (.unknownKey (String.ofList inner) offset)
      | some k => (keysFrom (offset + Text.byteLength inner + 2) rest).map (k :: ·) := by
  have hinner : ∀ c ∈ inner, decide (c ≠ '\x7d') = true := fun c hc => by
    rw [decide_eq_true_eq]
    rintro rfl
    exact hclose hc
  -- the braces are found by the first closing one, which is behind `inner`
  have htake : (inner ++ '\x7d' :: rest).takeWhile (· ≠ '\x7d') = inner := by
    rw [List.takeWhile_append_of_pos hinner, List.takeWhile_cons_of_neg (by simp), List.append_nil]
  have hdrop : (inner ++ '\x7d' :: rest).dropWhile (· ≠ '\x7d') = '\x7d' :: rest := by
    rw [List.dropWhile_append_of_pos hinner, List.dropWhile_cons_of_neg (by simp)]
  -- `inner` does not start with a second brace
  have hsingle : ∀ cs, inner ++ '\x7d' :: rest = '\x7b' :: cs → False := by
    intro cs heq
    cases inner with
    | nil => cases heq
    | cons c inner => exact hopen (congrArg some (List.cons.inj heq).1)
  rw [keysFrom.eq_3 _ _ hsingle]
  split
  · next hnil =>
    rw [hdrop] at hnil
    cases hnil
  · next hcons =>
    rw [hdrop] at hcons
    cases hcons
    rw [htake]
    rfl

/-- The spelling of a key is read as that key, and the rest behind it. -/
theorem keysFrom_spelling {k : Key} {word : List Char} (h : k.Spelling word) (offset : Nat) (rest : List Char) :
    keysFrom offset (word ++ rest) = (keysFrom (offset + Text.byteLength word) rest).map (k :: ·) := by
  cases h with
  | @typed c hopen hclose =>
    rw [List.singleton_append, keysFrom]
    · rfl
    · exact fun _ hc => absurd hc hopen
    · exact hopen
    · exact fun _ hc => absurd hc hclose
    · exact hclose
  | openBrace =>
    rw [List.cons_append, List.singleton_append, keysFrom]
    rfl
  | closeBrace =>
    rw [List.cons_append, List.singleton_append, keysFrom]
    rfl
  | @named _ n before name after hn hname hbefore hafter =>
    obtain ⟨hplain, hkey⟩ := named_parts hn hname hbefore hafter
    -- only what `inner` holds and how long it is matters from here on
    generalize before ++ name ++ after = inner at hplain hkey
    have hopen : inner.head? ≠ some '\x7b' := fun hc => (hplain _ (List.mem_of_head? hc)).1 rfl
    have hclose : '\x7d' ∉ inner := fun hc => (hplain _ hc).2 rfl
    have hlength : Text.byteLength ('\x7b' :: (inner ++ ['\x7d'])) = Text.byteLength inner + 2 := by
      simp only [Text.byteLength_cons, Text.byteLength_append, Text.byteLength_nil]
      rw [show '\x7b'.utf8Size = 1 from rfl, show '\x7d'.utf8Size = 1 from rfl]
      omega
    rw [List.cons_append, List.append_assoc, List.singleton_append, keysFrom_braces hopen hclose, hkey, hlength,
      Nat.add_assoc]

/-- A brace that belongs to no key ends the reading, and the error tells where it stands. -/
theorem keysFrom_starts {e : ScriptError} {cs : List Char} (h : e.Starts cs) (offset : Nat) :
    keysFrom offset cs = .error (e.moved offset) := by
  cases h with
  | @strayBrace rest hclose =>
    rw [keysFrom, ScriptError.moved, Nat.zero_add]
    rintro cs rfl
    exact hclose rfl
  | @unterminated rest hopen hclose =>
    -- no closing brace is found
    have hdrop : rest.dropWhile (· ≠ '\x7d') = [] := by
      refine List.dropWhile_eq_nil_iff.2 fun c hc => ?_
      rw [decide_eq_true_eq]
      rintro rfl
      exact hclose hc
    have hsingle : ∀ cs, rest = '\x7b' :: cs → False := by
      rintro cs rfl
      exact hopen rfl
    rw [keysFrom.eq_3 _ _ hsingle, ScriptError.moved, Nat.zero_add]
    split
    · rfl
    · next hcons =>
      rw [hdrop] at hcons
      cases hcons
  | unknownKey hopen hclose hname =>
    rw [keysFrom_braces hopen hclose, Key.ofName?_eq_none_iff.2 hname, ScriptError.moved, Nat.zero_add]

/-- What stands between braces spells the key that it names. -/
theorem spelling_of_ofName? {inner : List Char} {k : Key}
    (h : Key.ofName? ((Text.trim inner).map Char.toLower) = some k) :
    k.Spelling ('\x7b' :: (inner ++ ['\x7d'])) := by
  obtain ⟨n, hn, hname⟩ := Key.ofName?_eq_some_iff.1 h
  obtain ⟨after, hafter, hparts⟩ := Text.trim_parts inner
  have hbefore : ∀ c ∈ inner.takeWhile Text.isBlank, Text.isBlank c = true := fun c hc => List.mem_takeWhile_imp hc
  rw [hparts]
  exact .named hn hname hbefore hafter

/-- At the front of a text stands the spelling of a key or a brace that belongs to none. -/
theorem front (c : Char) (cs : List Char) :
    (∃ k word rest, Key.Spelling k word ∧ c :: cs = word ++ rest) ∨ ∃ e, ScriptError.Starts e (c :: cs) := by
  by_cases hopen : c = '\x7b'
  · subst hopen
    -- an opening brace stands for itself, opens a name, or is a fault
    by_cases hdouble : cs.head? = some '\x7b'
    · obtain ⟨rest, rfl⟩ := List.head?_eq_some_iff.1 hdouble
      exact .inl ⟨_, _, rest, .openBrace, rfl⟩
    · by_cases hclose : '\x7d' ∈ cs
      · obtain ⟨inner, rest, rfl, hinner⟩ := List.eq_append_cons_of_mem hclose
        have hhead : inner.head? ≠ some '\x7b' := by
          intro hhead
          exact hdouble (by rw [List.head?_append, hhead]; rfl)
        cases hname : Key.ofName? ((Text.trim inner).map Char.toLower) with
        | none => exact .inr ⟨_, .unknownKey hhead hinner (Key.ofName?_eq_none_iff.1 hname)⟩
        | some k => exact .inl ⟨k, _, rest, spelling_of_ofName? hname, by simp⟩
      · exact .inr ⟨_, .unterminated hdouble hclose⟩
  · by_cases hclose : c = '\x7d'
    · subst hclose
      -- a closing brace stands for itself or is a fault
      by_cases hdouble : cs.head? = some '\x7d'
      · obtain ⟨rest, rfl⟩ := List.head?_eq_some_iff.1 hdouble
        exact .inl ⟨_, _, rest, .closeBrace, rfl⟩
      · exact .inr ⟨_, .strayBrace hdouble⟩
    · exact .inl ⟨_, _, cs, .typed hopen hclose, rfl⟩

theorem ne_nil_of_spelling {k : Key} {word : List Char} (h : k.Spelling word) : word ≠ [] := by
  cases h <;> exact List.cons_ne_nil _ _

/-- Induction over the keys of a text, up to its end or the first brace that belongs to none. -/
@[elab_as_elim]
theorem spellings {motive : List Char → Prop} (nil : motive [])
    (key : ∀ k word rest, Key.Spelling k word → motive rest → motive (word ++ rest))
    (fault : ∀ e cs, ScriptError.Starts e cs → motive cs) (cs : List Char) : motive cs := by
  induction h : cs.length using Nat.strongRecOn generalizing cs with
  | ind n ih =>
    cases cs with
    | nil => exact nil
    | cons c cs =>
      rcases front c cs with ⟨k, word, rest, hword, heq⟩ | ⟨e, he⟩
      · have hlength := congrArg List.length heq
        have hpos := List.length_pos_iff.2 (ne_nil_of_spelling hword)
        rw [List.length_append, h] at hlength
        rw [heq]
        exact key k word rest hword (ih rest.length (by omega) rest rfl)
      · exact fault e _ he

/-! ### Reading a script -/

theorem keysFrom_nil (offset : Nat) : keysFrom offset [] = .ok [] := by rw [keysFrom]

theorem keysFrom_eq_ok_iff {offset : Nat} {cs : List Char} {ks : List Key} :
    keysFrom offset cs = .ok ks ↔ Spelling ks cs := by
  constructor
  · intro h
    induction cs using spellings generalizing offset ks with
    | nil =>
      rw [keysFrom_nil] at h
      cases h
      exact .nil
    | key k word rest hword ih =>
      rw [keysFrom_spelling hword] at h
      obtain ⟨more, hmore, rfl⟩ := map_eq_ok.1 h
      exact .cons hword (ih hmore)
    | fault e cs he =>
      rw [keysFrom_starts he] at h
      cases h
  · intro h
    induction h generalizing offset with
    | nil => exact keysFrom_nil offset
    | cons hword _ ih => rw [keysFrom_spelling hword, ih]; rfl

/-- Every row of keys has a spelling, and the texts that are read as that row are its spellings. -/
theorem keys_eq_ok_iff (ks : List Key) :
    (∃ text : String, Spelling ks text.toList) ∧ ∀ text : String, keys text = .ok ks ↔ Spelling ks text.toList := by
  obtain ⟨text, htext⟩ := exists_spelling ks
  refine ⟨⟨String.ofList text, ?_⟩, fun text => keysFrom_eq_ok_iff⟩
  rwa [String.toList_ofList]

example : keys "\x7b\x7b\x7b Enter\x7d\x7d\x7d" = .ok [.char '\x7b', .enter, .char '\x7d'] := by cbv

end Script

end FormulaBar
