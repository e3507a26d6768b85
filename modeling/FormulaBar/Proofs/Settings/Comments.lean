import FormulaBar.Proofs.Json.LineBreaks
import FormulaBar.Proofs.Text.Trim
import FormulaBar.Settings
import Mathlib.Logic.Relation

/-!
# FormulaBar.Proofs.Settings.Comments — comments leave the settings alone

Comments are taken out line by line, before anything is known about strings. That is harmless since no word of JSON
reaches over a line break: a text has the words of its lines (`lexemes_stripComments`), and a line that starts with
`//` has none and ends the reading. So a text that is JSON holds no such line, and one that is not is read as if its
comments were not there.
-/

namespace FormulaBar.Settings

open Json

variable {line text rest : List Char}

/-! ### Lines -/

/-- A line without the carriage return in front of its end. -/
def withoutReturn (line : List Char) : List Char := if line.getLast? = some '\r' then line.dropLast else line

theorem withoutReturn_cases (line : List Char) :
    withoutReturn line = line ∨ line = withoutReturn line ++ ['\r'] := by
  by_cases h : line.getLast? = some '\r'
  · right
    rw [withoutReturn, if_pos h]
    exact (List.dropLast_append_getLast? '\r' h).symm
  · left
    rw [withoutReturn, if_neg h]

/-- The part of a text in front of its first line feed. -/
theorem takeWhile_of_not_mem (h : '\n' ∉ line) :
    line.takeWhile (· ≠ '\n') = line ∧ line.dropWhile (· ≠ '\n') = [] := by
  have hall : ∀ c ∈ line, decide (c ≠ '\n') = true := fun c hc => decide_eq_true fun heq => h (heq ▸ hc)
  exact ⟨List.takeWhile_eq_self_iff.2 hall, List.dropWhile_eq_nil_iff.2 hall⟩

theorem lines_last (h : '\n' ∉ line) (hne : line ≠ []) : lines line = [line] := by
  obtain ⟨htake, hdrop⟩ := takeWhile_of_not_mem h
  obtain ⟨c, cs, rfl⟩ := List.exists_cons_of_ne_nil hne
  rw [lines]
  split
  · rw [htake]
  · next hcons =>
    rw [hdrop] at hcons
    cases hcons

theorem lines_cons (h : '\n' ∉ line) (rest : List Char) :
    lines (line ++ '\n' :: rest) = withoutReturn line :: lines rest := by
  obtain ⟨htake, hdrop⟩ := takeWhile_of_not_mem h
  have htake' := takeWhile_append_stop (p := (· ≠ '\n')) (c := '\n') (by simp) line rest
  have hdrop' := dropWhile_append_stop (p := (· ≠ '\n')) (c := '\n') (by simp) line rest
  rw [htake] at htake'
  rw [hdrop, List.nil_append] at hdrop'
  have hne : line ++ '\n' :: rest ≠ [] := by simp
  obtain ⟨c, cs, hcons⟩ := List.exists_cons_of_ne_nil hne
  rw [hcons] at htake' hdrop' ⊢
  rw [lines]
  split
  · next hnil =>
    rw [hdrop'] at hnil
    cases hnil
  · next hcons =>
    rw [hdrop'] at hcons
    cases hcons
    rw [htake', withoutReturn]

/-- A text is a last line, or a line with its end and a text. -/
theorem line_induction {motive : List Char → Prop} (last : ∀ line, '\n' ∉ line → motive line)
    (cons : ∀ line rest, '\n' ∉ line → motive rest → motive (line ++ '\n' :: rest)) (cs : List Char) : motive cs := by
  induction h : cs.length using Nat.strongRecOn generalizing cs with
  | ind n ih =>
    by_cases hmem : '\n' ∈ cs
    · obtain ⟨line, rest, rfl, hline⟩ := List.eq_append_cons_of_mem hmem
      exact cons line rest hline (ih rest.length (by simp at h; omega) rest rfl)
    · exact last cs hmem

/-- The text is empty, or its last line has its end. -/
def Ended (text : List Char) : Prop := text = [] ∨ text.getLast? = some '\n'

/-! ### Comments -/

/-- The line is a comment: it is a single line, and its first characters that are not blank are `//`. -/
structure IsComment (line : List Char) : Prop where
  single : '\n' ∉ line
  start : ['/', '/'] <+: line.dropWhile Text.isBlank

theorem isComment_iff (line : List Char) : isComment line = true ↔ ['/', '/'] <+: line.dropWhile Text.isBlank := by
  obtain ⟨after, hafter, hparts⟩ := Text.trim_parts line
  have hdrop : line.dropWhile Text.isBlank = Text.trim line ++ after := by
    refine (List.append_right_inj (line.takeWhile Text.isBlank)).1 ?_
    rw [List.takeWhile_append_dropWhile, ← List.append_assoc]
    exact hparts
  rw [isComment, List.isPrefixOf_iff_prefix, hdrop]
  constructor
  · exact fun h => h.trans (List.prefix_append _ _)
  · rintro ⟨rest, hrest⟩
    rcases List.append_eq_append_iff.1 hrest with ⟨between, htrim, -⟩ | ⟨between, hslashes, hblank⟩
    · exact ⟨between, htrim.symm⟩
    · -- what trimming takes off is blank, and a slash is not
      cases between with
      | nil => exact ⟨[], by rw [hslashes, List.append_nil, List.append_nil]⟩
      | cons c between =>
        have hc : c = '/' := by simpa using (show c ∈ ['/', '/'] by rw [hslashes]; simp)
        have := hafter c (by rw [hblank]; simp)
        rw [hc] at this
        cases this

/-- A carriage return at the end of a line is blank. -/
theorem isComment_return (line : List Char) : isComment (line ++ ['\r']) = isComment line := by
  have hblank : ∀ c ∈ ['\r'], Text.isBlank c = true := by simp [Text.isBlank]
  have hnone : ∀ c ∈ ([] : List Char), Text.isBlank c = true := by simp
  have htrim := Text.trim_padded hnone hblank line
  rw [List.nil_append] at htrim
  rw [isComment, isComment, htrim]

theorem IsComment.isComment (h : IsComment line) : isComment line = true := (isComment_iff line).2 h.start

/-- No word of JSON stands in front of the slashes of a comment, and none starts with them. -/
theorem lexemes_of_isComment (h : isComment line = true) : lexemes line = ([], false) := by
  obtain ⟨rest, hrest⟩ := (isComment_iff line).1 h
  have hline : line = line.takeWhile Text.isBlank ++ '/' :: ('/' :: rest) := by
    conv_lhs => rw [← List.takeWhile_append_dropWhile (p := Text.isBlank) (l := line), ← hrest]
    rfl
  have hdrop := dropWhile_append_stop (p := Text.isSeparator) (c := '/') rfl (line.takeWhile Text.isBlank) ('/' :: rest)
  rw [lexemes_eq, hline, hdrop]
  cases hblank : (line.takeWhile Text.isBlank).dropWhile Text.isSeparator with
  | nil =>
    have hread : readLexeme ('/' :: '/' :: rest) = none := rfl
    simp only [List.nil_append, hread]
  | cons c cs =>
    have hmem : c ∈ (line.takeWhile Text.isBlank).dropWhile Text.isSeparator := by simp [hblank]
    have hc : Text.isBlank c = true := List.mem_takeWhile_imp ((List.dropWhile_sublist _).mem hmem)
    have hread := readLexeme_of_isBlank hc (cs ++ '/' :: '/' :: rest)
    simp only [List.cons_append, hread]

/-! ### The words of a text without its comments -/

/-- The words of a line; a comment has none. -/
def lineWords (line : List Char) : List Json.Lexeme × Bool := if isComment line then ([], true) else lexemes line

theorem lexemes_return (cs : List Char) : lexemes (cs ++ ['\r']) = lexemes cs := by
  rw [lexemes_append_break (.inr rfl), lexemes_nil, andThen_nil_right]

theorem lineWords_return (line : List Char) : lineWords (line ++ ['\r']) = lineWords line := by
  rw [lineWords, lineWords, isComment_return, lexemes_return]

theorem lineWords_withoutReturn (line : List Char) : lineWords (withoutReturn line) = lineWords line := by
  rcases withoutReturn_cases line with h | h
  · rw [h]
  · conv_rhs => rw [h, lineWords_return]

theorem lexemes_lines (ls : List (List Char)) :
    lexemes (List.intercalate ['\n'] ls) = ls.foldr (fun line => andThen (lexemes line)) ([], true) := by
  induction ls with
  | nil => exact lexemes_nil
  | cons line ls ih =>
    cases ls with
    | nil => rw [List.intercalate_singleton, List.foldr_cons, List.foldr_nil, andThen_nil_right]
    | cons next ls =>
      rw [List.intercalate_cons_cons, List.append_assoc, List.singleton_append, lexemes_append_break (.inl rfl), ih]
      rfl

/-- The text that is read has the words of the lines that are no comments. -/
theorem lexemes_stripComments (cs : List Char) :
    lexemes (stripComments cs) = (lines cs).foldr (fun line => andThen (lineWords line)) ([], true) := by
  rw [stripComments, lexemes_lines]
  induction lines cs with
  | nil => rfl
  | cons line ls ih =>
    rw [List.foldr_cons, lineWords]
    by_cases h : isComment line = true
    · rw [List.filter_cons_of_neg (by simp [h]), ih, if_pos h, andThen_nil_left]
    · rw [List.filter_cons_of_pos (by simp [h]), List.foldr_cons, ih, if_neg h]

theorem lexemes_strip_last (h : '\n' ∉ line) : lexemes (stripComments line) = lineWords line := by
  rw [lexemes_stripComments]
  by_cases hne : line = []
  · subst hne
    rw [lines, lineWords, lexemes_nil]
    rfl
  · rw [lines_last h hne, List.foldr_cons, List.foldr_nil, andThen_nil_right]

theorem lexemes_strip_cons (h : '\n' ∉ line) (rest : List Char) :
    lexemes (stripComments (line ++ '\n' :: rest)) = andThen (lineWords line) (lexemes (stripComments rest)) := by
  rw [lexemes_stripComments, lexemes_stripComments, lines_cons h, List.foldr_cons, lineWords_withoutReturn]

/-- Comments are taken out in front of a line feed and behind it. -/
theorem lexemes_strip_append (text rest : List Char) : lexemes (stripComments (text ++ '\n' :: rest)) =
    andThen (lexemes (stripComments text)) (lexemes (stripComments rest)) := by
  induction text using line_induction with
  | last line h => rw [lexemes_strip_cons h, lexemes_strip_last h]
  | cons line text h ih =>
    rw [List.append_assoc, List.cons_append, lexemes_strip_cons h, lexemes_strip_cons h, ih, andThen_assoc]

theorem lexemes_strip_return (text : List Char) :
    lexemes (stripComments (text ++ ['\r'])) = lexemes (stripComments text) := by
  induction text using line_induction with
  | last line h => rw [lexemes_strip_last h, lexemes_strip_last (by simpa using h), lineWords_return]
  | cons line text h ih =>
    rw [List.append_assoc, List.cons_append, lexemes_strip_cons h, lexemes_strip_cons h, ih]

/-- A text that is all words has no comments, so none is taken out of it. -/
theorem lexemes_strip_of_complete (h : (lexemes text).2 = true) : lexemes (stripComments text) = lexemes text := by
  have hline {line : List Char} (h : (lexemes line).2 = true) : lineWords line = lexemes line := by
    refine if_neg fun hcomment => ?_
    rw [lexemes_of_isComment hcomment] at h
    cases h
  induction text using line_induction with
  | last line hsingle => rw [lexemes_strip_last hsingle, hline h]
  | cons line text hsingle ih =>
    rw [lexemes_append_break (.inl rfl)] at h ⊢
    obtain ⟨hhead, htail⟩ := andThen_complete.1 h
    rw [lexemes_strip_cons hsingle, hline hhead, ih htail]

/-! ### Inserted comments -/

/-- The second text is the first with one comment more: in front of a line, behind the last line, or behind a last
line that gets an end. -/
inductive CommentInserted : List Char → List Char → Prop
  | before {front comment : List Char} (back : List Char) (hfront : Ended front) (hcomment : IsComment comment) :
    CommentInserted (front ++ back) (front ++ (comment ++ '\n' :: back))
  | last {front comment : List Char} (hfront : Ended front) (hcomment : IsComment comment) :
    CommentInserted front (front ++ comment)
  | behind {front comment lineEnd finalEnd : List Char} (hline : lineEnd ∈ [['\n'], ['\r', '\n']])
    (hfinal : finalEnd ∈ [[], ['\n']]) (hcomment : IsComment comment) :
    CommentInserted front (front ++ lineEnd ++ comment ++ finalEnd)

theorem lexemes_strip_comment (h : IsComment line) : lexemes (stripComments line) = ([], true) := by
  rw [lexemes_strip_last h.single, lineWords, if_pos h.isComment]

theorem lexemes_strip_comment_cons (h : IsComment line) (rest : List Char) :
    lexemes (stripComments (line ++ '\n' :: rest)) = lexemes (stripComments rest) := by
  rw [lexemes_strip_cons h.single, lineWords, if_pos h.isComment, andThen_nil_left]

theorem lexemes_strip_nil : lexemes (stripComments []) = ([], true) := by
  rw [lexemes_strip_last (by simp), lineWords, lexemes_nil]
  rfl

/-- Behind an ended text only the words of the rest matter. -/
theorem lexemes_strip_ended {front : List Char} (h : Ended front) (back : List Char) :
    lexemes (stripComments (front ++ back)) =
      andThen (lexemes (stripComments front)) (lexemes (stripComments back)) := by
  rcases h with rfl | h
  · rw [List.nil_append, lexemes_strip_nil, andThen_nil_left]
  · rw [← List.dropLast_append_getLast? '\n' h, List.append_assoc, List.singleton_append, lexemes_strip_append,
      lexemes_strip_append, lexemes_strip_nil, andThen_nil_right]

theorem CommentInserted.lexemes_strip {text text' : List Char} (h : CommentInserted text text') :
    lexemes (stripComments text') = lexemes (stripComments text) := by
  cases h with
  | before back hfront hcomment =>
    rw [lexemes_strip_ended hfront, lexemes_strip_comment_cons hcomment, ← lexemes_strip_ended hfront]
  | last hfront hcomment => rw [lexemes_strip_ended hfront, lexemes_strip_comment hcomment, andThen_nil_right]
  | @behind _ comment lineEnd finalEnd hline hfinal hcomment =>
    have hlast : lexemes (stripComments (comment ++ finalEnd)) = ([], true) := by
      rcases List.mem_pair.1 hfinal with rfl | rfl
      · rw [List.append_nil, lexemes_strip_comment hcomment]
      · rw [lexemes_strip_comment_cons hcomment, lexemes_strip_nil]
    rw [List.append_assoc]
    rcases List.mem_pair.1 hline with rfl | rfl
    · rw [List.append_assoc, List.singleton_append, lexemes_strip_append, hlast, andThen_nil_right]
    · have hreturn : text ++ ['\r', '\n'] ++ (comment ++ finalEnd) =
          (text ++ ['\r']) ++ '\n' :: (comment ++ finalEnd) := by simp
      rw [hreturn, lexemes_strip_append, hlast, andThen_nil_right, lexemes_strip_return]

/-! ### Reading settings -/

theorem ofText?_of_document {text : String} {s : Settings}
    (h : (Document.ofChars? text.toList).bind ofDocument? = some s) : ofText? text = some s := by
  obtain ⟨d, hd, -⟩ := Option.bind_eq_some_iff.1 h
  rw [ofText?, Document.ofChars?_congr (lexemes_strip_of_complete (Document.complete_of_ofChars? hd))]
  exact h

theorem lexemes_strip_of_inserted {cs cs' : List Char} (h : Relation.ReflTransGen CommentInserted cs cs') :
    lexemes (stripComments cs') = lexemes (stripComments cs) := by
  induction h with
  | refl => rfl
  | tail _ hstep ih => rw [hstep.lexemes_strip, ih]

/-! ### Written settings -/

theorem charOf?_unitsOf (c : Char) : charOf? (.string (unitsOf c.toString)) = some c := by
  have hunits := stringOfUnits?_unitsOf c.toString
  obtain ⟨cs, hcs, hc⟩ := Option.map_eq_some_iff.1 hunits
  have hone : cs = [c] := String.ofList_injective hc
  rw [charOf?, hcs, hone]

theorem wordOf?_document {n : Nat} (h : n ≤ NumberLiteral.greatestWord) :
    wordOf? (Number.natural n).document = some ⟨n, h⟩ := by
  have hvalue := NumberLiteral.value?_ofNat h
  show wordOf? (.number (.ofNat false n)) = _
  rw [wordOf?]
  split
  · next m hm =>
    rw [hvalue] at hm
    cases hm
    rfl
  · next hne => exact absurd hvalue (hne n)

theorem limitOf?_document {n : Nat} (h : n ≤ NumberLiteral.greatestWord) :
    limitOf? (Number.natural n).document = some (some ⟨n, h⟩) := by
  show (wordOf? (Number.natural n).document).map some = _
  rw [wordOf?_document h, Option.map_some]

/-- The three fields by their names. -/
theorem ofDocument?_fields (mark debounceMs maxCandidates : Document) :
    ofDocument? (.object [(unitsOf markKey, mark), (unitsOf debounceKey, debounceMs),
      (unitsOf candidatesKey, maxCandidates)]) =
    (charOf? mark).bind fun c => (wordOf? debounceMs).bind fun n => (limitOf? maxCandidates).bind fun limit =>
      some (ofWords c n limit) := by
  have hnames : markKey ≠ debounceKey ∧ markKey ≠ candidatesKey ∧ debounceKey ≠ candidatesKey := by decide
  simp [ofDocument?, stringOfUnits?_unitsOf, ofFields?, setting?, hnames, hnames.1.symm, hnames.2.1.symm,
    hnames.2.2.symm]

theorem ofDocument?_toJson (s : Settings) : ofDocument? s.toJson.document = some s := by
  obtain ⟨mark, debounceMs, limit, hdebounce, hlimit⟩ := s
  cases limit with
  | none =>
    simp only [toJson, Value.document, Value.documentsOfFields]
    rw [ofDocument?_fields, charOf?_unitsOf, wordOf?_document hdebounce]
    rfl
  | some n =>
    simp only [toJson, Value.document, Value.documentsOfFields]
    rw [ofDocument?_fields, charOf?_unitsOf, wordOf?_document hdebounce, limitOf?_document (hlimit n rfl)]
    rfl

theorem ofText?_toJson (s : Settings) {layout : Layout} (hlayout : layout.Sound) :
    ofText? (String.ofList (s.toJson.chars layout 0)) = some s := by
  have hfront := Document.front?_chars hlayout s.toJson allBlank_nil
  have hdocument : Document.ofChars? (s.toJson.chars layout 0) = some s.toJson.document := by
    rw [List.append_nil] at hfront
    rw [Document.ofChars?, hfront]
  refine ofText?_of_document ?_
  rw [String.toList_ofList, hdocument, Option.bind_some, ofDocument?_toJson s]

/-- Taking comments out touches no settings: a text that is settings by itself gives them, comments put between the
lines of any text change neither its settings nor that it has none, and settings are read back as they are written. -/
theorem comments_untouched :
    (∀ (text : String) (s : Settings),
      (Document.ofChars? text.toList).bind ofDocument? = some s → ofText? text = some s) ∧
    (∀ text text' : String,
      Relation.ReflTransGen CommentInserted text.toList text'.toList → ofText? text' = ofText? text) ∧
    ∀ (s : Settings) (layout : Layout), layout.Sound →
      ofText? (String.ofList (s.toJson.chars layout 0)) = some s := by
  refine ⟨fun text s h => ofText?_of_document h, fun text text' h => ?_, fun s layout hlayout => ?_⟩
  · rw [ofText?, ofText?, Document.ofChars?_congr (lexemes_strip_of_inserted h)]
  · exact ofText?_toJson s hlayout

/-- A string with slashes in it, an object between two comments, and settings with a limit. -/
theorem comments_untouched_slashes :
    ofText? "\x7b\r\n  \"note\": \"// kept\",\r\n  \"autocomplete.debounceMs\": 5\r\n\x7d" =
        some { debounceMs := 5 } ∧
      ofText? "//a\n\x7b\x7d\r\n//b" = ofText? "\x7b\x7d" ∧
      ofText? (String.ofList (({ maxCandidates := some 5 } : Settings).toJson.chars .pretty 0)) =
        some { maxCandidates := some 5 } := by
  have hbefore : CommentInserted "\x7b\x7d".toList "//a\n\x7b\x7d".toList :=
    @CommentInserted.before [] "//a".toList _ (.inl rfl) ⟨by decide, by decide⟩
  have hbehind : CommentInserted "//a\n\x7b\x7d".toList "//a\n\x7b\x7d\r\n//b".toList :=
    @CommentInserted.behind _ "//b".toList ['\r', '\n'] [] (by decide) (by decide) ⟨by decide, by decide⟩
  refine ⟨comments_untouched.1 _ _ (by cbv), ?_, ?_⟩
  · exact comments_untouched.2.1 _ _ ((Relation.ReflTransGen.single hbefore).tail hbehind)
  · exact comments_untouched.2.2 _ _ Layout.sound_pretty

end FormulaBar.Settings
