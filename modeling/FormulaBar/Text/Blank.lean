/-!
# FormulaBar.Text.Blank — white space and control characters

`isBlank` is the Unicode property `White_Space`; `trim` takes the longest run of such characters off both ends.
Texts are lists of characters here; `trimmed` and `isBlankText` are the same two notions for strings.
Lengths and offsets shown to a reader count UTF-8 bytes (`byteLength`).
-/

namespace FormulaBar.Text

/-- The twenty-five characters with the property `White_Space`. -/
def isBlank (c : Char) : Bool :=
  let n := c.toNat
  (0x09 ≤ n && n ≤ 0x0d) || n == 0x20 || n == 0x85 || n == 0xa0 || n == 0x1680 ||
    (0x2000 ≤ n && n ≤ 0x200a) || n == 0x2028 || n == 0x2029 || n == 0x202f || n == 0x205f || n == 0x3000

/-- The four blanks that separate words in formulas and in JSON: space, tab, line feed and carriage return. -/
def isSeparator (c : Char) : Bool := c = ' ' || c = '\t' || c = '\n' || c = '\r'

/-- The sixty-five control characters (general category `Cc`). -/
def isControl (c : Char) : Bool :=
  let n := c.toNat
  n < 0x20 || (0x7f ≤ n && n ≤ 0x9f)

/-- The text from its first character that is not blank. -/
def trimStart (cs : List Char) : List Char := cs.dropWhile isBlank

/-- The text up to its last character that is not blank. -/
def trimEnd (cs : List Char) : List Char := (cs.reverse.dropWhile isBlank).reverse

/-- The text without blanks at either end. -/
def trim (cs : List Char) : List Char := trimEnd (trimStart cs)

/-- The string without blanks at either end. -/
def trimmed (s : String) : String := String.ofList (trim s.toList)

/-- Every character is blank. -/
def isBlankText (s : String) : Bool := s.toList.all isBlank

/-- Number of UTF-8 bytes. -/
def byteLength : List Char → Nat
  | [] => 0
  | c :: cs => c.utf8Size + byteLength cs

@[simp] theorem byteLength_nil : byteLength [] = 0 := rfl

@[simp] theorem byteLength_cons (c : Char) (cs : List Char) :
    byteLength (c :: cs) = c.utf8Size + byteLength cs := rfl

@[simp] theorem byteLength_append (as bs : List Char) : byteLength (as ++ bs) = byteLength as + byteLength bs := by
  induction as with
  | nil => simp
  | cons c cs ih => rw [List.cons_append, byteLength_cons, byteLength_cons, ih, Nat.add_assoc]

theorem utf8ByteSize_ofList (cs : List Char) : (String.ofList cs).utf8ByteSize = byteLength cs := by
  induction cs with
  | nil => rfl
  | cons c cs ih => rw [String.ofList_cons, String.utf8ByteSize_append, String.utf8ByteSize_singleton, ih]; rfl

theorem byteLength_toList (s : String) : byteLength s.toList = s.utf8ByteSize := by
  rw [← utf8ByteSize_ofList, String.ofList_toList]

theorem isSeparator_iff {c : Char} : isSeparator c = true ↔ c ∈ [' ', '\t', '\n', '\r'] := by
  simp [isSeparator, or_assoc]

theorem isBlank_of_isSeparator {c : Char} (h : isSeparator c) : isBlank c := by
  have hblank : [' ', '\t', '\n', '\r'].all isBlank = true := rfl
  exact List.all_eq_true.1 hblank c (isSeparator_iff.1 h)

@[simp] theorem trim_nil : trim [] = [] := rfl

end FormulaBar.Text
