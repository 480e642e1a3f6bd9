import Mathlib.Data.List.TakeWhile

/-! The few string operations the code uses, on Unicode scalar values. -/

namespace PyText

/-- The characters `str.strip` removes. -/
def isSpace (c : Char) : Bool :=
  let n := c.toNat
  (9 ≤ n && n ≤ 13) || (28 ≤ n && n ≤ 32) || n == 0x85 || n == 0xa0 || n == 0x1680 ||
    (0x2000 ≤ n && n ≤ 0x200a) || n == 0x2028 || n == 0x2029 || n == 0x202f || n == 0x205f || n == 0x3000

def stripChars (cs : List Char) : List Char :=
  ((cs.dropWhile isSpace).reverse.dropWhile isSpace).reverse

def strip (s : String) : String := String.ofList (stripChars s.toList)

/-- `not s.strip()`. -/
def Blank (s : String) : Prop := strip s = ""

instance (s : String) : Decidable (Blank s) := inferInstanceAs (Decidable (_ = _))

/-- A text is blank when it holds nothing but white space. -/
theorem blank_iff {s : String} : Blank s ↔ ∀ c ∈ s.toList, isSpace c = true := by
  have hnil : Blank s ↔ stripChars s.toList = [] := by
    unfold Blank strip
    rw [← String.toList_inj, String.toList_ofList]
    rfl
  rw [hnil, ← List.dropWhile_eq_nil_iff, stripChars, List.reverse_eq_nil_iff, List.dropWhile_eq_nil_iff]
  constructor
  · intro hall
    by_contra hne
    have hhead := List.head_dropWhile_not isSpace hne
    have hmem := hall _ (List.mem_reverse.mpr (List.head_mem hne))
    exact absurd (hmem.symm.trans hhead) (by decide)
  · intro h
    simp [h]

/-- The capitals of a character, where they have a letter of ASCII; other characters are left alone, as
capitals beyond ASCII are only ever compared with texts of ASCII. -/
def upperChar (c : Char) : List Char :=
  if 'a' ≤ c ∧ c ≤ 'z' then [c.toUpper]
  else
    match c with
    | 'ß' => ['S', 'S']
    | 'ı' => ['I']
    | 'ŉ' => ['ʼ', 'N']
    | 'ſ' => ['S']
    | 'ǰ' => ['J', '\u030c']
    | 'ẖ' => ['H', '\u0331']
    | 'ẗ' => ['T', '\u0308']
    | 'ẘ' => ['W', '\u030a']
    | 'ẙ' => ['Y', '\u030a']
    | 'ẚ' => ['A', 'ʾ']
    | 'ﬀ' => ['F', 'F']
    | 'ﬁ' => ['F', 'I']
    | 'ﬂ' => ['F', 'L']
    | 'ﬃ' => ['F', 'F', 'I']
    | 'ﬄ' => ['F', 'F', 'L']
    | 'ﬅ' | 'ﬆ' => ['S', 'T']
    | c => [c]

/-- `s.upper()`. -/
def upper (s : String) : String := String.ofList (s.toList.flatMap upperChar)

/-- `s.encode("utf-8")`. -/
def utf8 (s : String) : List UInt8 := s.toList.flatMap String.utf8EncodeChar

example : strip " \tab c\n" = "ab c" := by decide

example : upper "nſe_fno" = "NSE_FNO" := by decide

end PyText
