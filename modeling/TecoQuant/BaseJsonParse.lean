import TecoQuant.BaseJson

/-! Reading JSON text as the standard `json` module does, and the round trip: the text of a value with
distinct keys and no floats reads back as the value. -/

namespace Json

/-! ### The reader -/

def isBlank (c : Char) : Bool := c == ' ' || c == '\t' || c == '\n' || c == '\r'

def skip (text : List Char) : List Char := text.dropWhile isBlank

def hexValue (c : Char) : Option Nat :=
  if '0' ≤ c ∧ c ≤ '9' then some (c.toNat - 48)
  else if 'a' ≤ c ∧ c ≤ 'f' then some (c.toNat - 87)
  else if 'A' ≤ c ∧ c ≤ 'F' then some (c.toNat - 55)
  else none

def readHex : List Char → Option (Nat × List Char)
  | a :: b :: c :: d :: rest => do
      let a ← hexValue a
      let b ← hexValue b
      let c ← hexValue c
      let d ← hexValue d
      return (a * 4096 + b * 256 + c * 16 + d, rest)
  | _ => none

/-- The characters of a string literal after its opening quote. A lone surrogate is no character. -/
def readString : Nat → List Char → Option (List Char × List Char)
  | 0, _ => none
  | fuel + 1, text =>
      let plain (c : Char) (rest : List Char) := (readString fuel rest).map fun (cs, rest) => (c :: cs, rest)
      match text with
      | '"' :: rest => some ([], rest)
      | '\\' :: '"' :: rest => plain '"' rest
      | '\\' :: '\\' :: rest => plain '\\' rest
      | '\\' :: '/' :: rest => plain '/' rest
      | '\\' :: 'b' :: rest => plain '\x08' rest
      | '\\' :: 'f' :: rest => plain '\x0c' rest
      | '\\' :: 'n' :: rest => plain '\n' rest
      | '\\' :: 'r' :: rest => plain '\r' rest
      | '\\' :: 't' :: rest => plain '\t' rest
      | '\\' :: 'u' :: rest =>
          match readHex rest with
          | none => none
          | some (n, rest) =>
              if n < 0xd800 ∨ 0xdfff < n then plain (Char.ofNat n) rest
              else
                match rest with
                | '\\' :: 'u' :: rest =>
                    match readHex rest with
                    | some (m, rest) =>
                        if n < 0xdc00 ∧ 0xdc00 ≤ m ∧ m ≤ 0xdfff then
                          plain (Char.ofNat (0x10000 + (n - 0xd800) * 1024 + (m - 0xdc00))) rest
                        else none
                    | none => none
                | _ => none
      | '\\' :: _ => none
      | c :: rest => if c.toNat < 32 then none else plain c rest
      | [] => none

/-- The number a text of digits denotes. -/
def ofDigits (digits : List Char) : Nat := Nat.ofDigitChars 10 digits 0

/-- The exponent of a number, if one follows. -/
def readExponent : List Char → Option (Int × List Char)
  | e :: rest =>
      if e = 'e' ∨ e = 'E' then
        let (negative, rest) := match rest with
          | '-' :: rest => (true, rest)
          | '+' :: rest => (false, rest)
          | rest => (false, rest)
        let (digits, rest) := rest.span Char.isDigit
        if digits = [] then none
        else some (if negative then -(ofDigits digits : Int) else ofDigits digits, rest)
      else none
  | [] => none

/-- The fraction digits of a number, if they follow. -/
def readFraction : List Char → Option (List Char × List Char)
  | '.' :: rest =>
      let (digits, rest) := rest.span Char.isDigit
      if digits = [] then none else some (digits, rest)
  | _ => none

/-- The digits of an integer part: a leading zero is all of it. -/
def readDigits (text : List Char) : List Char × List Char :=
  match text.span Char.isDigit with
  | ('0' :: more, rest) => (['0'], more ++ rest)
  | (digits, rest) => (digits, rest)

/-- A number with its sign. -/
def signed (negative : Bool) (magnitude : ℚ) : Json :=
  .float (Binary64.round negative (if negative then -magnitude else magnitude))

/-- An integer, or a float when a fraction or an exponent follows. -/
def readUnsigned (negative : Bool) (text : List Char) : Option (Json × List Char) :=
  let (digits, rest) := readDigits text
  if digits = [] then none
  else
    match readFraction rest, readExponent rest with
    | none, none => some (.int (if negative then -(ofDigits digits : Int) else ofDigits digits), rest)
    | none, some (exponent, rest) => some (signed negative (ofDigits digits * 10 ^ exponent), rest)
    | some (fraction, rest), _ =>
        let (exponent, rest) := (readExponent rest).getD (0, rest)
        some (signed negative (ofDigits (digits ++ fraction) * 10 ^ (exponent - fraction.length)), rest)

def readNumber : List Char → Option (Json × List Char)
  | '-' :: rest => readUnsigned true rest
  | text => readUnsigned false text

/-- Set a key of a dictionary; a new key goes to the end. -/
def setKey (fields : List (String × Json)) (key : String) (value : Json) : List (String × Json) :=
  if fields.any fun field => field.1 == key then
    fields.map fun field => if field.1 = key then (key, value) else field
  else fields ++ [(key, value)]

/-- The dictionary of a list of pairs: the last value of a key. -/
def dictionary (pairs : List (String × Json)) : List (String × Json) :=
  pairs.foldl (fun fields pair => setKey fields pair.1 pair.2) []

mutual

/-- A value at the start of the text. -/
def readValue : Nat → List Char → Option (Json × List Char)
  | 0, _ => none
  | fuel + 1, text =>
      match text with
      | 'n' :: 'u' :: 'l' :: 'l' :: rest => some (.null, rest)
      | 't' :: 'r' :: 'u' :: 'e' :: rest => some (.bool true, rest)
      | 'f' :: 'a' :: 'l' :: 's' :: 'e' :: rest => some (.bool false, rest)
      | 'N' :: 'a' :: 'N' :: rest => some (.float .nan, rest)
      | 'I' :: 'n' :: 'f' :: 'i' :: 'n' :: 'i' :: 't' :: 'y' :: rest => some (.float (.infinity false), rest)
      | '-' :: 'I' :: 'n' :: 'f' :: 'i' :: 'n' :: 'i' :: 't' :: 'y' :: rest =>
          some (.float (.infinity true), rest)
      | '"' :: rest =>
          (readString (rest.length + 1) rest).map fun (cs, rest) => (.string (String.ofList cs), rest)
      | '[' :: rest =>
          match skip rest with
          | ']' :: rest => some (.array [], rest)
          | rest => (readItems fuel rest).map fun (items, rest) => (.array items, rest)
      | '{' :: rest =>
          match skip rest with
          | '}' :: rest => some (.object [], rest)
          | rest => (readFields fuel rest).map fun (fields, rest) => (.object (dictionary fields), rest)
      | text => readNumber text

/-- The items of an array from its first one, to its end. -/
def readItems : Nat → List Char → Option (List Json × List Char)
  | 0, _ => none
  | fuel + 1, text =>
      match readValue fuel text with
      | none => none
      | some (item, rest) =>
          match skip rest with
          | ']' :: rest => some ([item], rest)
          | ',' :: rest => (readItems fuel (skip rest)).map fun (items, rest) => (item :: items, rest)
          | _ => none

/-- The fields of an object from its first one, to its end. -/
def readFields : Nat → List Char → Option (List (String × Json) × List Char)
  | 0, _ => none
  | fuel + 1, text =>
      match text with
      | '"' :: rest =>
          match readString (rest.length + 1) rest with
          | none => none
          | some (key, rest) =>
              match skip rest with
              | ':' :: rest =>
                  match readValue fuel (skip rest) with
                  | none => none
                  | some (value, rest) =>
                      match skip rest with
                      | '}' :: rest => some ([(String.ofList key, value)], rest)
                      | ',' :: rest =>
                          (readFields fuel (skip rest)).map fun (fields, rest) =>
                            ((String.ofList key, value) :: fields, rest)
                      | _ => none
              | _ => none
      | _ => none

end

/-- `json.loads(text)`; none is a decoding error. -/
def loads (text : String) : Option Json :=
  match readValue (text.toList.length + 1) (skip text.toList) with
  | some (value, rest) => if skip rest = [] then some value else none
  | none => none

/-! ### The round trip -/

mutual

/-- Values that read back exactly: no floats, and objects with distinct keys. -/
def Plain : Json → Prop
  | .float _ => False
  | .array items => PlainItems items
  | .object fields => (fields.map Prod.fst).Nodup ∧ PlainFields fields
  | _ => True

def PlainItems : List Json → Prop
  | [] => True
  | item :: rest => item.Plain ∧ PlainItems rest

def PlainFields : List (String × Json) → Prop
  | [] => True
  | (_, value) :: rest => value.Plain ∧ PlainFields rest

end

/-- What may follow a number: nothing that continues it. -/
def Ends : List Char → Prop
  | [] => True
  | c :: _ => c.isDigit = false ∧ c ≠ '.' ∧ c ≠ 'e' ∧ c ≠ 'E'

section Numbers

theorem span_digits {digits rest : List Char} (hdigits : ∀ c ∈ digits, c.isDigit = true)
    (hrest : Ends rest) : (digits ++ rest).span Char.isDigit = (digits, rest) := by
  rw [List.span_eq_takeWhile_dropWhile, List.takeWhile_append_of_pos hdigits,
    List.dropWhile_append_of_pos hdigits]
  cases rest with
  | nil => simp
  | cons c rest => simp [hrest.1]

@[simp] theorem ofDigits_toDigits (n : Nat) : ofDigits (Nat.toDigits 10 n) = n :=
  Nat.ofDigitChars_ten_toDigits

theorem toDigits_isDigit {n : Nat} {c : Char} (h : c ∈ Nat.toDigits 10 n) : c.isDigit = true :=
  Nat.isDigit_of_mem_toDigits (by norm_num) le_rfl h

/-- Only zero starts with the digit zero. -/
theorem toDigits_head {n : Nat} {more : List Char} (h : Nat.toDigits 10 n = '0' :: more) : more = [] := by
  induction n using Nat.strong_induction_on generalizing more with
  | _ n ih =>
      by_cases hn : n < 10
      · rw [Nat.toDigits_of_lt_base hn] at h
        exact ((List.cons.inj h).2).symm
      · rw [Nat.toDigits_of_base_le (by norm_num) (not_lt.mp hn)] at h
        cases hdigits : Nat.toDigits 10 (n / 10) with
        | nil => exact absurd hdigits Nat.toDigits_ne_nil
        | cons c cs =>
            rw [hdigits, List.cons_append] at h
            obtain ⟨rfl, -⟩ := List.cons.inj h
            have hzero := ofDigits_toDigits (n / 10)
            rw [hdigits, ih (n / 10) (by omega) hdigits] at hzero
            exact absurd (show n / 10 = 0 from hzero.symm) (by omega)

theorem readDigits_toDigits (n : Nat) {rest : List Char} (h : Ends rest) :
    readDigits (Nat.toDigits 10 n ++ rest) = (Nat.toDigits 10 n, rest) := by
  rw [readDigits, span_digits (fun _ hc => toDigits_isDigit hc) h]
  split
  · rename_i more rest' heq
    obtain ⟨hdigits, rfl⟩ := Prod.mk.inj heq
    rw [hdigits, toDigits_head hdigits]
    rfl
  · rename_i heq
    exact heq.symm

theorem readFraction_of_ends {rest : List Char} (h : Ends rest) : readFraction rest = none := by
  cases rest with
  | nil => rfl
  | cons c rest =>
      unfold readFraction
      split
      · rename_i heq
        exact absurd (List.cons.inj heq).1 h.2.1
      · rfl

theorem readExponent_of_ends {rest : List Char} (h : Ends rest) : readExponent rest = none := by
  cases rest with
  | nil => rfl
  | cons c rest =>
      have hc : ¬(c = 'e' ∨ c = 'E') := not_or.mpr ⟨h.2.2.1, h.2.2.2⟩
      simp only [readExponent, if_neg hc]

theorem readUnsigned_toDigits (negative : Bool) (n : Nat) {rest : List Char} (h : Ends rest) :
    readUnsigned negative (Nat.toDigits 10 n ++ rest) =
      some (.int (if negative then -(n : Int) else n), rest) := by
  have hne : Nat.toDigits 10 n ≠ [] := Nat.toDigits_ne_nil
  simp [readUnsigned, readDigits_toDigits n h, hne, readFraction_of_ends h, readExponent_of_ends h]

theorem digit_not_dash {c : Char} (h : c.isDigit = true) : c ≠ '-' := by
  rintro rfl
  cases h

theorem readNumber_intText (n : Int) {rest : List Char} (h : Ends rest) :
    readNumber (intText n ++ rest) = some (.int n, rest) := by
  unfold intText
  split
  · rename_i hn
    simp only [List.cons_append, List.nil_append, readNumber, readUnsigned_toDigits true _ h, if_true]
    rw [Int.ofNat_natAbs_of_nonpos hn.le, neg_neg]
  · rename_i hn
    cases hdigits : Nat.toDigits 10 n.natAbs with
    | nil => exact absurd hdigits Nat.toDigits_ne_nil
    | cons c cs =>
        have hc : c.isDigit = true := toDigits_isDigit (hdigits ▸ List.mem_cons_self)
        have hread := readUnsigned_toDigits false n.natAbs h
        rw [hdigits] at hread
        simp only [List.nil_append, List.cons_append] at hread ⊢
        rw [readNumber, hread]
        · rw [if_neg Bool.false_ne_true, Int.natAbs_of_nonneg (not_lt.mp hn)]
        · intro rest' heq
          exact digit_not_dash hc (List.cons.inj heq).1

end Numbers

section Strings

theorem hexValue_digitChar : ∀ n < 16, hexValue (Nat.digitChar n) = some n := by decide

theorem readHex_hexDigits {n : Nat} (h : n < 65536) (rest : List Char) :
    readHex (hexDigits n ++ rest) = some (n, rest) := by
  have hdigit (m : Nat) : hexValue (Nat.digitChar (m % 16)) = some (m % 16) :=
    hexValue_digitChar _ (Nat.mod_lt _ (by norm_num))
  simp only [hexDigits, List.cons_append, List.nil_append, readHex, hdigit, Option.bind_eq_bind,
    Option.bind_some]
  exact congrArg some (Prod.ext (by simp only; omega) rfl)

/-- Reading one escaped character. -/
theorem readString_escapeChar (c : Char) (fuel : Nat) (rest : List Char) :
    readString (fuel + 1) (escapeChar false c ++ rest) =
      (readString fuel rest).map fun (cs, rest) => (c :: cs, rest) := by
  unfold escapeChar
  split_ifs with hquote hslash hline hreturn htab hback hfeed hcontrol hascii
  · subst hquote; rfl
  · subst hslash; rfl
  · subst hline; rfl
  · subst hreturn; rfl
  · subst htab; rfl
  · subst hback; rfl
  · subst hfeed; rfl
  · have hsmall : c.toNat < 0x10000 := by omega
    simp only [unicodeEscape, if_pos hsmall, List.cons_append, readString, readHex_hexDigits hsmall]
    rw [if_pos (Or.inl (by omega)), Char.ofNat_toNat]
  · exact hascii.1.elim
  · rw [List.cons_append, List.nil_append, readString.eq_def]
    split <;> simp_all

theorem readString_escaped (cs : List Char) {fuel : Nat} (h : cs.length < fuel) (rest : List Char) :
    readString fuel (cs.flatMap (escapeChar false) ++ '"' :: rest) = some (cs, rest) := by
  induction cs generalizing fuel with
  | nil =>
      obtain ⟨fuel, rfl⟩ := Nat.exists_eq_add_of_lt h
      simp [readString]
  | cons c cs ih =>
      obtain ⟨fuel, rfl⟩ : ∃ more, fuel = more + 1 := ⟨fuel - 1, by simp at h; omega⟩
      rw [List.flatMap_cons, List.append_assoc, readString_escapeChar, ih (by simp at h; omega)]
      rfl

theorem escaped_length (cs : List Char) : cs.length ≤ (cs.flatMap (escapeChar false)).length := by
  have hunicode (c : Char) : 1 ≤ (unicodeEscape c).length := by
    dsimp only [unicodeEscape]
    split <;> simp
  have hchar (c : Char) : 1 ≤ (escapeChar false c).length := by
    unfold escapeChar
    split_ifs <;> first | exact hunicode c | simp
  induction cs with
  | nil => exact le_rfl
  | cons c cs ih =>
      have := hchar c
      simp only [List.flatMap_cons, List.length_append, List.length_cons]
      omega

/-- The rest of a string literal after its opening quote. -/
theorem readString_literal (cs rest : List Char) :
    readString ((cs.flatMap (escapeChar false) ++ '"' :: rest).length + 1)
        (cs.flatMap (escapeChar false) ++ '"' :: rest) = some (cs, rest) := by
  refine readString_escaped cs ?_ rest
  have := escaped_length cs
  rw [List.length_append]
  omega

end Strings

section Dictionaries

theorem setKey_new {fields : List (String × Json)} {key : String} (h : key ∉ fields.map Prod.fst)
    (value : Json) : setKey fields key value = fields ++ [(key, value)] := by
  refine if_neg ?_
  rw [List.any_eq_true]
  rintro ⟨field, hfield, hkey⟩
  exact h (List.mem_map.mpr ⟨field, hfield, eq_of_beq hkey⟩)

theorem foldl_setKey {pairs : List (String × Json)} :
    ∀ {fields : List (String × Json)}, ((fields ++ pairs).map Prod.fst).Nodup →
      pairs.foldl (fun fields pair => setKey fields pair.1 pair.2) fields = fields ++ pairs := by
  induction pairs with
  | nil => simp
  | cons pair pairs ih =>
      intro fields h
      have hnew : pair.1 ∉ fields.map Prod.fst := by
        rw [List.map_append, List.map_cons] at h
        intro hmem
        exact List.disjoint_of_nodup_append h hmem List.mem_cons_self
      rw [List.foldl_cons, setKey_new hnew, ih (by simpa using h), List.append_assoc]
      rfl

/-- Pairs with distinct keys are a dictionary. -/
theorem dictionary_of_nodup {pairs : List (String × Json)} (h : (pairs.map Prod.fst).Nodup) :
    dictionary pairs = pairs :=
  @foldl_setKey pairs [] h

end Dictionaries

section Values

theorem ends_comma (rest : List Char) : Ends (',' :: rest) := by simp [Ends]

theorem ends_bracket (rest : List Char) : Ends (']' :: rest) := by simp [Ends]

theorem ends_brace (rest : List Char) : Ends ('}' :: rest) := by simp [Ends]

theorem ends_itemsText (items : List Json) (rest : List Char) : Ends (itemsText false items ++ rest) := by
  cases items with
  | nil => exact ends_bracket _
  | cons item items => exact ends_comma _

theorem ends_fieldsText (fields : List (String × Json)) (rest : List Char) :
    Ends (fieldsText false fields ++ rest) := by
  cases fields with
  | nil => exact ends_brace _
  | cons field fields => exact ends_comma _

/-- The first character of a value's text. -/
def Starts (c : Char) : Prop := isBlank c = false ∧ c ≠ ']' ∧ c ≠ '}'

instance (c : Char) : Decidable (Starts c) := inferInstanceAs (Decidable (_ ∧ _))

theorem starts_of_isDigit {c : Char} (h : c.isDigit = true) : Starts c := by
  refine ⟨?_, ?_, ?_⟩
  · by_contra hblank
    simp only [isBlank, Bool.not_eq_false, Bool.or_eq_true, beq_iff_eq] at hblank
    obtain ((rfl | rfl) | rfl) | rfl := hblank <;> cases h
  · rintro rfl
    cases h
  · rintro rfl
    cases h

theorem text_starts {v : Json} (h : v.Plain) : ∃ c cs, text false v = c :: cs ∧ Starts c := by
  cases v with
  | null => exact ⟨_, _, rfl, by decide⟩
  | bool value => cases value <;> exact ⟨_, _, rfl, by decide⟩
  | int n =>
      unfold text intText
      split
      · exact ⟨_, _, rfl, by decide⟩
      · cases hdigits : Nat.toDigits 10 n.natAbs with
        | nil => exact absurd hdigits Nat.toDigits_ne_nil
        | cons c cs =>
            exact ⟨c, cs, rfl, starts_of_isDigit (toDigits_isDigit (hdigits ▸ List.mem_cons_self))⟩
  | float x => exact h.elim
  | string s => exact ⟨_, _, rfl, by decide⟩
  | array items =>
      cases items with
      | nil => exact ⟨_, _, rfl, by decide⟩
      | cons item items => exact ⟨_, _, rfl, by decide⟩
  | object fields =>
      cases fields with
      | nil => exact ⟨_, _, rfl, by decide⟩
      | cons field fields => exact ⟨_, _, rfl, by decide⟩

theorem skip_cons {c : Char} (h : isBlank c = false) (cs : List Char) : skip (c :: cs) = c :: cs :=
  List.dropWhile_cons_of_neg (by simp [h])

theorem skip_text {v : Json} (h : v.Plain) (rest : List Char) :
    skip (text false v ++ rest) = text false v ++ rest := by
  obtain ⟨c, cs, htext, hc⟩ := text_starts h
  rw [htext, List.cons_append, skip_cons hc.1]

/-- A number is read where no other value starts. -/
theorem readValue_number {text : List Char} {value : Json} {rest : List Char} (fuel : Nat)
    (h : readNumber text = some (value, rest))
    (hstart : ∀ c cs, text = c :: cs → c.isDigit = true ∨ c = '-' ∧ ∃ d ds, cs = d :: ds ∧ d.isDigit = true) :
    readValue (fuel + 1) text = some (value, rest) := by
  unfold readValue
  split
  all_goals first | exact h | skip
  all_goals
    obtain hdigit | ⟨hdash, d, ds, hcs, hdigit⟩ := hstart _ _ rfl
  all_goals simp_all
  obtain ⟨rfl, -⟩ := hcs
  exact absurd hdigit (by decide)

theorem readValue_int (n : Int) (fuel : Nat) {rest : List Char} (h : Ends rest) :
    readValue (fuel + 1) (intText n ++ rest) = some (.int n, rest) := by
  refine readValue_number fuel (readNumber_intText n h) fun c cs htext => ?_
  have hdigits := fun d (hd : d ∈ Nat.toDigits 10 n.natAbs) => toDigits_isDigit hd
  cases hlist : Nat.toDigits 10 n.natAbs with
  | nil => exact absurd hlist Nat.toDigits_ne_nil
  | cons d ds =>
      have hd : d.isDigit = true := hdigits d (hlist ▸ List.mem_cons_self)
      unfold intText at htext
      rw [hlist] at htext
      split at htext
      · obtain ⟨rfl, rfl⟩ := List.cons.inj htext
        exact .inr ⟨rfl, d, ds ++ rest, rfl, hd⟩
      · obtain ⟨rfl, rfl⟩ := List.cons.inj htext
        exact .inl hd

theorem readValue_string (s : String) (fuel : Nat) (rest : List Char) :
    readValue (fuel + 1) (stringText false s ++ rest) = some (.string s, rest) := by
  simp only [stringText, List.cons_append, List.append_assoc, List.nil_append, readValue,
    readString_literal, Option.map_some, String.ofList_toList]

/-- The text of a value is not empty. -/
theorem text_length {v : Json} (h : v.Plain) : 1 ≤ (text false v).length := by
  obtain ⟨c, cs, htext, -⟩ := text_starts h
  simp [htext]

mutual

/-- A value's text reads back as the value, whatever follows. -/
theorem readValue_text {v : Json} (h : v.Plain) (fuel : Nat) (hfuel : (text false v).length ≤ fuel)
    {rest : List Char} (hrest : Ends rest) :
    readValue fuel (text false v ++ rest) = some (v, rest) := by
  obtain ⟨fuel, rfl⟩ : ∃ more, fuel = more + 1 := ⟨fuel - 1, by have := text_length h; omega⟩
  cases v with
  | null => rfl
  | bool value => cases value <;> rfl
  | int n => exact readValue_int n fuel hrest
  | float x => exact h.elim
  | string s => exact readValue_string s fuel rest
  | array items =>
      cases items with
      | nil => rfl
      | cons item items =>
          have hread := readItems_text h.1 h.2 fuel (by simp [text] at hfuel; omega) rest
          obtain ⟨c, cs, htext, hc⟩ := text_starts h.1
          rw [htext] at hread
          simp only [text, htext, List.cons_append, List.append_assoc, readValue, skip_cons hc.1] at hread ⊢
          split
          · rename_i heq
            exact absurd (List.cons.inj heq).1 hc.2.1
          · rw [hread]
            rfl
  | object fields =>
      cases fields with
      | nil => rfl
      | cons field fields =>
          have hread := readFields_text field.1 h.2.1 h.2.2 fuel (by simp [text] at hfuel; omega) rest
          simp only [stringText, List.cons_append, List.append_assoc, List.nil_append] at hread
          simp only [text, stringText, List.cons_append, List.append_assoc, List.nil_append, readValue,
            skip_cons (show isBlank '"' = false from rfl)]
          split
          · rename_i heq
            exact absurd (List.cons.inj heq).1 (by decide)
          · rw [hread, Option.map_some, dictionary_of_nodup h.1]
termination_by fuel

theorem readItems_text {item : Json} {items : List Json} (hitem : item.Plain) (hitems : PlainItems items)
    (fuel : Nat) (hfuel : (text false item).length + (itemsText false items).length ≤ fuel)
    (rest : List Char) :
    readItems fuel (text false item ++ (itemsText false items ++ rest)) = some (item :: items, rest) := by
  have hlength := text_length hitem
  obtain ⟨fuel, rfl⟩ : ∃ more, fuel = more + 1 := ⟨fuel - 1, by omega⟩
  have htail : 1 ≤ (itemsText false items).length := by cases items <;> simp [itemsText]
  rw [readItems, readValue_text hitem fuel (by omega) (ends_itemsText items rest)]
  cases items with
  | nil => rfl
  | cons next items =>
      have hnext := readItems_text hitems.1 hitems.2 fuel (by simp [itemsText] at hfuel; omega) rest
      simp only [itemsText, List.cons_append, List.append_assoc, skip_cons (show isBlank ',' = false from rfl),
        skip_text hitems.1, hnext, Option.map_some]
termination_by fuel

theorem readFields_text (key : String) {value : Json} {fields : List (String × Json)} (hvalue : value.Plain)
    (hfields : PlainFields fields) (fuel : Nat)
    (hfuel : (text false value).length + (fieldsText false fields).length ≤ fuel) (rest : List Char) :
    readFields fuel
        (stringText false key ++ (':' :: (text false value ++ (fieldsText false fields ++ rest)))) =
      some ((key, value) :: fields, rest) := by
  have hlength := text_length hvalue
  obtain ⟨fuel, rfl⟩ : ∃ more, fuel = more + 1 := ⟨fuel - 1, by omega⟩
  have htail : 1 ≤ (fieldsText false fields).length := by cases fields <;> simp [fieldsText]
  simp only [stringText, List.cons_append, List.append_assoc, List.nil_append, readFields,
    readString_literal, skip_cons (show isBlank ':' = false from rfl), skip_text hvalue,
    readValue_text hvalue fuel (by omega) (ends_fieldsText fields rest), String.ofList_toList]
  cases fields with
  | nil => rfl
  | cons next fields =>
      have hnext := readFields_text next.1 hfields.1 hfields.2 fuel
        (by simp [fieldsText] at hfuel; omega) rest
      simp only [stringText, List.cons_append, List.append_assoc, List.nil_append] at hnext
      simp only [fieldsText, stringText, List.cons_append, List.append_assoc, List.nil_append,
        skip_cons (show isBlank ',' = false from rfl), skip_cons (show isBlank '"' = false from rfl), hnext,
        Option.map_some]
termination_by fuel

end

/-- Reading a text back. -/
theorem loads_text {v : Json} (h : v.Plain) : loads (String.ofList (text false v)) = some v := by
  have hends : Ends [] := trivial
  have hread := readValue_text h ((text false v).length + 1) (by omega) hends
  have hskip := skip_text h []
  rw [List.append_nil] at hread hskip
  simp only [loads, String.toList_ofList, hskip, hread]
  rfl

end Values

/-! ### Sorted keys -/

section Sorting

variable {fields : List (String × Json)}

theorem byKey_perm (fields : List (String × Json)) : (byKey fields).Perm fields :=
  List.perm_insertionSort _ fields

theorem plainFields_iff : PlainFields fields ↔ ∀ field ∈ fields, field.2.Plain := by
  induction fields with
  | nil => simp [PlainFields]
  | cons field fields ih => simp [PlainFields, ih]

theorem plainFields_byKey (h : PlainFields fields) : PlainFields (byKey fields) :=
  plainFields_iff.mpr fun field hfield =>
    plainFields_iff.mp h field ((byKey_perm fields).mem_iff.mp hfield)

/-- Sorted keys stay as they are. -/
theorem byKey_byKey (fields : List (String × Json)) : byKey (byKey fields) = byKey fields :=
  List.Pairwise.insertionSort_eq (List.pairwise_insertionSort _ fields)

mutual

theorem plain_sortKeys : ∀ {v : Json}, v.Plain → (sortKeys v).Plain
  | .null, h | .bool _, h | .int _, h | .string _, h => h
  | .float _, h => h.elim
  | .array items, h => @plainItems_sortItems items h
  | .object fields, h => by
      refine ⟨?_, plainFields_byKey (plainFields_sortFields h.2)⟩
      have hperm := (byKey_perm (sortFields fields)).map Prod.fst
      rw [hperm.nodup_iff, map_fst_sortFields fields]
      exact h.1

theorem plainItems_sortItems : ∀ {items : List Json}, PlainItems items → PlainItems (sortItems items)
  | [], _ => trivial
  | _ :: _, h => ⟨plain_sortKeys h.1, plainItems_sortItems h.2⟩

theorem plainFields_sortFields :
    ∀ {fields : List (String × Json)}, PlainFields fields → PlainFields (sortFields fields)
  | [], _ => trivial
  | _ :: _, h => ⟨plain_sortKeys h.1, plainFields_sortFields h.2⟩

theorem map_fst_sortFields : ∀ fields : List (String × Json),
    (sortFields fields).map Prod.fst = fields.map Prod.fst
  | [] => rfl
  | (key, _) :: rest => congrArg (key :: ·) (map_fst_sortFields rest)

end

theorem sortFields_eq_map : ∀ fields : List (String × Json),
    sortFields fields = fields.map fun field => (field.1, sortKeys field.2)
  | [] => rfl
  | field :: rest => congrArg ((field.1, sortKeys field.2) :: ·) (sortFields_eq_map rest)

/-- Sorting the values inside does not move the fields. -/
theorem sortFields_byKey (fields : List (String × Json)) :
    sortFields (byKey fields) = byKey (sortFields fields) := by
  rw [sortFields_eq_map, sortFields_eq_map]
  exact List.map_insertionSort _ _ _ _ fun _ _ _ _ => Iff.rfl

mutual

@[simp] theorem sortKeys_sortKeys : ∀ v : Json, sortKeys (sortKeys v) = sortKeys v
  | .null | .bool _ | .int _ | .float _ | .string _ => rfl
  | .array items => congrArg Json.array (sortItems_sortItems items)
  | .object fields => by
      have hfields := sortFields_sortFields fields
      simp only [sortKeys, sortFields_byKey, hfields, byKey_byKey]

theorem sortItems_sortItems : ∀ items : List Json, sortItems (sortItems items) = sortItems items
  | [] => rfl
  | item :: rest => congrArg₂ List.cons (sortKeys_sortKeys item) (sortItems_sortItems rest)

theorem sortFields_sortFields : ∀ fields : List (String × Json),
    sortFields (sortFields fields) = sortFields fields
  | [] => rfl
  | (key, value) :: rest =>
      congrArg₂ List.cons (congrArg (Prod.mk key) (sortKeys_sortKeys value)) (sortFields_sortFields rest)

end

end Sorting

/-- A canonical text reads back as the value with sorted keys. -/
theorem loads_dumps {v : Json} (h : v.Plain) : loads (dumps false v) = some (sortKeys v) :=
  loads_text (plain_sortKeys h)

end Json
