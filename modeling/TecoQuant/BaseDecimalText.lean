import TecoQuant.BaseDecimal
import TecoQuant.BaseJsonParse
import TecoQuant.BaseText

/-! The text of a decimal and its reading. `str` keeps the coefficient and the exponent, so a decimal is read
back with its representation. Texts are read with the digits of ASCII; NaNs have no payload. -/

namespace PyText

/-- A text without white space is stripped of nothing. -/
theorem strip_eq_self {s : String} (h : ∀ c ∈ s.toList, isSpace c = false) : strip s = s := by
  have hdrop : ∀ cs : List Char, (∀ c ∈ cs, isSpace c = false) → cs.dropWhile isSpace = cs := by
    intro cs hcs
    rw [List.dropWhile_eq_self_iff]
    intro hlength hspace
    rw [hcs _ (List.getElem_mem hlength)] at hspace
    cases hspace
  rw [strip, stripChars, hdrop _ h, hdrop _ fun c hc => h c (List.mem_reverse.mp hc), List.reverse_reverse,
    String.ofList_toList]

end PyText

namespace Decimal

open Json (ofDigits readExponent)

/-! ### Writing -/

/-- The digits of a number with a point behind the first `place` of them. -/
def pointed (digits : List Char) (place : Int) : List Char :=
  if place ≤ 0 then '0' :: '.' :: (List.replicate (-place).toNat '0' ++ digits)
  else if digits.length ≤ place then digits ++ List.replicate (place - digits.length).toNat '0'
  else digits.take place.toNat ++ '.' :: digits.drop place.toNat

/-- `E%+d`. -/
def exponentText (n : Int) : List Char := 'E' :: (if n < 0 then '-' else '+') :: Nat.toDigits 10 n.natAbs

/-- `str(d)`. -/
def str : Decimal → String
  | .finite negative coefficient exponent =>
      let digits := Nat.toDigits 10 coefficient
      let leftDigits := exponent + digits.length
      let place := if exponent ≤ 0 ∧ -6 < leftDigits then leftDigits else 1
      String.ofList ((if negative then ['-'] else []) ++ (pointed digits place ++
        if leftDigits = place then [] else exponentText (leftDigits - place)))
  | .infinity negative => if negative then "-Infinity" else "Infinity"
  | .nan => "NaN"

example : str (.finite true 12345 (-2)) = "-123.45" ∧ str (.finite false 5 (-7)) = "5E-7" ∧
    str (.finite false 120 3) = "1.20E+5" := by decide

/-! ### Reading -/

/-- The digits in front of a point and those behind it, with what follows. -/
def readPointed (text : List Char) : List Char × List Char × List Char :=
  let (whole, rest) := text.span Char.isDigit
  match rest with
  | '.' :: rest => (whole, rest.span Char.isDigit)
  | rest => (whole, [], rest)

/-- A number without its sign. -/
def readNumber (negative : Bool) (text : List Char) : Option Decimal :=
  let (whole, fraction, rest) := readPointed text
  if whole = [] ∧ fraction = [] then none
  else if rest = [] then some (.finite negative (ofDigits (whole ++ fraction)) (-fraction.length))
  else
    match readExponent rest with
    | some (exponent, []) => some (.finite negative (ofDigits (whole ++ fraction)) (exponent - fraction.length))
    | _ => none

def readUnsigned (negative : Bool) (text : List Char) : Option Decimal :=
  let lower := text.map Char.toLower
  if lower = "inf".toList ∨ lower = "infinity".toList then some (.infinity negative)
  else if lower = "nan".toList then some .nan
  else readNumber negative text

/-- `Decimal(text)`; none is an `InvalidOperation`. -/
def ofText (text : String) : Option Decimal :=
  match (PyText.strip text).toList.filter (· ≠ '_') with
  | '-' :: rest => readUnsigned true rest
  | '+' :: rest => readUnsigned false rest
  | rest => readUnsigned false rest

/-! ### The round trip -/

section RoundTrip

variable {digits rest : List Char}

/-- A text that does not go on with a digit. -/
def NoDigit (rest : List Char) : Prop := ∀ c ∈ rest.head?, c.isDigit = false

theorem span_isDigit (hdigits : ∀ c ∈ digits, c.isDigit = true) (hrest : NoDigit rest) :
    (digits ++ rest).span Char.isDigit = (digits, rest) := by
  rw [List.span_eq_takeWhile_dropWhile, List.takeWhile_append_of_pos hdigits,
    List.dropWhile_append_of_pos hdigits]
  cases rest with
  | nil => simp
  | cons c rest =>
      have hc : c.isDigit = false := hrest c rfl
      simp [hc]

theorem ofDigits_zero_cons (digits : List Char) : ofDigits ('0' :: digits) = ofDigits digits := by
  simp [ofDigits, Nat.ofDigitChars_cons]

theorem ofDigits_replicate_zero (n : Nat) (digits : List Char) :
    ofDigits (List.replicate n '0' ++ digits) = ofDigits digits := by
  induction n with
  | zero => rfl
  | succ n ih => rw [List.replicate_succ, List.cons_append, ofDigits_zero_cons, ih]

/-- Digits around a point in front of an exponent or at the end are read with the point in its place. -/
theorem readPointed_pointed (hdigits : ∀ c ∈ digits, c.isDigit = true) (hne : digits ≠ []) {place : Int}
    (hplace : place ≤ digits.length) (hrest : NoDigit rest) (hpoint : ∀ c ∈ rest.head?, c ≠ '.') :
    ∃ whole fraction, readPointed (pointed digits place ++ rest) = (whole, fraction, rest) ∧ whole ≠ [] ∧
      ofDigits (whole ++ fraction) = ofDigits digits ∧ (fraction.length : Int) = digits.length - place := by
  have hdot : ∀ more, NoDigit ('.' :: more) := by
    intro more c hc
    cases hc
    rfl
  unfold pointed
  by_cases hsmall : place ≤ 0
  · have hzeros : ∀ c ∈ List.replicate (-place).toNat '0' ++ digits, c.isDigit = true := by
      intro c hc
      rcases List.mem_append.mp hc with hc | hc
      · rw [List.eq_of_mem_replicate hc]
        rfl
      · exact hdigits c hc
    refine ⟨['0'], List.replicate (-place).toNat '0' ++ digits, ?_, by simp, ?_, ?_⟩
    · rw [if_pos hsmall, readPointed]
      have hwhole := span_isDigit (show ∀ c ∈ ['0'], c.isDigit = true by simp)
        (hdot (List.replicate (-place).toNat '0' ++ digits ++ rest))
      simp only [List.cons_append, List.nil_append] at hwhole ⊢
      rw [hwhole]
      simp only [span_isDigit hzeros hrest]
    · rw [List.singleton_append, ofDigits_zero_cons, ofDigits_replicate_zero]
    · rw [List.length_append, List.length_replicate]
      omega
  rw [if_neg hsmall]
  by_cases hall : digits.length ≤ place
  · refine ⟨digits, [], ?_, hne, by rw [List.append_nil], by simp; omega⟩
    rw [if_pos hall, show (place - digits.length).toNat = 0 by omega, List.replicate_zero, List.append_nil, readPointed,
      span_isDigit hdigits hrest]
    cases rest with
    | nil => rfl
    | cons c rest =>
        have hc : c ≠ '.' := hpoint c rfl
        dsimp only
        split
        · rename_i heq
          exact absurd (List.cons.inj heq).1 hc
        · rfl
  · refine ⟨digits.take place.toNat, digits.drop place.toNat, ?_, ?_, by rw [List.take_append_drop], ?_⟩
    · rw [if_neg hall, readPointed, List.append_assoc, List.cons_append,
        span_isDigit (fun c hc => hdigits c (List.mem_of_mem_take hc)) (hdot _)]
      simp only [span_isDigit (fun c hc => hdigits c (List.mem_of_mem_drop hc)) hrest]
    · rw [Ne, List.take_eq_nil_iff]
      exact fun h => h.elim (by omega) hne
    · rw [List.length_drop]
      omega

theorem readExponent_exponentText (n : Int) : readExponent (exponentText n) = some (n, []) := by
  have hdigits := span_isDigit (fun c hc => Json.toDigits_isDigit (n := n.natAbs) hc) (show NoDigit [] by simp [NoDigit])
  rw [List.append_nil] at hdigits
  have hne : Nat.toDigits 10 n.natAbs ≠ [] := Nat.toDigits_ne_nil
  by_cases hneg : n < 0
  · simp only [readExponent, exponentText, if_pos hneg, or_true, if_true, hdigits, if_neg hne, Json.ofDigits_toDigits]
    rw [Int.ofNat_natAbs_of_nonpos hneg.le, neg_neg]
  · simp only [readExponent, exponentText, if_neg hneg, or_true, if_true, hdigits, if_neg hne, Json.ofDigits_toDigits]
    rw [if_neg (by decide), Int.natAbs_of_nonneg (not_lt.mp hneg)]

/-- The digits of a number, its point and its exponent. -/
def magnitudeText (coefficient : Nat) (exponent : Int) : List Char :=
  let digits := Nat.toDigits 10 coefficient
  let leftDigits := exponent + digits.length
  let place := if exponent ≤ 0 ∧ -6 < leftDigits then leftDigits else 1
  pointed digits place ++ if leftDigits = place then [] else exponentText (leftDigits - place)

theorem str_finite (negative : Bool) (coefficient : Nat) (exponent : Int) :
    str (.finite negative coefficient exponent) =
      String.ofList ((if negative then ['-'] else []) ++ magnitudeText coefficient exponent) := rfl

theorem readNumber_magnitudeText (negative : Bool) (coefficient : Nat) (exponent : Int) :
    readNumber negative (magnitudeText coefficient exponent) = some (.finite negative coefficient exponent) := by
  unfold magnitudeText
  extract_lets digits leftDigits place
  have hdigits : ∀ c ∈ digits, c.isDigit = true := fun c hc => Json.toDigits_isDigit hc
  have hne : digits ≠ [] := Nat.toDigits_ne_nil
  have hlength : 1 ≤ (digits.length : Int) := by exact_mod_cast List.length_pos_of_ne_nil hne
  have hplace : place ≤ digits.length := by
    simp only [place, leftDigits]
    split <;> omega
  by_cases hexponent : leftDigits = place
  · obtain ⟨whole, fraction, hread, hwhole, hcoefficient, hfraction⟩ :=
      readPointed_pointed hdigits hne hplace (show NoDigit [] by simp [NoDigit]) (by simp)
    rw [if_pos hexponent, readNumber, hread]
    dsimp only
    rw [if_neg fun h => hwhole h.1, if_pos rfl, hcoefficient, Json.ofDigits_toDigits]
    congr 2
    omega
  · obtain ⟨whole, fraction, hread, hwhole, hcoefficient, hfraction⟩ :=
      readPointed_pointed hdigits hne hplace
        (show NoDigit (exponentText (leftDigits - place)) by simp [NoDigit, exponentText]) (by simp [exponentText])
    rw [if_neg hexponent, readNumber, hread]
    dsimp only
    rw [if_neg fun h => hwhole h.1, if_neg (by simp [exponentText]), readExponent_exponentText]
    dsimp only
    rw [hcoefficient, Json.ofDigits_toDigits]
    congr 2
    omega

/-- What the text of a finite decimal is written with. -/
def IsNumeric (c : Char) : Prop := c.isDigit = true ∨ c = '.' ∨ c = 'E' ∨ c = '+' ∨ c = '-'

theorem isNumeric_magnitudeText {coefficient : Nat} {exponent : Int} :
    ∀ c ∈ magnitudeText coefficient exponent, IsNumeric c := by
  have hdigits : ∀ n : Nat, ∀ c ∈ Nat.toDigits 10 n, IsNumeric c := fun n c hc => .inl (Json.toDigits_isDigit hc)
  have hzero : ∀ n : Nat, ∀ c ∈ List.replicate n '0', IsNumeric c := by
    intro n c hc
    rw [List.eq_of_mem_replicate hc]
    exact .inl rfl
  have hpointed : ∀ place, ∀ c ∈ pointed (Nat.toDigits 10 coefficient) place, IsNumeric c := by
    intro place c hc
    unfold pointed at hc
    split at hc
    · simp only [List.mem_cons, List.mem_append] at hc
      rcases hc with rfl | rfl | hc | hc
      · exact .inl rfl
      · exact .inr (.inl rfl)
      · exact hzero _ c hc
      · exact hdigits _ c hc
    split at hc
    · rcases List.mem_append.mp hc with hc | hc
      · exact hdigits _ c hc
      · exact hzero _ c hc
    · simp only [List.mem_cons, List.mem_append] at hc
      rcases hc with hc | rfl | hc
      · exact hdigits _ c (List.mem_of_mem_take hc)
      · exact .inr (.inl rfl)
      · exact hdigits _ c (List.mem_of_mem_drop hc)
  intro c hc
  unfold magnitudeText at hc
  extract_lets digits leftDigits place at hc
  rcases List.mem_append.mp hc with hc | hc
  · exact hpointed _ c hc
  · split at hc
    · cases hc
    · simp only [exponentText, List.mem_cons] at hc
      rcases hc with rfl | rfl | hc
      · exact .inr (.inr (.inl rfl))
      · split
        · exact .inr (.inr (.inr (.inr rfl)))
        · exact .inr (.inr (.inr (.inl rfl)))
      · exact hdigits _ c hc

/-- The text of a number starts with a digit. -/
theorem magnitudeText_head (coefficient : Nat) (exponent : Int) :
    ∃ c cs, magnitudeText coefficient exponent = c :: cs ∧ c.isDigit = true := by
  obtain ⟨first, more, hdigits⟩ := List.exists_cons_of_ne_nil (Nat.toDigits_ne_nil (b := 10) (n := coefficient))
  have hfirst : first.isDigit = true := Json.toDigits_isDigit (hdigits ▸ List.mem_cons_self)
  have hpointed : ∀ place, ∃ c cs, pointed (Nat.toDigits 10 coefficient) place = c :: cs ∧ c.isDigit = true := by
    intro place
    unfold pointed
    rw [hdigits]
    split
    · exact ⟨_, _, rfl, rfl⟩
    rename_i hplace
    split
    · exact ⟨_, _, rfl, hfirst⟩
    · obtain ⟨n, hn⟩ : ∃ n, place.toNat = n + 1 := ⟨place.toNat - 1, by omega⟩
      rw [hn, List.take_succ_cons]
      exact ⟨_, _, rfl, hfirst⟩
  unfold magnitudeText
  extract_lets digits leftDigits place
  obtain ⟨c, cs, hcons, hc⟩ := hpointed place
  exact ⟨c, _, by rw [hcons, List.cons_append], hc⟩

theorem not_isSpace_of_isDigit {c : Char} (h : c.isDigit = true) : PyText.isSpace c = false := by
  simp only [Char.isDigit, Bool.and_eq_true, decide_eq_true_eq, UInt32.le_iff_toNat_le] at h
  have hbounds : 48 ≤ c.toNat ∧ c.toNat ≤ 57 := h
  simp only [PyText.isSpace, Bool.or_eq_false_iff, Bool.and_eq_false_iff, decide_eq_false_iff_not, beq_eq_false_iff_ne]
  omega

theorem IsNumeric.not_isSpace {c : Char} (h : IsNumeric c) : PyText.isSpace c = false ∧ c ≠ '_' := by
  rcases h with h | rfl | rfl | rfl | rfl
  · refine ⟨not_isSpace_of_isDigit h, ?_⟩
    rintro rfl
    cases h
  all_goals decide

theorem toLower_of_isDigit {c : Char} (h : c.isDigit = true) : c.toLower = c := by
  simp only [Char.isDigit, Bool.and_eq_true, decide_eq_true_eq] at h
  refine dif_neg fun hupper => ?_
  exact absurd (UInt32.le_trans hupper.1 h.2) (by decide)

/-- A text of numeric characters is no name of a special value. -/
theorem readUnsigned_numeric {negative : Bool} {text : List Char} (h : ∀ c ∈ text, IsNumeric c) :
    readUnsigned negative text = readNumber negative text := by
  have hlower : ∀ name : List Char, 'n' ∈ name → text.map Char.toLower ≠ name := by
    rintro _ hn rfl
    obtain ⟨c, hc, hlower⟩ := List.mem_map.mp hn
    rcases h c hc with hdigit | rfl | rfl | rfl | rfl
    · rw [toLower_of_isDigit hdigit] at hlower
      subst hlower
      cases hdigit
    all_goals cases hlower
  unfold readUnsigned
  dsimp only
  rw [if_neg, if_neg]
  · exact hlower _ (by decide)
  · rintro (h | h)
    · exact hlower _ (by decide) h
    · exact hlower _ (by decide) h

/-- A decimal is read back from its text with its representation. -/
theorem ofText_str (d : Decimal) : ofText (str d) = some d := by
  cases d with
  | finite negative coefficient exponent =>
      have hnumeric : ∀ c ∈ magnitudeText coefficient exponent, IsNumeric c := isNumeric_magnitudeText
      have hall : ∀ c ∈ (if negative then ['-'] else []) ++ magnitudeText coefficient exponent, IsNumeric c := by
        intro c hc
        rcases List.mem_append.mp hc with hc | hc
        · split at hc
          · obtain rfl := List.mem_singleton.mp hc
            exact .inr (.inr (.inr (.inr rfl)))
          · cases hc
        · exact hnumeric c hc
      have hread : ∀ negative, readUnsigned negative (magnitudeText coefficient exponent) =
          some (.finite negative coefficient exponent) := fun negative =>
        (readUnsigned_numeric hnumeric).trans (readNumber_magnitudeText negative coefficient exponent)
      rw [ofText, str_finite, PyText.strip_eq_self (by simpa using fun c hc => (hall c (by simpa using hc)).not_isSpace.1),
        String.toList_ofList, List.filter_eq_self.mpr (fun c hc => by simpa using (hall c hc).not_isSpace.2)]
      cases negative with
      | true => exact hread true
      | false =>
          obtain ⟨c, cs, htext, hc⟩ := magnitudeText_head coefficient exponent
          have hplain := hread false
          rw [htext] at hplain ⊢
          simp only [Bool.false_eq_true, if_false, List.nil_append]
          split
          · rename_i heq
            rw [(List.cons.inj heq).1] at hc
            cases hc
          · rename_i heq
            rw [(List.cons.inj heq).1] at hc
            cases hc
          · exact hplain
  | infinity negative => cases negative <;> decide
  | nan => decide

end RoundTrip

end Decimal
