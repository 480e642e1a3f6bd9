import Mathlib.Tactic.Ring

/-! The `struct` formats of little-endian records: unsigned integers of one, two and four bytes and 32-bit
floats, read at an offset or in a row. A float stands for its raw pattern. -/

namespace Struct

/-! ### Little-endian numbers -/

def ofBytes : List UInt8 → Nat
  | [] => 0
  | b :: bs => b.toNat + 256 * ofBytes bs

def toBytes : Nat → Nat → List UInt8
  | 0, _ => []
  | width + 1, n => UInt8.ofNat n :: toBytes width (n / 256)

@[simp] theorem length_toBytes (width n : Nat) : (toBytes width n).length = width := by
  induction width generalizing n with
  | zero => rfl
  | succ width ih => rw [toBytes, List.length_cons, ih]

theorem ofBytes_toBytes {width n : Nat} (h : n < 256 ^ width) : ofBytes (toBytes width n) = n := by
  induction width generalizing n with
  | zero => simpa [toBytes, ofBytes, eq_comm] using h
  | succ width ih =>
      have hrest : n / 256 < 256 ^ width := by
        rw [pow_succ, Nat.mul_comm] at h
        exact Nat.div_lt_of_lt_mul h
      rw [toBytes, ofBytes, ih hrest, UInt8.toNat_ofNat']
      exact Nat.mod_add_div n 256

theorem toBytes_ofBytes (bs : List UInt8) : toBytes bs.length (ofBytes bs) = bs := by
  induction bs with
  | nil => rfl
  | cons b bs ih =>
      have hb := b.toNat_lt
      have hhead : UInt8.ofNat (b.toNat + 256 * ofBytes bs) = b := by
        apply UInt8.toNat_inj.mp
        rw [UInt8.toNat_ofNat']
        omega
      have htail : (b.toNat + 256 * ofBytes bs) / 256 = ofBytes bs := by omega
      rw [List.length_cons, ofBytes, toBytes, hhead, htail, ih]

theorem ofBytes_lt (bs : List UInt8) : ofBytes bs < 256 ^ bs.length := by
  induction bs with
  | nil => exact Nat.one_pos
  | cons b bs ih =>
      have hb := b.toNat_lt
      rw [ofBytes, List.length_cons, pow_succ]
      omega

/-! ### Formats -/

/-- Format characters, of one, two and four bytes; the last is the float. -/
inductive Format where
  | B
  | H
  | I
  | f
  deriving DecidableEq, Repr

def Format.width : Format → Nat
  | .B => 1
  | .H => 2
  | .I => 4
  | .f => 4

/-- An integer, or a float by its raw pattern. -/
inductive Value where
  | int (n : Nat)
  | float (bits : Nat)
  deriving DecidableEq, Repr

def Value.raw : Value → Nat
  | .int n => n
  | .float bits => bits

def Format.value (format : Format) (raw : Nat) : Value :=
  match format with
  | .f => .float raw
  | _ => .int raw

/-- A value that the format can carry. -/
def Format.Fits (format : Format) (value : Value) : Prop :=
  value = format.value value.raw ∧ value.raw < 256 ^ format.width

instance (format : Format) (value : Value) : Decidable (format.Fits value) := inferInstanceAs (Decidable (_ ∧ _))

/-- `unpack_from("<" + format, packet, offset)[0]`. -/
def unpackFrom (format : Format) (packet : List UInt8) (offset : Nat) : Value :=
  format.value (ofBytes ((packet.drop offset).take format.width))

def pack (format : Format) (value : Value) : List UInt8 := toBytes format.width value.raw

@[simp] theorem raw_value (format : Format) (raw : Nat) : (format.value raw).raw = raw := by
  cases format <;> rfl

@[simp] theorem length_pack (format : Format) (value : Value) : (pack format value).length = format.width :=
  length_toBytes _ _

theorem unpackFrom_pack {format : Format} {value : Value} (h : format.Fits value) (before rest : List UInt8) :
    unpackFrom format (before ++ (pack format value ++ rest)) before.length = value := by
  unfold unpackFrom
  rw [List.drop_left, List.take_left' (length_pack format value), pack, ofBytes_toBytes h.2]
  exact h.1.symm

theorem pack_unpackFrom {format : Format} {packet : List UInt8} {offset : Nat}
    (h : offset + format.width ≤ packet.length) :
    pack format (unpackFrom format packet offset) = (packet.drop offset).take format.width := by
  have hlength : ((packet.drop offset).take format.width).length = format.width := by
    rw [List.length_take, List.length_drop]
    omega
  have hbytes := toBytes_ofBytes ((packet.drop offset).take format.width)
  rw [hlength] at hbytes
  rw [pack, unpackFrom, raw_value, hbytes]

/-- What is read fits. -/
theorem fits_unpackFrom (format : Format) (packet : List UInt8) (offset : Nat) :
    format.Fits (unpackFrom format packet offset) := by
  have hlt := ofBytes_lt ((packet.drop offset).take format.width)
  have hlength : ((packet.drop offset).take format.width).length ≤ format.width := List.length_take_le _ _
  refine ⟨by rw [unpackFrom, raw_value], ?_⟩
  rw [unpackFrom, raw_value]
  exact hlt.trans_le (Nat.pow_le_pow_right (by decide) hlength)

/-! ### Rows -/

section Rows

variable {κ : Type}

/-- The bytes of a row of labelled fields. -/
def rowWidth : List (κ × Format) → Nat
  | [] => 0
  | (_, format) :: row => format.width + rowWidth row

/-- The fields of a row, one after the other from an offset on. -/
def unpackRow : List (κ × Format) → List UInt8 → Nat → List (κ × Value)
  | [], _, _ => []
  | (label, format) :: row, packet, offset =>
      (label, unpackFrom format packet offset) :: unpackRow row packet (offset + format.width)

def packRow : List (κ × Format) → List (κ × Value) → List UInt8
  | (_, format) :: row, (_, value) :: values => pack format value ++ packRow row values
  | _, _ => []

/-- The values have the labels of the row and fit its formats. -/
def FitsRow : List (κ × Format) → List (κ × Value) → Prop
  | [], [] => True
  | (label, format) :: row, (label', value) :: values => label' = label ∧ format.Fits value ∧ FitsRow row values
  | _, _ => False

variable {row : List (κ × Format)} {values : List (κ × Value)}

theorem length_packRow (h : FitsRow row values) : (packRow row values).length = rowWidth row := by
  induction row generalizing values with
  | nil => rfl
  | cons entry row ih =>
      cases values with
      | nil => exact h.elim
      | cons value values => rw [packRow, List.length_append, length_pack, ih h.2.2, rowWidth]

theorem unpackRow_packRow (h : FitsRow row values) (before rest : List UInt8) :
    unpackRow row (before ++ (packRow row values ++ rest)) before.length = values := by
  induction row generalizing values before with
  | nil =>
      cases values with
      | nil => rfl
      | cons value values => exact h.elim
  | cons entry row ih =>
      cases values with
      | nil => exact h.elim
      | cons value values =>
          obtain ⟨label, format⟩ := entry
          obtain ⟨label', value⟩ := value
          obtain ⟨rfl, hfits, hrow⟩ := h
          have hrest := ih hrow (before ++ pack format value)
          rw [List.length_append, length_pack, List.append_assoc] at hrest
          rw [unpackRow, packRow, List.append_assoc, unpackFrom_pack hfits, hrest]

theorem packRow_unpackRow {packet : List UInt8} {offset : Nat} (h : offset + rowWidth row ≤ packet.length) :
    packRow row (unpackRow row packet offset) = (packet.drop offset).take (rowWidth row) := by
  induction row generalizing offset with
  | nil => rfl
  | cons entry row ih =>
      obtain ⟨label, format⟩ := entry
      rw [rowWidth] at h
      rw [unpackRow, packRow, pack_unpackFrom (by omega), ih (by omega), rowWidth, List.take_add, List.drop_drop]

theorem fitsRow_unpackRow (row : List (κ × Format)) (packet : List UInt8) (offset : Nat) :
    FitsRow row (unpackRow row packet offset) := by
  induction row generalizing offset with
  | nil => trivial
  | cons entry row ih => exact ⟨rfl, fits_unpackFrom _ _ _, ih _⟩

end Rows

end Struct
