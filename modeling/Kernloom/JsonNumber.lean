import Kernloom.JsonCodec

/-! Numbers: integers in decimal, and floating point through its shortest text. -/

namespace JsonText

section Integers

theorem isDigits_toDigits (n : Nat) : isDigits (Nat.toDigits 10 n) = true := by
  have hall : (Nat.toDigits 10 n).all Char.isDigit = true :=
    List.all_eq_true.mpr fun c hc => Nat.isDigit_of_mem_toDigits (by decide) (by decide) hc
  simp [isDigits, hall]

theorem head_toDigits {n : Nat} (h : 0 < n) : (Nat.toDigits 10 n).head? ≠ some '0' := by
  induction n using Nat.strongRecOn with
  | _ n ih =>
    by_cases hlt : n < 10
    · have hdigit : ∀ m < 10, 0 < m → Nat.digitChar m ≠ '0' := by decide
      rw [Nat.toDigits_of_lt_base hlt]
      simpa using hdigit n hlt h
    · have hfirst := ih (n / 10) (by omega) (by omega)
      rw [Nat.toDigits_of_base_le (by decide) (by omega), List.head?_append_of_ne_nil _ Nat.toDigits_ne_nil]
      exact hfirst

theorem isWhole_toDigits (n : Nat) : isWhole (Nat.toDigits 10 n) = true := by
  unfold isWhole
  rw [decide_eq_true_eq]
  refine ⟨isDigits_toDigits n, fun hhead => ?_⟩
  rcases Nat.eq_zero_or_pos n with rfl | hpos
  · rfl
  · exact absurd hhead (head_toDigits hpos)

theorem unsignedNumber_of_isWhole {cs : List Char} (h : isWhole cs = true) : unsignedNumber cs = true := by
  have hdigits : ∀ c ∈ cs, c.isDigit = true := by
    simp only [isWhole, isDigits, decide_eq_true_eq, List.all_eq_true] at h
    exact h.1.2
  have hmantissa : cs.takeWhile (fun c => c ≠ 'e' ∧ c ≠ 'E') = cs := by
    refine List.takeWhile_eq_self_iff.mpr fun c hc => ?_
    have hdigit := hdigits c hc
    rw [decide_eq_true_eq]
    constructor
    · rintro rfl
      exact absurd hdigit (by decide)
    · rintro rfl
      exact absurd hdigit (by decide)
  have hwhole : cs.takeWhile (· ≠ '.') = cs := by
    refine List.takeWhile_eq_self_iff.mpr fun c hc => ?_
    have hdigit := hdigits c hc
    rw [decide_eq_true_eq]
    rintro rfl
    exact absurd hdigit (by decide)
  have hexponent : cs.dropWhile (fun c => c ≠ 'e' ∧ c ≠ 'E') = [] := by
    have hsplit := List.takeWhile_append_dropWhile (p := fun c => decide (c ≠ 'e' ∧ c ≠ 'E')) (l := cs)
    rw [hmantissa] at hsplit
    exact List.append_cancel_left (hsplit.trans (List.append_nil cs).symm)
  have hfraction : cs.dropWhile (· ≠ '.') = [] := by
    have hsplit := List.takeWhile_append_dropWhile (p := (· ≠ '.')) (l := cs)
    rw [hwhole] at hsplit
    exact List.append_cancel_left (hsplit.trans (List.append_nil cs).symm)
  simp only [unsignedNumber, hmantissa, hwhole, hexponent, hfraction, h, true_or, and_self, decide_true]

theorem isNumber_of_isWhole {cs : List Char} (h : isWhole cs = true) : isNumber cs = true := by
  unfold isNumber
  split
  · have hhead := h
    simp only [isWhole, isDigits, decide_eq_true_eq, List.all_cons, Bool.and_eq_true] at hhead
    exact absurd hhead.1.2.1 (by decide)
  · exact unsignedNumber_of_isWhole h

def writeNat (n : Nat) : NumberText := ⟨Nat.toDigits 10 n, isNumber_of_isWhole (isWhole_toDigits n)⟩

def writeInt (n : Int) : NumberText :=
  if n < 0 then ⟨'-' :: Nat.toDigits 10 n.natAbs, unsignedNumber_of_isWhole (isWhole_toDigits _)⟩
  else writeNat n.natAbs

def readNat (cs : List Char) : Option Nat := if isDigits cs then some (Nat.ofDigitChars 10 cs 0) else none

def readInt : List Char → Option Int
  | '-' :: cs => (readNat cs).map fun n : Nat => -(n : Int)
  | cs => (readNat cs).map fun n : Nat => (n : Int)

theorem readNat_toDigits (n : Nat) : readNat (Nat.toDigits 10 n) = some n := by
  rw [readNat, if_pos (isDigits_toDigits n), Nat.ofDigitChars_ten_toDigits]

theorem readInt_writeInt (n : Int) : readInt (writeInt n).1 = some n := by
  unfold writeInt
  split_ifs with hneg
  · simp only [readInt, readNat_toDigits, Option.map_some]
    exact congrArg some (by omega)
  · have hdigits := isDigits_toDigits n.natAbs
    unfold readInt writeNat
    split
    · next heq =>
      simp only at heq
      rw [heq] at hdigits
      simp [isDigits] at hdigits
    · rw [readNat_toDigits, Option.map_some]
      exact congrArg some (by omega)

def Codec.int : Codec Int where
  zero := 0
  isEmpty n := n = 0
  encode n := some (.num (writeInt n))
  decode
    | .num n => readInt n.1
    | .null => some 0
    | _ => none
  read := id
  Clean _ := True
  Exact _ := True
  Same := (· = ·)
  decode_null := rfl
  decode_encode {n v} h := by
    rw [← Option.some.inj h]
    exact readInt_writeInt n
  encode_read h := ⟨_, h, fun _ => rfl, fun hclean => absurd trivial hclean⟩
  same_read _ := iff_of_true rfl trivial
  isEmpty_read _ := rfl
  of_isEmpty h := ⟨rfl, trivial, trivial, (of_decide_eq_true h).symm⟩

def Codec.nat : Codec Nat where
  zero := 0
  isEmpty n := n = 0
  encode n := some (.num (writeNat n))
  decode
    | .num n => readNat n.1
    | .null => some 0
    | _ => none
  read := id
  Clean _ := True
  Exact _ := True
  Same := (· = ·)
  decode_null := rfl
  decode_encode {n v} h := by
    rw [← Option.some.inj h]
    exact readNat_toDigits n
  encode_read h := ⟨_, h, fun _ => rfl, fun hclean => absurd trivial hclean⟩
  same_read _ := iff_of_true rfl trivial
  isEmpty_read _ := rfl
  of_isEmpty h := ⟨rfl, trivial, trivial, (of_decide_eq_true h).symm⟩

end Integers

section Floats

/-- A type of floating point numbers: the shortest text of a number is read back as it. -/
class Floats (F : Type) where
  zero : F
  isZero : F → Bool
  isPositive : F → Bool
  /-- There is no text of NaN and of the infinities. -/
  format : F → Option NumberText
  parse : NumberText → Option F
  parse_format : ∀ {x n}, format x = some n → parse n = some x
  isZero_zero : isZero zero = true

variable {F : Type} [Floats F]

/-- Zeros of both signs are empty, and equal. -/
def Codec.float : Codec F where
  zero := Floats.zero
  isEmpty := Floats.isZero
  encode x := (Floats.format x).map .num
  decode
    | .num n => Floats.parse n
    | .null => some Floats.zero
    | _ => none
  read := id
  Clean _ := True
  Exact _ := True
  Same x y := x = y ∨ Floats.isZero x = true ∧ Floats.isZero y = true
  decode_null := rfl
  decode_encode {x v} h := by
    obtain ⟨n, hn, rfl⟩ := Option.map_eq_some_iff.mp h
    exact Floats.parse_format hn
  encode_read h := ⟨_, h, fun _ => rfl, fun hclean => absurd trivial hclean⟩
  same_read _ := iff_of_true (.inl rfl) trivial
  isEmpty_read _ := rfl
  of_isEmpty h := ⟨Floats.isZero_zero, trivial, trivial, .inr ⟨Floats.isZero_zero, h⟩⟩

end Floats

end JsonText
