import Mathlib.Data.List.DropRight
import Mathlib.Data.UInt

/-! Base64 with the standard alphabet and padding, and the last place of a text in another. -/

namespace Base64

abbrev Bytes := List UInt8

section Search

variable {α : Type} [DecidableEq α]

/-- The last place at which `sub` stands in a list. -/
def lastIndex (sub : List α) : List α → Option Nat
  | [] => if sub = [] then some 0 else none
  | a :: l =>
    match lastIndex sub l with
    | some i => some (i + 1)
    | none => if sub <+: a :: l then some 0 else none

variable {sub l : List α}

theorem lastIndex_eq_none {b : α} (hb : b ∈ sub) (hl : b ∉ l) : lastIndex sub l = none := by
  induction l with
  | nil => exact if_neg (List.ne_nil_of_mem hb)
  | cons a l ih =>
    rw [lastIndex, ih fun h => hl (List.mem_cons_of_mem a h)]
    exact if_neg fun h => hl (h.subset hb)

/-- Before a list without the text, the text can stand only where its first letter does. -/
theorem lastIndex_append_none {b : α} {m pre : List α} (hpre : b ∉ pre) (hl : lastIndex (b :: m) l = none) :
    lastIndex (b :: m) (pre ++ l) = none := by
  induction pre with
  | nil => exact hl
  | cons a pre ih =>
    obtain ⟨hne, hpre⟩ := not_or.mp (mt List.mem_cons.mpr hpre)
    rw [List.cons_append, lastIndex, ih hpre]
    exact if_neg fun h => hne (List.cons_prefix_cons.mp h).1

theorem lastIndex_append_some {i : Nat} (pre : List α) (h : lastIndex sub l = some i) :
    lastIndex sub (pre ++ l) = some (pre.length + i) := by
  induction pre with
  | nil => simpa using h
  | cons a pre ih =>
    rw [List.cons_append, lastIndex, ih, List.length_cons]
    exact congrArg some (by omega)

/-- The last of several places is the one after which there is none. -/
theorem lastIndex_last {b : α} {m rest : List α} (pre : List α) (h : lastIndex (b :: m) (m ++ rest) = none) :
    lastIndex (b :: m) (pre ++ b :: (m ++ rest)) = some pre.length := by
  refine lastIndex_append_some (i := 0) pre ?_
  rw [lastIndex, h]
  exact if_pos ⟨rest, rfl⟩

end Search

section Trim

variable {α : Type}

theorem rdropWhile_append_of_all {p : α → Bool} {l l' : List α} (h : ∀ a ∈ l', p a = true) :
    (l ++ l').rdropWhile p = l.rdropWhile p := by
  induction l' using List.reverseRecOn with
  | nil => rw [List.append_nil]
  | append_singleton l' a ih =>
    rw [← List.append_assoc, List.rdropWhile_concat_pos _ _ _ (h a (by simp))]
    exact ih fun b hb => h b (by simp [hb])

theorem rdropWhile_of_none {p : α → Bool} {l : List α} (h : ∀ a ∈ l, ¬ p a = true) : l.rdropWhile p = l :=
  List.rdropWhile_eq_self_iff.mpr fun hl => h _ (List.getLast_mem hl)

end Trim

def blanks : Bytes := [10, 13, 32]

/-- An encoding and its decoder. What is written has no white space. -/
structure Encoding where
  encode : Bytes → Bytes
  decode : Bytes → Option Bytes
  decode_encode : ∀ s, decode (encode s) = some s
  encode_blank : ∀ s, ∀ c ∈ encode s, c ∉ blanks

section Standard

def pad : UInt8 := 61

def digit (n : Nat) : UInt8 :=
  if n < 26 then .ofNat (n + 65)
  else if n < 52 then .ofNat (n + 71)
  else if n < 62 then .ofNat (n - 4)
  else if n = 62 then 43
  else 47

def value (c : UInt8) : Option Nat :=
  if 65 ≤ c.toNat ∧ c.toNat ≤ 90 then some (c.toNat - 65)
  else if 97 ≤ c.toNat ∧ c.toNat ≤ 122 then some (c.toNat - 71)
  else if 48 ≤ c.toNat ∧ c.toNat ≤ 57 then some (c.toNat + 4)
  else if c = 43 then some 62
  else if c = 47 then some 63
  else none

def encode : Bytes → Bytes
  | a :: b :: c :: rest =>
    digit (a.toNat / 4) :: digit (a.toNat % 4 * 16 + b.toNat / 16) ::
      digit (b.toNat % 16 * 4 + c.toNat / 64) :: digit (c.toNat % 64) :: encode rest
  | [a, b] => [digit (a.toNat / 4), digit (a.toNat % 4 * 16 + b.toNat / 16), digit (b.toNat % 16 * 4), pad]
  | [a] => [digit (a.toNat / 4), digit (a.toNat % 4 * 16), pad, pad]
  | [] => []

/-- Groups of four letters; only the last one may be padded. -/
def decodeGroups : Bytes → Option Bytes
  | [] => some []
  | a :: b :: c :: d :: rest => do
    let x ← value a
    let y ← value b
    let first := UInt8.ofNat (x * 4 + y / 16)
    if d = pad ∧ rest = [] then
      if c = pad then some [first]
      else do
        let z ← value c
        some [first, .ofNat (y % 16 * 16 + z / 4)]
    else
      let z ← value c
      let w ← value d
      let more ← decodeGroups rest
      some (first :: .ofNat (y % 16 * 16 + z / 4) :: .ofNat (z % 4 * 64 + w) :: more)
  | _ => none

/-- Line ends within the text are skipped. -/
def decode (s : Bytes) : Option Bytes := decodeGroups (s.filter fun c => c ≠ 10 ∧ c ≠ 13)

theorem digit_facts : ∀ n < 64, value (digit n) = some n ∧ digit n ≠ pad ∧ digit n ∉ blanks := by
  decide

theorem encode_blank (s : Bytes) : ∀ c ∈ encode s, c ∉ blanks := by
  have hdigit : ∀ n, n < 64 → digit n ∉ blanks := fun n hn => (digit_facts n hn).2.2
  have hpad : pad ∉ blanks := by decide
  have hbyte : ∀ a : UInt8, a.toNat < 256 := fun a => a.toNat_lt
  fun_induction encode s with
  | case1 a b c rest ih =>
    have ha := hbyte a
    have hb := hbyte b
    have hc := hbyte c
    simp only [List.mem_cons]
    rintro x (rfl | rfl | rfl | rfl | hx)
    · exact hdigit _ (by omega)
    · exact hdigit _ (by omega)
    · exact hdigit _ (by omega)
    · exact hdigit _ (by omega)
    · exact ih x hx
  | case2 a b =>
    have ha := hbyte a
    have hb := hbyte b
    simp only [List.mem_cons, List.not_mem_nil, or_false]
    rintro x (rfl | rfl | rfl | rfl)
    · exact hdigit _ (by omega)
    · exact hdigit _ (by omega)
    · exact hdigit _ (by omega)
    · exact hpad
  | case3 a =>
    have ha := hbyte a
    simp only [List.mem_cons, List.not_mem_nil, or_false]
    rintro x (rfl | rfl | rfl | rfl)
    · exact hdigit _ (by omega)
    · exact hdigit _ (by omega)
    · exact hpad
    · exact hpad
  | case4 => exact fun x hx => absurd hx List.not_mem_nil

theorem ofNat_eq {a : UInt8} {n : Nat} (h : n = a.toNat) : UInt8.ofNat n = a := by
  rw [h, UInt8.ofNat_toNat]

theorem decodeGroups_encode (s : Bytes) : decodeGroups (encode s) = some s := by
  have hvalue : ∀ n, n < 64 → value (digit n) = some n := fun n hn => (digit_facts n hn).1
  have hpad : ∀ n, n < 64 → digit n ≠ pad := fun n hn => (digit_facts n hn).2.1
  have hbyte : ∀ a : UInt8, a.toNat < 256 := fun a => a.toNat_lt
  fun_induction encode s with
  | case1 a b c rest ih =>
    have ha := hbyte a
    have hb := hbyte b
    have hc := hbyte c
    have hlast := hpad (c.toNat % 64) (by omega)
    simp only [decodeGroups, hvalue (a.toNat / 4) (by omega),
      hvalue (a.toNat % 4 * 16 + b.toNat / 16) (by omega),
      hvalue (b.toNat % 16 * 4 + c.toNat / 64) (by omega), hvalue (c.toNat % 64) (by omega), ih, hlast,
        false_and,
      if_false, Option.bind_eq_bind, Option.bind_some, Option.some.injEq, List.cons.injEq, and_true]
    exact ⟨ofNat_eq (by omega), ofNat_eq (by omega), ofNat_eq (by omega)⟩
  | case2 a b =>
    have ha := hbyte a
    have hb := hbyte b
    have hlast := hpad (b.toNat % 16 * 4) (by omega)
    simp only [decodeGroups, hvalue (a.toNat / 4) (by omega),
      hvalue (a.toNat % 4 * 16 + b.toNat / 16) (by omega),
      hvalue (b.toNat % 16 * 4) (by omega), hlast, and_self, if_true, if_false, Option.bind_eq_bind,
      Option.bind_some, Option.some.injEq, List.cons.injEq, and_true]
    exact ⟨ofNat_eq (by omega), ofNat_eq (by omega)⟩
  | case3 a =>
    have ha := hbyte a
    simp only [decodeGroups, hvalue (a.toNat / 4) (by omega), hvalue (a.toNat % 4 * 16) (by omega), and_self,
      if_true, Option.bind_eq_bind, Option.bind_some, Option.some.injEq, List.cons.injEq, and_true]
    exact ofNat_eq (by omega)
  | case4 => rfl

theorem decode_encode (s : Bytes) : decode (encode s) = some s := by
  have hkept : (encode s).filter (fun c => c ≠ 10 ∧ c ≠ 13) = encode s := by
    refine List.filter_eq_self.mpr fun c hc => ?_
    have hblank := encode_blank s c hc
    simp only [blanks, List.mem_cons, List.not_mem_nil, or_false, not_or] at hblank
    exact decide_eq_true ⟨hblank.1, hblank.2.1⟩
  rw [decode, hkept, decodeGroups_encode]

def std : Encoding := ⟨encode, decode, decode_encode, encode_blank⟩

end Standard

end Base64
