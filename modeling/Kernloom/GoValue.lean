import Mathlib

/-! The Go values the code computes with: strings, maps from strings, numbers as text, and
times together with the text the state store orders them by. -/

namespace Kernloom

/-- A Go map from strings. -/
abbrev GoMap (α : Type) := AList fun _ : String => α

/-- A read of a Go map; a missing key reads as the zero value. -/
def GoMap.get {α : Type} [Inhabited α] (m : GoMap α) (key : String) : α :=
  (m.lookup key).getD default

def GoMap.ofList {α : Type} (entries : List (String × α)) : GoMap α :=
  (entries.map fun e => (⟨e.1, e.2⟩ : Sigma fun _ : String => α)).toAList

/-- Inserts entries one after the other. -/
def GoMap.insertAll {α : Type} (m : GoMap α) (entries : List (String × α)) : GoMap α :=
  entries.foldl (fun m e => m.insert e.1 e.2) m

@[simp] theorem GoMap.get_insert {α : Type} [Inhabited α] (m : GoMap α) (key : String) (v : α) :
    GoMap.get (m.insert key v) key = v := by
  simp [GoMap.get]

theorem GoMap.get_insert_ne {α : Type} [Inhabited α] (m : GoMap α) {key key' : String} (v : α)
    (h : key ≠ key') : GoMap.get (m.insert key' v) key = GoMap.get m key := by
  simp [GoMap.get, AList.lookup_insert_ne h]

theorem GoMap.get_erase {α : Type} [Inhabited α] (m : GoMap α) (key key' : String) :
    GoMap.get (m.erase key') key = if key = key' then default else GoMap.get m key := by
  by_cases h : key = key'
  · subst h
    simp [GoMap.get]
  · simp [GoMap.get, h, AList.lookup_erase_ne]

theorem GoMap.lookup_insertAll_of_notMem {α : Type} {m : GoMap α} {entries : List (String × α)}
    {key : String} (h : key ∉ entries.map Prod.fst) :
    (GoMap.insertAll m entries).lookup key = m.lookup key := by
  induction entries generalizing m with
  | nil => rfl
  | cons e entries ih =>
    simp only [List.map_cons, List.mem_cons, not_or] at h
    have hh := ih (m := m.insert e.1 e.2) h.2
    rw [AList.lookup_insert_ne h.1] at hh
    exact hh

theorem GoMap.lookup_insertAll {α : Type} {m : GoMap α} {entries : List (String × α)}
    {e : String × α} (he : e ∈ entries) (hnodup : (entries.map Prod.fst).Nodup) :
    (GoMap.insertAll m entries).lookup e.1 = some e.2 := by
  induction entries generalizing m with
  | nil => simp at he
  | cons e' entries ih =>
    obtain ⟨hnot, hnodup⟩ := List.nodup_cons.mp hnodup
    rcases List.mem_cons.mp he with rfl | he
    · have hh := GoMap.lookup_insertAll_of_notMem (m := m.insert e.1 e.2) hnot
      rw [AList.lookup_insert] at hh
      exact hh
    · exact ih (m := m.insert e'.1 e'.2) he hnodup

theorem GoMap.get_insertAll_of_notMem {α : Type} [Inhabited α] {m : GoMap α}
    {entries : List (String × α)} {key : String} (h : key ∉ entries.map Prod.fst) :
    GoMap.get (GoMap.insertAll m entries) key = GoMap.get m key := by
  simp [GoMap.get, GoMap.lookup_insertAll_of_notMem h]

theorem GoMap.get_insertAll {α : Type} [Inhabited α] {m : GoMap α} {entries : List (String × α)}
    {e : String × α} (he : e ∈ entries) (hnodup : (entries.map Prod.fst).Nodup) :
    GoMap.get (GoMap.insertAll m entries) e.1 = e.2 := by
  simp [GoMap.get, GoMap.lookup_insertAll he hnodup]

section Text

def isSpace (c : Char) : Bool :=
  c ∈ ['\t', '\n', '\x0b', '\x0c', '\r', ' ', '\u0085', '\u00a0', '\u1680', '\u2028', '\u2029',
    '\u202f', '\u205f', '\u3000'] || ('\u2000' ≤ c && c ≤ '\u200a')

/-- `strings.TrimSpace`. -/
@[irreducible] def trimSpace (s : String) : String :=
  String.ofList ((s.toList.dropWhile isSpace).reverse.dropWhile isSpace).reverse

/-- `strings.HasPrefix`. -/
@[irreducible] def hasPrefix (s pre : String) : Bool := pre.toList.isPrefixOf s.toList

theorem hasPrefix_append (pre s : String) : hasPrefix (pre ++ s) pre = true := by
  unfold hasPrefix
  simp

/-- `strings.TrimPrefix`. -/
@[irreducible] def trimPrefix (s pre : String) : String :=
  if hasPrefix s pre then String.ofList (s.toList.drop pre.toList.length) else s

theorem trimPrefix_append (pre k : String) : trimPrefix (pre ++ k) pre = k := by
  unfold trimPrefix
  rw [if_pos (hasPrefix_append pre k)]
  simp

theorem append_trimPrefix {s pre : String} (h : hasPrefix s pre = true) :
    pre ++ trimPrefix s pre = s := by
  unfold trimPrefix
  rw [if_pos h]
  unfold hasPrefix at h
  obtain ⟨rest, hrest⟩ := List.isPrefixOf_iff_prefix.mp h
  rw [← String.toList_inj]
  simp [← hrest]

/-- `strings.CutPrefix`. -/
def cutPrefix (s pre : String) : Option String :=
  if hasPrefix s pre then some (trimPrefix s pre) else none

/-- `strings.Cut` at one character. -/
@[irreducible] def cut (s : String) (sep : Char) : Option (String × String) :=
  match s.toList.span (· ≠ sep) with
  | (_, []) => none
  | (before, _ :: after) => some (String.ofList before, String.ofList after)

/-- A nonempty run of decimal digits. -/
def digitsValue (cs : List Char) : Option Nat :=
  if cs ≠ [] ∧ cs.all Char.isDigit then some (Nat.ofDigitChars 10 cs 0) else none

/-- `strconv.ParseUint(s, 10, 64)`; `none` is the error. -/
@[irreducible] def parseUint64 (s : String) : Option UInt64 :=
  match digitsValue s.toList with
  | some n => if n < 2 ^ 64 then some (UInt64.ofNat n) else none
  | none => none

/-- `strconv.Atoi`; `none` is the error. -/
@[irreducible] def atoi (s : String) : Option Int :=
  let signed : Option Int :=
    match s.toList with
    | '+' :: cs => (digitsValue cs).map Int.ofNat
    | '-' :: cs => (digitsValue cs).map fun n => -Int.ofNat n
    | cs => (digitsValue cs).map Int.ofNat
  match signed with
  | some n => if -2 ^ 63 ≤ n ∧ n < 2 ^ 63 then some n else none
  | none => none

/-- `strconv.Itoa`, and `fmt.Sprint` of an integer. -/
def itoa (n : Int) : String :=
  match n with
  | .ofNat n => Nat.repr n
  | .negSucc n => "-" ++ Nat.repr (n + 1)

theorem itoa_ofNat_inj {m n : Nat} : itoa m = itoa n ↔ m = n := by
  constructor
  · intro h
    have hh : Nat.toDigits 10 m = Nat.toDigits 10 n := String.ofList_inj.mp h
    rw [← Nat.ofDigitChars_ten_toDigits (n := m), hh, Nat.ofDigitChars_ten_toDigits]
  · rintro rfl
    rfl

end Text

section Clock

/-- Nanoseconds since the zero time, the first instant of year 1 in UTC. -/
abbrev Time := Int

/-- Nanoseconds. -/
abbrev Duration := Int

def Duration.second : Duration := 10 ^ 9

/-- The last `width` decimal digits. -/
def digits : (width n : Nat) → List Char
  | 0, _ => []
  | width + 1, n => digits width (n / 10) ++ [Nat.digitChar (n % 10)]

/-- The days before each month of a year that is not a leap year. -/
def daysBefore : List Nat := [0, 31, 59, 90, 120, 151, 181, 212, 243, 273, 304, 334]

/-- Year, month and day of a number of days since the first day of year 1. -/
def civil (days : Nat) : Nat × Nat × Nat :=
  let n400 := days / 146097
  let d := days % 146097
  let n100 := min (d / 36524) 3
  let d := d - n100 * 36524
  let n4 := d / 1461
  let d := d % 1461
  let n1 := min (d / 365) 3
  let yday := d - n1 * 365
  let year := 400 * n400 + 100 * n100 + 4 * n4 + n1 + 1
  let leap := year % 4 = 0 ∧ (year % 100 ≠ 0 ∨ year % 400 = 0)
  let starts := daysBefore.zipIdx.map fun b => if leap ∧ 2 ≤ b.2 then b.1 + 1 else b.1
  let month := (starts.filter (· ≤ yday)).length
  (year, month, yday - starts.getD (month - 1) 0 + 1)

/-- The fraction of a second in RFC 3339 with nanoseconds: trailing zeros are left out. -/
def fraction (nanos : Nat) : List Char :=
  match ((digits 9 nanos).reverse.dropWhile (· = '0')).reverse with
  | [] => []
  | cs => '.' :: cs

/-- Year, month and day of a number of days since the first day of year 1, or before it. -/
def date (days : Int) : Int × Nat × Nat :=
  let (year, month, day) := civil (days % 146097).toNat
  (400 * (days / 146097) + year, month, day)

/-- A year is padded to four digits. -/
def yearDigits (year : Int) : List Char :=
  let padded := digits (max 4 (Nat.toDigits 10 year.natAbs).length) year.natAbs
  if year < 0 then '-' :: padded else padded

/-- A time in RFC 3339 with nanoseconds. -/
@[irreducible] def rfc3339Nano (t : Time) : String :=
  let seconds := t / 10 ^ 9
  let clock := (seconds % 86400).toNat
  let (year, month, day) := date (seconds / 86400)
  String.ofList (yearDigits year ++ '-' :: digits 2 month ++ '-' :: digits 2 day ++ 'T' ::
    digits 2 (clock / 3600) ++ ':' :: digits 2 (clock / 60 % 60) ++ ':' ::
    digits 2 (clock % 60) ++ fraction (t % 10 ^ 9).toNat ++ ['Z'])

/-- The text a time is stored under. The store compares times as texts. -/
@[irreducible] def formatTime (t : Time) : String := if t = 0 then "" else rfc3339Nano t

/-- Trailing zeros are trimmed, so a whole second sorts after its own fractions. -/
example : formatTime 63864979200500000000 = "2024-10-20T00:00:00.5Z" ∧
    formatTime 63864979200000000000 = "2024-10-20T00:00:00Z" ∧
    formatTime 63864979200500000000 < formatTime 63864979200000000000 := by decide +kernel

/-- Years before 0 have a sign and years after 9999 more digits. -/
example : rfc3339Nano (-31588531200000000000) = "-1000-01-01T00:00:00Z" ∧
    rfc3339Nano 315537897600000000000 = "10000-01-01T00:00:00Z" := by decide +kernel

end Clock

end Kernloom
