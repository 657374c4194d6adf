import Kernloom.GoValue

/-! The text functions the policy code computes with. -/

namespace Kernloom

/-- `unicode.ToLower` of the characters whose lower case is an ASCII letter; the code compares
lowered texts with ASCII ones only, so the others stay as they are. -/
def toLowerRune (c : Char) : Char :=
  if c = '\u0130' then 'i' else if c = '\u212a' then 'k' else c.toLower

/-- `strings.ToLower`. -/
@[irreducible] def toLower (s : String) : String := String.ofList (s.toList.map toLowerRune)

/-- `strings.HasSuffix`. -/
@[irreducible] def hasSuffix (s suf : String) : Bool := suf.toList.isSuffixOf s.toList

/-- `strings.ReplaceAll` of one character by another. -/
@[irreducible] def replaceRune (s : String) (old new : Char) : String :=
  String.ofList (s.toList.map fun c => if c = old then new else c)

/-- The pieces of a text between separators, empty ones included. -/
def splitRunes (sep : Char → Bool) : List Char → List (List Char)
  | [] => [[]]
  | c :: cs =>
    if sep c then [] :: splitRunes sep cs
    else match splitRunes sep cs with
      | [] => [[c]]
      | piece :: pieces => (c :: piece) :: pieces

/-- `strings.Split` at one character. -/
@[irreducible] def splitText (s : String) (sep : Char) : List String :=
  (splitRunes (· = sep) s.toList).map String.ofList

section Split

theorem splitRunes_append {sep : Char → Bool} {cs : List Char} (hcs : ∀ c ∈ cs, sep c = false) {c : Char}
    (hc : sep c = true) (rest : List Char) : splitRunes sep (cs ++ c :: rest) = cs ::
    splitRunes sep rest := by
  induction cs with
  | nil => simp [splitRunes, hc]
  | cons d cs ih =>
    simp only [List.cons_append, splitRunes, hcs d List.mem_cons_self]
    rw [ih fun c hc => hcs c (List.mem_cons_of_mem _ hc)]
    rfl

theorem splitRunes_self {sep : Char → Bool} {cs : List Char} (hcs : ∀ c ∈ cs, sep c = false) :
    splitRunes sep cs = [cs] := by
  induction cs with
  | nil => rfl
  | cons d cs ih =>
    simp only [splitRunes, hcs d List.mem_cons_self]
    rw [ih fun c hc => hcs c (List.mem_cons_of_mem _ hc)]
    rfl

theorem mem_splitRunes (sep : Char → Bool) {cs : List Char} {c : Char} (h : c ∈ cs) (hc : sep c = false) :
    ∃ piece ∈ splitRunes sep cs, c ∈ piece := by
  induction cs with
  | nil => cases h
  | cons d cs ih =>
    unfold splitRunes
    by_cases hd : sep d = true
    · have hne : c ≠ d := fun heq => by simp [heq ▸ hd] at hc
      obtain ⟨piece, hpiece, hmem⟩ := ih ((List.mem_cons.mp h).resolve_left hne)
      rw [if_pos hd]
      exact ⟨piece, List.mem_cons_of_mem _ hpiece, hmem⟩
    · rw [if_neg hd]
      rcases List.mem_cons.mp h with rfl | h
      · cases splitRunes sep cs with
        | nil => exact ⟨_, List.mem_cons_self, List.mem_cons_self⟩
        | cons piece pieces => exact ⟨_, List.mem_cons_self, List.mem_cons_self⟩
      · obtain ⟨piece, hpiece, hmem⟩ := ih h
        cases hsplit : splitRunes sep cs with
        | nil => simp [hsplit] at hpiece
        | cons first pieces =>
          rw [hsplit] at hpiece
          rcases List.mem_cons.mp hpiece with rfl | hpiece
          · exact ⟨_, List.mem_cons_self, List.mem_cons_of_mem _ hmem⟩
          · exact ⟨piece, List.mem_cons_of_mem _ hpiece, hmem⟩

theorem splitRunes_ne_nil (sep : Char → Bool) (cs : List Char) : splitRunes sep cs ≠ [] := by
  cases cs with
  | nil => exact List.cons_ne_nil _ _
  | cons c cs =>
    unfold splitRunes
    split
    · exact List.cons_ne_nil _ _
    · split <;> exact List.cons_ne_nil _ _

theorem sep_of_mem_splitRunes {sep : Char → Bool} {cs piece : List Char} {c : Char}
    (h : piece ∈ splitRunes sep cs) (hc : c ∈ piece) : sep c = false := by
  induction cs generalizing piece with
  | nil =>
    rw [splitRunes, List.mem_singleton] at h
    simp [h] at hc
  | cons d cs ih =>
    unfold splitRunes at h
    by_cases hd : sep d = true
    · rw [if_pos hd] at h
      rcases List.mem_cons.mp h with rfl | h
      · simp at hc
      · exact ih h hc
    · rw [if_neg hd] at h
      cases hs : splitRunes sep cs with
      | nil => exact absurd hs (splitRunes_ne_nil sep cs)
      | cons first pieces =>
        simp only [hs] at h ih
        rcases List.mem_cons.mp h with rfl | h
        · rcases List.mem_cons.mp hc with rfl | hc
          · simpa using hd
          · exact ih List.mem_cons_self hc
        · exact ih (List.mem_cons_of_mem _ h) hc

theorem intercalate_splitRunes (d : Char) (cs : List Char) :
    [d].intercalate (splitRunes (· = d) cs) = cs := by
  induction cs with
  | nil => rfl
  | cons c cs ih =>
    unfold splitRunes
    cases hs : splitRunes (· = d) cs with
    | nil => exact absurd hs (splitRunes_ne_nil _ cs)
    | cons first pieces =>
      rw [hs] at ih
      by_cases hc : c = d
      · subst hc
        simpa [List.intercalate] using ih
      · simp only [hc, decide_false, Bool.false_eq_true, if_false]
        cases pieces with
        | nil => simpa [List.intercalate] using ih
        | cons second pieces => simpa [List.intercalate] using ih

theorem splitRunes_intercalate {d : Char} {pieces : List (List Char)} (hne : pieces ≠ [])
    (hpieces : ∀ piece ∈ pieces, d ∉ piece) : splitRunes (· = d) ([d].intercalate pieces) = pieces := by
  have hclear {piece : List Char} (h : d ∉ piece) : ∀ c ∈ piece, decide (c = d) = false := by
    intro c hc
    exact decide_eq_false fun heq => h (heq ▸ hc)
  induction pieces with
  | nil => exact absurd rfl hne
  | cons piece pieces ih =>
    have hpiece := hclear (hpieces piece List.mem_cons_self)
    cases pieces with
    | nil =>
      rw [List.intercalate_singleton]
      exact splitRunes_self hpiece
    | cons second pieces =>
      rw [List.intercalate_cons_cons, List.append_assoc, List.singleton_append,
        splitRunes_append hpiece (by simp)]
      rw [ih (List.cons_ne_nil _ _) fun p hp => hpieces p (List.mem_cons_of_mem _ hp)]

theorem splitText_injective {s s' : String} {sep : Char} (h : splitText s sep = splitText s' sep) :
    s = s' := by
  unfold splitText at h
  have hpieces := List.map_injective_iff.mpr (fun _ _ => String.ofList_inj.mp) h
  rw [← String.toList_inj, ← intercalate_splitRunes sep s.toList, hpieces, intercalate_splitRunes]

theorem notMem_of_mem_splitText {s part : String} {sep : Char} (h : part ∈ splitText s sep) :
    sep ∉ part.toList := by
  unfold splitText at h
  obtain ⟨piece, hpiece, rfl⟩ := List.mem_map.mp h
  intro hsep
  rw [String.toList_ofList] at hsep
  simpa using sep_of_mem_splitRunes hpiece hsep

theorem splitText_ne_nil (s : String) (sep : Char) : splitText s sep ≠ [] := by
  unfold splitText
  exact fun h => splitRunes_ne_nil _ _ (List.map_eq_nil_iff.mp h)

theorem splitText_of_notMem {s : String} {sep : Char} (h : sep ∉ s.toList) :
    splitText s sep = [s] := by
  unfold splitText
  have hsep : ∀ c ∈ s.toList, decide (c = sep) = false := by
    intro c hc
    exact decide_eq_false fun heq => h (heq ▸ hc)
  rw [splitRunes_self hsep, List.map_singleton, String.ofList_toList]

theorem splitText_length_lt_two_iff {s : String} {sep : Char} :
    (splitText s sep).length < 2 ↔ sep ∉ s.toList := by
  constructor
  · intro hlen
    match hs : splitText s sep with
    | [] => exact absurd hs (splitText_ne_nil s sep)
    | [part] =>
      have hpart : sep ∉ part.toList := notMem_of_mem_splitText (hs ▸ List.mem_singleton_self part)
      have heq : s = part := splitText_injective (hs.trans (splitText_of_notMem hpart).symm)
      rwa [heq]
    | _ :: _ :: _ => simp [hs] at hlen
  · intro h
    simp [splitText_of_notMem h]
end Split

section Cut

variable {s before after : String} {sep : Char}

theorem span_append {l rest : List Char} (h : sep ∉ l) :
    (l ++ sep :: rest).span (· ≠ sep) = (l, sep :: rest) := by
  have hl : ∀ c ∈ l, decide (c ≠ sep) = true := by
    intro c hc
    exact decide_eq_true fun heq => h (heq ▸ hc)
  rw [List.span_eq_takeWhile_dropWhile, List.takeWhile_append_of_pos hl, List.dropWhile_append_of_pos hl]
  simp

theorem span_of_notMem {l : List Char} (h : sep ∉ l) : l.span (· ≠ sep) = (l, []) := by
  have hl : ∀ c ∈ l, decide (c ≠ sep) = true := by
    intro c hc
    exact decide_eq_true fun heq => h (heq ▸ hc)
  rw [List.span_eq_takeWhile_dropWhile, List.takeWhile_eq_self_iff.mpr hl, List.dropWhile_eq_nil_iff.mpr hl]

theorem eq_of_append_cons_eq {l l' rest rest' : List Char} (h : sep ∉ l) (h' : sep ∉ l')
    (heq : l ++ sep :: rest = l' ++ sep :: rest') : l = l' ∧ rest = rest' := by
  have hspan := congrArg (List.span (· ≠ sep)) heq
  rw [span_append h, span_append h'] at hspan
  obtain ⟨hl, hrest⟩ := Prod.mk.inj hspan
  exact ⟨hl, (List.cons.inj hrest).2⟩

theorem head_eq_of_append {d : Char} {head head' tail tail' : String} (h : d ∉ head.toList)
    (h' : d ∉ head'.toList)
    (heq : head ++ String.singleton d ++ tail = head' ++ String.singleton d ++ tail') : head = head' := by
  have hlists := congrArg String.toList heq
  simp only [String.toList_append, String.toList_singleton, List.append_assoc, List.singleton_append]
    at hlists
  exact String.toList_inj.mp (eq_of_append_cons_eq h h' hlists).1

theorem cut_of_notMem (h : sep ∉ s.toList) : cut s sep = none := by
  unfold cut
  rw [span_of_notMem h]

theorem cut_append (h : sep ∉ before.toList) (hs : s.toList = before.toList ++ sep :: after.toList) :
    cut s sep = some (before, after) := by
  unfold cut
  rw [hs, span_append h]
  simp

theorem exists_cut (h : sep ∈ s.toList) :
    ∃ before after, cut s sep = some (before, after) ∧ s.toList = before.toList ++ sep :: after.toList := by
  obtain ⟨pre, rest, hs, hpre⟩ := List.eq_append_cons_of_mem h
  have hs' : s.toList = (String.ofList pre).toList ++ sep :: (String.ofList rest).toList := by simpa using hs
  exact ⟨_, _, cut_append (by simpa using hpre) hs', hs'⟩

end Cut

section Digits

theorem digitsValue_toDigits (n : Nat) : digitsValue (Nat.toDigits 10 n) = some n := by
  have hdigits : (Nat.toDigits 10 n).all Char.isDigit = true :=
    List.all_eq_true.mpr fun c hc => Nat.isDigit_of_mem_toDigits (by decide) (by decide) hc
  rw [digitsValue, if_pos ⟨Nat.toDigits_ne_nil, hdigits⟩, Nat.ofDigitChars_ten_toDigits]

theorem toList_repr (n : Nat) : (Nat.repr n).toList = Nat.toDigits 10 n := String.toList_ofList

theorem isDigit_of_mem_repr {n : Nat} {c : Char} (h : c ∈ (Nat.repr n).toList) : c.isDigit = true := by
  rw [toList_repr] at h
  exact Nat.isDigit_of_mem_toDigits (by decide) (by decide) h

theorem isSpace_of_isDigit {c : Char} (h : c.isDigit = true) : isSpace c = false := by
  have hbound : '0'.toNat ≤ c.toNat ∧ c.toNat ≤ '9'.toNat := Char.isDigit_iff_toNat.mp h
  have hdigits : ∀ n < 58, 48 ≤ n → isSpace (Char.ofNat n) = false := by decide
  rw [← Char.ofNat_toNat c]
  exact hdigits c.toNat (Nat.lt_succ_of_le hbound.2) hbound.1

end Digits

/-- `strings.FieldsFunc`. -/
@[irreducible] def fieldsFunc (s : String) (sep : Char → Bool) : List String :=
  ((splitRunes sep s.toList).filter (· ≠ [])).map String.ofList

section Fields

variable {sep : Char → Bool}

theorem splitRunes_append_sep {c : Char} (hc : sep c = true) (cs rest : List Char) :
    splitRunes sep (cs ++ c :: rest) = splitRunes sep cs ++ splitRunes sep rest := by
  induction cs with
  | nil => simp [splitRunes, hc]
  | cons d cs ih =>
    rw [List.cons_append, splitRunes, splitRunes, ih]
    by_cases hd : sep d = true
    · simp only [if_pos hd, List.cons_append]
    · simp only [if_neg hd]
      cases hs : splitRunes sep cs with
      | nil => exact absurd hs (splitRunes_ne_nil sep cs)
      | cons piece pieces => rfl

theorem fieldsFunc_append {s t : String} {c : Char} (hc : sep c = true) :
    fieldsFunc (s ++ String.singleton c ++ t) sep = fieldsFunc s sep ++ fieldsFunc t sep := by
  unfold fieldsFunc
  rw [String.toList_append, String.toList_append, String.toList_singleton, List.append_assoc,
    List.singleton_append, splitRunes_append_sep hc, List.filter_append, List.map_append]

theorem fieldsFunc_empty : fieldsFunc "" sep = [] := by
  unfold fieldsFunc
  rfl

theorem fieldsFunc_token {s : String} (hne : s ≠ "") (hs : ∀ c ∈ s.toList, sep c = false) :
    fieldsFunc s sep = [s] := by
  have hlist : s.toList ≠ [] := fun heq => hne (String.toList_inj.mp heq)
  unfold fieldsFunc
  rw [splitRunes_self hs]
  simp [hlist]

theorem fieldsFunc_dropWhile (cs : List Char) :
    fieldsFunc (String.ofList (cs.dropWhile sep)) sep = fieldsFunc (String.ofList cs) sep := by
  induction cs with
  | nil => rfl
  | cons c cs ih =>
    by_cases hc : sep c = true
    · rw [List.dropWhile_cons_of_pos hc, ih]
      have hcons : String.ofList (c :: cs) = "" ++ String.singleton c ++ String.ofList cs := by
        rw [← String.toList_inj]
        simp
      rw [hcons, fieldsFunc_append hc, fieldsFunc_empty, List.nil_append]
    · rw [List.dropWhile_cons_of_neg hc]

theorem fieldsFunc_dropEnd (cs : List Char) :
    fieldsFunc (String.ofList (cs.reverse.dropWhile sep).reverse) sep =
      fieldsFunc (String.ofList cs) sep := by
  have hreverse (cs : List Char) :
      fieldsFunc (String.ofList (cs.dropWhile sep).reverse) sep =
        fieldsFunc (String.ofList cs.reverse) sep := by
    induction cs with
    | nil => rfl
    | cons c cs ih =>
      by_cases hc : sep c = true
      · rw [List.dropWhile_cons_of_pos hc, ih]
        have hcons : String.ofList (c :: cs).reverse =
            String.ofList cs.reverse ++ String.singleton c ++ "" := by
          rw [← String.toList_inj]
          simp
        rw [hcons, fieldsFunc_append hc, fieldsFunc_empty, List.append_nil]
      · rw [List.dropWhile_cons_of_neg hc]
  have hfields := hreverse cs.reverse
  rwa [List.reverse_reverse] at hfields

theorem fieldsFunc_trimSpace (s : String) : fieldsFunc (trimSpace s) isSpace = fieldsFunc s isSpace := by
  unfold trimSpace
  rw [fieldsFunc_dropEnd, fieldsFunc_dropWhile, String.ofList_toList]

end Fields

/-- `strings.Join`. -/
@[irreducible] def joinText (parts : List String) (sep : String) : String := sep.intercalate parts

theorem joinText_nil (sep : String) : joinText [] sep = "" := by
  unfold joinText
  rfl

theorem joinText_injective {parts parts' : List String} {d : Char} (hne : parts ≠ []) (hne' : parts' ≠ [])
    (hparts : ∀ p ∈ parts, d ∉ p.toList) (hparts' : ∀ p ∈ parts', d ∉ p.toList)
    (h : joinText parts (String.singleton d) = joinText parts' (String.singleton d)) : parts = parts' := by
  have hsplit {parts : List String} (hne : parts ≠ []) (hparts : ∀ p ∈ parts, d ∉ p.toList) :
      splitRunes (· = d) (joinText parts (String.singleton d)).toList = parts.map String.toList := by
    unfold joinText
    rw [String.toList_intercalate, String.toList_singleton]
    refine splitRunes_intercalate (by simpa using hne) fun piece hpiece => ?_
    obtain ⟨p, hp, rfl⟩ := List.mem_map.mp hpiece
    exact hparts p hp
  have hlists := hsplit hne hparts
  rw [h, hsplit hne' hparts'] at hlists
  exact List.map_injective_iff.mpr (fun _ _ => String.toList_inj.mp) hlists.symm

def quoteRune (c : Char) : List Char :=
  if c = '"' ∨ c = '\\' then ['\\', c]
  else if c = '\n' then ['\\', 'n']
  else if c = '\t' then ['\\', 't']
  else if c = '\r' then ['\\', 'r']
  else if c = '\x07' then ['\\', 'a']
  else if c = '\x08' then ['\\', 'b']
  else if c = '\x0b' then ['\\', 'v']
  else if c = '\x0c' then ['\\', 'f']
  else if c.toNat < 32 ∨ c.toNat = 127 then
    ['\\', 'x', Nat.digitChar (c.toNat / 16), Nat.digitChar (c.toNat % 16)]
  else [c]

/-- The verb `%q`. Characters beyond ASCII are taken as printable. -/
@[irreducible] def quote (s : String) : String :=
  String.ofList ('"' :: s.toList.flatMap quoteRune ++ ['"'])

/-- `strconv.ParseUint` of 16 bits. -/
@[irreducible] def parseUint16 (s : String) : Option Nat :=
  match digitsValue s.toList with
  | some n => if n < 2 ^ 16 then some n else none
  | none => none

theorem parseUint16_repr {n : Nat} (h : n < 2 ^ 16) : parseUint16 (Nat.repr n) = some n := by
  unfold parseUint16
  rw [toList_repr, digitsValue_toDigits]
  exact if_pos h

theorem parseUint64_repr (n : UInt64) : parseUint64 (Nat.repr n.toNat) = some n := by
  unfold parseUint64
  rw [toList_repr, digitsValue_toDigits]
  simp only [if_pos n.toNat_lt, UInt64.ofNat_toNat]

/-- The values trimmed, without the empty ones and the repetitions. -/
def compactStrings (values : List String) : List String :=
  values.foldl (fun out v =>
    if trimSpace v = "" ∨ trimSpace v ∈ out then out else out ++ [trimSpace v]) []

/-- `strconv.ParseBool`; `none` is the error. -/
def parseBool (s : String) : Option Bool :=
  if s ∈ ["1", "t", "T", "TRUE", "true", "True"] then some true
  else if s ∈ ["0", "f", "F", "FALSE", "false", "False"] then some false
  else none

section Durations

def durationUnit (s : String) : Option Nat :=
  [("ns", 1), ("us", 10 ^ 3), ("µs", 10 ^ 3), ("μs", 10 ^ 3), ("ms", 10 ^ 6), ("s", 10 ^ 9),
    ("m", 60 * 10 ^ 9), ("h", 3600 * 10 ^ 9)].lookup s

/-- Adds up the terms of a duration; the fraction of a term is cut off below a nanosecond. -/
def durationTerms (text : String) : (fuel : Nat) → List Char → Nat → Except String Nat
  | 0, _, total => .ok total
  | _, [], total => .ok total
  | fuel + 1, cs@(_ :: _), total =>
    let whole := cs.takeWhile Char.isDigit
    let rest := cs.dropWhile Char.isDigit
    let dotted := rest.head? = some '.'
    let fraction := if dotted then (rest.drop 1).takeWhile Char.isDigit else []
    let rest := if dotted then (rest.drop 1).dropWhile Char.isDigit else rest
    let name := String.ofList (rest.takeWhile fun c => ¬ (c = '.' ∨ c.isDigit))
    let rest := rest.dropWhile fun c => ¬ (c = '.' ∨ c.isDigit)
    if whole = [] ∧ fraction = [] then .error ("time: invalid duration " ++ quote text)
    else if name = "" then .error ("time: missing unit in duration " ++ quote text)
    else match durationUnit name with
      | none => .error ("time: unknown unit " ++ quote name ++ " in duration " ++ quote text)
      | some unit =>
        let term := Nat.ofDigitChars 10 whole 0 * unit +
          Nat.ofDigitChars 10 fraction 0 * unit / 10 ^ fraction.length
        if 2 ^ 63 < total + term then .error ("time: invalid duration " ++ quote text)
        else durationTerms text fuel rest (total + term)

/-- `time.ParseDuration`. -/
@[irreducible] def parseDuration (s : String) : Except String Duration :=
  let (negative, cs) := match s.toList with
    | '-' :: cs => (true, cs)
    | '+' :: cs => (false, cs)
    | cs => (false, cs)
  if cs = ['0'] then .ok 0
  else if cs = [] then .error ("time: invalid duration " ++ quote s)
  else match durationTerms s cs.length cs 0 with
    | .error err => .error err
    | .ok total =>
      if negative then .ok (-total)
      else if 2 ^ 63 ≤ total then .error ("time: invalid duration " ++ quote s)
      else .ok total

/-- A number of nanoseconds in a unit of `10 ^ places` of them, without trailing zeros. -/
def decimalText (n places : Nat) (unit : String) : String :=
  let fraction := ((digits places n).reverse.dropWhile (· = '0')).reverse
  Nat.repr (n / 10 ^ places) ++ (if fraction = [] then "" else "." ++ String.ofList fraction) ++ unit

/-- The verb `%s` of a duration. -/
def durationText (d : Duration) : String :=
  let n := d.natAbs
  let minutes := n / (60 * 10 ^ 9)
  let text :=
    if n = 0 then "0s"
    else if n < 10 ^ 3 then Nat.repr n ++ "ns"
    else if n < 10 ^ 6 then decimalText n 3 "µs"
    else if n < 10 ^ 9 then decimalText n 6 "ms"
    else
      (if minutes < 60 then "" else Nat.repr (minutes / 60) ++ "h") ++
        (if minutes = 0 then "" else Nat.repr (minutes % 60) ++ "m") ++
        decimalText (n % (60 * 10 ^ 9)) 9 "s"
  if d < 0 then "-" ++ text else text

example : parseDuration "1h0.5s" = .ok 3600500000000 ∧ (parseDuration "5").isOk = false ∧
    durationText 3600500000000 = "1h0m0.5s" := by decide +kernel

end Durations

end Kernloom
