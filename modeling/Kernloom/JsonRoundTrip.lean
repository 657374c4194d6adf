import Kernloom.JsonText

/-! What is read back from a written value. -/

namespace JsonText

section Strings

theorem hexValue_hexDigit (n : Nat) : hexValue (hexDigit n) = some (n % 16) := by
  have hall : ∀ m < 16, hexValue (Nat.digitChar m) = some m := by decide
  exact hall _ (Nat.mod_lt n (by decide))

theorem readUnit_toNat {c : Char} {rest : List Char} (h : c.toNat < 0xd800 ∨ 0xe000 ≤ c.toNat) :
    readUnit c.toNat rest = (c, rest) := by
  unfold readUnit
  rw [if_pos h, Char.ofNat_toNat]

theorem readHex4_low {n : Nat} (rest : List Char) (h : n < 256) :
    readHex4 ('0' :: '0' :: hexDigit (n / 16) :: hexDigit n :: rest) = some (n, rest) := by
  have hzero : hexValue '0' = some 0 := by decide
  simp only [readHex4, hzero, hexValue_hexDigit, Option.some.injEq, Prod.mk.injEq, and_true]
  omega

theorem readRune_escape (r : Rune) (rest : List Char) : readRune (escape r ++ rest) = some (r.read, rest) := by
  cases r with
  | invalid b => rfl
  | char c =>
    unfold escape Rune.read
    simp only
    split_ifs with hmeta hb hf hn hr ht hlow hline
    · rcases hmeta with rfl | rfl <;> rfl
    · rw [hb]; rfl
    · rw [hf]; rfl
    · rw [hn]; rfl
    · rw [hr]; rfl
    · rw [ht]; rfl
    · have hlt : c.toNat < 256 := by
        rcases hlow with hlow | rfl | rfl | rfl
        · omega
        all_goals decide
      simp only [List.cons_append, List.nil_append, readRune, readHex4_low rest hlt, Option.map_some]
      rw [readUnit_toNat (.inl (by omega))]
    · rcases hline with rfl | rfl <;> rfl
    · rw [not_or] at hmeta hlow
      simp [readRune, hmeta.1, hmeta.2, hlow.1]

theorem escape_cons (r : Rune) : ∃ c cs, escape r = c :: cs ∧ c ≠ '"' := by
  cases r with
  | invalid b => exact ⟨_, _, rfl, by decide⟩
  | char c =>
    unfold escape
    simp only
    split_ifs with hmeta
    all_goals first
      | exact ⟨_, _, rfl, by decide⟩
      | exact ⟨_, _, rfl, fun h => hmeta (.inl h)⟩

theorem readString_step {fuel : Nat} {r : Rune} {rest : List Char} :
    readString (fuel + 1) (escape r ++ rest) = (readString fuel rest).map fun s => (.char r.read :: s.1, s.2) := by
  obtain ⟨c, cs, hescape, hquote⟩ := escape_cons r
  have hrune := readRune_escape r rest
  rw [hescape, List.cons_append] at hrune ⊢
  rw [readString.eq_3 _ _ fun rest' h => hquote (List.cons.inj h).1]
  simp only [hrune, Option.bind_eq_bind, Option.bind_some]
  cases readString fuel rest <;> rfl

theorem readString_write {fuel : Nat} (s : Text) (rest : List Char) (h : s.length < fuel) :
    readString fuel (s.flatMap escape ++ '"' :: rest) = some (readText s, rest) := by
  induction s generalizing fuel with
  | nil =>
    obtain ⟨fuel, rfl⟩ := Nat.exists_eq_succ_of_ne_zero (Nat.ne_of_gt h)
    rfl
  | cons r s ih =>
    obtain ⟨fuel, rfl⟩ := Nat.exists_eq_succ_of_ne_zero (Nat.ne_of_gt (Nat.zero_lt_of_lt h))
    have hrest := ih (Nat.lt_of_succ_lt_succ h)
    rw [List.flatMap_cons, List.append_assoc, readString_step, hrest]
    rfl

theorem length_le_escaped (s : Text) : s.length ≤ (s.flatMap escape).length := by
  induction s with
  | nil => exact Nat.le_refl 0
  | cons r s ih =>
    obtain ⟨c, cs, hescape, -⟩ := escape_cons r
    rw [List.flatMap_cons, List.length_append, hescape, List.length_cons, List.length_cons]
    omega

theorem readString_written (s : Text) (rest : List Char) :
    readString ((s.flatMap escape ++ '"' :: rest).length + 1) (s.flatMap escape ++ '"' :: rest) =
      some (readText s, rest) := by
  refine readString_write s rest ?_
  have hlength := length_le_escaped s
  rw [List.length_append]
  omega

end Strings

section Numbers

theorem isDigits_numberChar {cs : List Char} (h : isDigits cs = true) : ∀ c ∈ cs, isNumberChar c = true := by
  unfold isDigits at h
  simp only [decide_eq_true_eq] at h
  intro c hc
  have hdigit := List.all_eq_true.mp h.2 c hc
  simp [isNumberChar, hdigit]

theorem dropWhile_numberChar {p : Char → Bool} {cs : List Char} (hmark : ∀ c, p c = false → isNumberChar c = true)
    (hrest : ∀ c ∈ (cs.dropWhile p).drop 1, isNumberChar c = true) : ∀ c ∈ cs.dropWhile p, isNumberChar c = true := by
  intro c hc
  cases hcs : cs.dropWhile p with
  | nil =>
    rw [hcs] at hc
    cases hc
  | cons d ds =>
    rw [hcs] at hc hrest
    rcases List.mem_cons.mp hc with rfl | hc
    · have hne : cs.dropWhile p ≠ [] := by simp [hcs]
      have hhead := List.head_dropWhile_not p hne
      simp only [hcs, List.head_cons] at hhead
      exact hmark c (by simpa using hhead)
    · exact hrest c hc

theorem isExponent_numberChar {cs : List Char} (h : isExponent cs = true) : ∀ c ∈ cs, isNumberChar c = true := by
  unfold isExponent at h
  intro c hc
  split at h
  · rcases List.mem_cons.mp hc with rfl | hc
    · decide
    · exact isDigits_numberChar h c hc
  · rcases List.mem_cons.mp hc with rfl | hc
    · decide
    · exact isDigits_numberChar h c hc
  · exact isDigits_numberChar h c hc

theorem unsigned_numberChar {cs : List Char} (h : unsignedNumber cs = true) : ∀ c ∈ cs, isNumberChar c = true := by
  unfold unsignedNumber isWhole at h
  simp only [decide_eq_true_eq] at h
  obtain ⟨⟨hwhole, -⟩, hfraction, hexponent⟩ := h
  have hempty : ∀ {p : Char → Bool} {l : List Char}, l.dropWhile p = [] →
      ∀ c ∈ (l.dropWhile p).drop 1, isNumberChar c = true := by
    intro p l hnil c hc
    rw [hnil] at hc
    cases hc
  have hdot : ∀ c : Char, decide (c ≠ '.') = false → isNumberChar c = true := by
    intro c hc
    obtain rfl : c = '.' := by simpa using hc
    decide
  have hmark : ∀ c : Char, decide (c ≠ 'e' ∧ c ≠ 'E') = false → isNumberChar c = true := by
    intro c hc
    have he : c = 'e' ∨ c = 'E' := by
      by_contra hne
      rw [not_or] at hne
      exact absurd (decide_eq_true hne) (by simp [hc])
    rcases he with rfl | rfl <;> decide
  intro c hc
  rw [← List.takeWhile_append_dropWhile (p := fun c => decide (c ≠ 'e' ∧ c ≠ 'E')) (l := cs)] at hc
  rcases List.mem_append.mp hc with hc | hc
  · rw [← List.takeWhile_append_dropWhile (p := fun c : Char => decide (c ≠ '.'))
      (l := cs.takeWhile fun c => decide (c ≠ 'e' ∧ c ≠ 'E'))] at hc
    rcases List.mem_append.mp hc with hc | hc
    · exact isDigits_numberChar hwhole c hc
    · refine dropWhile_numberChar hdot ?_ c hc
      rcases hfraction with hnil | hdigits
      · exact hempty hnil
      · exact isDigits_numberChar hdigits
  · refine dropWhile_numberChar hmark ?_ c hc
    rcases hexponent with hnil | hexp
    · exact hempty hnil
    · exact isExponent_numberChar hexp

theorem NumberText.numberChar (n : NumberText) : ∀ c ∈ n.1, isNumberChar c = true := by
  obtain ⟨cs, h⟩ := n
  unfold isNumber at h
  intro c hc
  split at h
  · rcases List.mem_cons.mp hc with rfl | hc
    · decide
    · exact unsigned_numberChar h c hc
  · exact unsigned_numberChar h c hc

end Numbers

section Values

/-- No number goes on here. -/
def Stops (rest : List Char) : Prop := ∀ c cs, rest = c :: cs → isNumberChar c = false

theorem stops_nil : Stops [] := fun _ _ h => nomatch h

theorem stops_cons {c : Char} {rest : List Char} (h : isNumberChar c = false) : Stops (c :: rest) := by
  intro c' cs hcons
  rw [← (List.cons.inj hcons).1]
  exact h

theorem Stops.takeWhile {rest : List Char} (h : Stops rest) : rest.takeWhile isNumberChar = [] := by
  cases rest with
  | nil => rfl
  | cons c cs => rw [List.takeWhile_cons_of_neg (by simp [h c cs rfl])]

theorem Stops.dropWhile {rest : List Char} (h : Stops rest) : rest.dropWhile isNumberChar = rest := by
  cases rest with
  | nil => rfl
  | cons c cs => rw [List.dropWhile_cons_of_neg (by simp [h c cs rfl])]

theorem readNumber_write (n : NumberText) {rest : List Char} (h : Stops rest) :
    readNumber (n.1 ++ rest) = some (.num n, rest) := by
  have htake : (n.1 ++ rest).takeWhile isNumberChar = n.1 := by
    rw [List.takeWhile_append_of_pos n.numberChar, h.takeWhile, List.append_nil]
  have hdrop : (n.1 ++ rest).dropWhile isNumberChar = rest := by
    rw [List.dropWhile_append_of_pos n.numberChar, h.dropWhile]
  unfold readNumber
  simp only [htake, hdrop, n.2, dite_true]

theorem skipBlanks_newline (depth : Nat) (cs : List Char) : skipBlanks (newline depth ++ cs) = skipBlanks cs := by
  unfold skipBlanks
  refine List.dropWhile_append_of_pos fun c hc => ?_
  rcases List.mem_cons.mp hc with rfl | hc
  · decide
  · rw [List.eq_of_mem_replicate hc]
    decide

theorem skipBlanks_cons {c : Char} {cs : List Char} (h : isBlank c = false) : skipBlanks (c :: cs) = c :: cs := by
  unfold skipBlanks
  rw [List.dropWhile_cons_of_neg (by simp [h])]

theorem expect_newline (depth : Nat) (c : Char) (cs : List Char) :
    expect c (newline depth ++ cs) = expect c cs := by
  unfold expect
  rw [skipBlanks_newline]

theorem expect_cons {c : Char} {cs : List Char} (h : isBlank c = false) : expect c (c :: cs) = some cs := by
  unfold expect
  rw [skipBlanks_cons h]
  exact if_pos rfl

theorem expect_ne {c d : Char} {cs : List Char} (h : isBlank d = false) (hne : d ≠ c) : expect c (d :: cs) = none := by
  unfold expect
  rw [skipBlanks_cons h]
  exact if_neg hne

theorem isNumber_ne_nil (n : NumberText) : n.1 ≠ [] := by
  intro hnil
  have h := n.2
  rw [hnil] at h
  exact absurd h (by decide)

/-- A value starts with no blank and no bracket that ends an array. -/
theorem write_cons (v : Value) (depth : Nat) :
    ∃ c cs, v.write depth = c :: cs ∧ isBlank c = false ∧ c ≠ ']' := by
  cases v with
  | null => exact ⟨_, _, rfl, by decide, by decide⟩
  | bool b => cases b <;> exact ⟨_, _, rfl, by decide, by decide⟩
  | num n =>
    obtain ⟨c, cs, hcons⟩ := List.exists_cons_of_ne_nil (isNumber_ne_nil n)
    have hc := n.numberChar c (by rw [hcons]; exact List.mem_cons_self)
    refine ⟨c, cs, hcons, ?_, ?_⟩
    · by_contra hblank
      have hcases : c = ' ' ∨ c = '\n' ∨ c = '\t' ∨ c = '\r' := by
        unfold isBlank at hblank
        simpa only [Bool.not_eq_false, decide_eq_true_eq] using hblank
      rcases hcases with rfl | rfl | rfl | rfl <;> exact absurd hc (by decide)
    · rintro rfl
      exact absurd hc (by decide)
  | str s => exact ⟨_, _, rfl, by decide, by decide⟩
  | arr items => cases items <;> exact ⟨_, _, rfl, by decide, by decide⟩
  | obj fields => cases fields <;> exact ⟨_, _, rfl, by decide, by decide⟩

theorem readValue_newline (fuel depth : Nat) (cs : List Char) :
    readValue fuel (newline depth ++ cs) = readValue fuel cs := by
  cases fuel with
  | zero => rfl
  | succ fuel => rw [readValue, readValue, skipBlanks_newline]

theorem readField_newline (fuel depth : Nat) (cs : List Char) :
    readField fuel (newline depth ++ cs) = readField fuel cs := by
  cases fuel with
  | zero => rfl
  | succ fuel => rw [readField, readField, expect_newline]

theorem readValue_number {fuel : Nat} (n : NumberText) {rest : List Char} (h : Stops rest) :
    readValue (fuel + 1) (n.1 ++ rest) = some (.num n, rest) := by
  obtain ⟨c, cs, hcons, hblank, -⟩ := write_cons (.num n) 0
  have hread := readNumber_write n h
  have hc := n.numberChar c (by rw [show n.1 = c :: cs from hcons]; exact List.mem_cons_self)
  rw [show n.1 = c :: cs from hcons, List.cons_append] at hread ⊢
  rw [readValue, skipBlanks_cons hblank]
  have hne : ∀ d, isNumberChar d = false → c ≠ d := by
    rintro d hd rfl
    exact absurd (hc.symm.trans hd) (by decide)
  split
  · next heq => exact absurd (List.cons.inj heq).1 (hne _ (by decide))
  · next heq => exact absurd (List.cons.inj heq).1 (hne _ (by decide))
  · next heq => exact absurd (List.cons.inj heq).1 (hne _ (by decide))
  · next heq => exact absurd (List.cons.inj heq).1 (hne _ (by decide))
  · next heq => exact absurd (List.cons.inj heq).1 (hne _ (by decide))
  · next heq => exact absurd (List.cons.inj heq).1 (hne _ (by decide))
  · exact hread

theorem readValue_string {fuel : Nat} (s : Text) (rest : List Char) :
    readValue (fuel + 1) (writeString s ++ rest) = some (.str (readText s), rest) := by
  have hread := readString_written s rest
  rw [writeString, List.cons_append, List.append_assoc, readValue, skipBlanks_cons (by decide)]
  simp only [List.cons_append, List.nil_append, hread, Option.bind_eq_bind, Option.bind_some]
  rfl

theorem stops_newline (depth : Nat) (rest : List Char) : Stops (newline depth ++ rest) := stops_cons (by decide)

theorem stops_items (items : Items) (depth : Nat) {rest : List Char} (h : Stops rest) :
    Stops (items.write depth ++ rest) := by
  cases items with
  | nil => exact h
  | cons v items => exact stops_cons (by decide)

theorem stops_fields (fields : Fields) (depth : Nat) {rest : List Char} (h : Stops rest) :
    Stops (fields.write depth ++ rest) := by
  cases fields with
  | nil => exact h
  | cons key v fields => exact stops_cons (by decide)

theorem readField_write {fuel depth : Nat} {key : Text} {v : Value} {rest : List Char}
    (hv : readValue fuel (v.write depth ++ rest) = some (v.read, rest)) :
    readField (fuel + 1) (writeString key ++ (':' :: ' ' :: (v.write depth ++ rest))) =
      some (readText key, v.read, rest) := by
  have hkey := readString_written key (':' :: ' ' :: (v.write depth ++ rest))
  have hblank : readValue fuel (' ' :: (v.write depth ++ rest)) = some (v.read, rest) := by
    have hskip : skipBlanks (' ' :: (v.write depth ++ rest)) = skipBlanks (v.write depth ++ rest) := rfl
    cases fuel with
    | zero => exact hv
    | succ fuel => rwa [readValue, hskip, ← readValue]
  rw [writeString, List.cons_append, List.append_assoc, readField, expect_cons (by decide)]
  simp only [List.cons_append, List.nil_append, hkey, Option.bind_eq_bind, Option.bind_some,
    expect_cons (show isBlank ':' = false by decide), hblank]
  rfl

mutual
/-- A written value is read back, with its stray bytes replaced. -/
theorem readValue_write (v : Value) (depth fuel : Nat) (rest : List Char) (hfuel : (v.write depth).length < fuel)
    (hrest : Stops rest) : readValue fuel (v.write depth ++ rest) = some (v.read, rest) := by
  obtain ⟨fuel, rfl⟩ := Nat.exists_eq_succ_of_ne_zero (Nat.ne_of_gt (Nat.zero_lt_of_lt hfuel))
  match v with
  | .null => rfl
  | .bool true => rfl
  | .bool false => rfl
  | .num n => exact readValue_number n hrest
  | .str s => exact readValue_string s rest
  | .arr .nil => rfl
  | .obj .nil => rfl
  | .arr (.cons v items) =>
    simp only [Value.write, List.length_cons, List.length_append] at hfuel
    obtain ⟨c, cs, hcons, hblank, hne⟩ := write_cons v (depth + 1)
    have hopen : expect ']' (newline (depth + 1) ++ (v.write (depth + 1) ++ (items.write (depth + 1) ++
        (newline depth ++ (']' :: rest))))) = none := by
      rw [expect_newline, hcons, List.cons_append, expect_ne hblank hne]
    have hfirst := readValue_write v (depth + 1) fuel (items.write (depth + 1) ++ (newline depth ++ (']' :: rest)))
      (by omega) (stops_items items _ (stops_newline _ _))
    have hitems := readItems_write items (depth + 1) depth fuel rest (by omega)
    simp only [Value.write, List.cons_append, List.append_assoc, List.nil_append]
    rw [readValue, skipBlanks_cons (by decide)]
    simp only [hopen, readValue_newline, hfirst, hitems, Option.bind_eq_bind, Option.bind_some]
    rfl
  | .obj (.cons key v fields) =>
    simp only [Value.write, List.length_cons, List.length_append] at hfuel
    have hopen : expect '}' (newline (depth + 1) ++ (writeString key ++ (':' :: ' ' :: (v.write (depth + 1) ++
        (fields.write (depth + 1) ++ (newline depth ++ ('}' :: rest))))))) = none := by
      rw [expect_newline, writeString, List.cons_append, expect_ne (by decide) (by decide)]
    obtain ⟨fuel, rfl⟩ := Nat.exists_eq_succ_of_ne_zero (show fuel ≠ 0 by omega)
    have hv := readValue_write v (depth + 1) fuel (fields.write (depth + 1) ++ (newline depth ++ ('}' :: rest)))
      (by omega) (stops_fields fields _ (stops_newline _ _))
    have hfields := readFields_write fields (depth + 1) depth (fuel + 1) rest (by omega)
    simp only [Value.write, List.cons_append, List.append_assoc, List.nil_append]
    rw [readValue, skipBlanks_cons (by decide)]
    simp only [hopen, readField_newline, readField_write hv, hfields, Option.bind_eq_bind, Option.bind_some]
    rfl
theorem readItems_write (items : Items) (depth depth' fuel : Nat) (rest : List Char)
    (hfuel : (items.write depth).length < fuel) :
    readItems fuel (items.write depth ++ (newline depth' ++ (']' :: rest))) = some (items.read, rest) := by
  obtain ⟨fuel, rfl⟩ := Nat.exists_eq_succ_of_ne_zero (Nat.ne_of_gt (Nat.zero_lt_of_lt hfuel))
  match items with
  | .nil => rw [Items.write, List.nil_append, readItems, expect_newline, expect_cons (by decide)]; rfl
  | .cons v items =>
    simp only [Items.write, List.length_cons, List.length_append] at hfuel
    have hfirst := readValue_write v depth fuel (items.write depth ++ (newline depth' ++ (']' :: rest)))
      (by omega) (stops_items items _ (stops_newline _ _))
    have hitems := readItems_write items depth depth' fuel rest (by omega)
    simp only [Items.write, List.cons_append, List.append_assoc]
    rw [readItems, expect_ne (by decide) (by decide)]
    simp only [expect_cons (show isBlank ',' = false by decide), readValue_newline, hfirst, hitems,
      Option.bind_eq_bind, Option.bind_some]
    rfl
theorem readFields_write (fields : Fields) (depth depth' fuel : Nat) (rest : List Char)
    (hfuel : (fields.write depth).length < fuel) :
    readFields fuel (fields.write depth ++ (newline depth' ++ ('}' :: rest))) = some (fields.read, rest) := by
  obtain ⟨fuel, rfl⟩ := Nat.exists_eq_succ_of_ne_zero (Nat.ne_of_gt (Nat.zero_lt_of_lt hfuel))
  match fields with
  | .nil => rw [Fields.write, List.nil_append, readFields, expect_newline, expect_cons (by decide)]; rfl
  | .cons key v fields =>
    simp only [Fields.write, List.length_cons, List.length_append] at hfuel
    obtain ⟨fuel, rfl⟩ := Nat.exists_eq_succ_of_ne_zero (show fuel ≠ 0 by omega)
    have hv := readValue_write v depth fuel (fields.write depth ++ (newline depth' ++ ('}' :: rest)))
      (by omega) (stops_fields fields _ (stops_newline _ _))
    have hfields := readFields_write fields depth depth' (fuel + 1) rest (by omega)
    simp only [Fields.write, List.cons_append, List.append_assoc]
    rw [readFields, expect_ne (by decide) (by decide)]
    simp only [expect_cons (show isBlank ',' = false by decide), readField_newline, readField_write hv, hfields,
      Option.bind_eq_bind, Option.bind_some]
    rfl
end

theorem parse_write (v : Value) : parse (v.write 0) = some v.read := by
  have hread := readValue_write v 0 ((v.write 0).length + 1) [] (Nat.lt_succ_self _) stops_nil
  rw [List.append_nil] at hread
  unfold parse
  rw [hread]
  exact if_pos rfl

end Values

end JsonText
