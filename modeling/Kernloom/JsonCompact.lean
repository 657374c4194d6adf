import Kernloom.JsonMap

/-! Objects of strings written without blanks, and read back. -/

namespace JsonText

/-- The entries after the first. -/
def compactEntries : List (Text × Text) → List Char
  | [] => []
  | (key, s) :: rest => ',' :: (writeString key ++ (':' :: (writeString s ++ compactEntries rest)))

/-- An object of strings. -/
def compactStrings : List (Text × Text) → List Char
  | [] => ['{', '}']
  | (key, s) :: rest => '{' :: (writeString key ++ (':' :: (writeString s ++ (compactEntries rest ++ ['}']))))

/-- The fields of an object of strings. -/
def stringFields (es : List (Text × Text)) : Fields :=
    .ofList (es.map fun e => (readText e.1, .str (readText e.2)))

theorem readField_compact (fuel : Nat) (key s : Text) (rest : List Char) :
    readField (fuel + 2) (writeString key ++ (':' :: (writeString s ++ rest))) =
      some (readText key, .str (readText s), rest) := by
  have hkey := readString_written key (':' :: (writeString s ++ rest))
  have hvalue : readValue (fuel + 1) (writeString s ++ rest) = some (.str (readText s), rest) :=
      readValue_string s rest
  rw [writeString, List.cons_append, List.append_assoc, readField, expect_cons (by decide)]
  simp only [List.cons_append, List.nil_append, hkey, Option.bind_eq_bind, Option.bind_some,
    expect_cons (show isBlank ':' = false by decide), hvalue]
  rfl

theorem readFields_compact (es : List (Text × Text)) (fuel : Nat) (rest : List Char)
    (h : es.length + 2 ≤ fuel) :
    readFields fuel (compactEntries es ++ '}' :: rest) = some (stringFields es, rest) := by
  induction es generalizing fuel with
  | nil =>
    obtain ⟨fuel, rfl⟩ := Nat.exists_eq_succ_of_ne_zero (show fuel ≠ 0 by omega)
    rw [compactEntries, List.nil_append, readFields, expect_cons (by decide)]
    rfl
  | cons e es ih =>
    obtain ⟨key, s⟩ := e
    rw [List.length_cons] at h
    obtain ⟨fuel, rfl⟩ := Nat.exists_eq_add_of_le' (show 3 ≤ fuel by omega)
    have hfirst := readField_compact fuel key s (compactEntries es ++ '}' :: rest)
    have hrest := ih (fuel + 2) (by omega)
    simp only [compactEntries, List.cons_append, List.append_assoc]
    rw [readFields, expect_ne (by decide) (by decide)]
    simp only [expect_cons (show isBlank ',' = false by decide), hfirst, hrest, Option.bind_eq_bind,
      Option.bind_some]
    rfl

theorem length_le_compactEntries (es : List (Text × Text)) : es.length ≤ (compactEntries es).length := by
  induction es with
  | nil => exact Nat.le_refl 0
  | cons e es ih =>
    simp only [compactEntries, List.length_cons, List.length_append]
    omega

/-- A written object of strings is read back, with its stray bytes replaced. -/
theorem parse_compactStrings (es : List (Text × Text)) :
    parse (compactStrings es) = some (.obj (stringFields es)) := by
  cases es with
  | nil => rfl
  | cons e es =>
    obtain ⟨key, s⟩ := e
    obtain ⟨fuel, hfuel⟩ : ∃ fuel, fuel = (compactStrings ((key, s) :: es)).length := ⟨_, rfl⟩
    have hlong : es.length + 5 ≤ fuel := by
      have hentries := length_le_compactEntries es
      rw [hfuel]
      simp only [compactStrings, writeString, List.length_cons, List.length_append, List.length_nil]
      omega
    obtain ⟨fuel, rfl⟩ := Nat.exists_eq_add_of_le' (show 2 ≤ fuel by omega)
    have hopen : expect '}' (writeString key ++ (':' :: (writeString s ++ (compactEntries es ++ ['}'])))) =
        none := by
      rw [writeString, List.cons_append, expect_ne (by decide) (by decide)]
    have hfirst := readField_compact fuel key s (compactEntries es ++ ['}'])
    have hrest := readFields_compact es (fuel + 2) [] (by omega)
    unfold parse
    rw [← hfuel, compactStrings, readValue, skipBlanks_cons (by decide)]
    simp only [hopen, hfirst, hrest, Option.bind_eq_bind, Option.bind_some]
    rfl

end JsonText
