import Kernloom.JsonCodec
import Kernloom.KeyedTable

/-! Maps as objects: the entries are written in the order of their keys' bytes. -/

namespace JsonText

section Order

def Rune.bytes : Rune → List Nat
  | .char c => (String.utf8EncodeChar c).map UInt8.toNat
  | .invalid b => [b.toNat]

def textBytes (s : Text) : List Nat := s.flatMap Rune.bytes

variable {α : Type}

def entryKey (e : Text × α) : Text := e.1

abbrev TextMap (α : Type) := Keyed.Table (entryKey (α := α))

def entryBefore (e e' : Text × α) : Prop := textBytes e.1 ≤ textBytes e'.1

instance : DecidableRel (entryBefore (α := α)) := fun e e' =>
  inferInstanceAs (Decidable (textBytes e.1 ≤ textBytes e'.1))

instance : Std.Total (entryBefore (α := α)) := ⟨fun e e' => le_total (textBytes e.1) (textBytes e'.1)⟩

instance : IsTrans (Text × α) entryBefore :=
  ⟨fun e e' e'' => le_trans (a := textBytes e.1) (b := textBytes e'.1) (c := textBytes e''.1)⟩

/-- The entries in the order they are written in. -/
def TextMap.sorted (m : TextMap α) : List (Text × α) := m.rows.insertionSort entryBefore

/-- Later entries replace earlier ones of the same key. -/
def TextMap.ofEntries (es : List (Text × α)) : TextMap α where
  rows := es.pwFilter fun e e' => e.1 ≠ e'.1
  nodup := List.pairwise_map.mpr (List.pairwise_pwFilter es)

theorem TextMap.ofEntries_rows {es : List (Text × α)} (h : (es.map Prod.fst).Nodup) :
    (TextMap.ofEntries es).rows = es := List.pwFilter_eq_self.mpr (List.pairwise_map.mp h)

theorem TextMap.ofEntries_sublist (es : List (Text × α)) : (TextMap.ofEntries es).rows.Sublist es :=
  List.pwFilter_sublist es

theorem TextMap.ofEntries_eq_nil {es : List (Text × α)} : (TextMap.ofEntries es).rows = [] ↔ es = [] := by
  constructor
  · intro h
    cases es with
    | nil => rfl
    | cons e es =>
      simp only [TextMap.ofEntries, List.pwFilter, List.foldr_cons] at h
      split_ifs at h with hne
      simp [h] at hne
  · rintro rfl
    rfl

theorem TextMap.sorted_nodup (m : TextMap α) : (m.sorted.map Prod.fst).Nodup :=
  ((List.perm_insertionSort entryBefore m.rows).map _).nodup_iff.mpr m.nodup

theorem TextMap.mem_sorted {m : TextMap α} {e : Text × α} : e ∈ m.sorted ↔ e ∈ m.rows := List.mem_insertionSort _

theorem TextMap.sorted_eq_nil {m : TextMap α} : m.sorted = [] ↔ m.rows = [] := by
  rw [← List.length_eq_zero_iff, ← List.length_eq_zero_iff, TextMap.sorted, List.length_insertionSort]

end Order

section Entries

variable {α : Type} (c : Codec α)

def encodeEntry (e : Text × α) : Option (Text × Value) := (c.encode e.2).map fun v => (e.1, v)

def decodeEntry (f : Text × Value) : Option (Text × α) := (c.decode f.2).map fun a => (f.1, a)

def readEntry (e : Text × α) : Text × α := (readText e.1, c.read e.2)

def CleanEntry (e : Text × α) : Prop := readText e.1 = e.1 ∧ c.Clean e.2

theorem decode_entries {es : List (Text × α)} {fs : List (Text × Value)}
    (h : es.mapM (encodeEntry c) = some fs) :
    (fs.map fun f => (readText f.1, f.2.read)).mapM (decodeEntry c) =
      some (es.map (readEntry c)) := by
  refine mapM_read (fun {e f} hf => ?_) h
  obtain ⟨v, hv, rfl⟩ := Option.map_eq_some_iff.mp hf
  rw [decodeEntry, c.decode_encode hv]
  rfl

/-- What is written of the entries that come back: the same, or less. -/
theorem rewrite_entries {es : List (Text × α)} {fs : List (Text × Value)}
    (h : es.mapM (encodeEntry c) = some fs) :
    ∃ fs', (es.map (readEntry c)).mapM (encodeEntry c) = some fs' ∧
      ((∀ e ∈ es, CleanEntry c e) → fs' = fs) ∧
      ∀ depth, fieldsSize depth fs' ≤ fieldsSize depth fs ∧
        (¬ (∀ e ∈ es, CleanEntry c e) → fieldsSize depth fs' < fieldsSize depth fs) := by
  refine mapM_rewrite (fun {e f} hf => ?_) h
  obtain ⟨v, hv, rfl⟩ := Option.map_eq_some_iff.mp hf
  obtain ⟨v', hv', hrewritten⟩ := c.encode_read hv
  have hhead : encodeEntry c (readEntry c e) = some (readText e.1, v') := by
    rw [encodeEntry, readEntry, hv']
    rfl
  refine ⟨_, hhead, fun he => by rw [hrewritten.same he.2, he.1], fun depth => ?_⟩
  have hkey := length_writeString_read e.1
  have hvalue := hrewritten.length_le depth
  simp only [fieldSize]
  refine ⟨by omega, fun he => ?_⟩
  by_cases hk : readText e.1 = e.1
  · have := hrewritten.shorter (fun hv => he ⟨hk, hv⟩) depth
    omega
  · have := hkey.2 hk
    omega

theorem encode_sublist {es es' : List (Text × α)} (hsub : es'.Sublist es) {fs : List (Text × Value)}
    (h : es.mapM (encodeEntry c) = some fs) :
    ∃ fs', es'.mapM (encodeEntry c) = some fs' ∧ ∀ depth, fieldsSize depth fs' ≤ fieldsSize depth fs := by
  induction hsub generalizing fs with
  | slnil => exact ⟨fs, h, fun _ => le_refl _⟩
  | cons e hsub ih =>
    obtain ⟨f, fs, -, hfs, rfl⟩ := mapM_cons_eq_some.mp h
    obtain ⟨fs', hfs', hsize⟩ := ih hfs
    exact ⟨fs', hfs', fun depth => (hsize depth).trans (Nat.le_add_left _ _)⟩
  | cons_cons e hsub ih =>
    obtain ⟨f, fs, hf, hfs, rfl⟩ := mapM_cons_eq_some.mp h
    obtain ⟨fs', hfs', hsize⟩ := ih hfs
    exact ⟨f :: fs', mapM_cons_eq_some.mpr ⟨_, _, hf, hfs', rfl⟩, fun depth => Nat.add_le_add_left (hsize depth) _⟩

theorem encode_perm {es es' : List (Text × α)} (hperm : es.Perm es') {fs : List (Text × Value)}
    (h : es.mapM (encodeEntry c) = some fs) : ∃ fs', es'.mapM (encodeEntry c) = some fs' ∧ fs.Perm fs' := by
  induction hperm generalizing fs with
  | nil => exact ⟨fs, h, .refl _⟩
  | cons e hperm ih =>
    obtain ⟨f, fs, hf, hfs, rfl⟩ := mapM_cons_eq_some.mp h
    obtain ⟨fs', hfs', hp⟩ := ih hfs
    exact ⟨f :: fs', mapM_cons_eq_some.mpr ⟨_, _, hf, hfs', rfl⟩, hp.cons f⟩
  | swap e e' es =>
    obtain ⟨f', _, hf', hrest, rfl⟩ := mapM_cons_eq_some.mp h
    obtain ⟨f, fs, hf, hfs, rfl⟩ := mapM_cons_eq_some.mp hrest
    have hinner := mapM_cons_eq_some.mpr ⟨_, _, hf', hfs, rfl⟩
    exact ⟨f :: f' :: fs, mapM_cons_eq_some.mpr ⟨_, _, hf, hinner, rfl⟩, .swap _ _ _⟩
  | trans _ _ ih ih' =>
    obtain ⟨fs', hfs', hp⟩ := ih h
    obtain ⟨fs'', hfs'', hp'⟩ := ih' hfs'
    exact ⟨fs'', hfs'', hp.trans hp'⟩

theorem fieldsSize_perm {fs fs' : List (Text × Value)} (h : fs.Perm fs') (depth : Nat) :
    fieldsSize depth fs = fieldsSize depth fs' := (h.map _).sum_eq

end Entries

section Maps

variable {α : Type} (c : Codec α)

/-- The map that comes back. -/
def readMap (m : TextMap α) : TextMap α := .ofEntries (m.sorted.map (readEntry c))

theorem rows_readMap {m : TextMap α} (h : ∀ e ∈ m.rows, CleanEntry c e) :
    (readMap c m).rows = m.sorted.map (readEntry c) := by
  refine TextMap.ofEntries_rows ?_
  have hkeys : (m.sorted.map (readEntry c)).map Prod.fst = m.sorted.map Prod.fst := by
    rw [List.map_map]
    exact List.map_congr_left fun e he => (h e (TextMap.mem_sorted.mp he)).1
  rw [hkeys]
  exact m.sorted_nodup

theorem sorted_readMap {m : TextMap α} (h : ∀ e ∈ m.rows, CleanEntry c e) :
    (readMap c m).sorted = m.sorted.map (readEntry c) := by
  rw [TextMap.sorted, rows_readMap c h]
  refine List.Pairwise.insertionSort_eq (List.pairwise_map.mpr ?_)
  have hsorted : m.sorted.Pairwise entryBefore := List.pairwise_insertionSort entryBefore m.rows
  refine hsorted.imp_of_mem fun {e e'} he he' hbefore => ?_
  have hkey := (h e (TextMap.mem_sorted.mp he)).1
  have hkey' := (h e' (TextMap.mem_sorted.mp he')).1
  show textBytes (readText e.1) ≤ textBytes (readText e'.1)
  rwa [hkey, hkey']

theorem readMap_eq_nil {m : TextMap α} : (readMap c m).rows = [] ↔ m.rows = [] := by
  rw [readMap, TextMap.ofEntries_eq_nil, List.map_eq_nil_iff, TextMap.sorted_eq_nil]

theorem find_readMap {m : TextMap α} (h : ∀ e ∈ m.rows, CleanEntry c e) (key : Text) :
    (readMap c m).find key = (m.find key).map (readEntry c) := by
  cases hfind : m.find key with
  | none =>
    rw [Option.map_none, Keyed.Table.find_eq_none]
    intro e he hkey
    rw [← Keyed.Table.mem_rows, rows_readMap c h] at he
    obtain ⟨e₀, he₀, rfl⟩ := List.mem_map.mp he
    have hmem := TextMap.mem_sorted.mp he₀
    exact Keyed.Table.find_eq_none.mp hfind e₀ hmem ((h e₀ hmem).1.symm.trans hkey)
  | some e =>
    obtain ⟨hmem, hkey⟩ := Keyed.Table.find_eq_some.mp hfind
    rw [Option.map_some, Keyed.Table.find_eq_some, ← Keyed.Table.mem_rows, rows_readMap c h]
    exact ⟨List.mem_map_of_mem (TextMap.mem_sorted.mpr hmem), (h e hmem).1.trans hkey⟩

def Codec.map : Codec (TextMap α) where
  zero := .empty
  isEmpty m := m.rows.isEmpty
  encode m := (m.sorted.mapM (encodeEntry c)).map fun fs => .obj (.ofList fs)
  decode
    | .obj fs => (fs.toList.mapM (decodeEntry c)).map TextMap.ofEntries
    | .null => some .empty
    | _ => none
  read := readMap c
  Clean m := ∀ e ∈ m.rows, CleanEntry c e
  Exact m := ∀ e ∈ m.rows, c.Exact e.2
  Same m m' := ∀ key, Option.Rel (fun e e' => c.Same e.2 e'.2) (m.find key) (m'.find key)
  decode_null := rfl
  decode_encode {m v} h := by
    obtain ⟨fs, hfs, rfl⟩ := Option.map_eq_some_iff.mp h
    simp only [Value.read, Fields.toList_read, decode_entries c hfs, Option.map_some]
    rfl
  encode_read {m v} h := by
    obtain ⟨fs, hfs, rfl⟩ := Option.map_eq_some_iff.mp h
    obtain ⟨fs', hfs', hsame, hsize⟩ := rewrite_entries c hfs
    by_cases hclean : ∀ e ∈ m.rows, CleanEntry c e
    · refine ⟨_, by rw [sorted_readMap c hclean, hfs']; rfl, fun _ => ?_, fun hnot => absurd hclean hnot⟩
      rw [hsame fun e he => hclean e (TextMap.mem_sorted.mp he)]
    · obtain ⟨kept, hkept, hle⟩ := encode_sublist c (TextMap.ofEntries_sublist _) hfs'
      obtain ⟨sorted, hsorted, hperm⟩ := encode_perm c (List.perm_insertionSort entryBefore _).symm hkept
      refine ⟨.obj (.ofList sorted), Option.map_eq_some_iff.mpr ⟨sorted, hsorted, rfl⟩,
        fun h => absurd h hclean, fun _ depth => ?_⟩
      have hrows : m.rows ≠ [] := by
        intro hnil
        exact hclean (by simp [hnil])
      have hfs_ne : fs ≠ [] := by
        intro hnil
        have hlength := length_of_mapM hfs
        rw [hnil] at hlength
        exact hrows (TextMap.sorted_eq_nil.mp (List.length_eq_zero_iff.mp hlength.symm))
      have hsorted_ne : sorted ≠ [] := by
        intro hnil
        have hlength := length_of_mapM hsorted
        rw [hnil] at hlength
        exact hrows ((readMap_eq_nil c).mp (TextMap.sorted_eq_nil.mp (List.length_eq_zero_iff.mp hlength.symm)))
      have hshorter := (hsize (depth + 1)).2 fun h => hclean fun e he => h e (TextMap.mem_sorted.mpr he)
      have hkept_le := hle (depth + 1)
      rw [length_obj hfs_ne, length_obj hsorted_ne, ← fieldsSize_perm hperm]
      exact Nat.add_lt_add_right (Nat.add_lt_add_right (hkept_le.trans_lt hshorter) _) 1
  same_read {m} h := by
    constructor
    · intro hsame e he
      have hfind : m.find e.1 = some e := Keyed.Table.find_eq_some.mpr ⟨he, rfl⟩
      have hrel := hsame e.1
      rw [find_readMap c h, hfind, Option.map_some, Option.rel_some_some] at hrel
      exact (c.same_read (h e he).2).mp hrel
    · intro hexact key
      rw [find_readMap c h]
      cases hfind : m.find key with
      | none => exact .none
      | some e =>
        have hmem := (Keyed.Table.find_eq_some.mp hfind).1
        exact .some ((c.same_read (h e hmem).2).mpr (hexact e hmem))
  isEmpty_read m := by
    rw [Bool.eq_iff_iff, List.isEmpty_iff, List.isEmpty_iff]
    exact readMap_eq_nil c
  of_isEmpty {m} h := by
    have hrows := List.isEmpty_iff.mp h
    have hfind : ∀ key, m.find key = none := fun key =>
      Keyed.Table.find_eq_none.mpr fun e he => by
        rw [← Keyed.Table.mem_rows, hrows] at he
        exact absurd he List.not_mem_nil
    exact ⟨rfl, by simp [hrows], by simp [hrows], fun key => by rw [hfind]; exact .none⟩

end Maps

end JsonText
