import Kernloom.JsonRoundTrip

/-! Codecs of typed values: what is written, what is read back of it, when that is written the same
way again, and when it is the same value. -/

namespace JsonText

section Lengths

def textOf (name : String) : Text := name.toList.map .char

theorem readText_textOf (name : String) : readText (textOf name) = textOf name := by
  simp [readText, textOf, Rune.read]

theorem textOf_inj {a b : String} : textOf a = textOf b ↔ a = b := by
  unfold textOf
  rw [(List.map_injective_iff.mpr fun c c' h => Rune.char.inj h).eq_iff, String.toList_inj]

theorem length_escape_read (r : Rune) : (escape (.char r.read)).length ≤ (escape r).length := by
  cases r with
  | char c => exact le_refl _
  | invalid b =>
    show (escape (.char replacement)).length ≤ 6
    decide

theorem length_escaped_read (s : Text) : ((readText s).flatMap escape).length ≤ (s.flatMap escape).length ∧
    (readText s ≠ s → ((readText s).flatMap escape).length < (s.flatMap escape).length) := by
  induction s with
  | nil => exact ⟨le_refl _, fun h => absurd rfl h⟩
  | cons r s ih =>
    have hr := length_escape_read r
    simp only [readText, List.map_cons, List.flatMap_cons, List.length_append] at ih ⊢
    refine ⟨by omega, fun hne => ?_⟩
    cases r with
    | char c =>
      have hrest := ih.2 fun heq => hne (by rw [heq]; rfl)
      exact Nat.add_lt_add_left hrest _
    | invalid b =>
      have hshort : (escape (.char (Rune.invalid b).read)).length < (escape (.invalid b)).length := by
        show (escape (.char replacement)).length < 6
        decide
      omega

theorem length_writeString_read (s : Text) : (writeString (readText s)).length ≤ (writeString s).length ∧
    (readText s ≠ s → (writeString (readText s)).length < (writeString s).length) := by
  have h := length_escaped_read s
  simp only [writeString, List.length_cons, List.length_append, List.length_nil]
  exact ⟨by omega, fun hne => by have := h.2 hne; omega⟩

def Items.ofList : List Value → Items
  | [] => .nil
  | v :: vs => .cons v (.ofList vs)

def Items.toList : Items → List Value
  | .nil => []
  | .cons v vs => v :: vs.toList

def Fields.ofList : List (Text × Value) → Fields
  | [] => .nil
  | f :: fs => .cons f.1 f.2 (.ofList fs)

def Fields.toList : Fields → List (Text × Value)
  | .nil => []
  | .cons key v fs => (key, v) :: fs.toList

theorem Items.toList_read (vs : List Value) : (Items.ofList vs).read.toList = vs.map Value.read := by
  induction vs with
  | nil => rfl
  | cons v vs ih => simp only [Items.ofList, Items.read, Items.toList, ih, List.map_cons]

theorem Fields.toList_read (fs : List (Text × Value)) :
    (Fields.ofList fs).read.toList = fs.map fun f => (readText f.1, f.2.read) := by
  induction fs with
  | nil => rfl
  | cons f fs ih => simp only [Fields.ofList, Fields.read, Fields.toList, ih, List.map_cons]

/-- The length of an item, with what stands before it. -/
def itemSize (depth : Nat) (v : Value) : Nat := (newline depth).length + (v.write depth).length + 1

def fieldSize (depth : Nat) (f : Text × Value) : Nat :=
  (newline depth).length + (writeString f.1).length + (f.2.write depth).length + 3

def itemsSize (depth : Nat) (vs : List Value) : Nat := (vs.map (itemSize depth)).sum

def fieldsSize (depth : Nat) (fs : List (Text × Value)) : Nat := (fs.map (fieldSize depth)).sum

theorem length_items (depth : Nat) (vs : List Value) :
    ((Items.ofList vs).write depth).length = itemsSize depth vs := by
  induction vs with
  | nil => rfl
  | cons v vs ih =>
    simp only [Items.ofList, Items.write, List.length_cons, List.length_append, ih, itemsSize, itemSize,
      List.map_cons, List.sum_cons]
    omega

theorem length_fields (depth : Nat) (fs : List (Text × Value)) :
    ((Fields.ofList fs).write depth).length = fieldsSize depth fs := by
  induction fs with
  | nil => rfl
  | cons f fs ih =>
    simp only [Fields.ofList, Fields.write, List.length_cons, List.length_append, ih, fieldsSize, fieldSize,
      List.map_cons, List.sum_cons]
    omega

theorem length_arr {vs : List Value} (h : vs ≠ []) (depth : Nat) :
    ((Value.arr (.ofList vs)).write depth).length = itemsSize (depth + 1) vs + (newline depth).length + 1 := by
  obtain ⟨v, vs, rfl⟩ := List.exists_cons_of_ne_nil h
  simp only [Items.ofList, Value.write, List.length_cons, List.length_append, length_items, itemsSize, itemSize,
    List.map_cons, List.sum_cons, List.length_nil]
  omega

theorem length_obj {fs : List (Text × Value)} (h : fs ≠ []) (depth : Nat) :
    ((Value.obj (.ofList fs)).write depth).length = fieldsSize (depth + 1) fs + (newline depth).length + 1 := by
  obtain ⟨f, fs, rfl⟩ := List.exists_cons_of_ne_nil h
  simp only [Fields.ofList, Value.write, List.length_cons, List.length_append, length_fields, fieldsSize, fieldSize,
    List.map_cons, List.sum_cons, List.length_nil]
  omega

end Lengths

section Codecs

/-- What is written of a value that was read back: the same, or less. -/
structure Rewritten (clean : Prop) (v v' : Value) : Prop where
  same : clean → v' = v
  shorter : ¬ clean → ∀ depth, (v'.write depth).length < (v.write depth).length

theorem Rewritten.length_le {clean : Prop} {v v' : Value} (h : Rewritten clean v v') (depth : Nat) :
    (v'.write depth).length ≤ (v.write depth).length := by
  by_cases hclean : clean
  · rw [h.same hclean]
  · exact (h.shorter hclean depth).le

structure Codec (α : Type) where
  zero : α
  isEmpty : α → Bool
  encode : α → Option Value
  decode : Value → Option α
  /-- What comes back of a value. -/
  read : α → α
  /-- What comes back is written the same way. -/
  Clean : α → Prop
  /-- What comes back is the same value. -/
  Exact : α → Prop
  Same : α → α → Prop
  decode_null : decode .null = some zero
  decode_encode : ∀ {a v}, encode a = some v → decode v.read = some (read a)
  encode_read : ∀ {a v}, encode a = some v → ∃ v', encode (read a) = some v' ∧ Rewritten (Clean a) v v'
  same_read : ∀ {a}, Clean a → (Same (read a) a ↔ Exact a)
  isEmpty_read : ∀ a, isEmpty (read a) = isEmpty a
  of_isEmpty : ∀ {a}, isEmpty a = true → isEmpty zero = true ∧ Clean a ∧ Exact a ∧ Same zero a

variable {α β γ σ : Type}

def Codec.text : Codec Text where
  zero := []
  isEmpty s := s = []
  encode s := some (.str s)
  decode
    | .str s => some s
    | .null => some []
    | _ => none
  read := readText
  Clean s := readText s = s
  Exact _ := True
  Same := (· = ·)
  decode_null := rfl
  decode_encode h := by
    rw [← Option.some.inj h]
    rfl
  encode_read {s v} h := by
    refine ⟨_, rfl, fun hclean => by rw [hclean, ← Option.some.inj h], fun hclean depth => ?_⟩
    rw [← Option.some.inj h]
    exact (length_writeString_read s).2 hclean
  same_read h := iff_of_true h trivial
  isEmpty_read s := by simp [readText]
  of_isEmpty h := by
    obtain rfl := of_decide_eq_true h
    exact ⟨rfl, rfl, trivial, rfl⟩

def Codec.bool : Codec Bool where
  zero := false
  isEmpty b := !b
  encode b := some (.bool b)
  decode
    | .bool b => some b
    | .null => some false
    | _ => none
  read := id
  Clean _ := True
  Exact _ := True
  Same := (· = ·)
  decode_null := rfl
  decode_encode h := by
    rw [← Option.some.inj h]
    rfl
  encode_read h := ⟨_, h, fun _ => rfl, fun hclean => absurd trivial hclean⟩
  same_read _ := iff_of_true rfl trivial
  isEmpty_read _ := rfl
  of_isEmpty h := by simpa using h

/-- A value behind a pointer; its own text is never `null`. -/
def Codec.pointer (c : Codec α) (hnull : ∀ a, c.encode a ≠ some .null) : Codec (Option α) where
  zero := none
  isEmpty := Option.isNone
  encode
    | none => some .null
    | some a => c.encode a
  decode
    | .null => some none
    | v => (c.decode v).map some
  read := Option.map c.read
  Clean a := ∀ x ∈ a, c.Clean x
  Exact a := ∀ x ∈ a, c.Exact x
  Same := Option.Rel c.Same
  decode_null := rfl
  decode_encode := by
    rintro (_ | a) v h
    · rw [← Option.some.inj h]
      rfl
    · have hread := c.decode_encode h
      cases v with
      | null => exact absurd h (hnull a)
      | _ => simpa [Value.read] using congrArg (Option.map some) hread
  encode_read := by
    rintro (_ | a) v h
    · exact ⟨_, h, fun _ => rfl, fun hclean => absurd (by simp) hclean⟩
    · obtain ⟨v', hv', hrewritten⟩ := c.encode_read h
      exact ⟨v', hv', by simpa using hrewritten⟩
  same_read := by
    rintro (_ | a) h
    · exact iff_of_true .none (by simp)
    · simpa using c.same_read (h a rfl)
  isEmpty_read a := by cases a <;> rfl
  of_isEmpty := by
    rintro (_ | a) h
    · exact ⟨rfl, by simp, by simp, .none⟩
    · nomatch h

theorem mapM_cons_eq_some {ε δ : Type} {f : ε → Option δ} {x : ε} {xs : List ε} {ys : List δ} :
    (x :: xs).mapM f = some ys ↔ ∃ y ys', f x = some y ∧ xs.mapM f = some ys' ∧ ys = y :: ys' := by
  simp only [List.mapM_cons, Option.bind_eq_bind, Option.bind_eq_some_iff, Option.pure_def, Option.some.injEq]
  constructor
  · rintro ⟨y, hy, ys', hys, rfl⟩
    exact ⟨y, ys', hy, hys, rfl⟩
  · rintro ⟨y, ys', hy, hys, rfl⟩
    exact ⟨y, hy, ys', hys, rfl⟩

theorem length_of_mapM {ε δ : Type} {f : ε → Option δ} {xs : List ε} {ys : List δ} (h : xs.mapM f = some ys) :
    ys.length = xs.length := by
  induction xs generalizing ys with
  | nil => rw [← Option.some.inj h]; rfl
  | cons x xs ih =>
    obtain ⟨y, ys', -, hys, rfl⟩ := mapM_cons_eq_some.mp h
    rw [List.length_cons, List.length_cons, ih hys]

/-- What is written of each member is read back of all. -/
theorem mapM_read {ε δ : Type} {write : ε → Option δ} {decode : δ → Option ε} {seen : δ → δ}
    {read : ε → ε} (hstep : ∀ {x v}, write x = some v → decode (seen v) = some (read x))
    {xs : List ε} {vs : List δ} (h : xs.mapM write = some vs) :
    (vs.map seen).mapM decode = some (xs.map read) := by
  induction xs generalizing vs with
  | nil => rw [← Option.some.inj h]; rfl
  | cons x xs ih =>
    obtain ⟨v, vs', hv, hvs, rfl⟩ := mapM_cons_eq_some.mp h
    exact mapM_cons_eq_some.mpr ⟨_, _, hstep hv, ih hvs, rfl⟩

/-- What is written again of what was read back: the same, or something shorter. -/
theorem mapM_rewrite {ε δ : Type} {write : ε → Option δ} {read : ε → ε} {Clean : ε → Prop}
    {size : Nat → δ → Nat}
    (hstep : ∀ {x v}, write x = some v → ∃ v', write (read x) = some v' ∧ (Clean x → v' = v) ∧
      ∀ depth, size depth v' ≤ size depth v ∧ (¬ Clean x → size depth v' < size depth v))
    {xs : List ε} {vs : List δ} (h : xs.mapM write = some vs) :
    ∃ vs', (xs.map read).mapM write = some vs' ∧ ((∀ x ∈ xs, Clean x) → vs' = vs) ∧
      ∀ depth, (vs'.map (size depth)).sum ≤ (vs.map (size depth)).sum ∧
        (¬ (∀ x ∈ xs, Clean x) → (vs'.map (size depth)).sum < (vs.map (size depth)).sum) := by
  induction xs generalizing vs with
  | nil =>
    rw [← Option.some.inj h]
    exact ⟨[], rfl, fun _ => rfl, fun depth => ⟨le_refl _, fun hclean => absurd (by simp) hclean⟩⟩
  | cons x xs ih =>
    obtain ⟨v, vs, hv, hvs, rfl⟩ := mapM_cons_eq_some.mp h
    obtain ⟨v', hv', hsame, hsize⟩ := hstep hv
    obtain ⟨vs', hvs', hrest, hsizes⟩ := ih hvs
    refine ⟨v' :: vs', mapM_cons_eq_some.mpr ⟨_, _, hv', hvs', rfl⟩, fun hclean => ?_,
      fun depth => ?_⟩
    · obtain ⟨hx, hxs⟩ := List.forall_mem_cons.mp hclean
      rw [hsame hx, hrest hxs]
    · obtain ⟨hhead, hless⟩ := hsize depth
      obtain ⟨htail, hshorter⟩ := hsizes depth
      simp only [List.map_cons, List.sum_cons]
      refine ⟨by omega, fun hclean => ?_⟩
      by_cases hx : Clean x
      · have := hshorter fun hxs => hclean (List.forall_mem_cons.mpr ⟨hx, hxs⟩)
        omega
      · have := hless hx
        omega

theorem decode_items (c : Codec α) {xs : List α} {vs : List Value}
    (h : xs.mapM c.encode = some vs) :
    (vs.map Value.read).mapM c.decode = some (xs.map c.read) :=
  mapM_read c.decode_encode h

theorem rewrite_items (c : Codec α) {xs : List α} {vs : List Value}
    (h : xs.mapM c.encode = some vs) :
    ∃ vs', (xs.map c.read).mapM c.encode = some vs' ∧ ((∀ x ∈ xs, c.Clean x) → vs' = vs) ∧
      ∀ depth, itemsSize depth vs' ≤ itemsSize depth vs ∧
        (¬ (∀ x ∈ xs, c.Clean x) → itemsSize depth vs' < itemsSize depth vs) := by
  refine mapM_rewrite (fun {x v} hv => ?_) h
  obtain ⟨v', hv', hrewritten⟩ := c.encode_read hv
  refine ⟨v', hv', hrewritten.same, fun depth => ?_⟩
  have hless := hrewritten.length_le depth
  simp only [itemSize]
  refine ⟨by omega, fun hx => ?_⟩
  have := hrewritten.shorter hx depth
  omega

/-- A slice: without an array under it, it is written `null`. -/
def Codec.slice (c : Codec α) : Codec (Option (List α)) where
  zero := none
  isEmpty xs := xs.getD [] = []
  encode
    | none => some .null
    | some xs => (xs.mapM c.encode).map fun vs => .arr (.ofList vs)
  decode
    | .null => some none
    | .arr vs => (vs.toList.mapM c.decode).map some
    | _ => none
  read := Option.map (List.map c.read)
  Clean xs := ∀ x ∈ xs.getD [], c.Clean x
  Exact xs := ∀ x ∈ xs.getD [], c.Exact x
  Same xs ys := List.Forall₂ c.Same (xs.getD []) (ys.getD [])
  decode_null := rfl
  decode_encode := by
    rintro (_ | xs) v h
    · rw [← Option.some.inj h]
      rfl
    · obtain ⟨vs, hvs, rfl⟩ := Option.map_eq_some_iff.mp h
      simp only [Value.read, Items.toList_read, decode_items c hvs, Option.map_some]
  encode_read := by
    rintro (_ | xs) v h
    · exact ⟨_, h, fun _ => rfl, fun hclean => absurd (by simp) hclean⟩
    · obtain ⟨vs, hvs, rfl⟩ := Option.map_eq_some_iff.mp h
      obtain ⟨vs', hvs', hsame, hsize⟩ := rewrite_items c hvs
      refine ⟨_, by rw [Option.map_some]; exact Option.map_eq_some_iff.mpr ⟨vs', hvs', rfl⟩,
        fun hclean => by rw [hsame hclean], fun hclean depth => ?_⟩
      have hne : vs ≠ [] ∧ vs' ≠ [] := by
        have hxs : xs ≠ [] := by
          rintro rfl
          exact hclean (by simp)
        have hlength := length_of_mapM hvs
        have hlength' := length_of_mapM hvs'
        rw [List.length_map] at hlength'
        have hpos := List.length_pos_iff.mpr hxs
        exact ⟨List.length_pos_iff.mp (by omega), List.length_pos_iff.mp (by omega)⟩
      rw [length_arr hne.1, length_arr hne.2]
      have := (hsize (depth + 1)).2 hclean
      omega
  same_read := by
    rintro (_ | xs) h
    · exact iff_of_true .nil (by simp)
    · simp only [Option.map_some, Option.getD_some] at h ⊢
      rw [List.forall₂_map_left_iff, List.forall₂_same]
      exact forall₂_congr fun x hx => c.same_read (h x hx)
  isEmpty_read xs := by cases xs <;> simp
  of_isEmpty {xs} h := by
    have hnil : xs.getD [] = [] := of_decide_eq_true h
    exact ⟨rfl, by simp [hnil], by simp [hnil], by rw [hnil]; exact .nil⟩

theorem lookup_cons_of_ne {κ δ : Type} [BEq κ] [LawfulBEq κ] {key : κ} {f : κ × δ} {fs : List (κ × δ)} (h : key ≠ f.1) :
    (f :: fs).lookup key = fs.lookup key := by
  obtain ⟨key', v⟩ := f
  rw [List.lookup_cons, beq_false_of_ne h]

/-- The fields of a structure. -/
structure Record (γ : Type) where
  keys : List String
  zero : γ
  encode : γ → Option (List (String × Value))
  decode : (String → Option Value) → Option γ
  read : γ → γ
  Clean : γ → Prop
  Exact : γ → Prop
  Same : γ → γ → Prop
  nodup : keys.Nodup
  keys_encode : ∀ {g fs}, encode g = some fs → (fs.map Prod.fst).Sublist keys
  decode_encode : ∀ {g fs look}, encode g = some fs → (∀ k ∈ keys, look k = (fs.lookup k).map Value.read) →
    decode look = some (read g)
  encode_read : ∀ {g fs}, encode g = some fs → ∃ fs', encode (read g) = some fs' ∧
    fs'.map Prod.fst = fs.map Prod.fst ∧ (Clean g → fs' = fs) ∧
    ∀ depth, fieldsSize depth (fs'.map fun f => (textOf f.1, f.2)) ≤
        fieldsSize depth (fs.map fun f => (textOf f.1, f.2)) ∧
      (¬ Clean g → fieldsSize depth (fs'.map fun f => (textOf f.1, f.2)) <
        fieldsSize depth (fs.map fun f => (textOf f.1, f.2)))
  same_read : ∀ {g}, Clean g → (Same (read g) g ↔ Exact g)

def Record.done : Record Unit where
  keys := []
  zero := ()
  encode _ := some []
  decode _ := some ()
  read := id
  Clean _ := True
  Exact _ := True
  Same _ _ := True
  nodup := List.nodup_nil
  keys_encode h := by rw [← Option.some.inj h]; exact .slnil
  decode_encode _ _ := rfl
  encode_read h := ⟨_, h, rfl, fun _ => rfl, fun _ => ⟨le_refl _, fun hclean => absurd trivial hclean⟩⟩
  same_read _ := Iff.rfl

/-- A field before the others; with `omitempty` an empty value is left out. -/
def Record.field (key : String) (omitempty : Bool) (c : Codec β) (r : Record γ) (hkey : key ∉ r.keys := by simp) :
    Record (β × γ) where
  keys := key :: r.keys
  zero := (c.zero, r.zero)
  encode g := do
    let fs ← r.encode g.2
    if omitempty ∧ c.isEmpty g.1 then some fs
    else do
      let v ← c.encode g.1
      some ((key, v) :: fs)
  decode look := do
    let b ← match look key with
      | none => some c.zero
      | some v => c.decode v
    let g ← r.decode look
    some (b, g)
  read g := (if omitempty ∧ c.isEmpty g.1 then c.zero else c.read g.1, r.read g.2)
  Clean g := c.Clean g.1 ∧ r.Clean g.2
  Exact g := c.Exact g.1 ∧ r.Exact g.2
  Same g g' := c.Same g.1 g'.1 ∧ r.Same g.2 g'.2
  nodup := List.nodup_cons.mpr ⟨hkey, r.nodup⟩
  keys_encode {g fs} h := by
    obtain ⟨rest, hrest, hfs⟩ := Option.bind_eq_some_iff.mp h
    split_ifs at hfs with hempty
    · rw [← Option.some.inj hfs]
      exact (r.keys_encode hrest).cons _
    · obtain ⟨v, -, hv⟩ := Option.bind_eq_some_iff.mp hfs
      rw [← Option.some.inj hv]
      exact (r.keys_encode hrest).cons_cons _
  decode_encode {g fs look} h hlook := by
    obtain ⟨rest, hrest, hfs⟩ := Option.bind_eq_some_iff.mp h
    have hnone : rest.lookup key = none :=
      List.lookup_eq_none_iff.mpr fun f hf => by
        have hmem := (r.keys_encode hrest).subset (List.mem_map_of_mem hf)
        simpa using fun heq : key = f.1 => hkey (heq ▸ hmem)
    split_ifs at hfs with hempty
    · obtain rfl := Option.some.inj hfs
      have htail := r.decode_encode hrest fun k hk => hlook k (List.mem_cons_of_mem _ hk)
      have hhead := hlook key List.mem_cons_self
      rw [hnone] at hhead
      simp only [hhead, Option.map_none, Option.bind_eq_bind, Option.bind_some, htail, if_pos hempty]
    · obtain ⟨v, hv, hcons⟩ := Option.bind_eq_some_iff.mp hfs
      obtain rfl := Option.some.inj hcons
      have htail : r.decode look = some (r.read g.2) := r.decode_encode hrest fun k hk => by
        have hne : k ≠ key := fun heq => hkey (heq ▸ hk)
        rw [hlook k (List.mem_cons_of_mem _ hk), lookup_cons_of_ne hne]
      have hhead := hlook key List.mem_cons_self
      rw [List.lookup_cons_self] at hhead
      simp only [hhead, Option.map_some, c.decode_encode hv, Option.bind_eq_bind, Option.bind_some, htail,
        if_neg hempty]
  encode_read {g fs} h := by
    obtain ⟨rest, hrest, hfs⟩ := Option.bind_eq_some_iff.mp h
    obtain ⟨rest', hrest', hkeys, hsame, hsize⟩ := r.encode_read hrest
    split_ifs at hfs with hempty
    · obtain rfl := Option.some.inj hfs
      obtain ⟨hzero, hclean, -, -⟩ := c.of_isEmpty hempty.2
      refine ⟨rest', ?_, hkeys, fun h => hsame h.2, fun depth => ⟨(hsize depth).1, fun h => ?_⟩⟩
      · simp only [hrest', if_pos hempty, Option.bind_eq_bind, Option.bind_some]
        exact if_pos ⟨hempty.1, hzero⟩
      · exact (hsize depth).2 fun hr => h ⟨hclean, hr⟩
    · obtain ⟨v, hv, hcons⟩ := Option.bind_eq_some_iff.mp hfs
      obtain rfl := Option.some.inj hcons
      obtain ⟨v', hv', hrewritten⟩ := c.encode_read hv
      refine ⟨(key, v') :: rest', ?_, by rw [List.map_cons, List.map_cons, hkeys],
        fun h => by rw [hrewritten.same h.1, hsame h.2], fun depth => ?_⟩
      · simp only [hrest', if_neg hempty, Option.bind_eq_bind, Option.bind_some, c.isEmpty_read, hv']
      · have hhead := hrewritten.length_le depth
        obtain ⟨htail, hshorter⟩ := hsize depth
        simp only [fieldsSize, fieldSize, List.map_cons, List.sum_cons] at htail hshorter ⊢
        refine ⟨by omega, fun hclean => ?_⟩
        by_cases hb : c.Clean g.1
        · have := hshorter fun hr => hclean ⟨hb, hr⟩
          omega
        · have := hrewritten.shorter hb depth
          omega
  same_read {g} h := by
    have htail := r.same_read h.2
    dsimp only
    split_ifs with hempty
    · obtain ⟨-, -, hexact, hsame⟩ := c.of_isEmpty hempty.2
      exact and_congr (iff_of_true hsame hexact) htail
    · exact and_congr (c.same_read h.1) htail

@[simp] theorem Record.keys_done : Record.done.keys = [] := rfl

@[simp] theorem Record.keys_field {key : String} {omitempty : Bool} {c : Codec β} {r : Record γ}
    {hkey : key ∉ r.keys} : (Record.field key omitempty c r hkey).keys = key :: r.keys := rfl

/-- The last field of a name counts. -/
def lastField (fs : List (Text × Value)) (key : String) : Option Value := fs.reverse.lookup (textOf key)

theorem lookup_reverse {δ : Type} {fs : List (String × δ)} (h : (fs.map Prod.fst).Nodup) (key : String) :
    fs.reverse.lookup key = fs.lookup key := by
  induction fs with
  | nil => rfl
  | cons f fs ih =>
    obtain ⟨hf, hfs⟩ := List.nodup_cons.mp h
    rw [List.reverse_cons, List.lookup_append, ih hfs]
    by_cases heq : key = f.1
    · have hnone : fs.lookup key = none :=
        List.lookup_eq_none_iff.mpr fun f' hf' => by
          simpa using fun h : key = f'.1 => hf (heq ▸ h ▸ List.mem_map_of_mem hf')
      rw [hnone, heq, Option.none_or, List.lookup_cons_self, List.lookup_cons_self]
    · rw [lookup_cons_of_ne heq, lookup_cons_of_ne heq, List.lookup_nil, Option.or_none]

theorem lookup_textOf (fs : List (String × Value)) (key : String) :
    (fs.map fun f => (textOf f.1, f.2.read)).lookup (textOf key) = (fs.lookup key).map Value.read := by
  induction fs with
  | nil => rfl
  | cons f fs ih =>
    by_cases heq : key = f.1
    · rw [heq, List.map_cons, List.lookup_cons_self, List.lookup_cons_self]
      rfl
    · have hne : textOf key ≠ (textOf f.1, f.2.read).1 := fun h => heq (textOf_inj.mp h)
      rw [List.map_cons, lookup_cons_of_ne hne, lookup_cons_of_ne heq, ih]

theorem lastField_read {fs : List (String × Value)} (h : (fs.map Prod.fst).Nodup) (key : String) :
    lastField ((Fields.ofList (fs.map fun f => (textOf f.1, f.2))).read.toList) key =
      (fs.lookup key).map Value.read := by
  have hfields : (Fields.ofList (fs.map fun f => (textOf f.1, f.2))).read.toList =
      fs.map fun f => (textOf f.1, f.2.read) := by
    rw [Fields.toList_read, List.map_map]
    simp [Function.comp_def, readText_textOf]
  rw [hfields, lastField, ← List.map_reverse, lookup_textOf, lookup_reverse h]

/-- A structure whose fields are those of a record. -/
def Codec.struct (r : Record γ) (e : σ ≃ γ) : Codec σ where
  zero := e.symm r.zero
  isEmpty _ := false
  encode s := (r.encode (e s)).map fun fs => .obj (.ofList (fs.map fun f => (textOf f.1, f.2)))
  decode
    | .obj fs => (r.decode (lastField fs.toList)).map e.symm
    | .null => some (e.symm r.zero)
    | _ => none
  read s := e.symm (r.read (e s))
  Clean s := r.Clean (e s)
  Exact s := r.Exact (e s)
  Same s s' := r.Same (e s) (e s')
  decode_null := rfl
  decode_encode {s v} h := by
    obtain ⟨fs, hfs, rfl⟩ := Option.map_eq_some_iff.mp h
    have hnodup := r.nodup.sublist (r.keys_encode hfs)
    simp only [Value.read, r.decode_encode hfs fun k _ => lastField_read hnodup k, Option.map_some]
  encode_read {s v} h := by
    obtain ⟨fs, hfs, rfl⟩ := Option.map_eq_some_iff.mp h
    obtain ⟨fs', hfs', hkeys, hsame, hsize⟩ := r.encode_read hfs
    refine ⟨_, by rw [e.apply_symm_apply, hfs']; rfl, fun hclean => by rw [hsame hclean], fun hclean depth => ?_⟩
    have hlt := (hsize (depth + 1)).2 hclean
    have hlength := congrArg List.length hkeys
    rw [List.length_map, List.length_map] at hlength
    have hpos : 0 < fs.length := by
      by_contra hzero
      rw [List.length_eq_zero_iff.mp (by omega : fs.length = 0)] at hlt
      exact Nat.not_lt_zero _ hlt
    have hne : (fs.map fun f => (textOf f.1, f.2)) ≠ [] ∧ (fs'.map fun f => (textOf f.1, f.2)) ≠ [] := by
      constructor <;> exact List.length_pos_iff.mp (by rw [List.length_map]; omega)
    rw [length_obj hne.1, length_obj hne.2]
    omega
  same_read {s} h := by
    rw [e.apply_symm_apply]
    exact r.same_read h
  isEmpty_read _ := rfl
  of_isEmpty h := nomatch h

theorem Codec.struct_ne_null (r : Record γ) (e : σ ≃ γ) (s : σ) : (Codec.struct r e).encode s ≠ some .null := by
  intro h
  obtain ⟨fs, -, hnull⟩ := Option.map_eq_some_iff.mp h
  nomatch hnull

end Codecs

end JsonText
