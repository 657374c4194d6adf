import Kernloom.TargetCodec

/-! The stable key of a relationship names it: quoted texts and the parts between them can be read
back from the left. -/

namespace Kernloom

section Quote

/-- The first character of a quoted text, and what is left. -/
def unquoteRune : List Char → Option (Char × List Char)
  | '\\' :: 'n' :: cs => some ('\n', cs)
  | '\\' :: 't' :: cs => some ('\t', cs)
  | '\\' :: 'r' :: cs => some ('\r', cs)
  | '\\' :: 'a' :: cs => some ('\x07', cs)
  | '\\' :: 'b' :: cs => some ('\x08', cs)
  | '\\' :: 'v' :: cs => some ('\x0b', cs)
  | '\\' :: 'f' :: cs => some ('\x0c', cs)
  | '\\' :: 'x' :: high :: low :: cs =>
    ((List.range 128).find? fun n => Nat.digitChar (n / 16) = high ∧ Nat.digitChar (n % 16) = low).map
      fun n => (Char.ofNat n, cs)
  | '\\' :: c :: cs => some (c, cs)
  | '"' :: _ => none
  | c :: cs => some (c, cs)
  | [] => none

theorem find_digits : ∀ n < 128, ((List.range 128).find? fun m =>
    Nat.digitChar (m / 16) = Nat.digitChar (n / 16) ∧ Nat.digitChar (m % 16) = Nat.digitChar (n % 16)) = some n := by
  decide +kernel

theorem unquoteRune_quoteRune (c : Char) (cs : List Char) : unquoteRune (quoteRune c ++ cs) = some (c, cs) := by
  unfold quoteRune
  split_ifs with hmeta hn ht hr ha hb hv hf hcontrol
  · rcases hmeta with rfl | rfl <;> rfl
  · rw [hn]; rfl
  · rw [ht]; rfl
  · rw [hr]; rfl
  · rw [ha]; rfl
  · rw [hb]; rfl
  · rw [hv]; rfl
  · rw [hf]; rfl
  · have hlt : c.toNat < 128 := by omega
    simp only [List.cons_append, List.nil_append, unquoteRune, find_digits _ hlt, Option.map_some, Char.ofNat_toNat]
  · rw [not_or] at hmeta
    simp [unquoteRune, hmeta.1, hmeta.2]

theorem quoted_append_inj {s s' r r' : List Char}
    (h : s.flatMap quoteRune ++ '"' :: r = s'.flatMap quoteRune ++ '"' :: r') : s = s' ∧ r = r' := by
  have hend : ∀ r, unquoteRune ('"' :: r) = none := fun _ => rfl
  induction s generalizing s' with
  | nil =>
    cases s' with
    | nil => exact ⟨rfl, (List.cons.inj h).2⟩
    | cons c' s' =>
      have hread := congrArg unquoteRune h
      rw [List.flatMap_cons, List.append_assoc, unquoteRune_quoteRune] at hread
      exact absurd hread (by simp [hend])
  | cons c s ih =>
    cases s' with
    | nil =>
      have hread := congrArg unquoteRune h
      rw [List.flatMap_cons, List.append_assoc, unquoteRune_quoteRune] at hread
      exact absurd hread (by simp [hend])
    | cons c' s' =>
      have hread := congrArg unquoteRune h
      rw [List.flatMap_cons, List.flatMap_cons, List.append_assoc, List.append_assoc, unquoteRune_quoteRune,
        unquoteRune_quoteRune] at hread
      obtain ⟨rfl, hrest⟩ := Prod.mk.inj (Option.some.inj hread)
      obtain ⟨rfl, hr⟩ := ih hrest
      exact ⟨rfl, hr⟩

theorem quote_append_inj {s s' : String} {r r' : List Char}
    (h : (quote s).toList ++ r = (quote s').toList ++ r') : s = s' ∧ r = r' := by
  unfold quote at h
  simp only [String.toList_ofList, List.cons_append, List.append_assoc, List.nil_append, List.cons.injEq,
    true_and] at h
  obtain ⟨hs, hr⟩ := quoted_append_inj h
  exact ⟨String.toList_inj.mp hs, hr⟩

end Quote

section Canonical

/-- The dimensions of a relationship in the order of their keys. -/
def RelationshipTarget.sortedDimensions (t : RelationshipTarget) : List (String × String) :=
  ((t.dimension.entries.map (·.1)).insertionSort (· ≤ ·)).map fun k => (k, t.dimension.get k)

def dimensionPart (d : String × String) : String := "dimension." ++ quote d.1 ++ "=" ++ quote d.2

theorem toList_joinText_cons (part sep : String) (parts : List String) :
    (joinText (part :: parts) sep).toList = part.toList ++ parts.flatMap fun p => sep.toList ++ p.toList := by
  induction parts generalizing part with
  | nil => simp [joinText]
  | cons p parts ih =>
    have hstep : joinText (part :: p :: parts) sep = part ++ sep ++ joinText (p :: parts) sep := by
      unfold joinText
      exact String.intercalate_cons_cons
    rw [hstep, String.toList_append, String.toList_append, ih, List.flatMap_cons]
    simp

theorem toList_canonical (t : RelationshipTarget) : t.canonical.toList =
    "subject=".toList ++ ((quote t.subjectID).toList ++ ("|target=".toList ++ ((quote t.targetID).toList ++
      t.sortedDimensions.flatMap fun d => "|".toList ++ (dimensionPart d).toList))) := by
  have hparts : t.canonical = joinText (("subject=" ++ quote t.subjectID) :: ("target=" ++ quote t.targetID) ::
      t.sortedDimensions.map dimensionPart) "|" := by
    unfold RelationshipTarget.canonical RelationshipTarget.sortedDimensions
    rw [List.map_map]
    rfl
  have htarget : "|target=" = "|" ++ "target=" := by decide
  rw [hparts, toList_joinText_cons, htarget]
  simp [List.flatMap_map]

theorem dimensionParts_inj {ds ds' : List (String × String)}
    (h : (ds.flatMap fun d => "|".toList ++ (dimensionPart d).toList) =
      ds'.flatMap fun d => "|".toList ++ (dimensionPart d).toList) : ds = ds' := by
  induction ds generalizing ds' with
  | nil =>
    cases ds' with
    | nil => rfl
    | cons d' ds' =>
      have hlength := congrArg List.length h
      simp at hlength
  | cons d ds ih =>
    cases ds' with
    | nil =>
      have hlength := congrArg List.length h
      simp at hlength
    | cons d' ds' =>
      simp only [List.flatMap_cons, dimensionPart, String.toList_append, List.append_assoc,
        List.append_cancel_left_eq] at h
      obtain ⟨hk, h⟩ := quote_append_inj h
      rw [List.append_cancel_left_eq] at h
      obtain ⟨hv, h⟩ := quote_append_inj h
      rw [Prod.ext hk hv, ih (by simpa only [dimensionPart, String.toList_append, List.append_assoc] using h)]

theorem mem_sortedDimensions {t : RelationshipTarget} {k v : String} :
    (k, v) ∈ t.sortedDimensions ↔ t.dimension.lookup k = some v := by
  rw [RelationshipTarget.sortedDimensions, List.mem_map]
  constructor
  · rintro ⟨k', hk', hpair⟩
    obtain ⟨rfl, rfl⟩ := Prod.mk.inj hpair
    obtain ⟨e, he, rfl⟩ := List.mem_map.mp ((List.mem_insertionSort _).mp hk')
    rw [GoMap.get, AList.mem_lookup_iff.mpr he, Option.getD_some]
  · intro hv
    refine ⟨k, (List.mem_insertionSort _).mpr ?_, ?_⟩
    · exact List.mem_map_of_mem (AList.mem_lookup_iff.mp hv)
    · rw [GoMap.get, hv, Option.getD_some]

theorem canonical_inj {t t' : RelationshipTarget} (h : t.canonical = t'.canonical) : SameRelationship t t' := by
  have hlist := congrArg String.toList h
  rw [toList_canonical, toList_canonical, List.append_cancel_left_eq] at hlist
  obtain ⟨hsubject, hlist⟩ := quote_append_inj hlist
  rw [List.append_cancel_left_eq] at hlist
  obtain ⟨htarget, hlist⟩ := quote_append_inj hlist
  have hdims := dimensionParts_inj hlist
  refine ⟨hsubject, htarget, fun k => Option.ext fun v => ?_⟩
  rw [← mem_sortedDimensions, ← mem_sortedDimensions, hdims]

end Canonical

end Kernloom
