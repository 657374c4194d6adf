import Mathlib.Data.List.Lex
import Mathlib.Data.List.Infix
import Mathlib.Order.Lattice

/-! The order of texts: prefixes, first differences, fields of one width, and texts that end in a last
letter; and values that are compared by their texts. -/

namespace TextOrder

variable {α : Type} [LinearOrder α] {x y s t : List α}

/-- The smaller of two texts is a prefix or has the smaller letter where they first differ. -/
theorem prefix_or_lt_append (h : x < y) : x <+: y ∨ ∀ s t, x ++ s < y ++ t := by
  induction x generalizing y with
  | nil => exact .inl (List.nil_prefix)
  | cons a x ih =>
    cases y with
    | nil => exact absurd h (List.not_lt_nil _)
    | cons b y =>
      rcases List.cons_lt_cons_iff.mp h with hab | ⟨rfl, hxy⟩
      · exact .inr fun s t => List.cons_lt_cons_iff.mpr (.inl hab)
      · rcases ih hxy with hpre | hlt
        · exact .inl ((List.prefix_cons_inj a).mpr hpre)
        · exact .inr fun s t => List.cons_lt_cons_iff.mpr (.inr ⟨rfl, hlt s t⟩)

/-- Fields of one width are compared before what follows them. -/
theorem append_lt_append_iff (h : x.length = y.length) : x ++ s < y ++ t ↔ x < y ∨ x = y ∧ s < t := by
  induction x generalizing y with
  | nil =>
    obtain rfl := List.length_eq_zero_iff.mp h.symm
    simp
  | cons a x ih =>
    cases y with
    | nil => cases h
    | cons b y =>
      simp only [List.cons_append, List.cons_lt_cons_iff, ih (Nat.succ.inj h), List.cons.injEq]
      tauto

theorem append_lt_append_left_iff : x ++ s < x ++ t ↔ s < t := by
  rw [append_lt_append_iff rfl]
  simp

/-- A text is before a longer one whose next letter is after the last letter. -/
theorem append_cons_lt {a b : α} (h : a < b) : x ++ a :: s < x ++ b :: t :=
  append_lt_append_left_iff.mpr (List.cons_lt_cons_iff.mpr (.inl h))

/-- With a last letter at its end a text comes after the longer ones that it is a prefix of. -/
theorem terminated_lt_of_prefix {last : α} (hy : ∀ a ∈ y, a < last) (hpre : x <+: y) (hne : x ≠ y) :
    y ++ [last] < x ++ [last] := by
  obtain ⟨_ | ⟨a, rest⟩, rfl⟩ := hpre
  · simp at hne
  · rw [List.append_assoc, List.cons_append]
    exact append_cons_lt (hy a (by simp))

theorem terminated_lt_of_not_prefix {last : α} (hpre : ¬ x <+: y) (hxy : x < y) : x ++ [last] < y ++ [last] :=
  (prefix_or_lt_append hxy).resolve_left hpre _ _

theorem not_lt_replicate {least : α} (h : ∀ a ∈ x, least ≤ a) : ¬ x < List.replicate x.length least := by
  induction x with
  | nil => exact List.not_lt_nil _
  | cons a x ih =>
    rw [List.length_cons, List.replicate_succ, List.cons_lt_cons_iff]
    rintro (hlt | ⟨-, hlt⟩)
    · exact absurd hlt (h a (by simp)).not_gt
    · exact ih (fun b hb => h b (List.mem_cons_of_mem a hb)) hlt

/-- Texts padded with the least letter to one length are in order only if the texts are. -/
theorem lt_of_padded {least : α} {i j : Nat} (hx : ∀ a ∈ x, least ≤ a) (hlength : x.length + i = y.length + j)
    (h : x ++ List.replicate i least < y ++ List.replicate j least) : x < y := by
  rcases lt_trichotomy x y with hxy | rfl | hyx
  · exact hxy
  · obtain rfl : i = j := by omega
    exact absurd h (lt_irrefl _)
  · exfalso
    rcases prefix_or_lt_append hyx with ⟨rest, rfl⟩ | hlt
    · rw [List.length_append] at hlength
      obtain rfl : j = (rest ++ List.replicate i least).length := by
        rw [List.length_append, List.length_replicate]
        omega
      rw [List.append_assoc, append_lt_append_left_iff] at h
      refine not_lt_replicate (fun a ha => ?_) h
      rcases List.mem_append.mp ha with ha | ha
      · exact hx a (List.mem_append_right _ ha)
      · exact (List.eq_of_mem_replicate ha).ge
    · exact lt_asymm h (hlt _ _)

section Encodings

variable {ι κ : Type} [LinearOrder ι] [LinearOrder κ] {f : ι → κ} {sorts : ι → ι → Prop} {a b : ι}

/-- Values in order have encodings in order if a relation holds, and the other way round otherwise. -/
def OrderedBy (f : ι → κ) (sorts : ι → ι → Prop) : Prop :=
  ∀ ⦃a b⦄, a < b → (sorts a b → f a < f b) ∧ (¬ sorts a b → f b < f a)

/-- The relation holds in the order of the values. -/
def InOrder (sorts : ι → ι → Prop) (a b : ι) : Prop := (a < b → sorts a b) ∧ (b < a → sorts b a)

/-- The order of the encodings. -/
def Before (sorts : ι → ι → Prop) (a b : ι) : Prop := (a < b ∧ sorts a b) ∨ (b < a ∧ ¬ sorts b a)

theorem OrderedBy.injective (h : OrderedBy f sorts) : Function.Injective f := by
  have hne : ∀ a b, a < b → f a ≠ f b := by
    intro a b hlt
    by_cases hsorts : sorts a b
    · exact ((h hlt).1 hsorts).ne
    · exact ((h hlt).2 hsorts).ne'
  intro a b heq
  rcases lt_trichotomy a b with hlt | hab | hlt
  · exact absurd heq (hne a b hlt)
  · exact hab
  · exact absurd heq.symm (hne b a hlt)

theorem OrderedBy.lt_iff (h : OrderedBy f sorts) : f a < f b ↔ Before sorts a b := by
  unfold Before
  rcases lt_trichotomy a b with hlt | rfl | hlt
  · by_cases hsorts : sorts a b
    · exact iff_of_true ((h hlt).1 hsorts) (.inl ⟨hlt, hsorts⟩)
    · refine iff_of_false (lt_asymm ((h hlt).2 hsorts)) ?_
      rintro (⟨-, hs⟩ | ⟨hgt, -⟩)
      · exact hsorts hs
      · exact lt_asymm hlt hgt
  · simp
  · by_cases hsorts : sorts b a
    · refine iff_of_false (lt_asymm ((h hlt).1 hsorts)) ?_
      rintro (⟨hgt, -⟩ | ⟨-, hs⟩)
      · exact lt_asymm hlt hgt
      · exact hs hsorts
    · exact iff_of_true ((h hlt).2 hsorts) (.inr ⟨hlt, hsorts⟩)

/-- Two encodings are compared as their values exactly if the relation holds in the order of the values. -/
theorem OrderedBy.lt_exact_iff (h : OrderedBy f sorts) : (f a < f b ↔ a < b) ↔ InOrder sorts a b := by
  rw [h.lt_iff]
  unfold Before InOrder
  rcases lt_trichotomy a b with hlt | rfl | hlt
  · have hgt := lt_asymm hlt
    tauto
  · simp
  · have hgt := lt_asymm hlt
    tauto

theorem InOrder.symm (h : InOrder sorts a b) : InOrder sorts b a := And.symm h

theorem OrderedBy.le_exact_iff (h : OrderedBy f sorts) : (f a ≤ f b ↔ a ≤ b) ↔ InOrder sorts a b := by
  rw [← not_lt, ← not_lt, not_iff_not, h.lt_exact_iff]
  exact ⟨InOrder.symm, InOrder.symm⟩

end Encodings

end TextOrder
