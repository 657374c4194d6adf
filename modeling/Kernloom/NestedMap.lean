import Mathlib.Data.List.Perm.Basic
import Mathlib.Logic.Function.Basic

/-! Nested maps, written along paths. A write makes the maps on its way; two writes commute
unless one of them puts a value where the other still has to pass. -/

namespace NestedMap

variable {κ α : Type}

inductive Node (κ α : Type) where
  | leaf (value : α)
  | map (entries : κ → Option (Node κ α))

/-- The entries below a node; what is missing or no map has none. -/
def nested : Option (Node κ α) → κ → Option (Node κ α)
  | some (.map entries) => entries
  | _ => fun _ => none

def get : List κ → Option (Node κ α) → Option (Node κ α)
  | [], t => t
  | key :: path, t => get path (nested t key)

@[simp] theorem nested_map (entries : κ → Option (Node κ α)) :
    nested (some (.map entries)) = entries := rfl

theorem get_append (p r : List κ) (t : Option (Node κ α)) : get (p ++ r) t = get r (get p t) := by
  induction p generalizing t with
  | nil => rfl
  | cons key p ih => exact ih (nested t key)

theorem get_none (p : List κ) : get p (none : Option (Node κ α)) = none := by
  induction p with
  | nil => rfl
  | cons key p ih => exact ih

theorem get_leaf {p : List κ} (hp : p ≠ []) (a : α) : get p (some (.leaf a : Node κ α)) = none := by
  cases p with
  | nil => exact absurd rfl hp
  | cons key p => exact get_none p

mutual
/-- Lays one value over another: maps are merged key by key, anything else is replaced. -/
def Node.merge : Node κ α → Node κ α → Node κ α
  | .map left, .map right => .map fun key => mergeEntry (left key) (right key)
  | _, value => value
  termination_by structural left => left

def mergeEntry : Option (Node κ α) → Option (Node κ α) → Option (Node κ α)
  | left, none => left
  | none, some value => some value
  | some left, some value => some (left.merge value)
  termination_by structural left => left
end

@[simp] theorem mergeEntry_none (left : Option (Node κ α)) : mergeEntry left none = left := by
  cases left <;> rfl

variable [DecidableEq κ]

/-- Changes what stands at the end of a path. What is no map on the way becomes one. -/
def alterAt : List κ → (Option (Node κ α) → Option (Node κ α)) → Option (Node κ α) →
    Option (Node κ α)
  | [], f, t => f t
  | key :: path, f, t =>
    some (.map (Function.update (nested t) key (alterAt path f (nested t key))))

section Alter

variable {f g : Option (Node κ α) → Option (Node κ α)} {p q : List κ}

theorem alterAt_append (p r : List κ) (f : Option (Node κ α) → Option (Node κ α))
    (t : Option (Node κ α)) : alterAt (p ++ r) f t = alterAt p (alterAt r f) t := by
  induction p generalizing t with
  | nil => rfl
  | cons key p ih => simp only [List.cons_append, alterAt, ih]

theorem alterAt_alterAt (p : List κ) (f g : Option (Node κ α) → Option (Node κ α))
    (t : Option (Node κ α)) : alterAt p f (alterAt p g t) = alterAt p (fun x => f (g x)) t := by
  induction p generalizing t with
  | nil => rfl
  | cons key p ih =>
    simp only [alterAt, nested_map, Function.update_self, Function.update_idem, ih]

theorem get_alterAt (p : List κ) (f : Option (Node κ α) → Option (Node κ α))
    (t : Option (Node κ α)) : get p (alterAt p f t) = f (get p t) := by
  induction p generalizing t with
  | nil => rfl
  | cons key p ih => simp only [alterAt, get, nested_map, Function.update_self, ih]

/-- Paths that part before either ends touch different entries. -/
theorem alterAt_comm (hpq : ¬ p <+: q) (hqp : ¬ q <+: p) (t : Option (Node κ α)) :
    alterAt p f (alterAt q g t) = alterAt q g (alterAt p f t) := by
  induction p generalizing q t with
  | nil => exact absurd List.nil_prefix hpq
  | cons a p ih =>
    cases q with
    | nil => exact absurd List.nil_prefix hqp
    | cons b q =>
      simp only [alterAt, nested_map]
      by_cases hab : a = b
      · subst hab
        have hpq' : ¬ p <+: q := fun h => hpq (List.cons_prefix_cons.mpr ⟨rfl, h⟩)
        have hqp' : ¬ q <+: p := fun h => hqp (List.cons_prefix_cons.mpr ⟨rfl, h⟩)
        simp only [Function.update_self, Function.update_idem, ih hpq' hqp']
      · have hba : b ≠ a := fun h => hab h.symm
        rw [Function.update_of_ne hab, Function.update_of_ne hba, Function.update_comm hab]

theorem get_alterAt_of_apart (hpq : ¬ p <+: q) (hqp : ¬ q <+: p) (t : Option (Node κ α)) :
    get q (alterAt p f t) = get q t := by
  induction p generalizing q t with
  | nil => exact absurd List.nil_prefix hpq
  | cons a p ih =>
    cases q with
    | nil => exact absurd List.nil_prefix hqp
    | cons b q =>
      simp only [alterAt, get, nested_map]
      by_cases hab : a = b
      · subst hab
        have hpq' : ¬ p <+: q := fun h => hpq (List.cons_prefix_cons.mpr ⟨rfl, h⟩)
        have hqp' : ¬ q <+: p := fun h => hqp (List.cons_prefix_cons.mpr ⟨rfl, h⟩)
        rw [Function.update_self, ih hpq' hqp']
      · rw [Function.update_of_ne (fun h => hab h.symm)]

theorem alterAt_eq_self_iff (hf : ∀ t, f t ≠ none) (p : List κ) (t : Option (Node κ α)) :
    alterAt p f t = t ↔ f (get p t) = get p t := by
  induction p generalizing t with
  | nil => rfl
  | cons key p ih =>
    rw [alterAt, get]
    match t with
    | some (.map entries) =>
      rw [nested_map, ← ih, Option.some.injEq, Node.map.injEq, Function.update_eq_self_iff]
    | none | some (.leaf _) =>
      have hget : get p (none : Option (Node κ α)) = none := get_none p
      simp [nested, hget, hf]

end Alter

/-- A write at the end of a path; without a value it only makes the maps up to there. -/
structure Write (κ α : Type) where
  path : List κ
  value : Option (Node κ α)

namespace Write

/-- What the write leaves where it ends. -/
def put (w : Write κ α) (t : Option (Node κ α)) : Option (Node κ α) :=
  some (w.value.getD (.map (nested t)))

def apply (w : Write κ α) : Option (Node κ α) → Option (Node κ α) := alterAt w.path w.put

/-- Going `r` below the value `v`, the write finds what it would leave. -/
def DoneAt (w : Write κ α) (r : List κ) (v : Node κ α) : Prop :=
  match w.value with
  | some v' => get r (some v) = some v'
  | none => ∃ entries, get r (some v) = some (.map entries)

/-- Where `w'` passes through the value of `w`, it finds itself done there. -/
def Keeps (w w' : Write κ α) : Prop :=
  ∀ v r, w.value = some v → w'.path = w.path ++ r → w'.DoneAt r v

variable {w w' : Write κ α} {q r : List κ} {v : Node κ α}

omit [DecidableEq κ] in
theorem Keeps.refl (w : Write κ α) : w.Keeps w := by
  intro v r hv hr
  rw [List.self_eq_append_right.mp hr, DoneAt, hv, get]

omit [DecidableEq κ] in
theorem doneAt_iff : w.DoneAt r v ↔ w.put (get r (some v)) = get r (some v) := by
  unfold DoneAt put
  cases w.value with
  | some v' => exact eq_comm
  | none =>
    simp only [Option.getD_none]
    constructor
    · rintro ⟨entries, h⟩
      rw [h, nested_map]
    · intro h
      exact ⟨_, h.symm⟩

theorem alterAt_put_eq_self_iff : alterAt r w.put (some v) = some v ↔ w.DoneAt r v :=
  (alterAt_eq_self_iff (fun _ => Option.some_ne_none _) r _).trans doneAt_iff.symm

theorem apply_comm_of_append (h : w.Keeps w') (h' : w'.Keeps w) (hr : w'.path = w.path ++ r)
    (t : Option (Node κ α)) : w.apply (w'.apply t) = w'.apply (w.apply t) := by
  unfold apply
  rw [hr, alterAt_append, alterAt_append, alterAt_alterAt, alterAt_alterAt]
  congr 1
  funext x
  cases hv : w.value with
  | some v =>
    have hput : ∀ y, w.put y = some v := fun y => by rw [put, hv, Option.getD_some]
    rw [hput, hput, alterAt_put_eq_self_iff.mpr (h v r hv hr)]
  | none =>
    have hput : ∀ y, w.put y = some (.map (nested y)) := fun y => by rw [put, hv, Option.getD_none]
    rw [hput, hput]
    cases r with
    | cons key r => rfl
    | nil =>
      cases hv' : w'.value with
      | none => simp only [alterAt, put, hv', Option.getD_none, nested_map]
      | some v' =>
        have hdone := h' v' [] hv' (by rw [hr, List.append_nil, List.append_nil])
        rw [DoneAt, hv] at hdone
        obtain ⟨entries, hentries⟩ := hdone
        simp only [get, Option.some.injEq] at hentries
        simp only [alterAt, put, hv', Option.getD_some, hentries, nested_map]

theorem apply_comm (h : w.Keeps w') (h' : w'.Keeps w) (t : Option (Node κ α)) :
    w.apply (w'.apply t) = w'.apply (w.apply t) := by
  by_cases hpre : w.path <+: w'.path
  · obtain ⟨r, hr⟩ := hpre
    exact apply_comm_of_append h h' hr.symm t
  · by_cases hpre' : w'.path <+: w.path
    · obtain ⟨r, hr⟩ := hpre'
      exact (apply_comm_of_append h' h hr.symm t).symm
    · exact alterAt_comm hpre hpre' t

/-- A write reads no more than the entries of what it changes. -/
theorem apply_nested (w : Write κ α) (t : Option (Node κ α)) :
    w.apply (some (.map (nested t))) = w.apply t := by
  obtain ⟨path, value⟩ := w
  cases path <;> rfl

theorem get_apply_below (hv : w.value = some v) (r : List κ) (t : Option (Node κ α)) :
    get (w.path ++ r) (w.apply t) = get r (some v) := by
  rw [get_append, apply, get_alterAt, put, hv, Option.getD_some]

theorem get_apply_above (h : w.path = q ++ r) (t : Option (Node κ α)) :
    get q (w.apply t) = alterAt r w.put (get q t) := by
  rw [apply, h, alterAt_append, get_alterAt]

/-- A path that does not end on the way of a write reads as before, unless it leads through the
value written. -/
theorem get_apply_of_unwritten (hq : ¬ q <+: w.path) (h : w.value = none ∨ ¬ w.path <+: q)
    (t : Option (Node κ α)) : get q (w.apply t) = get q t := by
  by_cases hpre : w.path <+: q
  · obtain ⟨r, rfl⟩ := hpre
    have hv : w.value = none := h.resolve_right fun hn => hn ⟨r, rfl⟩
    cases r with
    | nil =>
      rw [List.append_nil] at hq
      exact absurd List.prefix_rfl hq
    | cons key r =>
      rw [get_append, get_append, apply, get_alterAt, put, hv, Option.getD_none]
      rfl
  · exact get_alterAt_of_apart hpre hq t

/-- The writes one after the other. -/
def applyAll (ws : List (Write κ α)) (t : Option (Node κ α)) : Option (Node κ α) :=
  ws.foldl (fun t w => w.apply t) t

theorem applyAll_append (ws ws' : List (Write κ α)) (t : Option (Node κ α)) :
    applyAll (ws ++ ws') t = applyAll ws' (applyAll ws t) :=
  List.foldl_append

theorem applyAll_perm {ws ws' : List (Write κ α)} (h : ∀ w ∈ ws, ∀ w' ∈ ws, w.Keeps w')
    (hperm : ws.Perm ws') (t : Option (Node κ α)) : applyAll ws t = applyAll ws' t :=
  hperm.foldl_eq' (fun w hw w' hw' t => (apply_comm (h w hw w' hw') (h w' hw' w hw) t).symm) t

theorem get_applyAll_of_unwritten {ws : List (Write κ α)}
    (h : ∀ w ∈ ws, ¬ q <+: w.path ∧ (w.value = none ∨ ¬ w.path <+: q)) (t : Option (Node κ α)) :
    get q (applyAll ws t) = get q t := by
  induction ws generalizing t with
  | nil => rfl
  | cons w ws ih =>
    obtain ⟨hq, hv⟩ := h w List.mem_cons_self
    exact (ih (fun w hw => h w (List.mem_cons_of_mem _ hw)) _).trans
      (get_apply_of_unwritten hq hv t)

/-- Nothing comes to stand where leaves are written and no write ends or passes. -/
theorem get_applyAll_eq_none {ws : List (Write κ α)}
    (h : ∀ w ∈ ws, ¬ q <+: w.path ∧ ∀ v, w.value = some v → ∃ a, v = .leaf a)
    {t : Option (Node κ α)} (ht : get q t = none) : get q (applyAll ws t) = none := by
  induction ws generalizing t with
  | nil => exact ht
  | cons w ws ih =>
    obtain ⟨hq, hleaf⟩ := h w List.mem_cons_self
    refine ih (fun w hw => h w (List.mem_cons_of_mem _ hw)) ?_
    by_cases hpre : w.value ≠ none ∧ w.path <+: q
    · obtain ⟨hv, r, rfl⟩ := hpre
      obtain ⟨v, hv⟩ := Option.ne_none_iff_exists'.mp hv
      obtain ⟨a, rfl⟩ := hleaf v hv
      rw [get_apply_below hv]
      refine get_leaf ?_ a
      rintro rfl
      rw [List.append_nil] at hq
      exact hq List.prefix_rfl
    · rw [get_apply_of_unwritten hq (or_iff_not_and_not.mpr (by simpa using hpre)), ht]

end Write

end NestedMap
