import Kernloom.GoText
import Kernloom.NestedMap

/-! Facts under dotted keys, and the nested maps they are expanded into for the conditions of a
policy. The loops visit a map, so every order has to give the same result. -/

namespace Kernloom

open NestedMap

/-- A value of a fact map: a nested map or any other value. -/
abbrev Fact (α : Type) := Node String α

abbrev FactMap (α : Type) := String → Option (Fact α)

/-- The entries of a map in the order a loop visits them. -/
abbrev Visited (β : Type) := List (Sigma fun _ : String => β)

variable {α : Type}

section Source

/-- The walk of `insertNestedFact`, from the map at the cursor. -/
def insertAt : List String → Fact α → FactMap α → FactMap α
  | [], _, cursor => cursor
  | [last], value, cursor =>
    if last = "" then cursor else Function.update cursor last (some value)
  | part :: rest, value, cursor =>
    if part = "" then cursor
    else Function.update cursor part (some (.map (insertAt rest value (nested (cursor part)))))

def insertNestedFact (out : FactMap α) (dotted : String) (value : Fact α) : FactMap α :=
  let parts := splitText dotted '.'
  if parts.length < 2 then out else insertAt parts value out

def mergeFactMap (base : FactMap α) (extra : Visited (Fact α)) : FactMap α :=
  extra.foldl (fun base e => Function.update base e.1 (mergeEntry (base e.1) (some e.2))) base

/-- The two loops over the facts visit them in orders of their own. -/
def factMapVars (defaults : FactMap α) (merged visited : Visited (Fact α)) : FactMap α :=
  visited.foldl
    (fun out e => if '.' ∈ e.1.toList then insertNestedFact out e.1 e.2 else out)
    (mergeFactMap defaults merged)

def insertPrefixedNestedFacts (out : FactMap α) (visited : Visited (Fact α)) (pre : String) :
    FactMap α :=
  visited.foldl
    (fun out e =>
      if hasPrefix e.1 pre then insertNestedFact out (trimPrefix e.1 pre) e.2 else out) out

def metricFactMap (values : Visited α) : FactMap α :=
  values.foldl
    (fun out e =>
      insertNestedFact (Function.update out e.1 (some (.leaf e.2))) e.1 (.leaf e.2))
    fun _ => none

end Source

section Property

abbrev keyPath (key : String) : List String := splitText key '.'

def IsStrictPrefix (key key' : String) : Prop := ∃ r, r ≠ [] ∧ keyPath key' = keyPath key ++ r

/-- The key is no strict prefix of another one. -/
def Outermost (facts : FactMap α) (key : String) : Prop :=
  ∀ key' value', facts key' = some value' → ¬ IsStrictPrefix key key'

/-- All outcomes of an expansion are one map, where the facts are read back at their paths. -/
structure Expands (facts : FactMap α) (outcome : FactMap α → Prop) : Prop where
  same : ∀ out out', outcome out → outcome out' → out = out'
  reads : ∀ out, outcome out → ∀ key value, facts key = some value → Outermost facts key →
    get (keyPath key) (some (.map out)) = some value

/-- The keys whose facts `insertNestedFact` puts at their paths. -/
def Inserted (key : String) : Prop := '.' ∈ key.toList ∧ "" ∉ keyPath key

/-- The value already holds at `r` what an insertion there would leave: the other value, or the
nested map before the first empty part. -/
def Settled (value : Fact α) (r : List String) (value' : Fact α) : Prop :=
  if "" ∈ r then ∃ m, get (r.takeWhile (· ≠ "")) (some value) = some (.map m)
  else get r (some value) = some value'

/-- No insertion leads through the value of another fact and changes it. -/
def Compatible (facts : FactMap α) : Prop :=
  ∀ key value key' value' r, facts key = some value → facts key' = some value' → Inserted key →
    r ≠ [] → keyPath key' = keyPath key ++ r → Settled value r value'

/-- The facts that are not inserted stand at their paths all the same: in the facts inserted above
them or, where there are none, from the start. -/
def SkippedStand (facts base : FactMap α) : Prop :=
  ∀ key value, facts key = some value → ¬ Inserted key → Outermost facts key →
    (∀ key' value' r, facts key' = some value' → Inserted key' →
      keyPath key = keyPath key' ++ r → get r (some value') = some value) ∧
    ((∀ key' value', facts key' = some value' → Inserted key' → ¬ keyPath key' <+: keyPath key) →
      get (keyPath key) (some (.map base)) = some value)

end Property

section Writes

/-- What `insertAt` writes: nothing but the maps before an empty part. -/
def factWrite (parts : List String) (value : Fact α) : Write String α where
  path := parts.takeWhile (· ≠ "")
  value := if "" ∈ parts then none else some value

theorem takeWhile_append {p : List String} (hp : "" ∉ p) (r : List String) :
    (p ++ r).takeWhile (· ≠ "") = p ++ r.takeWhile (· ≠ "") :=
  List.takeWhile_append_of_pos fun _ h => decide_eq_true fun heq => hp (heq ▸ h)

theorem takeWhile_self {p : List String} (hp : "" ∉ p) : p.takeWhile (· ≠ "") = p := by
  have h := takeWhile_append hp []
  rwa [List.append_nil, List.takeWhile_nil, List.append_nil] at h

theorem factWrite_clean {parts : List String} (h : "" ∉ parts) (value : Fact α) :
    factWrite parts value = ⟨parts, some value⟩ := by
  rw [factWrite, takeWhile_self h, if_neg h]

theorem get_factWrite {p : List String} (hp : "" ∉ p) (value : Fact α) (r : List String)
    (t : Option (Fact α)) : get (p ++ r) ((factWrite p value).apply t) = get r (some value) := by
  rw [factWrite_clean hp]
  exact Write.get_apply_below (w := ⟨p, some value⟩) rfl r t

theorem insertAt_eq {parts : List String} (h : parts ≠ []) (value : Fact α) (cursor : FactMap α) :
    some (.map (insertAt parts value cursor)) =
      (factWrite parts value).apply (some (.map cursor)) := by
  induction parts generalizing cursor with
  | nil => exact absurd rfl h
  | cons part rest ih =>
    by_cases hpart : part = ""
    · subst hpart
      have hwrite : factWrite ("" :: rest) value = ⟨[], none⟩ := by simp [factWrite]
      rw [hwrite]
      cases rest <;> rfl
    · cases rest with
      | nil =>
        rw [factWrite_clean (by simpa using fun heq : "" = part => hpart heq.symm), insertAt,
          if_neg hpart]
        rfl
      | cons next rest =>
        have hmem : "" ∈ part :: next :: rest ↔ "" ∈ next :: rest := by
          rw [List.mem_cons, or_iff_right fun heq => hpart heq.symm]
        have hwrite : factWrite (part :: next :: rest) value =
            ⟨part :: (factWrite (next :: rest) value).path,
              (factWrite (next :: rest) value).value⟩ := by
          simp only [factWrite, hmem]
          rw [List.takeWhile_cons, if_pos (decide_eq_true hpart)]
        simp only [insertAt, if_neg hpart]
        rw [hwrite, ih (List.cons_ne_nil _ _), Write.apply_nested]
        rfl

/-- The writes of one fact. -/
def keyWrites (key : String) (value : Fact α) : List (Write String α) :=
  if '.' ∈ key.toList then [factWrite (keyPath key) value] else []

theorem insertNestedFact_eq (out : FactMap α) (key : String) (value : Fact α) :
    some (.map (insertNestedFact out key value)) =
      Write.applyAll (keyWrites key value) (some (.map out)) := by
  unfold insertNestedFact keyWrites
  by_cases hdot : '.' ∈ key.toList
  · have hlen : ¬ (splitText key '.').length < 2 := fun h => splitText_length_lt_two_iff.mp h hdot
    rw [if_pos hdot, if_neg hlen]
    exact insertAt_eq (splitText_ne_nil key '.') value out
  · rw [if_neg hdot, if_pos (splitText_length_lt_two_iff.mpr hdot)]
    rfl

theorem foldl_writes {β : Type} {step : FactMap α → β → FactMap α}
    {writes : β → List (Write String α)}
    (h : ∀ out e, some (.map (step out e)) = Write.applyAll (writes e) (some (.map out)))
    (visited : List β) (base : FactMap α) :
    some (.map (visited.foldl step base)) =
      Write.applyAll (visited.flatMap writes) (some (.map base)) := by
  induction visited generalizing base with
  | nil => rfl
  | cons e visited ih =>
    rw [List.foldl_cons, List.flatMap_cons, Write.applyAll_append, ← h, ih]

/-- A key that goes on below a path without empty parts has that path as its beginning. -/
theorem keyPath_of_below {p parts r : List String} {value : Fact α} (hp : "" ∉ p)
    (h : (factWrite parts value).path = p ++ r) :
    ∃ rest, parts = p ++ rest ∧ r = rest.takeWhile (· ≠ "") := by
  have hpre : p <+: parts := (List.prefix_append p r).trans (h ▸ List.takeWhile_prefix _)
  obtain ⟨rest, rfl⟩ := hpre
  refine ⟨rest, rfl, ?_⟩
  rw [factWrite, takeWhile_append hp] at h
  exact (List.append_cancel_left h).symm

theorem doneAt_iff_settled {p r : List String} {value value' : Fact α} (hp : "" ∉ p) :
    (factWrite (p ++ r) value').DoneAt (r.takeWhile (· ≠ "")) value ↔
      Settled value r value' := by
  have hmem : "" ∈ p ++ r ↔ "" ∈ r := by rw [List.mem_append, or_iff_right hp]
  simp only [Write.DoneAt, Settled, factWrite, hmem]
  by_cases hr : "" ∈ r
  · rw [if_pos hr, if_pos hr]
  · rw [if_neg hr, if_neg hr, takeWhile_self hr]

theorem keeps_of_compatible {facts : FactMap α} (hc : Compatible facts) {key key' : String}
    {value value' : Fact α} (h : facts key = some value) (h' : facts key' = some value')
    (hdot : '.' ∈ key.toList) :
    (factWrite (keyPath key) value).Keeps (factWrite (keyPath key') value') := by
  intro v r hv hr
  by_cases hempty : "" ∈ keyPath key
  · simp [factWrite, hempty] at hv
  · rw [factWrite_clean hempty] at hv hr
    obtain ⟨rest, hpath, rfl⟩ := keyPath_of_below hempty hr
    obtain rfl : value = v := Option.some.inj hv
    rw [hpath, doneAt_iff_settled hempty]
    by_cases hrest : rest = []
    · subst hrest
      obtain rfl : key' = key := splitText_injective (hpath.trans (List.append_nil _))
      obtain rfl : value = value' := Option.some.inj (h.symm.trans h')
      rw [Settled, if_neg List.not_mem_nil, NestedMap.get]
    · exact hc key value key' value' rest h h' ⟨hdot, hempty⟩ hrest hpath

end Writes

section Orders

variable {β : Type}

theorem exists_perm_last {entries : List β} {e : β} (h : e ∈ entries) :
    ∃ rest, (rest ++ [e]).Perm entries := by
  obtain ⟨before, after, rfl⟩ := List.append_of_mem h
  exact ⟨before ++ after, (List.perm_append_singleton e _).trans List.perm_middle.symm⟩

theorem exists_perm_last_two {entries : List β} {e e' : β} (h : e ∈ entries) (h' : e' ∈ entries)
    (hne : e ≠ e') :
    ∃ rest, (rest ++ [e, e']).Perm entries ∧ (rest ++ [e', e]).Perm entries := by
  obtain ⟨rest, hrest⟩ := exists_perm_last h
  have hmem : e' ∈ rest := by
    rcases List.mem_append.mp (hrest.mem_iff.mpr h') with hmem | hmem
    · exact hmem
    · exact absurd (List.mem_singleton.mp hmem).symm hne
  obtain ⟨rest', hrest'⟩ := exists_perm_last hmem
  have hperm : (rest' ++ [e', e]).Perm entries := by
    rw [List.append_cons]
    exact (hrest'.append_right [e]).trans hrest
  exact ⟨rest', ((List.Perm.swap e' e []).append_left rest').trans hperm, hperm⟩

/-- What a loop over the entries can come to. -/
def AnyOrder (entries : List β) (run : List β → FactMap α) (out : FactMap α) : Prop :=
  ∃ visited, visited.Perm entries ∧ out = run visited

/-- A loop that inserts facts into a base, each at the entry with its label. -/
structure InsertPass (facts base : FactMap α) (entries : List β) (run : List β → FactMap α) where
  label : β → String
  writes : β → List (Write String α)
  run_eq : ∀ visited, some (.map (run visited)) =
    Write.applyAll (visited.flatMap writes) (some (.map base))
  inserts : ∀ e ∈ entries, ∀ w ∈ writes e, ∃ key value,
    facts key = some value ∧ '.' ∈ key.toList ∧ w = factWrite (keyPath key) value
  entry : ∀ key value, facts key = some value → '.' ∈ key.toList →
    ∃ e ∈ entries, label e = key ∧ writes e = [factWrite (keyPath key) value]

namespace InsertPass

variable {facts base : FactMap α} {entries visited : List β} {run : List β → FactMap α}
  (pass : InsertPass facts base entries run)

include pass

theorem writes_of (hperm : visited.Perm entries) {w : Write String α}
    (h : w ∈ visited.flatMap pass.writes) : ∃ key value,
      facts key = some value ∧ '.' ∈ key.toList ∧ w = factWrite (keyPath key) value := by
  obtain ⟨e, he, hw⟩ := List.mem_flatMap.mp h
  exact pass.inserts e (hperm.mem_iff.mp he) w hw

theorem run_append (rest : List β) (e : β) :
    some (.map (run (rest ++ [e]))) =
      Write.applyAll (pass.writes e) (some (.map (run rest))) := by
  rw [pass.run_eq, pass.run_eq, List.flatMap_append, Write.applyAll_append, List.flatMap_singleton]

theorem same_of_compatible (hc : Compatible facts) {visited visited' : List β}
    (h : visited.Perm entries) (h' : visited'.Perm entries) : run visited = run visited' := by
  have heq : some (Node.map (run visited)) = some (Node.map (run visited')) := by
    rw [pass.run_eq, pass.run_eq]
    refine Write.applyAll_perm ?_ ((h.trans h'.symm).flatMap_right _) _
    intro w hw w' hw'
    obtain ⟨key, value, hkey, hdot, rfl⟩ := pass.writes_of h hw
    obtain ⟨key', value', hkey', -, rfl⟩ := pass.writes_of h hw'
    exact keeps_of_compatible hc hkey hkey' hdot
  exact Node.map.inj (Option.some.inj heq)

/-- The fact visited last is read back, and so is everything below it. -/
theorem exists_reads {key : String} {value : Fact α} (hkey : facts key = some value)
    (hins : Inserted key) : ∃ visited, visited.Perm entries ∧
      ∀ r, get (keyPath key ++ r) (some (.map (run visited))) = get r (some value) := by
  obtain ⟨e, he, -, hwrites⟩ := pass.entry key value hkey hins.1
  obtain ⟨rest, hperm⟩ := exists_perm_last he
  refine ⟨rest ++ [e], hperm, fun r => ?_⟩
  rw [pass.run_append, hwrites]
  exact get_factWrite hins.2 value r _

theorem get_of_skipped (hperm : visited.Perm entries) {key : String} (hins : ¬ Inserted key)
    (hout : Outermost facts key)
    (habove : ∀ key' value', facts key' = some value' → Inserted key' →
      ¬ keyPath key' <+: keyPath key) :
    get (keyPath key) (some (.map (run visited))) = get (keyPath key) (some (.map base)) := by
  rw [pass.run_eq]
  refine Write.get_applyAll_of_unwritten (fun w hw => ?_) _
  obtain ⟨key', value', hkey', hdot, rfl⟩ := pass.writes_of hperm hw
  constructor
  · intro hpre
    have hclean : "" ∉ keyPath key := fun hmem => by
      simpa using List.mem_takeWhile_imp (hpre.subset hmem)
    obtain ⟨r, hr⟩ := hpre.trans (List.takeWhile_prefix _)
    by_cases hnil : r = []
    · subst hnil
      obtain rfl : key = key' := splitText_injective ((List.append_nil _).symm.trans hr)
      exact hins ⟨hdot, hclean⟩
    · exact hout key' value' hkey' ⟨r, hnil, hr.symm⟩
  · by_cases hempty : "" ∈ keyPath key'
    · exact .inl (if_pos hempty)
    · rw [factWrite_clean hempty]
      exact .inr (habove key' value' hkey' ⟨hdot, hempty⟩)

theorem compatible_of_same
    (h : ∀ out out', AnyOrder entries run out → AnyOrder entries run out' → out = out') :
    Compatible facts := by
  intro key value key' value' r hkey hkey' hins hr hpath
  have hdot' : '.' ∈ key'.toList := by
    by_contra hdot
    have hone := hpath.symm.trans (splitText_of_notMem hdot)
    cases hk : keyPath key with
    | nil => exact splitText_ne_nil key '.' hk
    | cons part rest => simp [hk, hr] at hone
  obtain ⟨e, he, hlabel, hwrites⟩ := pass.entry key value hkey hins.1
  obtain ⟨e', he', hlabel', hwrites'⟩ := pass.entry key' value' hkey' hdot'
  have hne : e ≠ e' := by
    rintro rfl
    rw [← hlabel', hlabel] at hpath
    exact hr (List.self_eq_append_right.mp hpath)
  obtain ⟨rest, hperm, hperm'⟩ := exists_perm_last_two he he' hne
  have hlast : ∀ t, get (keyPath key) ((factWrite (keyPath key) value).apply t) = some value := by
    intro t
    have hget := get_factWrite hins.2 value [] t
    rwa [List.append_nil] at hget
  have hfirst : get (keyPath key) (some (.map (run (rest ++ [e', e])))) = some value := by
    rw [List.append_cons, pass.run_append, hwrites]
    exact hlast _
  have hsecond : get (keyPath key) (some (.map (run (rest ++ [e, e'])))) =
      alterAt (r.takeWhile (· ≠ "")) (factWrite (keyPath key') value').put (some value) := by
    have habove : (factWrite (keyPath key') value').path =
        keyPath key ++ r.takeWhile (· ≠ "") := by
      rw [hpath, factWrite, takeWhile_append hins.2]
    rw [List.append_cons, pass.run_append, hwrites', pass.run_append, hwrites]
    exact (Write.get_apply_above habove _).trans (congrArg _ (hlast _))
  rw [h _ _ ⟨_, hperm, rfl⟩ ⟨_, hperm', rfl⟩, hfirst] at hsecond
  have hdone := Write.alterAt_put_eq_self_iff.mp hsecond.symm
  rw [hpath] at hdone
  exact (doneAt_iff_settled hins.2).mp hdone

/-- The loop expands the facts exactly where no insertion changes the value of another fact and
the facts it skips are there without it. -/
theorem expands_iff :
    Expands facts (AnyOrder entries run) ↔ Compatible facts ∧ SkippedStand facts base := by
  constructor
  · intro h
    refine ⟨pass.compatible_of_same h.same, fun key value hkey hins hout => ⟨?_, ?_⟩⟩
    · intro key' value' r hkey' hins' hpath
      obtain ⟨visited, hperm, hget⟩ := pass.exists_reads hkey' hins'
      rw [← hget r, ← hpath]
      exact h.reads _ ⟨visited, hperm, rfl⟩ key value hkey hout
    · intro habove
      rw [← pass.get_of_skipped (List.Perm.refl entries) hins hout habove]
      exact h.reads _ ⟨entries, .refl _, rfl⟩ key value hkey hout
  · rintro ⟨hc, hskip⟩
    have hsame : ∀ out out', AnyOrder entries run out → AnyOrder entries run out' → out = out' := by
      rintro _ _ ⟨visited, hperm, rfl⟩ ⟨visited', hperm', rfl⟩
      exact pass.same_of_compatible hc hperm hperm'
    refine ⟨hsame, ?_⟩
    -- one order decides for all of them, so the fact in question may come last
    have hreads : ∀ {out key value r}, AnyOrder entries run out → facts key = some value →
        Inserted key → get (keyPath key ++ r) (some (.map out)) = get r (some value) := by
      intro out key value r hout hkey hins
      obtain ⟨visited, hperm, hget⟩ := pass.exists_reads hkey hins
      rw [hsame _ _ hout ⟨visited, hperm, rfl⟩, hget]
    intro out hany key value hkey hout
    by_cases hins : Inserted key
    · have hget := hreads (r := []) hany hkey hins
      rwa [List.append_nil] at hget
    · obtain ⟨hbelow, hbase⟩ := hskip key value hkey hins hout
      by_cases habove : ∃ key' value' r, facts key' = some value' ∧ Inserted key' ∧
          keyPath key = keyPath key' ++ r
      · obtain ⟨key', value', r, hkey', hins', hpath⟩ := habove
        rw [hpath, hreads hany hkey' hins']
        exact hbelow key' value' r hkey' hins' hpath
      · have hnone : ∀ key' value', facts key' = some value' → Inserted key' →
            ¬ keyPath key' <+: keyPath key :=
          fun key' value' hkey' hins' ⟨r, hr⟩ => habove ⟨key', value', r, hkey', hins', hr.symm⟩
        obtain ⟨visited, hperm, rfl⟩ := hany
        rw [pass.get_of_skipped hperm hins hout hnone]
        exact hbase hnone

end InsertPass

end Orders

section Expansions

/-- What the loops over the facts of a map, each in an order of its own, can come to. -/
def FactMapVars (defaults : FactMap α) (facts : GoMap (Fact α)) (out : FactMap α) : Prop :=
  ∃ merged visited : Visited (Fact α), merged.Perm facts.entries ∧
    visited.Perm facts.entries ∧ out = factMapVars defaults merged visited

/-- The defaults with the facts laid over them. -/
def mergedFacts (defaults : FactMap α) (facts : GoMap (Fact α)) : FactMap α :=
  fun key => mergeEntry (defaults key) (facts.lookup key)

theorem mergeFactMap_apply {extra : Visited (Fact α)} (hnodup : extra.NodupKeys)
    (base : FactMap α) (key : String) :
    mergeFactMap base extra key = mergeEntry (base key) (extra.dlookup key) := by
  induction extra generalizing base with
  | nil =>
    rw [List.dlookup_nil, mergeEntry_none]
    rfl
  | cons e extra ih =>
    obtain ⟨key', value⟩ := e
    obtain ⟨hnot, hnodup⟩ := List.nodupKeys_cons.mp hnodup
    have hstep : mergeFactMap base (⟨key', value⟩ :: extra) =
        mergeFactMap (Function.update base key' (mergeEntry (base key') (some value))) extra := rfl
    rw [hstep, ih hnodup]
    by_cases heq : key = key'
    · subst heq
      rw [Function.update_self, List.dlookup_eq_none.mpr hnot, List.dlookup_cons_eq, mergeEntry_none]
    · rw [Function.update_of_ne heq, List.dlookup_cons_ne _ _ heq]

theorem mergeFactMap_eq {facts : GoMap (Fact α)} {merged : Visited (Fact α)}
    (hperm : merged.Perm facts.entries) (defaults : FactMap α) :
    mergeFactMap defaults merged = mergedFacts defaults facts := by
  have hnodup : merged.NodupKeys := (List.perm_nodupKeys hperm).mpr facts.nodupKeys
  funext key
  rw [mergeFactMap_apply hnodup, List.perm_dlookup key hnodup hperm]
  rfl

def factMapVarsPass (defaults : FactMap α) (facts : GoMap (Fact α)) :
    InsertPass (fun key => facts.lookup key) (mergedFacts defaults facts) facts.entries
      (factMapVars defaults facts.entries) where
  label e := e.1
  writes e := keyWrites e.1 e.2
  run_eq visited := by
    rw [← mergeFactMap_eq (List.Perm.refl facts.entries)]
    refine foldl_writes (fun out e => ?_) visited _
    by_cases hdot : '.' ∈ e.1.toList
    · rw [if_pos hdot]
      exact insertNestedFact_eq out e.1 e.2
    · rw [if_neg hdot, keyWrites, if_neg hdot]
      rfl
  inserts e he w hw := by
    unfold keyWrites at hw
    split at hw
    · next hdot =>
      have hlookup := AList.mem_lookup_iff.mpr he
      exact ⟨e.1, e.2, hlookup, hdot, List.mem_singleton.mp hw⟩
    · simp at hw
  entry key value hkey hdot :=
    ⟨⟨key, value⟩, AList.mem_lookup_iff.mp hkey, rfl, if_pos hdot⟩

/-- The facts under a prefix whose keys go on with a dot. -/
def prefixedFacts (facts : GoMap (Fact α)) (pre : String) : FactMap α :=
  fun key => if '.' ∈ key.toList then facts.lookup (pre ++ key) else none

def insertPrefixedPass (out : FactMap α) (facts : GoMap (Fact α)) (pre : String) :
    InsertPass (prefixedFacts facts pre) out facts.entries
      (fun visited => insertPrefixedNestedFacts out visited pre) where
  label e := trimPrefix e.1 pre
  writes e := if hasPrefix e.1 pre then keyWrites (trimPrefix e.1 pre) e.2 else []
  run_eq visited := by
    refine foldl_writes (fun out e => ?_) visited out
    split
    · exact insertNestedFact_eq out _ e.2
    · rfl
  inserts e he w hw := by
    split at hw
    · next hpre =>
      unfold keyWrites at hw
      split at hw
      · next hdot =>
        have hlookup := AList.mem_lookup_iff.mpr he
        refine ⟨trimPrefix e.1 pre, e.2, ?_, hdot, List.mem_singleton.mp hw⟩
        rw [prefixedFacts, if_pos hdot, append_trimPrefix hpre]
        exact hlookup
      · simp at hw
    · simp at hw
  entry key value hkey hdot := by
    rw [prefixedFacts, if_pos hdot] at hkey
    refine ⟨⟨pre ++ key, value⟩, AList.mem_lookup_iff.mp hkey, trimPrefix_append pre key, ?_⟩
    rw [if_pos (hasPrefix_append pre key), trimPrefix_append, keyWrites, if_pos hdot]

end Expansions

section Metrics

/-- The values of the metrics as facts. -/
def metricFacts (values : GoMap α) : FactMap α := fun key => (values.lookup key).map .leaf

def metricWrites (e : Sigma fun _ : String => α) : List (Write String α) :=
  ⟨[e.1], some (.leaf e.2)⟩ :: keyWrites e.1 (.leaf e.2)

theorem metricFactMap_eq (visited : Visited α) :
    some (.map (metricFactMap visited)) =
      Write.applyAll (visited.flatMap metricWrites) (some (.map fun _ => none)) := by
  refine foldl_writes (fun out e => ?_) visited _
  exact insertNestedFact_eq _ e.1 (.leaf e.2)

theorem metricFactMap_append (rest : Visited α) (e : Sigma fun _ : String => α) :
    some (.map (metricFactMap (rest ++ [e]))) =
      Write.applyAll (metricWrites e) (some (.map (metricFactMap rest))) := by
  rw [metricFactMap_eq, metricFactMap_eq, List.flatMap_append, Write.applyAll_append,
    List.flatMap_singleton]

theorem mem_metricWrites {e : Sigma fun _ : String => α} {w : Write String α} :
    w ∈ metricWrites e ↔ w = ⟨[e.1], some (.leaf e.2)⟩ ∨
      '.' ∈ e.1.toList ∧ w = factWrite (keyPath e.1) (.leaf e.2) := by
  unfold metricWrites keyWrites
  split <;> simp [*]

theorem keyPath_of_dotless {key : String} (h : '.' ∉ key.toList) : keyPath key = [key] :=
  splitText_of_notMem h

theorem one_lt_length_keyPath {key : String} (h : '.' ∈ key.toList) : 1 < (keyPath key).length := by
  have hlen : ¬ (keyPath key).length < 2 := fun hlt => splitText_length_lt_two_iff.mp hlt h
  omega

theorem dotted_of_append {key key' : String} {r : List String} (hr : r ≠ [])
    (h : keyPath key' = keyPath key ++ r) : '.' ∈ key'.toList := by
  by_contra hdot
  rw [keyPath_of_dotless hdot] at h
  cases hk : keyPath key with
  | nil => exact splitText_ne_nil key '.' hk
  | cons part rest =>
    rw [hk, List.cons_append, List.cons.injEq] at h
    exact hr (List.append_eq_nil_iff.mp h.2.symm).2

variable {values : GoMap α}

/-- Where no key lies below another one, the writes of the metrics keep each other. -/
theorem metricWrites_keep
    (hpre : ∀ key ∈ values, ∀ key' ∈ values, "" ∉ keyPath key → ¬ IsStrictPrefix key key')
    {e e' : Sigma fun _ : String => α} (he : e ∈ values.entries) (he' : e' ∈ values.entries)
    {w w' : Write String α} (hw : w ∈ metricWrites e) (hw' : w' ∈ metricWrites e') :
    w.Keeps w' := by
  have hmem : e.1 ∈ values := List.mem_keys_of_mem he
  have hmem' : e'.1 ∈ values := List.mem_keys_of_mem he'
  have hvalue : e.1 = e'.1 → e.2 = e'.2 := fun heq => by
    have h := AList.mem_lookup_iff.mpr he
    have h' := AList.mem_lookup_iff.mpr he'
    rw [heq, h'] at h
    exact (Option.some.inj h).symm
  have hend : ∀ {rest}, "" ∉ keyPath e.1 → keyPath e'.1 = keyPath e.1 ++ rest → rest = [] :=
    fun hclean hpath => by_contra fun hrest =>
      hpre e.1 hmem e'.1 hmem' hclean ⟨_, hrest, hpath⟩
  intro v r hv hr
  rcases mem_metricWrites.mp hw with rfl | ⟨hdot, rfl⟩
  · obtain rfl : .leaf e.2 = v := Option.some.inj hv
    rcases mem_metricWrites.mp hw' with rfl | ⟨hdot', rfl⟩
    · rw [List.singleton_append, List.cons.injEq] at hr
      obtain ⟨heq, rfl⟩ := hr
      simp only [Write.DoneAt, NestedMap.get, hvalue heq.symm]
    · -- the flat entry of a dotted key is on no path
      have hin : e.1 ∈ (keyPath e'.1).takeWhile (· ≠ "") := by
        change e.1 ∈ (factWrite (keyPath e'.1) (.leaf e'.2)).path
        rw [hr]
        exact List.mem_cons_self
      have hne : e.1 ≠ "" := by simpa using List.mem_takeWhile_imp hin
      have hdotless : '.' ∉ e.1.toList := notMem_of_mem_splitText (List.takeWhile_subset _ hin)
      have hpath := keyPath_of_dotless hdotless
      have hclean : "" ∉ keyPath e.1 := by simpa [hpath] using hne.symm
      obtain ⟨rest, hrest, -⟩ := keyPath_of_below hclean (hpath ▸ hr)
      have hnil := hend hclean hrest
      have hone := one_lt_length_keyPath hdot'
      rw [hrest, hnil, hpath] at hone
      exact absurd hone (by simp)
  · by_cases hempty : "" ∈ keyPath e.1
    · simp [factWrite, hempty] at hv
    · rw [factWrite_clean hempty] at hv hr
      obtain rfl : .leaf e.2 = v := Option.some.inj hv
      rcases mem_metricWrites.mp hw' with rfl | ⟨hdot', rfl⟩
      · have hlen := congrArg List.length hr
        have hone := one_lt_length_keyPath hdot
        simp only [List.length_singleton, List.length_append] at hlen
        omega
      · obtain ⟨rest, hrest, rfl⟩ := keyPath_of_below hempty hr
        obtain rfl := hend hempty hrest
        have hkey : e'.1 = e.1 := splitText_injective (hrest.trans (List.append_nil _))
        rw [hrest, doneAt_iff_settled hempty, Settled, if_neg List.not_mem_nil, NestedMap.get,
          hvalue hkey.symm]

theorem get_metricWrites {key : String} (h : '.' ∈ key.toList → "" ∉ keyPath key) (a : α)
    (t : Option (Fact α)) :
    get (keyPath key) (Write.applyAll (metricWrites ⟨key, a⟩) t) = some (.leaf a) := by
  unfold metricWrites keyWrites
  by_cases hdot : '.' ∈ key.toList
  · rw [if_pos hdot]
    have hget := get_factWrite (h hdot) (.leaf a) [] (Write.apply ⟨[key], some (.leaf a)⟩ t)
    rwa [List.append_nil] at hget
  · rw [if_neg hdot, keyPath_of_dotless hdot]
    exact Write.get_apply_below (w := ⟨[key], some (.leaf a)⟩) rfl [] t

/-- Below a path stands a map once something is inserted there. -/
theorem get_above_factWrite {p r : List String} (hp : "" ∉ p) (hr : r ≠ []) (value : Fact α)
    (t : Option (Fact α)) :
    ∃ entries, get p ((factWrite (p ++ r) value).apply t) = some (.map entries) := by
  rw [Write.get_apply_above (takeWhile_append hp r)]
  cases r with
  | nil => exact absurd rfl hr
  | cons part rest =>
    by_cases hpart : part = ""
    · subst hpart
      have hmem : "" ∈ p ++ "" :: rest := List.mem_append_right p List.mem_cons_self
      refine ⟨nested (get p t), ?_⟩
      rw [List.takeWhile_cons, if_neg (by simp), alterAt, Write.put, factWrite, if_pos hmem,
        Option.getD_none]
    · rw [List.takeWhile_cons, if_pos (decide_eq_true hpart), alterAt]
      exact ⟨_, rfl⟩

theorem get_metricFactMap_none {key : String} (hdot : '.' ∈ key.toList) (hempty : "" ∈ keyPath key)
    (visited : Visited α) : get (keyPath key) (some (.map (metricFactMap visited))) = none := by
  rw [metricFactMap_eq]
  refine Write.get_applyAll_eq_none (fun w hw => ?_) ?_
  · obtain ⟨e, -, hw⟩ := List.mem_flatMap.mp hw
    rcases mem_metricWrites.mp hw with rfl | ⟨-, rfl⟩
    · constructor
      · intro hpre
        have hlen := hpre.length_le
        have hone := one_lt_length_keyPath hdot
        simp only [List.length_singleton] at hlen
        omega
      · rintro v hv
        exact ⟨_, (Option.some.inj hv).symm⟩
    · constructor
      · intro hpre
        simpa using List.mem_takeWhile_imp (hpre.subset hempty)
      · intro v hv
        unfold factWrite at hv
        split at hv
        · simp at hv
        · exact ⟨_, (Option.some.inj hv).symm⟩
  · cases hk : keyPath key with
    | nil => exact absurd hk (splitText_ne_nil key '.')
    | cons part rest => exact get_none rest

/-- The metrics are expanded exactly where no key lies below another one and every dotted key
that counts has no empty part. -/
theorem metric_expands_iff (values : GoMap α) :
    Expands (metricFacts values) (AnyOrder values.entries metricFactMap) ↔
      (∀ key ∈ values, ∀ key' ∈ values, "" ∉ keyPath key → ¬ IsStrictPrefix key key') ∧
      (∀ key ∈ values, '.' ∈ key.toList → "" ∈ keyPath key →
        ∃ key' ∈ values, IsStrictPrefix key key') := by
  have hfact : ∀ {key value}, metricFacts values key = some value ↔
      ∃ a, ⟨key, a⟩ ∈ values.entries ∧ value = .leaf a := by
    intro key value
    rw [metricFacts, Option.map_eq_some_iff]
    simp only [AList.mem_lookup_iff.symm, Option.mem_def, eq_comm]
  have hentry : ∀ {key}, key ∈ values → ∃ a, ⟨key, a⟩ ∈ values.entries := by
    intro key hkey
    obtain ⟨a, ha⟩ := Option.isSome_iff_exists.mp (AList.lookup_isSome.mpr hkey)
    exact ⟨a, AList.mem_lookup_iff.mp ha⟩
  have hmem : ∀ {key a}, ⟨key, a⟩ ∈ values.entries → key ∈ values := List.mem_keys_of_mem
  constructor
  · intro h
    constructor
    · rintro key hkey key' hkey' hclean ⟨r, hr, hpath⟩
      obtain ⟨a, ha⟩ := hentry hkey
      obtain ⟨a', ha'⟩ := hentry hkey'
      have hne : (⟨key, a⟩ : Sigma fun _ : String => α) ≠ ⟨key', a'⟩ := by
        intro heq
        obtain rfl : key = key' := congrArg Sigma.fst heq
        exact hr (List.self_eq_append_right.mp hpath)
      obtain ⟨rest, hperm, hperm'⟩ := exists_perm_last_two ha ha' hne
      have hfirst : get (keyPath key) (some (.map (metricFactMap (rest ++ [⟨key', a'⟩, ⟨key, a⟩]))))
          = some (.leaf a) := by
        rw [List.append_cons, metricFactMap_append]
        exact get_metricWrites (fun _ => hclean) a _
      obtain ⟨entries, hsecond⟩ : ∃ entries, get (keyPath key)
          (some (.map (metricFactMap (rest ++ [⟨key, a⟩, ⟨key', a'⟩])))) = some (.map entries) := by
        rw [List.append_cons, metricFactMap_append, metricWrites, keyWrites,
          if_pos (dotted_of_append hr hpath), hpath]
        exact get_above_factWrite hclean hr _ _
      rw [h.same _ _ ⟨_, hperm', rfl⟩ ⟨_, hperm, rfl⟩, hsecond] at hfirst
      simp at hfirst
    · intro key hkey hdot hempty
      by_contra hout
      obtain ⟨a, ha⟩ := hentry hkey
      have hread := h.reads _ ⟨values.entries, .refl _, rfl⟩ key _ (hfact.mpr ⟨a, ha, rfl⟩) ?_
      · rw [get_metricFactMap_none hdot hempty] at hread
        simp at hread
      · intro key' value' hkey' hpre
        obtain ⟨a', ha', -⟩ := hfact.mp hkey'
        exact hout ⟨key', hmem ha', hpre⟩
  · rintro ⟨hpre, hempty⟩
    have hsame : ∀ {visited visited' : Visited α}, visited.Perm values.entries →
        visited'.Perm values.entries → metricFactMap visited = metricFactMap visited' := by
      intro visited visited' h h'
      have heq : some (Node.map (metricFactMap visited)) = some (.map (metricFactMap visited')) := by
        rw [metricFactMap_eq, metricFactMap_eq]
        refine Write.applyAll_perm (fun w hw w' hw' => ?_) ((h.trans h'.symm).flatMap_right _) _
        obtain ⟨e, he, hw⟩ := List.mem_flatMap.mp hw
        obtain ⟨e', he', hw'⟩ := List.mem_flatMap.mp hw'
        exact metricWrites_keep hpre (h.mem_iff.mp he) (h.mem_iff.mp he') hw hw'
      exact Node.map.inj (Option.some.inj heq)
    constructor
    · rintro _ _ ⟨visited, h, rfl⟩ ⟨visited', h', rfl⟩
      exact hsame h h'
    · rintro _ ⟨visited, h, rfl⟩ key value hkey hout
      obtain ⟨a, ha, rfl⟩ := hfact.mp hkey
      obtain ⟨rest, hperm⟩ := exists_perm_last ha
      rw [hsame h hperm, metricFactMap_append]
      refine get_metricWrites (fun hdot hmt => ?_) a _
      obtain ⟨key', hkey', hbelow⟩ := hempty key (hmem ha) hdot hmt
      obtain ⟨a', ha'⟩ := hentry hkey'
      exact hout key' _ (hfact.mpr ⟨a', ha', rfl⟩) hbelow

end Metrics

/-- The expansions give one map, with the facts at their paths, exactly where a fact lying below
another one leaves that one's value as it is and the facts that are not inserted stand without it. -/
theorem fact_expansion_iff (defaults out : FactMap α) (facts : GoMap (Fact α)) (pre : String)
    (values : GoMap α) :
    (Expands (fun key => facts.lookup key) (FactMapVars defaults facts) ↔
      Compatible (fun key => facts.lookup key) ∧
        SkippedStand (fun key => facts.lookup key) (mergedFacts defaults facts)) ∧
    (Expands (prefixedFacts facts pre)
        (AnyOrder facts.entries fun visited => insertPrefixedNestedFacts out visited pre) ↔
      Compatible (prefixedFacts facts pre) ∧ SkippedStand (prefixedFacts facts pre) out) ∧
    (Expands (metricFacts values) (AnyOrder values.entries metricFactMap) ↔
      (∀ key ∈ values, ∀ key' ∈ values, "" ∉ keyPath key → ¬ IsStrictPrefix key key') ∧
      (∀ key ∈ values, '.' ∈ key.toList → "" ∈ keyPath key →
        ∃ key' ∈ values, IsStrictPrefix key key')) := by
  refine ⟨?_, (insertPrefixedPass out facts pre).expands_iff, metric_expands_iff values⟩
  have houtcome : FactMapVars defaults facts =
      AnyOrder facts.entries (factMapVars defaults facts.entries) := by
    funext out
    refine propext ⟨?_, ?_⟩
    · rintro ⟨merged, visited, hmerged, hvisited, rfl⟩
      refine ⟨visited, hvisited, ?_⟩
      rw [factMapVars, factMapVars, mergeFactMap_eq hmerged,
        mergeFactMap_eq (List.Perm.refl facts.entries)]
    · rintro ⟨visited, hvisited, rfl⟩
      exact ⟨facts.entries, visited, .refl _, hvisited, rfl⟩
  rw [houtcome]
  exact (factMapVarsPass defaults facts).expands_iff

/-- A leaf and a fact below it: the one inserted last stands, so the two orders differ. -/
theorem prefix_key_order_dependent :
    ¬ Expands (fun key => (GoMap.ofList [("a.b", (.leaf 1 : Fact Nat)), ("a.b.c", .leaf 2)]).lookup key)
      (FactMapVars (fun _ => none) (GoMap.ofList [("a.b", .leaf 1), ("a.b.c", .leaf 2)])) := by
  intro h
  let facts : GoMap (Fact Nat) := GoMap.ofList [("a.b", .leaf 1), ("a.b.c", .leaf 2)]
  let found (visited : Visited (Fact Nat)) : Bool :=
    (get ["a", "b", "c"] (some (.map (factMapVars (fun _ => none) facts.entries visited)))).isSome
  have heq := h.same _ _ ⟨facts.entries, facts.entries, .refl _, .refl _, rfl⟩
    ⟨facts.entries, facts.entries.reverse, .refl _, List.reverse_perm _, rfl⟩
  have hfound : found facts.entries = found facts.entries.reverse := by
    simp only [found]
    rw [heq]
  exact absurd hfound (by decide +kernel)

end Kernloom
