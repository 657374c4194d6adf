import Kernloom.EdgeEnforcement
import Kernloom.LastWrite
import Kernloom.ShieldLimits
import Kernloom.SourceFeedback
import Kernloom.SourceMaps

/-! The writers of the shield's source maps: the commands of `klshield` and the transitions of the
agent's source PEP. A packet meets what was last written for its source, in whatever spelling. -/

namespace Kernloom

open LastWrite

section Commands

/-- The source that a text names, in the maps of its family. -/
def namedSource (ip : String) : Option ShieldSource :=
  (parseIP ip).map fun ip =>
    match to4 ip with
    | some v4 => .v4 v4
    | none => .v6 ip

/-- The size of the mask of `net.ParseCIDR`: what the text says behind the slash. -/
def maskOnes (cidr : String) : Option Nat := (cut cidr '/').bind fun p => digitsValue p.2.toList

/-- The kernel refuses a prefix that is longer than its addresses. -/
def LpmTrie.update {w : Nat} (t : LpmTrie w) (k : LpmKey w) : Option (LpmTrie w) :=
  if w < k.prefixlen then none else some (k :: t.erase k)

namespace ShieldConfig

def setDeny (c : ShieldConfig) (v : Option UInt8) : ShieldSource → ShieldConfig
  | .v4 saddr => { c with denyHash := Function.update c.denyHash saddr v }
  | .v6 saddr => { c with deny6Hash := Function.update c.deny6Hash saddr v }

def setRLPolicy (c : ShieldConfig) (v : Option RlCfg) : ShieldSource → ShieldConfig
  | .v4 saddr => { c with rlPolicy4 := Function.update c.rlPolicy4 saddr v }
  | .v6 saddr => { c with rlPolicy6 := Function.update c.rlPolicy6 saddr v }

/-- The rate limit and the denial of a source. -/
def entries (c : ShieldConfig) : ShieldSource → Option RlCfg × Option UInt8
  | .v4 saddr => (c.rlPolicy4 saddr, c.denyHash saddr)
  | .v6 saddr => (c.rlPolicy6 saddr, c.deny6Hash saddr)

def allows (c : ShieldConfig) : ShieldSource → Bool
  | .v4 saddr => c.allowLpm.has saddr
  | .v6 saddr => c.allow6Lpm.has saddr

/-! The commands. One that ends with an error writes nothing; `refused` is the kernel's answer to the
opening of the map or to the write. -/

def addAllowCIDR (refused : Bool) (cidr : String) (c : ShieldConfig) : Option ShieldConfig :=
  if refused then none
  else
    match parseCIDR cidr, maskOnes cidr with
    | some (.v4 ip _), some ones => (c.allowLpm.update ⟨ones, ip⟩).map fun allowLpm => { c with allowLpm }
    | some (.v6 ip _), some ones => (c.allow6Lpm.update ⟨ones, ip⟩).map fun allow6Lpm => { c with allow6Lpm }
    | _, _ => none

def addDenyIP (refused : Bool) (ip : String) (c : ShieldConfig) : Option ShieldConfig :=
  if refused then none else (namedSource ip).map (c.setDeny (some 1))

/-- It is an error that the source is not denied. -/
def delDenyIP (refused : Bool) (ip : String) (c : ShieldConfig) : Option ShieldConfig :=
  if refused then none
  else (namedSource ip).bind fun src =>
    if (c.entries src).2.isNone then none else some (c.setDeny none src)

def enforceAllow (refused : Bool) (word : String) (c : ShieldConfig) : Option ShieldConfig :=
  if refused then none
  else some { c with cfg := some ⟨if toLower word = "on" then 1 else 0⟩ }

def rlSet (refused : Bool) (rate burst : UInt64) (c : ShieldConfig) : Option ShieldConfig :=
  if refused then none else some { c with rlCfg := some ⟨rate, burst⟩ }

def rlSetIP (refused : Bool) (ip : String) (rate burst : UInt64) (c : ShieldConfig) : Option ShieldConfig :=
  if refused then none else (namedSource ip).map (c.setRLPolicy (some ⟨rate, burst⟩))

def rlUnsetIP (refused : Bool) (ip : String) (c : ShieldConfig) : Option ShieldConfig :=
  if refused then none
  else (namedSource ip).bind fun src =>
    if (c.entries src).1.isNone then none else some (c.setRLPolicy none src)

end ShieldConfig

/-- The maps that `reset` clears, as far as it can open them. -/
inductive ResetMap where
  | deny4 | deny6 | rl4 | rl6

namespace ShieldConfig

def resetMaps (opens : ResetMap → Bool) (c : ShieldConfig) : ShieldConfig :=
  { c with
    denyHash := if opens .deny4 then fun _ => none else c.denyHash
    deny6Hash := if opens .deny6 then fun _ => none else c.deny6Hash
    rlPolicy4 := if opens .rl4 then fun _ => none else c.rlPolicy4
    rlPolicy6 := if opens .rl6 then fun _ => none else c.rlPolicy6 }

/-- The agent's PEP over the pinned maps. -/
def pep (c : ShieldConfig) (dryRun : Bool) : ShieldPEP where
  maps := some
    { v4 := { rl := some c.rlPolicy4, deny := some c.denyHash }
      v6 := { rl := some c.rlPolicy6, deny := some c.deny6Hash } }
  dryRun := dryRun

def withPEP (c : ShieldConfig) (a : ShieldPEP) : ShieldConfig :=
  match a.maps with
  | none => c
  | some maps =>
    { c with
      rlPolicy4 := maps.v4.rl.getD c.rlPolicy4
      denyHash := maps.v4.deny.getD c.denyHash
      rlPolicy6 := maps.v6.rl.getD c.rlPolicy6
      deny6Hash := maps.v6.deny.getD c.deny6Hash }

end ShieldConfig

/-- A write to the maps of the sources, by the operator or by the agent. -/
inductive ShieldWrite where
  | addAllowCIDR (refused : Bool) (cidr : String)
  | addDenyIP (refused : Bool) (ip : String)
  | delDenyIP (refused : Bool) (ip : String)
  | enforceAllow (refused : Bool) (word : String)
  | rlSet (refused : Bool) (rate burst : UInt64)
  | rlSetIP (refused : Bool) (ip : String) (rate burst : UInt64)
  | rlUnsetIP (refused : Bool) (ip : String)
  | reset (opens : ResetMap → Bool)
  | transition (dryRun : Bool) (call : ShieldPEP.Call)

def ShieldConfig.write (c : ShieldConfig) : ShieldWrite → ShieldConfig
  | .addAllowCIDR refused cidr => (c.addAllowCIDR refused cidr).getD c
  | .addDenyIP refused ip => (c.addDenyIP refused ip).getD c
  | .delDenyIP refused ip => (c.delDenyIP refused ip).getD c
  | .enforceAllow refused word => (c.enforceAllow refused word).getD c
  | .rlSet refused rate burst => (c.rlSet refused rate burst).getD c
  | .rlSetIP refused ip rate burst => (c.rlSetIP refused ip rate burst).getD c
  | .rlUnsetIP refused ip => (c.rlUnsetIP refused ip).getD c
  | .reset opens => c.resetMaps opens
  | .transition dryRun call => c.withPEP ((c.pep dryRun).after call)

end Commands

section Prefixes

/-- A network has a source of its own family. -/
def IPNet.covers : IPNet → ShieldSource → Prop
  | .v4 net mask, .v4 saddr => net &&& mask = saddr &&& mask
  | .v6 net mask, .v6 saddr => net &&& mask = saddr &&& mask
  | _, _ => False

/-- The number of bits of the addresses of a network. -/
def IPNet.width : IPNet → Nat
  | .v4 .. => 32
  | .v6 .. => 128

/-- A text for the allowlist that the kernel takes, and that has the source. -/
def AllowsCIDR (cidr : String) (src : ShieldSource) : Prop :=
  ∃ net ones, parseCIDR cidr = some net ∧ maskOnes cidr = some ones ∧ ones ≤ net.width ∧ net.covers src

theorem covers_cidrMask_iff {w n : Nat} (h : n ≤ w) (net addr : BitVec w) :
    (LpmKey.mk n net).covers addr = true ↔ net &&& cidrMask n w = addr &&& cidrMask n w := by
  have hbit : ∀ (x : BitVec w) (i : Nat), (x &&& cidrMask n w).getLsbD i =
      (decide (w - n ≤ i) && x.getLsbD i) := by
    intro x i
    by_cases hi : i < w
    · by_cases hlow : i < w - n
      · have hout : ¬ w ≤ i + n := by omega
        simp [cidrMask, hlow, hout]
      · simp [cidrMask, hlow, hi, Nat.le_of_not_lt hlow]
    · simp [BitVec.getLsbD_of_ge _ _ (Nat.le_of_not_lt hi)]
  simp only [LpmKey.covers, h, true_and, decide_eq_true_eq]
  constructor
  · intro hshift
    refine BitVec.eq_of_getLsbD_eq fun i hi => ?_
    rw [hbit, hbit]
    by_cases hlow : w - n ≤ i
    · have := congrArg (fun x : BitVec w => x.getLsbD (i - (w - n))) hshift
      simp only [BitVec.getLsbD_ushiftRight, Nat.add_sub_cancel' hlow] at this
      rw [this]
    · simp [hlow]
  · intro hmask
    refine BitVec.eq_of_getLsbD_eq fun i hi => ?_
    have := congrArg (fun x : BitVec w => x.getLsbD (w - n + i)) hmask
    simp only [hbit, Nat.le_add_right, decide_true, Bool.true_and] at this
    rw [BitVec.getLsbD_ushiftRight, BitVec.getLsbD_ushiftRight, this]

theorem has_update {w : Nat} {t t' : LpmTrie w} {k : LpmKey w} (h : t.update k = some t') (addr : BitVec w) :
    t'.has addr = true ↔ t.has addr = true ∨ k.covers addr = true := by
  unfold LpmTrie.update at h
  split_ifs at h
  obtain rfl := Option.some.inj h
  simp only [LpmTrie.has, List.any_cons, Bool.or_eq_true, List.any_eq_true]
  constructor
  · rintro (hk | ⟨x, hx, hc⟩)
    · exact .inr hk
    · exact .inl ⟨x, List.mem_of_mem_erase hx, hc⟩
  · rintro (⟨x, hx, hc⟩ | hk)
    · by_cases hxk : x = k
      · exact .inl (hxk ▸ hc)
      · exact .inr ⟨x, (List.mem_erase_of_ne hxk).mpr hx, hc⟩
    · exact .inl hk

/-- The parts of a text that is read as a network. -/
theorem parseCIDR_mask {cidr : String} {ones : Nat} (hones : maskOnes cidr = some ones) :
    (∀ ip mask, parseCIDR cidr = some (.v4 ip mask) → ones ≤ 32 → mask = cidrMask ones 32) ∧
      ∀ ip mask, parseCIDR cidr = some (.v6 ip mask) → ones ≤ 128 ∧ mask = cidrMask ones 128 := by
  unfold maskOnes at hones
  unfold parseCIDR
  obtain ⟨⟨addr, size⟩, hcut, hsize⟩ := Option.bind_eq_some_iff.mp hones
  simp only [hcut, hsize]
  cases hip : parseIP addr with
  | none => simp
  | some ip =>
    simp only
    by_cases hdot : isDotted addr = true
    · by_cases hn : ones ≤ 32
      · cases hv4 : to4 ip <;> simp +contextual [hdot, hn]
      · simp [hdot, hn]
    · by_cases hn : ones ≤ 128
      · cases hv4 : to4 (ip &&& cidrMask ones 128) with
        | none => simp +contextual [hdot, hn]
        | some v4 =>
          simp only [hdot, hn, if_true, if_false, Option.some.injEq, IPNet.v4.injEq, reduceCtorEq,
            Bool.false_eq_true, IsEmpty.forall_iff, implies_true, and_true]
          rintro _ _ ⟨-, -⟩ hle
          -- the mask of so short a prefix leaves no IPv4-mapped address
          exfalso
          unfold to4 at hv4
          split_ifs at hv4 with hmapped
          have hbit : (ip &&& cidrMask ones 128).getLsbD 32 = true := by
            rw [BitVec.getLsbD, Nat.testBit_eq_decide_div_mod_eq, hmapped]
            rfl
          have hlow : ¬ 128 - ones ≤ 32 := by omega
          simp [cidrMask, Nat.lt_of_not_le hlow] at hbit
      · simp [hdot, hn]

theorem allows_addAllowCIDR (c : ShieldConfig) (src : ShieldSource) (refused : Bool) (cidr : String) :
    ((c.addAllowCIDR refused cidr).getD c).allows src = true ↔
      c.allows src = true ∨ (refused = false ∧ AllowsCIDR cidr src) := by
  cases refused with
  | true => simp [ShieldConfig.addAllowCIDR]
  | false =>
    simp only [ShieldConfig.addAllowCIDR, Bool.false_eq_true, if_false, true_and]
    cases hnet : parseCIDR cidr with
    | none => simp [AllowsCIDR, hnet]
    | some net =>
      cases hones : maskOnes cidr with
      | none => cases net <;> simp [AllowsCIDR, hones]
      | some ones =>
        obtain ⟨h4, h6⟩ := parseCIDR_mask hones
        cases net with
        | v4 ip mask =>
          by_cases hle : ones ≤ 32
          · obtain rfl := h4 ip mask hnet hle
            have hput : c.allowLpm.update ⟨ones, ip⟩ = some (⟨ones, ip⟩ :: c.allowLpm.erase ⟨ones, ip⟩) := by
              simp [LpmTrie.update, Nat.not_lt.mpr hle]
            simp only [hput, Option.map_some, Option.getD_some]
            cases src with
            | v4 saddr =>
              rw [ShieldConfig.allows, has_update hput, covers_cidrMask_iff hle]
              simp [ShieldConfig.allows, AllowsCIDR, hnet, hones, IPNet.width, hle, IPNet.covers]
            | v6 saddr => simp [ShieldConfig.allows, AllowsCIDR, hnet, IPNet.covers]
          · have hput : c.allowLpm.update ⟨ones, ip⟩ = none := by
              simp [LpmTrie.update, Nat.lt_of_not_le hle]
            simp [hput, AllowsCIDR, hnet, hones, IPNet.width, hle]
        | v6 ip mask =>
          obtain ⟨hle, rfl⟩ := h6 ip mask hnet
          have hput : c.allow6Lpm.update ⟨ones, ip⟩ = some (⟨ones, ip⟩ :: c.allow6Lpm.erase ⟨ones, ip⟩) := by
            simp [LpmTrie.update, Nat.not_lt.mpr hle]
          simp only [hput, Option.map_some, Option.getD_some]
          cases src with
          | v4 saddr => simp [ShieldConfig.allows, AllowsCIDR, hnet, IPNet.covers]
          | v6 saddr =>
            rw [ShieldConfig.allows, has_update hput, covers_cidrMask_iff hle]
            simp [ShieldConfig.allows, AllowsCIDR, hnet, hones, IPNet.width, hle, IPNet.covers]

end Prefixes

section Entries

/-- The operations that a call makes: none after the first that the kernel refuses. -/
def ShieldPEP.Call.made (call : ShieldPEP.Call) : List MapCall :=
  let (first, second) := SourceMaps.calls call.level
  if (call.answers first).isSome then []
  else if (call.answers second).isSome then [first]
  else [first, second]

def MapCall.denies : MapCall → Option Bool
  | .deleteDeny => some false
  | .updateDeny => some true
  | _ => none

def MapCall.limits (val : RlCfg) : MapCall → Option (Option RlCfg)
  | .deleteRL => some none
  | .updateRL => some (some val)
  | _ => none

/-- A family of maps with both maps loaded. -/
structure SourceMaps.Loaded {A : Type} (maps : SourceMaps A) : Prop where
  rl : maps.rl.isSome = true
  deny : maps.deny.isSome = true

theorem SourceMaps.Loaded.fails_iff {A : Type} {maps : SourceMaps A} (h : maps.Loaded) (answers : KernelAnswers)
    (call : MapCall) : SourceMaps.Fails answers maps call ↔ (answers call).isSome = true := by
  cases call <;> simp [SourceMaps.Fails, h.rl, h.deny]

theorem applyLevel_made {A : Type} [DecidableEq A] {maps : SourceMaps A} (h : maps.Loaded) (family ip : String)
    (key : A) (call : ShieldPEP.Call) : ∃ r maps',
      SourceMaps.applyLevel family ip call.answers key call.params call.level maps = (r, maps') ∧ maps'.Loaded ∧
        ∀ other, maps'.entries other = if other = key then
          call.made.foldl (fun e m => SourceMaps.written (SourceMaps.levelLimit call.params call.level) m e)
            (maps.entries key) else maps.entries other := by
  obtain ⟨r, maps', heq, hframe, hcases⟩ :=
    SourceMaps.applyLevel_cases family ip call.answers key call.params call.level maps
  refine ⟨r, maps', heq, ⟨hframe.rl_loaded.trans h.rl, hframe.deny_loaded.trans h.deny⟩, fun other => ?_⟩
  by_cases hkey : other = key
  · subst hkey
    rw [if_pos rfl]
    simp only [h.fails_iff] at hcases
    rcases hcases with ⟨hf, -, rfl⟩ | ⟨hf, hs, -, hentries⟩ | ⟨hf, hs, -, hentries⟩
    · simp [ShieldPEP.Call.made, hf]
    · simp [ShieldPEP.Call.made, hf, hs, hentries]
    · rw [hentries, ← SourceMaps.written_written call.params call.level (maps.entries other)]
      simp [ShieldPEP.Call.made, hf, hs]
  · rw [if_neg hkey, hframe.others other hkey]

theorem transition_maps {a : ShieldPEP} {maps maps' : ShieldMaps} {r : Fallible Unit}
    {applied : ShieldMaps → Fallible Unit × ShieldMaps} (hdry : a.dryRun = false) (hmaps : a.maps = some maps)
    (happlied : applied maps = (r, maps')) (st : FsmState) (level : Level) (now : Time) (p : EnforcementParams) :
    (a.transition applied st level now p).2.maps = some maps' := by
  unfold ShieldPEP.transition
  simp only [hdry, Bool.false_eq_true, if_false, hmaps, happlied]
  cases r <;> rfl

theorem after_dryRun {a : ShieldPEP} (hdry : a.dryRun = true) (call : ShieldPEP.Call) : a.after call = a := by
  unfold ShieldPEP.after ShieldPEP.transitionSource ShieldPEP.transitionV4 ShieldPEP.transitionV6
    ShieldPEP.transition
  simp only [hdry, if_true]
  split
  · rfl
  · split <;> rfl

/-- The entries of a source after a call: those of the named source are written in order. -/
theorem entries_transition (c : ShieldConfig) (dryRun : Bool) (call : ShieldPEP.Call) (src : ShieldSource) :
    (c.withPEP ((c.pep dryRun).after call)).entries src =
      if dryRun = false ∧ namedSource call.target.id = some src then
        call.made.foldl (fun e m => SourceMaps.written (SourceMaps.levelLimit call.params call.level) m e)
          (c.entries src)
      else c.entries src := by
  cases dryRun with
  | true =>
    rw [if_neg (by simp), after_dryRun rfl]
    cases src <;> rfl
  | false =>
    unfold ShieldPEP.after ShieldPEP.transitionSource namedSource
    cases hip : parseIP call.target.id with
    | none => cases src <;> rfl
    | some ip =>
      cases hv4 : to4 ip with
      | some v4 =>
        obtain ⟨r, maps, heq, hloaded, hentries⟩ :=
          applyLevel_made (show SourceMaps.Loaded ⟨some c.rlPolicy4, some c.denyHash⟩ from ⟨rfl, rfl⟩) "v4"
            (ipString4 v4) v4 call
        obtain ⟨rl, hrl⟩ := Option.isSome_iff_exists.mp hloaded.rl
        obtain ⟨deny, hdeny⟩ := Option.isSome_iff_exists.mp hloaded.deny
        simp only [SourceMaps.entries, hrl, hdeny, Option.bind_some] at hentries
        have hafter : ((c.pep false).transitionV4 call.answers v4 call.state call.level call.now call.params).2.maps =
            some ⟨maps, ⟨some c.rlPolicy6, some c.deny6Hash⟩⟩ :=
          transition_maps (r := r) rfl rfl (by simp only [heq]) ..
        simp only [ShieldConfig.withPEP, hv4, hafter, hrl, hdeny, Option.getD_some, Option.map_some,
          Option.some.injEq, true_and]
        cases src with
        | v4 saddr =>
          simp only [ShieldConfig.entries, ShieldSource.v4.injEq, hentries saddr, eq_comm (a := v4)]
          split_ifs with hsaddr
          · rw [hsaddr]
          · rfl
        | v6 saddr => simp [ShieldConfig.entries]
      | none =>
        obtain ⟨r, maps, heq, hloaded, hentries⟩ :=
          applyLevel_made (show SourceMaps.Loaded ⟨some c.rlPolicy6, some c.deny6Hash⟩ from ⟨rfl, rfl⟩) "v6"
            (ipString ip) ip call
        obtain ⟨rl, hrl⟩ := Option.isSome_iff_exists.mp hloaded.rl
        obtain ⟨deny, hdeny⟩ := Option.isSome_iff_exists.mp hloaded.deny
        simp only [SourceMaps.entries, hrl, hdeny, Option.bind_some] at hentries
        have hafter : ((c.pep false).transitionV6 call.answers ip call.state call.level call.now call.params).2.maps =
            some ⟨⟨some c.rlPolicy4, some c.denyHash⟩, maps⟩ :=
          transition_maps (r := r) rfl rfl (by simp only [heq]) ..
        simp only [ShieldConfig.withPEP, hv4, hafter, hrl, hdeny, Option.getD_some, Option.map_some,
          Option.some.injEq, true_and]
        cases src with
        | v6 saddr =>
          simp only [ShieldConfig.entries, ShieldSource.v6.injEq, hentries saddr, eq_comm (a := ip)]
          split_ifs with hsaddr
          · rw [hsaddr]
          · rfl
        | v4 saddr => simp [ShieldConfig.entries]

end Entries

section Effects

def ShieldConfig.denies (c : ShieldConfig) (src : ShieldSource) : Bool := (c.entries src).2.isSome

/-- The limit of the source itself. -/
def ShieldConfig.limit (c : ShieldConfig) (src : ShieldSource) : Option RlCfg := (c.entries src).1

def ShieldSource.denyMap : ShieldSource → ResetMap
  | .v4 _ => .deny4
  | .v6 _ => .deny6

def ShieldSource.rlMap : ShieldSource → ResetMap
  | .v4 _ => .rl4
  | .v6 _ => .rl6

/-- What a write says about the denial of a source, if anything. -/
def denyWrite (src : ShieldSource) : ShieldWrite → Option Bool
  | .addDenyIP refused ip => if refused = false ∧ namedSource ip = some src then some true else none
  | .delDenyIP refused ip => if refused = false ∧ namedSource ip = some src then some false else none
  | .reset opens => if opens src.denyMap then some false else none
  | .transition dryRun call =>
    if dryRun = false ∧ namedSource call.target.id = some src then
      (call.made.filterMap MapCall.denies).getLast?
    else none
  | _ => none

/-- What a write says about the limit of a source. -/
def limitWrite (src : ShieldSource) : ShieldWrite → Option (Option RlCfg)
  | .rlSetIP refused ip rate burst =>
    if refused = false ∧ namedSource ip = some src then some (some ⟨rate, burst⟩) else none
  | .rlUnsetIP refused ip => if refused = false ∧ namedSource ip = some src then some none else none
  | .reset opens => if opens src.rlMap then some none else none
  | .transition dryRun call =>
    if dryRun = false ∧ namedSource call.target.id = some src then
      (call.made.filterMap (MapCall.limits (SourceMaps.levelLimit call.params call.level))).getLast?
    else none
  | _ => none

def defaultWrite : ShieldWrite → Option (Option RlCfg)
  | .rlSet false rate burst => some (some ⟨rate, burst⟩)
  | _ => none

def enforceWrite : ShieldWrite → Option Bool
  | .enforceAllow false word => some (toLower word = "on")
  | _ => none

/-- A write puts a range with the source on the allowlist. -/
def AllowWrite (src : ShieldSource) : ShieldWrite → Prop
  | .addAllowCIDR refused cidr => refused = false ∧ AllowsCIDR cidr src
  | _ => False

variable (c : ShieldConfig) (src other : ShieldSource)

theorem entries_setDeny (v : Option UInt8) : (c.setDeny v other).entries src =
    if other = src then ((c.entries src).1, v) else c.entries src := by
  cases other <;> cases src <;> simp only [ShieldConfig.setDeny, ShieldConfig.entries,
    Function.update_apply, ShieldSource.v4.injEq, ShieldSource.v6.injEq, reduceCtorEq, if_false] <;>
    split_ifs <;> simp_all

theorem entries_setRLPolicy (v : Option RlCfg) : (c.setRLPolicy v other).entries src =
    if other = src then (v, (c.entries src).2) else c.entries src := by
  cases other <;> cases src <;> simp only [ShieldConfig.setRLPolicy, ShieldConfig.entries,
    Function.update_apply, ShieldSource.v4.injEq, ShieldSource.v6.injEq, reduceCtorEq, if_false] <;>
    split_ifs <;> simp_all

/-- What a write does to the entries of a source. -/
def entryWrite (src : ShieldSource) (w : ShieldWrite) (e : Option RlCfg × Option UInt8) :
    Option RlCfg × Option UInt8 :=
  match w with
  | .addDenyIP refused ip => if refused = false ∧ namedSource ip = some src then (e.1, some 1) else e
  | .delDenyIP refused ip => if refused = false ∧ namedSource ip = some src then (e.1, none) else e
  | .rlSetIP refused ip rate burst =>
    if refused = false ∧ namedSource ip = some src then (some ⟨rate, burst⟩, e.2) else e
  | .rlUnsetIP refused ip => if refused = false ∧ namedSource ip = some src then (none, e.2) else e
  | .reset opens => (if opens src.rlMap then none else e.1, if opens src.denyMap then none else e.2)
  | .transition dryRun call =>
    if dryRun = false ∧ namedSource call.target.id = some src then
      call.made.foldl (fun e m => SourceMaps.written (SourceMaps.levelLimit call.params call.level) m e) e
    else e
  | .addAllowCIDR .. | .enforceAllow .. | .rlSet .. => e

theorem entries_addAllowCIDR (refused : Bool) (cidr : String) :
    ((c.addAllowCIDR refused cidr).getD c).entries src = c.entries src := by
  unfold ShieldConfig.addAllowCIDR LpmTrie.update
  split_ifs
  · rfl
  · split
    · split_ifs <;> cases src <;> rfl
    · split_ifs <;> cases src <;> rfl
    · rfl

theorem entries_write (w : ShieldWrite) : (c.write w).entries src = entryWrite src w (c.entries src) := by
  cases w with
  | addAllowCIDR refused cidr => exact entries_addAllowCIDR c src refused cidr
  | enforceAllow refused word => cases refused <;> cases src <;> rfl
  | rlSet refused rate burst => cases refused <;> cases src <;> rfl
  | addDenyIP refused ip =>
    cases refused <;> cases hname : namedSource ip <;>
      simp [ShieldConfig.write, ShieldConfig.addDenyIP, entryWrite, hname, entries_setDeny]
  | rlSetIP refused ip rate burst =>
    cases refused <;> cases hname : namedSource ip <;>
      simp [ShieldConfig.write, ShieldConfig.rlSetIP, entryWrite, hname, entries_setRLPolicy]
  | delDenyIP refused ip =>
    cases refused with
    | true => rfl
    | false =>
      cases hname : namedSource ip with
      | none => simp [ShieldConfig.write, ShieldConfig.delDenyIP, entryWrite, hname]
      | some named =>
        -- there is nothing to delete when the command ends with an error
        have hdel : ((c.delDenyIP false ip).getD c).entries src =
            if named = src then ((c.entries src).1, none) else c.entries src := by
          simp only [ShieldConfig.delDenyIP, Bool.false_eq_true, if_false, hname, Option.bind_some]
          split_ifs with hnone hsrc
          · rw [← Option.isNone_iff_eq_none.mp hnone, hsrc]
            rfl
          · rfl
          · rw [Option.getD_some, entries_setDeny, if_pos (by assumption)]
          · rw [Option.getD_some, entries_setDeny, if_neg (by assumption)]
        simpa [ShieldConfig.write, entryWrite, hname] using hdel
  | rlUnsetIP refused ip =>
    cases refused with
    | true => rfl
    | false =>
      cases hname : namedSource ip with
      | none => simp [ShieldConfig.write, ShieldConfig.rlUnsetIP, entryWrite, hname]
      | some named =>
        have hunset : ((c.rlUnsetIP false ip).getD c).entries src =
            if named = src then (none, (c.entries src).2) else c.entries src := by
          simp only [ShieldConfig.rlUnsetIP, Bool.false_eq_true, if_false, hname, Option.bind_some]
          split_ifs with hnone hsrc
          · rw [← Option.isNone_iff_eq_none.mp hnone, hsrc]
            rfl
          · rfl
          · rw [Option.getD_some, entries_setRLPolicy, if_pos (by assumption)]
          · rw [Option.getD_some, entries_setRLPolicy, if_neg (by assumption)]
        simpa [ShieldConfig.write, entryWrite, hname] using hunset
  | reset opens =>
    cases src <;> simp only [ShieldConfig.write, ShieldConfig.resetMaps, ShieldConfig.entries, entryWrite,
      ite_apply] <;> rfl
  | transition dryRun call => exact entries_transition c dryRun call src

theorem made_denies (val : RlCfg) (made : List MapCall) (e : Option RlCfg × Option UInt8) :
    (made.foldl (fun e m => SourceMaps.written val m e) e).2.isSome =
      final MapCall.denies e.2.isSome made :=
  register_foldl (fun e : Option RlCfg × Option UInt8 => e.2.isSome)
    (fun _ m => by cases m <;> rfl) e made

theorem made_limits (val : RlCfg) (made : List MapCall) (e : Option RlCfg × Option UInt8) :
    (made.foldl (fun e m => SourceMaps.written val m e) e).1 = final (MapCall.limits val) e.1 made :=
  register_foldl (fun e : Option RlCfg × Option UInt8 => e.1) (fun _ m => by cases m <;> rfl) e made

/-- Every write leaves a source denied as it says, or as it was. -/
theorem denies_write (w : ShieldWrite) : (c.write w).denies src = (denyWrite src w).getD (c.denies src) := by
  rw [ShieldConfig.denies, entries_write, ShieldConfig.denies]
  cases w with
  | transition dryRun call =>
    simp only [entryWrite, denyWrite]
    split_ifs
    · exact made_denies ..
    · rfl
  | addDenyIP | delDenyIP | rlSetIP | rlUnsetIP | reset =>
    simp only [entryWrite, denyWrite]
    split_ifs <;> rfl
  | addAllowCIDR | enforceAllow | rlSet => rfl

theorem limit_write (w : ShieldWrite) : (c.write w).limit src = (limitWrite src w).getD (c.limit src) := by
  rw [ShieldConfig.limit, entries_write, ShieldConfig.limit]
  cases w with
  | transition dryRun call =>
    simp only [entryWrite, limitWrite]
    split_ifs
    · exact made_limits ..
    · rfl
  | addDenyIP | delDenyIP | rlSetIP | rlUnsetIP | reset =>
    simp only [entryWrite, limitWrite]
    split_ifs <;> rfl
  | addAllowCIDR | enforceAllow | rlSet => rfl

/-- A configuration without its entries for the sources. -/
def ShieldConfig.lists (c : ShieldConfig) : ShieldConfig :=
  { c with
    denyHash := fun _ => none, deny6Hash := fun _ => none
    rlPolicy4 := fun _ => none, rlPolicy6 := fun _ => none }

/-- Writes of the entries of a source. -/
def ShieldWrite.OfEntries : ShieldWrite → Prop
  | .addAllowCIDR .. | .enforceAllow .. | .rlSet .. => False
  | _ => True

/-- A write of entries leaves the rest of the configuration alone. -/
theorem lists_write {w : ShieldWrite} (h : w.OfEntries) : (c.write w).lists = c.lists := by
  cases w with
  | addAllowCIDR | enforceAllow | rlSet => exact h.elim
  | addDenyIP refused ip | rlSetIP refused ip =>
    cases refused with
    | true => rfl
    | false =>
      simp only [ShieldConfig.write, ShieldConfig.addDenyIP, ShieldConfig.rlSetIP, Bool.false_eq_true, if_false]
      cases namedSource ip with
      | none => rfl
      | some named => cases named <;> rfl
  | delDenyIP refused ip | rlUnsetIP refused ip =>
    cases refused with
    | true => rfl
    | false =>
      simp only [ShieldConfig.write, ShieldConfig.delDenyIP, ShieldConfig.rlUnsetIP, Bool.false_eq_true, if_false]
      cases namedSource ip with
      | none => rfl
      | some named =>
        simp only [Option.bind_some]
        split_ifs
        · rfl
        · cases named <;> rfl
  | reset opens => rfl
  | transition dryRun call =>
    simp only [ShieldConfig.write, ShieldConfig.withPEP]
    split <;> rfl

theorem allows_write (w : ShieldWrite) :
    (c.write w).allows src = true ↔ c.allows src = true ∨ AllowWrite src w := by
  have hlists : ∀ c : ShieldConfig, c.lists.allows src = c.allows src := fun c => by cases src <;> rfl
  cases w with
  | addAllowCIDR refused cidr => exact allows_addAllowCIDR c src refused cidr
  | enforceAllow refused | rlSet refused => cases refused <;> cases src <;> simp [AllowWrite] <;> rfl
  | addDenyIP | delDenyIP | rlSetIP | rlUnsetIP | reset | transition =>
    rw [← hlists, lists_write c (by trivial), hlists]
    simp [AllowWrite]

theorem addAllowCIDR_frame (refused : Bool) (cidr : String) :
    ∃ l4 l6, (c.addAllowCIDR refused cidr).getD c = { c with allowLpm := l4, allow6Lpm := l6 } := by
  unfold ShieldConfig.addAllowCIDR LpmTrie.update
  split_ifs
  · exact ⟨_, _, rfl⟩
  · split
    · split_ifs <;> exact ⟨_, _, rfl⟩
    · split_ifs <;> exact ⟨_, _, rfl⟩
    · exact ⟨_, _, rfl⟩

theorem enforce_write (w : ShieldWrite) : (c.write w).enforce = (enforceWrite w).getD c.enforce := by
  cases w with
  | addAllowCIDR refused cidr =>
    obtain ⟨l4, l6, h⟩ := addAllowCIDR_frame c refused cidr
    rw [ShieldConfig.write, h]
    rfl
  | enforceAllow refused word =>
    cases refused with
    | true => rfl
    | false => by_cases hon : toLower word = "on" <;> simp [ShieldConfig.write, ShieldConfig.enforceAllow,
        ShieldConfig.enforce, enforceWrite, hon]
  | rlSet refused => cases refused <;> rfl
  | reset => rfl
  | addDenyIP | delDenyIP | rlSetIP | rlUnsetIP | transition =>
    change (c.write _).lists.enforce = c.lists.enforce
    rw [lists_write c (by trivial)]

theorem rlCfg_write (w : ShieldWrite) : (c.write w).rlCfg = (defaultWrite w).getD c.rlCfg := by
  cases w with
  | addAllowCIDR refused cidr =>
    obtain ⟨l4, l6, h⟩ := addAllowCIDR_frame c refused cidr
    rw [ShieldConfig.write, h]
    rfl
  | enforceAllow refused | rlSet refused => cases refused <;> rfl
  | reset => rfl
  | addDenyIP | delDenyIP | rlSetIP | rlUnsetIP | transition =>
    change (c.write _).lists.rlCfg = c.lists.rlCfg
    rw [lists_write c (by trivial)]

/-- The maps of the flows. -/
def ShieldConfig.flows (c : ShieldConfig) : ShieldConfig where
  edgeMode := c.edgeMode
  edgeDeny := c.edgeDeny
  edgeAllow := c.edgeAllow
  edgeRLPolicy := c.edgeRLPolicy

theorem flows_write (w : ShieldWrite) : (c.write w).flows = c.flows := by
  cases w with
  | addAllowCIDR refused cidr =>
    obtain ⟨l4, l6, h⟩ := addAllowCIDR_frame c refused cidr
    rw [ShieldConfig.write, h]
    rfl
  | enforceAllow refused | rlSet refused => cases refused <;> rfl
  | reset => rfl
  | addDenyIP | delDenyIP | rlSetIP | rlUnsetIP | transition =>
    change (c.write _).lists.flows = c.lists.flows
    rw [lists_write c (by trivial)]

end Effects

section Verdict

variable {c : ShieldConfig} {ctx : XdpContext} {data : PacketBytes} {s : ShieldState} {src : ShieldSource}

/-- The flow of a packet passes the checks of its tuple. -/
def ShieldConfig.FlowPasses (c : ShieldConfig) (ctx : XdpContext) (s : ShieldState) : Parsed → Prop
  | .v4 p => p.l4.dport ≠ 0 → ∀ mode, c.edgeMode = some mode → mode ≠ 0 →
      c.edgeDenies mode p.edgeKey = false ∧
        c.edgeRLPasses p.edgeKey (s.edgeRLState p.edgeKey) ctx.now ctx.room.edgeRL = true
  | _ => True

theorem checkSource_pass_iff {enforce inAllow inDeny room : Bool} {use : Option RlCfg}
    {bucket : Option RlState} {now : UInt64} :
    (checkSource enforce inAllow inDeny use bucket now room).1.drops.action = .pass ↔
      (enforce = true → inAllow = true) ∧ inDeny = false ∧
        ∀ cfg, use = some cfg → (rateLimit cfg bucket now room).1 = true := by
  unfold checkSource
  cases enforce <;> cases inAllow <;> cases inDeny <;> cases use with
  | none => simp [Drops.action]
  | some cfg => cases hlimit : (rateLimit cfg bucket now room).1 <;> simp [Drops.action, hlimit]

/-- A packet passes when each of its checks does. -/
theorem xdpKlshield_pass (hsrc : (parsePacket data).source = some src) :
    (xdpKlshield c ctx data s).1 = .pass ↔
      (c.enforce = true → c.allows src = true) ∧ c.denies src = false ∧
        (∀ cfg, selectRL c.rlCfg (c.limit src) = some cfg →
          (rateLimit cfg (s.rlState src) ctx.now ctx.room.rl).1 = true) ∧
        c.FlowPasses ctx s (parsePacket data) := by
  cases hparse : parsePacket data with
  | other => simp [hparse, Parsed.source] at hsrc
  | v4 p =>
    rw [hparse] at hsrc
    obtain rfl := Option.some.inj hsrc
    rw [xdpKlshield_pass_iff hparse]
    refine (and_congr_left' checkSource_pass_iff).trans ?_
    simp only [and_assoc]
    rfl
  | v6 p =>
    rw [hparse] at hsrc
    obtain rfl := Option.some.inj hsrc
    rw [xdpKlshield_v6 hparse]
    refine checkSource_pass_iff.trans ?_
    simp only [ShieldConfig.FlowPasses, and_true]
    rfl

/-- After any writes of the operator and of the agent a packet is passed exactly when the allowlist, if
the last word enforced it, has a range with its source, the last word on its source is no denial, the
limit last set for it takes the packet, and its flow passes. -/
theorem verdict_of_writes (ws : List ShieldWrite) (hsrc : (parsePacket data).source = some src) :
    (xdpKlshield (ws.foldl ShieldConfig.write c) ctx data s).1 = .pass ↔
      (final enforceWrite c.enforce ws = true → c.allows src = true ∨ ∃ w ∈ ws, AllowWrite src w) ∧
        final (denyWrite src) (c.denies src) ws = false ∧
        (∀ cfg, selectRL (final defaultWrite c.rlCfg ws) (final (limitWrite src) (c.limit src) ws) = some cfg →
          (rateLimit cfg (s.rlState src) ctx.now ctx.room.rl).1 = true) ∧
        c.FlowPasses ctx s (parsePacket data) := by
  have hflows : ∀ c' : ShieldConfig, c'.flows.FlowPasses ctx s (parsePacket data) ↔
      c'.FlowPasses ctx s (parsePacket data) := fun c' => by cases parsePacket data <;> exact Iff.rfl
  have hsame : (ws.foldl ShieldConfig.write c).flows = c.flows := by
    induction ws using List.reverseRecOn with
    | nil => rfl
    | append_singleton ws w ih => rw [List.foldl_concat, flows_write, ih]
  rw [xdpKlshield_pass hsrc, register_foldl ShieldConfig.enforce enforce_write,
    register_foldl (fun c => c.denies src) (fun c => denies_write c src),
    register_foldl (fun c => c.limit src) (fun c => limit_write c src),
    register_foldl ShieldConfig.rlCfg rlCfg_write,
    grows_foldl (fun c => c.allows src = true) (fun c => allows_write c src), ← hflows, hsame, hflows]

/-- A denial in the IPv4-mapped spelling drops the packets of the IPv4 source. -/
theorem denied_in_mapped_form : (xdpKlshield ([.addDenyIP false "::ffff:192.0.2.7"].foldl ShieldConfig.write {})
    ⟨0, 1, {}⟩ (udpPacket 0 53) {}).1 ≠ .pass := by
  have hsrc : (parsePacket (udpPacket 0 53)).source = some (.v4 fixtureSource) := by
    rw [parse_udpPacket]
    rfl
  have hname : namedSource "::ffff:192.0.2.7" = some (.v4 fixtureSource) := by decide +kernel
  rw [Ne, verdict_of_writes _ hsrc]
  simp [final, denyWrite, hname]

end Verdict

end Kernloom
