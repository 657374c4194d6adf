import Kernloom.Base64
import Kernloom.PolicyFile

/-! The signature line of a policy file: where the file is cut, and that nothing but the part before the
cut, which is what was signed, reaches the parsers. -/

namespace Kernloom

open Base64 (Bytes Encoding lastIndex blanks)

section Split

variable (base64 : Encoding)

def newline : UInt8 := 10

/-- The text `signature: `. -/
def signatureKey : Bytes := [115, 105, 103, 110, 97, 116, 117, 114, 101, 58, 32]

/-- The key at the start of a line. -/
def signatureMarker : Bytes := newline :: signatureKey

/-- The content of a file and its signature, if the file has one. -/
def splitSignature (data : Bytes) : Bytes × Option Bytes :=
  match lastIndex signatureMarker data with
  | none => (data, none)
  | some idx =>
    let content := data.take (idx + 1)
    let sigLine := (data.drop (idx + signatureMarker.length)).rdropWhile fun c => c ∈ blanks
    match base64.decode sigLine with
    | none => (data, none)
    | some decoded => (content, some decoded)

/-- The line that the signer of a content appends to it. -/
def signatureLine (sig : Bytes) : Bytes := signatureKey ++ base64.encode sig

theorem newline_notMem_signatureKey : newline ∉ signatureKey := by decide

/-- After the last line end before the signature line there is no other marker. -/
theorem lastIndex_signed (before sig lineEnd : Bytes) (hend : ∀ c ∈ lineEnd, c ∈ blanks) :
    lastIndex signatureMarker (before ++ newline :: (signatureKey ++ (base64.encode sig ++ lineEnd))) =
      some before.length := by
  have hkey : (115 : UInt8) ∉ lineEnd := fun h => absurd (hend _ h) (by decide)
  have hencoded : newline ∉ base64.encode sig := fun h => base64.encode_blank sig _ h (by decide)
  have hnone : lastIndex signatureMarker lineEnd = none := Base64.lastIndex_eq_none (by decide) hkey
  refine Base64.lastIndex_last before ?_
  refine Base64.lastIndex_append_none newline_notMem_signatureKey ?_
  exact Base64.lastIndex_append_none hencoded hnone

/-- A content that ends a line is split off its signature line, whatever blanks end that line. -/
theorem splitSignature_signed (before sig lineEnd : Bytes) (hend : ∀ c ∈ lineEnd, c ∈ blanks) :
    splitSignature base64 (before ++ [newline] ++ signatureLine base64 sig ++ lineEnd) =
      (before ++ [newline], some sig) := by
  have hdata : before ++ [newline] ++ signatureLine base64 sig ++ lineEnd =
      before ++ newline :: (signatureKey ++ (base64.encode sig ++ lineEnd)) := by
    simp [signatureLine, List.append_assoc]
  have htrimmed : (base64.encode sig ++ lineEnd).rdropWhile (fun c => c ∈ blanks) = base64.encode sig := by
    rw [Base64.rdropWhile_append_of_all fun c hc => decide_eq_true (hend c hc)]
    exact Base64.rdropWhile_of_none fun c hc h => base64.encode_blank sig c hc (of_decide_eq_true h)
  have hcontent : (before ++ newline :: (signatureKey ++ (base64.encode sig ++ lineEnd))).take
      (before.length + 1) =
      before ++ [newline] := List.take_length_add_append 1
  have hrest : (before ++ newline :: (signatureKey ++ (base64.encode sig ++ lineEnd))).drop
      (before.length + signatureMarker.length) = base64.encode sig ++ lineEnd := by
    rw [List.drop_length_add_append]
    exact List.drop_left
  rw [hdata, splitSignature, lastIndex_signed base64 before sig lineEnd hend]
  dsimp only
  rw [hcontent, hrest, htrimmed, base64.decode_encode]

end Split

section Load

structure PolicyParsers where
  kind : Bytes → Except String String
  localPack : Bytes → Except String LocalPolicyPack
  runtimePack : Bytes → Except String RuntimePolicyPack

structure PolicyParsers.AgreeOn (content : Bytes) (parsers parsers' : PolicyParsers) : Prop where
  kind : parsers.kind content = parsers'.kind content
  localPack : parsers.localPack content = parsers'.localPack content
  runtimePack : parsers.runtimePack content = parsers'.runtimePack content

variable {κ : Type} (base64 : Encoding) (verify : κ → Bytes → Bytes → Bool)
  (loadPublicKey : String → Except String κ) (parsers : PolicyParsers)

/-- `VerifyPack`; `verify` is that of Ed25519. -/
def verifyPack (data : Bytes) (pubKey : κ) : Check :=
  match splitSignature base64 data with
  | (_, none) => .error "policy pack is not signed (signature line missing)"
  | (content, some sig) =>
    if verify pubKey content sig then .ok () else .error "policy pack signature verification failed"

/-- Policy files as bytes: each of the parsers is handed the content. -/
def signedFiles : PackServices Bytes κ where
  verifyPack := verifyPack base64 verify
  loadPublicKey := loadPublicKey
  packKind raw := parsers.kind (splitSignature base64 raw).1
  parseLocal raw := parsers.localPack (splitSignature base64 raw).1
  parseRuntime raw := parsers.runtimePack (splitSignature base64 raw).1

def contentFiles : PackServices Bytes Unit where
  verifyPack _ _ := .ok ()
  loadPublicKey _ := .ok ()
  packKind := parsers.kind
  parseLocal := parsers.localPack
  parseRuntime := parsers.runtimePack

/-- What the loader makes of a content; the file is not looked at any more. -/
def parseContent (source : String) (content : Bytes) : Except String LoadedPolicyFile := do
  let kind ← errorAt ("policy: parse kind " ++ source) (parsers.kind content)
  parsePolicyFile (contentFiles parsers) content source kind

variable {parsers} in
theorem PolicyParsers.AgreeOn.parseContent_eq {parsers' : PolicyParsers} {content : Bytes}
    (h : parsers.AgreeOn content parsers') (source : String) :
    parseContent parsers source content = parseContent parsers' source content := by
  unfold parseContent parsePolicyFile parseRuntimePolicyPack contentFiles
  simp only [h.kind, h.localPack, h.runtimePack]

theorem verifyPack_eq_ok {raw : Bytes} {key : κ} (h : verifyPack base64 verify raw key = .ok ()) :
    ∃ content sig, splitSignature base64 raw = (content, some sig) ∧ verify key content sig = true := by
  unfold verifyPack at h
  rcases hsplit : splitSignature base64 raw with ⟨content, _ | sig⟩
  · simp [hsplit] at h
  · refine ⟨content, sig, rfl, ?_⟩
    rw [hsplit] at h
    by_contra hforged
    simp [hforged] at h

/-- An accepted file is the parse of its content, and the content is what the signature is on. -/
theorem load_eq_parseContent {raw : Bytes} {source : String} {key : κ} {loaded : LoadedPolicyFile}
    (h : loadPolicyBytes (signedFiles base64 verify loadPublicKey parsers) raw source (some key) =
      .ok loaded) :
    ∃ content sig, splitSignature base64 raw = (content, some sig) ∧ verify key content sig = true ∧
      parseContent parsers source content = .ok loaded := by
  unfold loadPolicyBytes at h
  cases hverified : errorAt ("policy: " ++ source)
      (verifySignature (signedFiles base64 verify loadPublicKey parsers) raw (some key)) with
  | error err =>
    rw [hverified] at h
    nomatch h
  | ok verified =>
    obtain ⟨content, sig, hsplit, hsigned⟩ := verifyPack_eq_ok base64 verify (errorAt_eq_ok.mp hverified)
    refine ⟨content, sig, hsplit, hsigned, ?_⟩
    rw [hverified] at h
    have hcontent : (splitSignature base64 raw).1 = content := congrArg Prod.fst hsplit
    rw [← hcontent]
    exact h

/-- A file whose signature verifies is loaded as its content is parsed. -/
theorem load_of_verified {raw content sig : Bytes} {key : κ} (source : String)
    (hsplit : splitSignature base64 raw = (content, some sig)) (hsigned : verify key content sig = true) :
    loadPolicyBytes (signedFiles base64 verify loadPublicKey parsers) raw source (some key) =
      parseContent parsers source content := by
  have hverified : verifySignature (signedFiles base64 verify loadPublicKey parsers) raw (some key) = .ok
      () := by
    show verifyPack base64 verify raw key = .ok ()
    simp only [verifyPack, hsplit, hsigned, if_true]
  have hcontent : (splitSignature base64 raw).1 = content := congrArg Prod.fst hsplit
  rw [loadPolicyBytes, hverified, ← hcontent]
  rfl

/-- The content that was verified is what the parsers are handed, and a file with the same content that is
accepted as well gives the same policy. -/
def ParsedAsSigned (raw : Bytes) (source : String) (key : κ) (loaded : LoadedPolicyFile) : Prop :=
  ∃ content sig, splitSignature base64 raw = (content, some sig) ∧ verify key content sig = true ∧
    (∀ parsers' : PolicyParsers, parsers.AgreeOn content parsers' →
      loadPolicyBytes (signedFiles base64 verify loadPublicKey parsers') raw source (some key) = .ok loaded) ∧
    ∀ raw' loaded', (splitSignature base64 raw').1 = content →
      loadPolicyBytes (signedFiles base64 verify loadPublicKey parsers) raw' source (some key) = .ok loaded' →
      loaded' = loaded

/-- A content that ends a line is read back from the file it is signed in, and so is its signature; of a
file that the loader accepts under a key, the verified content is what the parsers are handed, and no
other byte of the file matters to the policy. -/
theorem only_signed_bytes_parsed {raw : Bytes} {source : String} {key : κ} {loaded : LoadedPolicyFile}
    (h : loadPolicyBytes (signedFiles base64 verify loadPublicKey parsers) raw source (some key) =
      .ok loaded) :
    (∀ before sig lineEnd, (∀ c ∈ lineEnd, c ∈ blanks) →
      splitSignature base64 (before ++ [newline] ++ signatureLine base64 sig ++ lineEnd) =
        (before ++ [newline], some sig)) ∧
      ParsedAsSigned base64 verify loadPublicKey parsers raw source key loaded := by
  refine ⟨splitSignature_signed base64, ?_⟩
  obtain ⟨content, sig, hsplit, hsigned, hparsed⟩ :=
    load_eq_parseContent base64 verify loadPublicKey parsers h
  refine ⟨content, sig, hsplit, hsigned, fun parsers' hagree => ?_, fun raw' loaded' hcontent h' => ?_⟩
  · rw [load_of_verified base64 verify loadPublicKey parsers' source hsplit hsigned, ← hagree.parseContent_eq]
    exact hparsed
  · obtain ⟨content', sig', hsplit', -, hparsed'⟩ :=
      load_eq_parseContent base64 verify loadPublicKey parsers h'
    obtain rfl : content' = content := (congrArg Prod.fst hsplit').symm.trans hcontent
    exact Except.ok.inj (hparsed'.symm.trans hparsed)

end Load

section Example

/-- A signature here is the length of the content. -/
def lengthSigned (_ : Unit) (content sig : Bytes) : Bool := sig = [UInt8.ofNat content.length]

def edgeParsers : PolicyParsers where
  kind _ := .ok "LocalPolicyPack"
  localPack _ := .ok { name := "edge" }
  runtimePack _ := .error "not a runtime pack"

/-- The lines `kind: a` and `signature: `, the second of them part of the content. -/
def edgeContent : Bytes := [107, 105, 110, 100, 58, 32, 97, newline] ++ signatureKey ++ [newline]

def signedEdge : Bytes := edgeContent ++ signatureLine Base64.std [20] ++ [13, newline]

theorem signedEdge_loaded :
    loadPolicyBytes (signedFiles Base64.std lengthSigned (fun _ => .ok ()) edgeParsers)
    signedEdge "edge.yaml" (some ()) = .ok (.localPack { name := "edge" }) := by
  decide +kernel

theorem signedEdge_parsed : (∀ before sig lineEnd, (∀ c ∈ lineEnd, c ∈ blanks) →
      splitSignature Base64.std (before ++ [newline] ++ signatureLine Base64.std sig ++ lineEnd) =
        (before ++ [newline], some sig)) ∧
      ParsedAsSigned Base64.std lengthSigned (fun _ => .ok ()) edgeParsers signedEdge "edge.yaml" ()
        (.localPack { name := "edge" }) :=
  only_signed_bytes_parsed Base64.std lengthSigned (fun _ => .ok ()) edgeParsers signedEdge_loaded

end Example

end Kernloom
