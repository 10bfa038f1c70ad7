import OxDeAI.Crypto.Keys

/-! The trusted key sets under revocation: every key has one identity, none signs
revocation lists, and the key of a signature can be singled out. -/

namespace OxDeAI

open Js

/-- What precedes the 32 bytes of an Ed25519 key in its SPKI encoding. -/
def ed25519SpkiPrefix : List Byte := [48, 42, 48, 5, 6, 3, 43, 101, 112, 3, 33, 0].map byte

section

variable (H : Host)

/-- The digest of the key's SPKI encoding; `none` when it is no Ed25519 public key. -/
def ed25519PublicKeyIdentity (publicKey : JsString) : Option JsString :=
  let pem := normalizePem publicKey
  if publicKey = [] ∨ js "PRIVATE KEY" <:+: pem then none
  else match H.createPublicKey pem with
    | none => none
    | some key => key.jwkX.map (fun raw => H.sha256Hex (ed25519SpkiPrefix ++ raw))

/-- The identities of the keys that sign revocation lists. The construction has
refused a key without one. -/
def krlKeyIdentities (trustedKrlKeySets : List KeySet) : List JsString :=
  trustedKrlKeySets.flatMap (fun ks => ks.keys.filterMap (fun k => ed25519PublicKeyIdentity H k.publicKey))

/-- One entry of a key set, as its registrations are compared. -/
structure KeyRegistration where
  identity : JsString
  status : Option KeyStatus
  notBefore : Option JsNumber
  notAfter : Option JsNumber
  deriving DecidableEq

/-- What the keys before have registered: whose each key is, and what each name stands for. -/
structure TrustScan where
  ownerOfKey : List (JsString × (JsString × JsString)) := []
  entryOfIdentity : List ((JsString × JsString) × KeyRegistration) := []

def TrustScan.owner? (scan : TrustScan) (identity : JsString) : Option (JsString × JsString) :=
  (scan.ownerOfKey.find? (fun e => e.1 = identity)).map Prod.snd

def TrustScan.registered? (scan : TrustScan) (name : JsString × JsString) : Option KeyRegistration :=
  (scan.entryOfIdentity.find? (fun e => e.1 = name)).map Prod.snd

def TrustScan.add (scan : TrustScan) (name : JsString × JsString) (entry : KeyRegistration) : TrustScan where
  ownerOfKey := (entry.identity, name) :: scan.ownerOfKey
  entryOfIdentity := (name, entry) :: scan.entryOfIdentity

def nameText (name : JsString × JsString) : JsString :=
  js "(issuer " ++ quote name.1 ++ js ", kid " ++ quote name.2 ++ js ")"

variable (krlIdentities : List JsString)

def scanKey (issuer label : JsString) (scan : TrustScan) (key : KeySetKey) : Except JsString TrustScan :=
  let name := (issuer, key.kid)
  let labelled := label ++ js " " ++ nameText name
  if key.kid = [] then .error (label ++ js " must have a non-empty kid.")
  else if key.alg ≠ .ed25519 then
    .error (labelled ++ js ": only Ed25519 keys are supported when SignedKRLV1 revocation is enabled.")
  else match ed25519PublicKeyIdentity H key.publicKey with
    | none => .error (labelled ++ js ": public_key is not a valid Ed25519 public key.")
    | some identity =>
      let entry : KeyRegistration := ⟨identity, key.status, key.notBefore, key.notAfter⟩
      if krlIdentities.contains identity then
        .error (labelled ++ js ": this key is also a trusted KRL signing key; the KRL trust domain must be separate (signed-krl-v1 §2).")
      else match (scan.owner? identity).filter (· ≠ name) with
        | some owner => .error (labelled ++ js ": the same public key is already registered as (issuer, kid) " ++
            js "[" ++ quote owner.1 ++ js "," ++ quote owner.2 ++ js "]" ++
              js "; a signing key must have exactly one identity.")
        | none =>
          if (scan.registered? name).any (· ≠ entry) then
            .error (labelled ++ js ": conflicting registrations for the same (issuer, kid).")
          else .ok (scan.add name entry)

def positionLabel (i : ℕ) : JsString := js "[" ++ natDecimal i ++ js "]"

def scanKeySet (scan : TrustScan) (indexed : KeySet × ℕ) : Except JsString TrustScan :=
  if indexed.1.issuer = [] then
    .error (positionLabel indexed.2 ++ js " must have a non-empty issuer and a keys array.")
  else indexed.1.keys.zipIdx.foldlM (fun scan key =>
    scanKey H krlIdentities indexed.1.issuer (positionLabel indexed.2 ++ js ".keys" ++ positionLabel key.2)
      scan key.1) scan

/-- The current key sets, once they passed; a message otherwise. Key sets of the
type are plain data, so a copy of them is equal to them. -/
def validatedTrustSnapshot (live : List KeySet) : Except JsString (List KeySet) :=
  match live.zipIdx.foldlM (scanKeySet H krlIdentities) {} with
  | .error message => .error (js "trustedKeySets: " ++ message)
  | .ok _ => .ok live

end

/-- The kid that core selects its key by; `none` where a kid beside it differs. -/
def resolveAuthorizationSigningKid (auth : JsValue) : Option JsString :=
  let signature := auth.field (js "signature")
  let kid := auth.field (js "kid")
  if !auth.isRecord then none
  else if signature.isRecord then
    let nested := signature.field (js "kid")
    if !nested.hasText then none
    else if !kid.isUndefined && !kid.strictEquals nested then none
    else nested.text?
  else if signature.isString && kid.hasText then kid.text?
  else none

/-- The trust in one key alone. -/
def pinKeySet (keySets : List KeySet) (issuer : JsValue) (kid : JsString) : List KeySet :=
  match keySets.find? (fun ks => issuer.isText ks.issuer) with
  | none => []
  | some ks => [{ ks with keys := ks.keys.filter (fun k => k.kid = kid) }]

theorem validatedTrustSnapshot_eq {H : Host} {krl : List JsString} {live keySets : List KeySet}
    (h : validatedTrustSnapshot H krl live = .ok keySets) : keySets = live := by
  unfold validatedTrustSnapshot at h
  split at h
  · cases h
  · exact (Except.ok.inj h).symm

end OxDeAI
