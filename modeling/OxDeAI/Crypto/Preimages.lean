import OxDeAI.Core.CanonicalInjective
import OxDeAI.Core.Framing
import OxDeAI.Crypto.Keys

/-! The bytes that are signed: a domain and a payload, or a payload alone. -/

namespace OxDeAI

open Js

inductive SigningDomain
  | authV1
  | envelopeV1
  | checkpointV1
  | delegationV1
  | krlV1
  deriving DecidableEq

/-- The table `SIGNING_DOMAINS`. -/
def SigningDomain.text : SigningDomain → JsString
  | .authV1 => js "OXDEAI_AUTH_V1"
  | .envelopeV1 => js "OXDEAI_ENVELOPE_V1"
  | .checkpointV1 => js "OXDEAI_CHECKPOINT_V1"
  | .delegationV1 => js "OXDEAI_DELEGATION_V1"
  | .krlV1 => js "OXDEAI_KRL_V1"

theorem SigningDomain.isLine_text (d : SigningDomain) : isLine d.text = true := by
  cases d <;> decide

theorem SigningDomain.text_inj {d d' : SigningDomain} (h : d.text = d'.text) : d = d' := by
  revert h
  cases d <;> cases d' <;> decide

section

variable {P : Platform} {nfc : JsString → JsString} {v w : JsValue} {s t : JsString}

/-- What a verifier without domains checks a signature over. -/
def rawInput (P : Platform) (payload : JsValue) : Except JsError (List Byte) :=
  (canonicalJson P.nfc payload).map utf8Encode

theorem canonicalJson_wellFormed (h : canonicalJson nfc v = .ok t) : WellFormed t := by
  obtain ⟨hc, rfl⟩ := (canonicalizeToJson_ok v t).mp h
  exact wellFormed_jsonText (isJson_normalForm hc)

theorem utf8Encode_canonicalJson_inj (hs : canonicalJson nfc v = .ok s) (ht : canonicalJson nfc w = .ok t)
    (h : utf8Encode s = utf8Encode t) : s = t :=
  utf8Encode_inj (canonicalJson_wellFormed hs) (canonicalJson_wellFormed ht) h

theorem rawInput_eq_ok {m : List Byte} : rawInput P v = .ok m ↔
    ∃ body, canonicalJson P.nfc v = .ok body ∧ utf8Encode body = m := map_eq_ok

theorem utf8Encode_line {line : JsString} (h : isLine line = true) :
    utf8Encode (line ++ js "\n") = utf8Encode line ++ utf8Encode (js "\n") := by
  rw [isLine, Bool.and_eq_true] at h
  have hbreak : isAscii (js "\n") = true := by decide
  have hboth : isAscii (line ++ js "\n") = true := by
    rw [isAscii, List.all_append, Bool.and_eq_true]
    exact ⟨h.1, hbreak⟩
  rw [utf8Encode_ascii hboth, utf8Encode_ascii h.1, utf8Encode_ascii hbreak, List.map_append]

theorem signatureInput_eq_ok {d : SigningDomain} {m : List Byte} : signatureInput P d.text v = .ok m ↔
    ∃ body, canonicalJson P.nfc v = .ok body ∧ framed d.text (utf8Encode body) = m := by
  rw [signatureInput, map_eq_ok, utf8Encode_line d.isLine_text]
  rfl

/-- A domain and a payload in it are told from the bytes. -/
theorem signatureInput_inj {d d' : SigningDomain} {m : List Byte} (h : signatureInput P d.text v = .ok m)
    (h' : signatureInput P d'.text w = .ok m) : d = d' ∧ canonicalJson P.nfc v = canonicalJson P.nfc w := by
  obtain ⟨body, hbody, hm⟩ := signatureInput_eq_ok.mp h
  obtain ⟨body', hbody', hm'⟩ := signatureInput_eq_ok.mp h'
  obtain ⟨hdomain, hbytes⟩ := framed_inj d.isLine_text d'.isLine_text (hm.trans hm'.symm)
  rw [hbody, hbody', utf8Encode_canonicalJson_inj hbody hbody' hbytes]
  exact ⟨SigningDomain.text_inj hdomain, rfl⟩

theorem SigningDomain.head_framed (d : SigningDomain) (body : List Byte) :
    (framed d.text body).head? = some (byte 79) := by
  cases d <;> rfl

theorem head_rawInput {es : List (JsString × JsValue)} {m : List Byte} (h : rawInput P (.obj es) = .ok m) :
    m.head? = some (byte 123) := by
  obtain ⟨body, hbody, rfl⟩ := rawInput_eq_ok.mp h
  obtain ⟨-, rfl⟩ := (canonicalizeToJson_ok _ _).mp hbody
  rw [normalForm, jsonText, List.cons_append, utf8Encode_cons (by decide)]
  rfl

theorem signatureInput_ne_rawInput {d : SigningDomain} {es : List (JsString × JsValue)} {m : List Byte}
    (h : signatureInput P d.text v = .ok m) : rawInput P (.obj es) ≠ .ok m := by
  intro hraw
  have hobject := head_rawInput hraw
  obtain ⟨body, -, rfl⟩ := signatureInput_eq_ok.mp h
  rw [d.head_framed] at hobject
  exact absurd hobject (by decide)

end

end OxDeAI
