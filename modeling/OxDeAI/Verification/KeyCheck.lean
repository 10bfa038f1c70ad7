import OxDeAI.Crypto.Keys
import OxDeAI.Verification.Result

/-! What becomes of a looked-up key: the four ways in which delegations, envelopes
and revocation lists report it. -/

namespace OxDeAI

open Js

inductive KeyOutcome
  | unknown
  | inactive
  | invalid
  | verified
  deriving DecidableEq

/-- The outcome of a lookup, given the check of a signature under a key. -/
def keyOutcome (now : JsNumber) (verify : KeySetKey → Bool) : Option KeySetKey → KeyOutcome
  | none => .unknown
  | some key =>
    if !keyIsActiveAt key now then .inactive
    else if !verify key then .invalid
    else .verified

/-- The violation that each failed outcome is reported as. -/
structure KeyReport where
  unknown : VerificationViolation
  inactive : VerificationViolation
  invalid : VerificationViolation

def KeyReport.violations (report : KeyReport) : KeyOutcome → List VerificationViolation
  | .unknown => [report.unknown]
  | .inactive => [report.inactive]
  | .invalid => [report.invalid]
  | .verified => []

theorem KeyReport.violations_eq_nil {report : KeyReport} {outcome : KeyOutcome} :
    report.violations outcome = [] ↔ outcome = .verified := by
  cases outcome <;> simp [KeyReport.violations]

theorem keyOutcome_verified {now : JsNumber} {verify : KeySetKey → Bool} {key? : Option KeySetKey} :
    keyOutcome now verify key? = .verified ↔
      ∃ key, key? = some key ∧ keyIsActiveAt key now = true ∧ verify key = true := by
  cases key? with
  | none => simp [keyOutcome]
  | some key =>
    by_cases ha : keyIsActiveAt key now = true
    · by_cases hv : verify key = true
      · simp [keyOutcome, ha, hv]
      · simp [keyOutcome, ha, hv]
    · simp [keyOutcome, ha]

/-- The codes of the three failures differ. -/
structure KeyReport.Distinct (report : KeyReport) : Prop where
  unknownInactive : report.unknown.code ≠ report.inactive.code
  unknownInvalid : report.unknown.code ≠ report.invalid.code
  inactiveInvalid : report.inactive.code ≠ report.invalid.code

section

variable {report : KeyReport} {o o' : KeyOutcome} {pre post : List VerificationViolation}

theorem KeyReport.violations_inj (hd : report.Distinct) (h : report.violations o = report.violations o') :
    o = o' := by
  have h1 : report.unknown ≠ report.inactive := fun e => hd.unknownInactive (congrArg _ e)
  have h2 : report.unknown ≠ report.invalid := fun e => hd.unknownInvalid (congrArg _ e)
  have h3 : report.inactive ≠ report.invalid := fun e => hd.inactiveInvalid (congrArg _ e)
  cases o <;> cases o' <;>
    simp_all [KeyReport.violations, h1.symm, h2.symm, h3.symm]

theorem KeyReport.length_violations (o : KeyOutcome) : (report.violations o).length ≤ 1 := by
  cases o <;> simp [KeyReport.violations]

/-- Also among other violations, and sorted with them. -/
theorem KeyReport.sort_inj (hd : report.Distinct)
    (h : sortViolations (pre ++ report.violations o ++ post) =
      sortViolations (pre ++ report.violations o' ++ post)) : o = o' := by
  have hp : (pre ++ report.violations o ++ post).Perm (pre ++ report.violations o' ++ post) := by
    have hsort := List.perm_insertionSort (fun a b : VerificationViolation => a.code.text < b.code.text ∨
      (a.code.text = b.code.text ∧ a.index.getD 0 ≤ b.index.getD 0))
    refine (hsort _).symm.trans ?_
    unfold sortViolations at h
    rw [h]
    exact hsort _
  have hmid : (report.violations o).Perm (report.violations o') :=
    (List.perm_append_left_iff pre).mp ((List.perm_append_right_iff post).mp hp)
  apply report.violations_inj hd
  -- permuted lists of at most one element are equal
  have hlen := report.length_violations o
  cases hv : report.violations o with
  | nil =>
    rw [hv] at hmid
    exact (List.nil_perm.mp hmid).symm
  | cons v vs =>
    rw [hv] at hmid hlen
    have hvs : vs = [] := by simpa using hlen
    subst hvs
    exact (List.perm_singleton.mp hmid.symm).symm

theorem KeyReport.sort_last_inj (hd : report.Distinct)
    (h : sortViolations (pre ++ report.violations o) = sortViolations (pre ++ report.violations o')) :
    o = o' := by
  rw [← List.append_nil (pre ++ report.violations o), ← List.append_nil (pre ++ report.violations o')] at h
  exact sort_inj hd h

end

end OxDeAI
