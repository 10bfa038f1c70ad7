import OxDeAI.Core.CanonicalForm
import OxDeAI.Js.Value

/-! `snapshotPlainData` on data: plain objects and arrays, nested to a limit. What is
no plain data, a proxy or an object with accessors among it, is a class instance here. -/

namespace OxDeAI

open Js

def maxDepth : ℕ := 8

def unsupported (path reason : JsString) : JsString := path ++ js ": " ++ reason

mutual

/-- The copy, or why there is none. -/
def snapshotValue (limit : ℕ) (path : JsString) (depth : ℕ) : JsValue → Except JsString JsValue
  | .function => .error (unsupported path (js "unsupported value type function"))
  | .symbol => .error (unsupported path (js "unsupported value type symbol"))
  | .arr xs =>
    if limit ≤ depth then .error (unsupported path (js "nesting exceeds " ++ natDecimal limit))
    else (snapshotElements limit path depth 0 xs).map .arr
  | .obj es =>
    if limit ≤ depth then .error (unsupported path (js "nesting exceeds " ++ natDecimal limit))
    else (snapshotMembers limit path depth es).map .obj
  | .instance _ =>
    if limit ≤ depth then .error (unsupported path (js "nesting exceeds " ++ natDecimal limit))
    else .error (unsupported path (js "only plain objects and plain arrays are supported"))
  | v => .ok v

def snapshotElements (limit : ℕ) (path : JsString) (depth : ℕ) :
    ℕ → List JsValue → Except JsString (List JsValue)
  | _, [] => .ok []
  | i, x :: xs => do
    let y ← snapshotValue limit (path ++ js "[" ++ natDecimal i ++ js "]") (depth + 1) x
    let ys ← snapshotElements limit path depth (i + 1) xs
    return y :: ys

def snapshotMembers (limit : ℕ) (path : JsString) (depth : ℕ) :
    List (JsString × JsValue) → Except JsString (List (JsString × JsValue))
  | [] => .ok []
  | (k, v) :: es => do
    let w ← snapshotValue limit (path ++ js "." ++ k) (depth + 1) v
    let ws ← snapshotMembers limit path depth es
    return (k, w) :: ws

end

def snapshotPlainData (v : JsValue) (path : JsString) : Except JsString JsValue :=
  snapshotValue maxDepth path 0 v

theorem snapshotElements_eq {limit depth : ℕ} {path : JsString} {xs ys : List JsValue} {i : ℕ}
    (h : ∀ x ∈ xs, ∀ (path : JsString) (depth : ℕ) (y : JsValue),
      snapshotValue limit path depth x = .ok y → y = x)
    (hs : snapshotElements limit path depth i xs = .ok ys) : ys = xs := by
  induction xs generalizing i ys with
  | nil =>
    rw [snapshotElements] at hs
    exact (Except.ok.inj hs).symm
  | cons x xs ih =>
    rw [snapshotElements, bind_eq_ok] at hs
    obtain ⟨y, hy, hs⟩ := hs
    rw [bind_eq_ok] at hs
    obtain ⟨ys', hys, hs⟩ := hs
    obtain rfl := Except.ok.inj hs
    rw [h x List.mem_cons_self _ _ _ hy, ih (fun z hz => h z (List.mem_cons_of_mem _ hz)) hys]

theorem snapshotMembers_eq {limit depth : ℕ} {path : JsString} {es fs : List (JsString × JsValue)}
    (h : ∀ e ∈ es, ∀ (path : JsString) (depth : ℕ) (y : JsValue),
      snapshotValue limit path depth e.2 = .ok y → y = e.2)
    (hs : snapshotMembers limit path depth es = .ok fs) : fs = es := by
  induction es generalizing fs with
  | nil =>
    rw [snapshotMembers] at hs
    exact (Except.ok.inj hs).symm
  | cons e es ih =>
    obtain ⟨k, v⟩ := e
    rw [snapshotMembers, bind_eq_ok] at hs
    obtain ⟨w, hw, hs⟩ := hs
    rw [bind_eq_ok] at hs
    obtain ⟨ws, hws, hs⟩ := hs
    obtain rfl := Except.ok.inj hs
    have hv : w = v := h (k, v) List.mem_cons_self _ _ _ hw
    rw [hv, ih (fun z hz => h z (List.mem_cons_of_mem _ hz)) hws]

/-- A copy is equal to what it was taken of. -/
theorem snapshotValue_eq {limit depth : ℕ} {path : JsString} {v w : JsValue}
    (h : snapshotValue limit path depth v = .ok w) : w = v := by
  induction v using jsValue_induction generalizing path depth w with
  | arr xs ih =>
    rw [snapshotValue] at h
    split at h
    · cases h
    · obtain ⟨ys, hys, rfl⟩ := map_eq_ok.mp h
      rw [snapshotElements_eq (fun x hx _ _ _ hy => ih x hx hy) hys]
  | obj es ih =>
    rw [snapshotValue] at h
    split at h
    · cases h
    · obtain ⟨fs, hfs, rfl⟩ := map_eq_ok.mp h
      rw [snapshotMembers_eq (fun e he _ _ _ hy => ih e he hy) hfs]
  | inst es ih =>
    rw [snapshotValue] at h
    split at h <;> cases h
  | function =>
    rw [snapshotValue] at h
    cases h
  | symbol =>
    rw [snapshotValue] at h
    cases h
  | _ =>
    simp only [snapshotValue] at h
    exact (Except.ok.inj h).symm

end OxDeAI
