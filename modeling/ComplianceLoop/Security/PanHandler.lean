import ComplianceLoop.Security.KeyCaches

/-!
# `security/pan_handler.py`

The HMAC of a PAN. The plaintext is upper-cased and stripped, checked against the format, and hashed under the PAN key
of the process (`hmacPan_fst`).
-/

set_option autoImplicit false

namespace ComplianceLoop

open PyLib

/-- `[A-Z]{5}[0-9]{4}[A-Z]{1}`. -/
def isPan (t : Text) : Bool :=
  t.length = 10 && (t.take 5).all (fun c => 'A' ≤ c && c ≤ 'Z') && ((t.drop 5).take 4).all Char.isDigit &&
    (t.drop 9).all fun c => 'A' ≤ c && c ≤ 'Z'

/-- `validate_pan_format`; the `$` of the pattern also matches before a newline at the end, which `strip` has
removed. -/
def validatePanFormat (pan : Text) : Bool := !pan.isEmpty && isPan (strip (upper pan))

namespace Process

variable (C : Crypto) (p : Process)

/-- `hmac_pan`. -/
def hmacPan (pan : Text) : Except PyExc Text × Process :=
  let panNormalised := strip (upper pan)
  if validatePanFormat panNormalised then
    match p.getPanHmacKey with
    | (.error e, p) => (.error e, p)
    | (.ok key, p) => (.ok (C.hmac key (utf8 panNormalised)), p)
  else
    (raise .valueError ("Invalid PAN format. Expected [A-Z]\x7b5\x7d[0-9]\x7b4\x7d[A-Z]\x7b1\x7d. Got a ".toList ++
      decimal pan.length ++ "-character string.".toList), p)

/-- `hmac_pan_for_watchlist`. -/
def hmacPanForWatchlist (pan : Text) : Except PyExc Text × Process := p.hmacPan C pan

variable {C} {p}

/-- A PAN in the right format is hashed under the key that the getter gives. -/
theorem hmacPan_fst {pan : Text} (h : validatePanFormat (strip (upper pan)) = true) :
    (p.hmacPan C pan).1 = p.view.pan.map fun key => C.hmac key (utf8 (strip (upper pan))) := by
  unfold hmacPan view
  rw [if_pos h]
  cases hk : p.getPanHmacKey with
  | mk r q => cases r <;> rfl

theorem view_hmacPan {pan : Text} : (p.hmacPan C pan).2.view = p.view := by
  have hv := p.view_getPanHmacKey
  unfold hmacPan
  by_cases h : validatePanFormat (strip (upper pan)) = true
  · rw [if_pos h]
    cases hk : p.getPanHmacKey with
    | mk r q =>
      rw [hk] at hv
      cases r <;> exact hv
  · rw [if_neg h]

end Process

end ComplianceLoop
