import ComplianceLoop.Security.WeakKeys
import ComplianceLoop.Security.PanHandler
import ComplianceLoop.PyLib.UpperCase

/-!
# Which PANs are accepted, and which match

A PAN is upper-cased before it is checked, with the upper case of Unicode: `ß` gives two letters, `ﬃ` three, and `ı` and
`ſ` the letters `I` and `S`. So a text that is no PAN can be accepted, and is then hashed as the PAN it spells
(`panExact_iff`).
-/

set_option autoImplicit false

namespace ComplianceLoop

open PyLib

/-! ## The specification -/

/-- Five letters, four digits and a letter, all ASCII and in either case. -/
def panShape (t : Text) : Bool :=
  t.length = 10 && (t.take 5).all Char.isAlpha && ((t.drop 5).take 4).all Char.isDigit && (t.drop 9).all Char.isAlpha

/-- Two texts are equal up to the case of their ASCII letters. -/
def EqIgnoringCase (s t : Text) : Prop := s.map Char.toUpper = t.map Char.toUpper

instance (s t : Text) : Decidable (EqIgnoringCase s t) := inferInstanceAs (Decidable (_ = _))

/-- Exactly the PANs are accepted, and the digests of two are equal exactly when the PANs are. -/
structure PanExact (C : Crypto) (p q : Process) (s t : Text) : Prop where
  left : validatePanFormat s = true ↔ panShape (strip s) = true
  right : validatePanFormat t = true ↔ panShape (strip t) = true
  digests : ∀ d e, (p.hmacPan C s).1 = .ok d → (q.hmacPan C t).1 = .ok e →
    (d = e ↔ EqIgnoringCase (strip s) (strip t))
  watchlist : ∀ d e, (p.hmacPan C s).1 = .ok d → (q.hmacPanForWatchlist C t).1 = .ok e →
    (d = e ↔ EqIgnoringCase (strip s) (strip t))

/-- A stripped text is ASCII, or spells no PAN. -/
def PlainPan (t : Text) : Prop := isAscii t = true ∨ panShape (spellOut t) = false

/-! ## What is accepted -/

theorem isAscii_of_panShape {t : Text} (h : panShape t = true) : isAscii t = true := by
  simp only [panShape, Bool.and_eq_true, decide_eq_true_eq, List.all_eq_true] at h
  obtain ⟨⟨⟨-, hletters⟩, hdigits⟩, hcheck⟩ := h
  rw [isAscii, List.all_eq_true]
  intro c hc
  rw [← List.take_append_drop 5 t, ← List.take_append_drop 4 (t.drop 5), List.drop_drop] at hc
  rw [decide_eq_true_eq]
  rcases List.mem_append.mp hc with hc | hc
  · exact toNat_of_isAlpha (hletters c hc)
  · rcases List.mem_append.mp hc with hc | hc
    · exact toNat_of_isDigit (hdigits c hc)
    · exact toNat_of_isAlpha (hcheck c hc)

theorem isPan_map_toUpper (t : Text) : isPan (t.map Char.toUpper) = panShape t := by
  have halpha : isUpperLetter ∘ Char.toUpper = Char.isAlpha := funext isUpperLetter_toUpper
  have hdigit : Char.isDigit ∘ Char.toUpper = Char.isDigit := funext isDigit_toUpper
  have hletter : (fun c => decide ('A' ≤ c) && decide (c ≤ 'Z')) = isUpperLetter := rfl
  rw [isPan, panShape, hletter, List.length_map, ← List.map_take, ← List.map_drop, ← List.map_drop, ← List.map_take,
    List.all_map, List.all_map, List.all_map, halpha, hdigit]

/-- The empty text is no PAN. -/
theorem validatePanFormat_eq_isPan (s : Text) : validatePanFormat s = isPan (strip (upper s)) := by
  cases s with
  | nil => rfl
  | cons c s => rw [validatePanFormat, List.isEmpty_cons, Bool.not_false, Bool.true_and]

/-- **A text is accepted when it spells a PAN.** -/
theorem validatePanFormat_eq (s : Text) : validatePanFormat s = panShape (spellOut (strip s)) := by
  rw [validatePanFormat_eq_isPan, strip_upper, upper_eq_map, isPan_map_toUpper]

theorem accepted_iff (s : Text) :
    (validatePanFormat s = true ↔ panShape (strip s) = true) ↔ PlainPan (strip s) := by
  rw [validatePanFormat_eq, PlainPan]
  by_cases ha : isAscii (strip s) = true
  · simp [spellOut_ascii ha, ha]
  · have hshape : ¬ panShape (strip s) = true := fun h => ha (isAscii_of_panShape h)
    simp [ha, hshape]

/-! ## What matches -/

section

variable {C : Crypto} {p q : Process} {s t : Text}

/-- The upper-case spelling is accepted when the text itself is. -/
theorem validatePanFormat_upper (s : Text) : validatePanFormat (strip (upper s)) = validatePanFormat s := by
  rw [validatePanFormat_eq_isPan, validatePanFormat_eq_isPan, strip_upper_strip_upper]

/-- What is hashed has been accepted, and is hashed in upper case. -/
theorem hmacPan_eq_ok {d : Text} (h : (p.hmacPan C s).1 = .ok d) :
    validatePanFormat s = true ∧ ∃ key, p.view.pan = .ok key ∧ d = C.hmac key (utf8 (upper (strip s))) := by
  by_cases hv : validatePanFormat (strip (upper s)) = true
  · rw [Process.hmacPan_fst hv, map_eq_ok] at h
    obtain ⟨key, hk, hd⟩ := h
    exact ⟨validatePanFormat_upper s ▸ hv, key, hk, by rw [← hd, strip_upper]⟩
  · rw [Process.hmacPan, if_neg hv] at h
    exact absurd h (raise_ne_ok _ _ _)

theorem digests_iff (hC : C.HmacInjective) (hkey : q.view.pan = p.view.pan) (hs : PlainPan (strip s))
    (ht : PlainPan (strip t)) {d e : Text} (hd : (p.hmacPan C s).1 = .ok d) (he : (q.hmacPan C t).1 = .ok e) :
    d = e ↔ EqIgnoringCase (strip s) (strip t) := by
  have hascii : ∀ {u : Text}, validatePanFormat u = true → PlainPan (strip u) →
      upper (strip u) = (strip u).map Char.toUpper := by
    intro u hu hplain
    have hshape := ((accepted_iff u).mpr hplain).mp hu
    rw [upper_eq_map, spellOut_ascii (isAscii_of_panShape hshape)]
  obtain ⟨hvs, key, hk, rfl⟩ := hmacPan_eq_ok hd
  obtain ⟨hvt, key', hk', rfl⟩ := hmacPan_eq_ok he
  obtain rfl : key' = key := Except.ok.inj (hk'.symm.trans (hkey.trans hk))
  rw [(hC key').eq_iff, utf8_inj, hascii hvs hs, hascii hvt ht, EqIgnoringCase]

/-- **Acceptance and matching are exact when neither text spells a PAN with characters outside ASCII.** -/
theorem panExact_iff (hC : C.HmacInjective) (hkey : q.view.pan = p.view.pan) :
    PanExact C p q s t ↔ PlainPan (strip s) ∧ PlainPan (strip t) := by
  constructor
  · intro h
    exact ⟨(accepted_iff s).mp h.left, (accepted_iff t).mp h.right⟩
  · rintro ⟨hs, ht⟩
    exact ⟨(accepted_iff s).mpr hs, (accepted_iff t).mpr ht, fun _ _ => digests_iff hC hkey hs ht,
      fun _ _ => digests_iff hC hkey hs ht⟩

end

namespace KeySample

def pan : Text := "ABCDE1234F".toList

/-- The MAC of the PAN. -/
def panMacs : DigestTable (Bytes × Bytes) where
  entries := [((key 3, utf8 pan), digestText 0x5510ab7f58e9adb8857d699a66fc5639617aeab03a110d99046cc7e6940f5f96)]
  form := by decide
  distinct := by decide

def panCrypto : Crypto := knownCrypto ⟨[], noDigests_form, List.nodup_nil⟩ panMacs ciphers

theorem panCrypto_hmacInjective : panCrypto.HmacInjective :=
  Crypto.HmacBinding.injective (knownCrypto_hmacBinding _ _ _)

/-- Nine characters, whose upper case is a PAN. -/
def sharpPan : Text := "ABCß1234F".toList

end KeySample

/-- A PAN on an application, and with blanks and in lower case on a watchlist. -/
theorem panExact_iff_pan :
    PanExact KeySample.panCrypto (Process.start KeySample.environ) (Process.start KeySample.environ) KeySample.pan
        " abcde1234f ".toList ↔
      PlainPan (strip KeySample.pan) ∧ PlainPan (strip " abcde1234f ".toList) :=
  panExact_iff KeySample.panCrypto_hmacInjective rfl

/-- A text of nine characters is accepted. -/
theorem not_panExact : ¬∀ (C : Crypto) (p q : Process) (s t : Text), C.HmacInjective → q.view.pan = p.view.pan →
    PanExact C p q s t := by
  intro h
  have hexact := h KeySample.panCrypto (Process.start KeySample.environ) (Process.start KeySample.environ)
    KeySample.sharpPan "ABCSS1234F".toList KeySample.panCrypto_hmacInjective rfl
  have haccepted : validatePanFormat KeySample.sharpPan = true := by decide
  have hshape : ¬ panShape (strip KeySample.sharpPan) = true := by decide
  exact hshape (hexact.left.mp haccepted)

end ComplianceLoop
