import ComplianceLoop.PyLib.Crypto
import ComplianceLoop.PyLib.Strings

/-!
# The spellings of a byte string

`bytes.fromhex` reads digits in either case, with white space between the pairs. The texts that it reads as the same
bytes are those that are equal without white space and letter case (`bytesFromHex_eq_iff`).
-/

set_option autoImplicit false

namespace PyLib

/-- The digits of a text, in lower case. -/
def hexSpelling (t : Text) : Text := (t.filter (!isCSpace ·)).map Char.toLower

/-! ## One digit -/

theorem toNat_of_hexVal {c : Char} {n : Nat} (h : hexVal c = some n) : c.toNat < 128 := by
  have hle : ∀ {d e : Char}, d ≤ e → d.toNat ≤ e.toNat := fun h => UInt32.le_iff_toNat_le.mp h
  unfold hexVal at h
  split at h
  · rename_i hr
    exact Nat.lt_of_le_of_lt (hle hr.2) (by decide)
  · split at h
    · rename_i hr
      exact Nat.lt_of_le_of_lt (hle hr.2) (by decide)
    · split at h
      · rename_i hr
        exact Nat.lt_of_le_of_lt (hle hr.2) (by decide)
      · cases h

theorem hexVal_ascii : ∀ m < 128, (hexVal (Char.ofNat m)).all (fun n =>
    n < 16 && (Char.ofNat m).toLower = Nat.digitChar n && !isCSpace (Char.ofNat m)) = true := by decide

/-- A digit is no white space, and its lower case is the digit that is written for its value. -/
theorem hexVal_cases {c : Char} {n : Nat} (h : hexVal c = some n) :
    n < 16 ∧ c.toLower = Nat.digitChar n ∧ isCSpace c = false := by
  have hall := hexVal_ascii c.toNat (toNat_of_hexVal h)
  rw [Char.ofNat_toNat, h] at hall
  simpa [and_assoc] using hall

/-! ## The text -/

/-- What is read has the digits of the bytes. -/
theorem hexSpelling_of_hexPairs (pos : Nat) (t : Text) : ∀ {b : Bytes},
    hexPairs pos t = .ok b → hexSpelling t = hexBytes b := by
  fun_induction hexPairs pos t with
  | case1 =>
    intro b h
    rw [← Except.ok.inj h]
    rfl
  | case2 pos c t hs ih =>
    intro b h
    rw [← ih h, hexSpelling, List.filter_cons_of_neg (by simp [hs])]
    rfl
  | case3 => exact fun h => (by cases h)
  | case4 => exact fun h => (by cases h)
  | case5 => exact fun h => (by cases h)
  | case6 pos c hs high d t hc low hd ih =>
    intro b h
    obtain ⟨hhigh, hcl, hcs⟩ := hexVal_cases hc
    obtain ⟨hlow, hdl, hds⟩ := hexVal_cases hd
    cases hrest : hexPairs (pos + 2) t with
    | error e =>
      rw [hrest] at h
      cases h
    | ok rest =>
    rw [hrest] at h
    obtain rfl := Except.ok.inj h
    have hbyte : (UInt8.ofNat (16 * high + low)).toNat = 16 * high + low :=
      UInt8.toNat_ofNat_of_lt' (by show _ < 256; omega)
    have hdigits : hexDigits 2 (16 * high + low) = [Nat.digitChar high, Nat.digitChar low] := by
      simp only [hexDigits, List.nil_append, List.cons_append]
      congr 2 <;> congr 1 <;> omega
    rw [hexSpelling, List.filter_cons_of_pos (by simp [hcs]), List.filter_cons_of_pos (by simp [hds]), List.map_cons,
      List.map_cons, ← hexSpelling, ih hrest, hcl, hdl]
    show _ = hexDigits 2 (UInt8.ofNat (16 * high + low)).toNat ++ hexBytes rest
    rw [hbyte, hdigits]
    rfl

theorem hexSpelling_of_bytesFromHex {t : Text} {b : Bytes} (h : bytesFromHex t = .ok b) :
    hexSpelling t = hexBytes b := by
  unfold bytesFromHex at h
  split at h
  · rename_i b' hb
    obtain rfl := Except.ok.inj h
    split at hb
    · exact hexSpelling_of_hexPairs 0 t hb
    · cases hb
  · exact absurd h (raise_ne_ok _ _ _)

/-- **Two texts are read as the same bytes exactly when they differ in white space and letter case only.** -/
theorem bytesFromHex_eq_iff {t u : Text} {b c : Bytes} (ht : bytesFromHex t = .ok b) (hu : bytesFromHex u = .ok c) :
    b = c ↔ hexSpelling t = hexSpelling u := by
  rw [hexSpelling_of_bytesFromHex ht, hexSpelling_of_bytesFromHex hu]
  exact hexBytes_injective.eq_iff.symm

end PyLib
