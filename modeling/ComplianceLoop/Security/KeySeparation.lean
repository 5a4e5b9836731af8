import ComplianceLoop.PyLib.HexText
import ComplianceLoop.Security.VaultKeys

/-!
# Separate keys

`_validate_secrets` and `_load_pan_hmac_key` compare the texts of the keys; the keys themselves are the decoded bytes,
and one key has many texts. The keys differ exactly when no two of the texts are two spellings of one key
(`keySeparation_iff`).
-/

set_option autoImplicit false

namespace ComplianceLoop

open PyLib

/-- The three keys are there, with 32 bytes each, and are pairwise different bytes. -/
structure DistinctKeys (d : TextDict) : Prop where
  keys : ∀ name ∈ [serverHmacKeyVar, panHmacKeyVar, aesKeyVar], ∃ t key, d.get? name = some t ∧ IsKey t key
  differ : ∀ pair ∈ mustDifferPairs, ∀ t u key, d.get? pair.1 = some t → d.get? pair.2 = some u → IsKey t key →
    ¬IsKey u key

/-- What the two checks are for: accepted secrets have distinct keys, and so has an environment from which the PAN key
is loaded. -/
structure KeySeparation (secrets environ : TextDict) : Prop where
  validated : validateSecrets secrets = .ok () → DistinctKeys secrets
  loaded : ∀ key, loadPanHmacKey environ = .ok key → loadHmacKey environ serverHmacKeyVar ≠ .ok key

/-- Two different texts that are equal without white space and letter case. -/
def Respells (t u : Text) : Prop := t ≠ u ∧ hexSpelling t = hexSpelling u

/-- The two values, if both are keys, are not two spellings of one key. -/
def NotRespelled (d : TextDict) (a b : Text) : Prop :=
  ∀ t u, d.get? a = some t → d.get? b = some u → (∃ key, IsKey t key) → (∃ key, IsKey u key) → ¬Respells t u

/-- Two keys are the same bytes exactly when their texts are spelled alike. -/
theorem IsKey.eq_iff {t u : Text} {k l : Bytes} (ht : IsKey t k) (hu : IsKey u l) :
    k = l ↔ hexSpelling t = hexSpelling u := bytesFromHex_eq_iff ht.1 hu.1

/-- For two different texts. -/
theorem notRespelled_iff {d : TextDict} {a b : Text} (hne : d.get? a ≠ d.get? b) :
    NotRespelled d a b ↔ ∀ t u key, d.get? a = some t → d.get? b = some u → IsKey t key → ¬IsKey u key := by
  constructor
  · intro h t u key ht hu hkt hku
    refine h t u ht hu ⟨key, hkt⟩ ⟨key, hku⟩ ⟨?_, (hkt.eq_iff hku).mp rfl⟩
    rintro rfl
    exact hne (ht.trans hu.symm)
  · rintro h t u ht hu ⟨k, hkt⟩ ⟨l, hku⟩ ⟨-, hs⟩
    obtain rfl := (hkt.eq_iff hku).mpr hs
    exact h t u k ht hu hkt hku

/-- Accepted secrets differ as texts. -/
theorem get?_ne_of_checkPair {secrets : TextDict} {pair : Text × Text} (h : checkPair secrets pair = .ok ())
    (hset : secrets.get pair.1 [] ≠ []) : secrets.get? pair.1 ≠ secrets.get? pair.2 := by
  intro he
  obtain ⟨t, ht, hne⟩ := get?_of_get_ne_nil hset
  unfold checkPair at h
  simp [TextDict.get, ← he, ht, hne] at h

/-- Accepted secrets have distinct keys exactly when no key is spelled in two ways. -/
theorem distinctKeys_iff {secrets : TextDict} (h : validateSecrets secrets = .ok ()) :
    DistinctKeys secrets ↔ ∀ pair ∈ mustDifferPairs, NotRespelled secrets pair.1 pair.2 := by
  obtain ⟨hset, hpairs, -⟩ := validateSecrets_eq_ok.mp h
  have hne : ∀ pair ∈ mustDifferPairs, secrets.get? pair.1 ≠ secrets.get? pair.2 := fun pair hp => by
    refine get?_ne_of_checkPair (hpairs pair hp) (hset _ ?_)
    simp only [mustDifferPairs, requiredSecrets, List.mem_cons, List.not_mem_nil, or_false] at hp ⊢
    rcases hp with rfl | rfl | rfl
    · exact .inl rfl
    · exact .inl rfl
    · exact .inr (.inl rfl)
  constructor
  · exact fun hd pair hp => (notRespelled_iff (hne pair hp)).mpr (hd.differ pair hp)
  · exact fun hn => ⟨(validateSecrets_keys h).1, fun pair hp => (notRespelled_iff (hne pair hp)).mp (hn pair hp)⟩

/-- The loaded PAN key differs from the audit key exactly when it is not another spelling of it. -/
theorem loadPanHmacKey_differs_iff {environ : TextDict} :
    (∀ key, loadPanHmacKey environ = .ok key → loadHmacKey environ serverHmacKeyVar ≠ .ok key) ↔
      NotRespelled environ panHmacKeyVar serverHmacKeyVar := by
  constructor
  · rintro h t u ht hu ⟨k, hkt⟩ ⟨l, hku⟩ ⟨hne, hs⟩
    obtain rfl := (hkt.eq_iff hku).mpr hs
    refine h k (loadPanHmacKey_eq_ok.mpr ⟨t, ht, hkt, fun he => hne ?_⟩) (loadHmacKey_eq_ok.mpr ⟨u, hu, hku⟩)
    exact (Option.some.inj (hu.symm.trans he)).symm
  · intro h key hpan hserver
    obtain ⟨t, ht, hkt, hne⟩ := loadPanHmacKey_eq_ok.mp hpan
    obtain ⟨u, hu, hku⟩ := loadHmacKey_eq_ok.mp hserver
    have hdiffer : environ.get? panHmacKeyVar ≠ environ.get? serverHmacKeyVar := by
      rw [ht]
      exact fun he => hne he.symm
    exact (notRespelled_iff hdiffer).mp h t u key ht hu hkt hku

/-- **The checks separate the keys exactly when no two of the texts are two spellings of one key.** -/
theorem keySeparation_iff (secrets environ : TextDict) :
    KeySeparation secrets environ ↔
      (validateSecrets secrets = .ok () → ∀ pair ∈ mustDifferPairs, NotRespelled secrets pair.1 pair.2) ∧
        NotRespelled environ panHmacKeyVar serverHmacKeyVar := by
  constructor
  · exact fun h => ⟨fun hv => (distinctKeys_iff hv).mp (h.validated hv), loadPanHmacKey_differs_iff.mp h.loaded⟩
  · exact fun h => ⟨fun hv => (distinctKeys_iff hv).mpr (h.1 hv), loadPanHmacKey_differs_iff.mpr h.2⟩

/-- The audit key in capitals as the key of the PANs. -/
def KeySample.respelled : TextDict :=
  (environ.set serverHmacKeyVar (keyText 171)).set panHmacKeyVar ((keyText 171).map Char.toUpper)

/-- The secrets are accepted, and the two keys are the same bytes. -/
theorem not_keySeparation : ¬∀ secrets environ : TextDict, KeySeparation secrets environ := by
  intro h
  have hpan : loadPanHmacKey KeySample.respelled = .ok (KeySample.key 171) := by decide
  have hserver : loadHmacKey KeySample.respelled serverHmacKeyVar = .ok (KeySample.key 171) := by decide
  exact (h KeySample.respelled KeySample.respelled).loaded _ hpan hserver

end ComplianceLoop
