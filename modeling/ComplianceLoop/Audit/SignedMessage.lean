import ComplianceLoop.Audit.Hasher
import ComplianceLoop.Audit.WriteNode

/-!
# The wire format of the signed message

An audit record is signed over four fields with pipes between them, the last one a time in UTC. The documented time has
six fractional digits (`wireTime`); `datetime.isoformat` leaves a zero fraction out. So the message has the documented
format exactly when the instant is no whole second and its conversion to UTC is in range (`signsDocumented_iff`).
-/

set_option autoImplicit false

namespace ComplianceLoop

open PyLib

/-! ## The documented format -/

/-- `YYYY-MM-DDTHH:MM:SS.ffffff+00:00`. -/
def wireTime (u : DateTime) : Text :=
  DateTime.dateText u.date ++ 'T' :: (pad 2 u.time.hour ++ ':' :: (pad 2 u.time.minute ++ ':' :: (pad 2 u.time.second ++
    '.' :: (pad 6 u.time.microsecond ++ "+00:00".toList))))

/-- The bytes that `compute_audit_hmac` signs. -/
def signedMessage (agentOutputsHash : Text) (decisionId guidelineVersionId : PyStr) (writtenAt : DateTime) :
    Except PyExc Bytes :=
  (serialiseWrittenAt writtenAt).bind fun written =>
    buildHmacMessage agentOutputsHash decisionId guidelineVersionId written

/-- The signed bytes are the documented ones for the instant of `w`. -/
def SignsDocumented (h d g : Text) (w : DateTime) : Prop :=
  ∃ u : DateTime, u.tz = some utcOffset ∧ u.instant = w.instant ∧
    signedMessage h (pyStr d) (pyStr g) w = .ok (utf8 (hmacText h d g (wireTime u)))

/-- What `compute_audit_hmac` returns is the HMAC of the signed message. -/
theorem computeAuditHmac_eq (C : Crypto) {keys : Keys} {key : Bytes} (hk : keys.server = .ok key) (h : Text)
    (d g : PyStr) (w : DateTime) : computeAuditHmac C keys h d g w = (signedMessage h d g w).map (C.hmac key) := by
  rw [computeAuditHmac, signedMessage]
  cases serialiseWrittenAt w with
  | error e => rfl
  | ok written => rw [ok_bind, ok_bind, computeRecordHmac, hk, ok_bind]

/-- A verifier that follows the document recomputes the HMAC. -/
theorem SignsDocumented.recomputed {h d g : Text} {w : DateTime} (hs : SignsDocumented h d g w) (C : Crypto)
    {keys : Keys} {key : Bytes} (hk : keys.server = .ok key) :
    ∃ u : DateTime, u.tz = some utcOffset ∧ u.instant = w.instant ∧
      computeAuditHmac C keys h (pyStr d) (pyStr g) w = .ok (C.hmac key (utf8 (hmacText h d g (wireTime u)))) := by
  obtain ⟨u, hu, hi, hm⟩ := hs
  exact ⟨u, hu, hi, by rw [computeAuditHmac_eq C hk, hm, ok_map]⟩

/-! ## The rendered time -/

/-- The two texts agree unless the fraction is zero. -/
theorem isoformat_eq_wireTime_iff {u : DateTime} (hu : u.tz = some utcOffset) :
    u.isoformat = wireTime u ↔ u.time.microsecond ≠ 0 := by
  have ho : DateTime.offsetText (some utcOffset) = "+00:00".toList := by decide
  simp only [DateTime.isoformat, wireTime, DateTime.timeText, hu, ho, List.append_assoc, List.cons_append,
    List.append_cancel_left_eq, List.cons.injEq, true_and]
  unfold DateTime.fractionText
  split
  · rename_i hz
    simp [hz]
  · rename_i hz
    simp [hz]

/-- The fraction of a second is read off the instant. -/
theorem microsecond_eq {u : DateTime} (hu : u.tz = some utcOffset) :
    (u.time.microsecond : Int) = u.instant % 1000000 := by
  have hlt := u.time.microsecond_lt
  have hi : u.instant = u.localMicros := by
    rw [DateTime.instant, hu]
    exact Int.sub_zero _
  rw [hi, DateTime.localMicros, Time.toMicros, dayMicros]
  omega

/-- The conversion to UTC returns exactly when the instant falls in the years 1 to 9999. -/
theorem exists_astimezoneUtc_iff {w : DateTime} :
    (∃ u, w.astimezoneUtc = some u) ↔ (dayMicros : Int) ≤ w.instant ∧ w.instant < (maxOrdinal + 1) * dayMicros := by
  rw [DateTime.astimezoneUtc, DateTime.ofLocal]
  split
  · rename_i hr
    simp only [dayMicros, maxOrdinal] at hr ⊢
    refine iff_of_true ⟨_, rfl⟩ ?_
    omega
  · rename_i hr
    simp only [dayMicros, maxOrdinal] at hr ⊢
    refine iff_of_false ?_ ?_
    · rintro ⟨u, hu⟩
      cases hu
    · omega

theorem signedMessage_of_utc {w u : DateTime} (h : w.astimezoneUtc = some u) (s d g : Text) :
    signedMessage s (pyStr d) (pyStr g) w = .ok (utf8 (hmacText s d g u.isoformat)) := by
  rw [signedMessage, serialiseWrittenAt, h, ok_bind, buildHmacMessage_pyStr]

/-- The UTC value of the instant is the one the conversion gives. -/
theorem astimezoneUtc_eq_of_instant {w u : DateTime} (hu : u.tz = some utcOffset) (hi : u.instant = w.instant) :
    w.astimezoneUtc = some u := by
  rw [← DateTime.astimezoneUtc_congr hi, DateTime.astimezoneUtc_of_utc hu]

theorem hmacText_right_inj {h d g s t : Text} : hmacText h d g s = hmacText h d g t ↔ s = t := by
  simp [hmacText]

/-- **The signed message has the documented format exactly when the instant in UTC is in range and is no whole
second.** -/
theorem signsDocumented_iff (h d g : Text) (w : DateTime) :
    SignsDocumented h d g w ↔
      ((dayMicros : Int) ≤ w.instant ∧ w.instant < (maxOrdinal + 1) * dayMicros) ∧ w.instant % 1000000 ≠ 0 := by
  rw [← exists_astimezoneUtc_iff]
  constructor
  · rintro ⟨u, hu, hi, hm⟩
    have hw := astimezoneUtc_eq_of_instant hu hi
    rw [signedMessage_of_utc hw] at hm
    have ht := (isoformat_eq_wireTime_iff hu).mp (hmacText_right_inj.mp (utf8_injective (Except.ok.inj hm)))
    refine ⟨⟨u, hw⟩, ?_⟩
    rw [← hi, ← microsecond_eq hu]
    exact_mod_cast ht
  · rintro ⟨⟨u, hw⟩, hz⟩
    obtain ⟨hi, hu⟩ := DateTime.instant_astimezoneUtc hw
    have ht : u.time.microsecond ≠ 0 := by
      rw [← hi, ← microsecond_eq hu] at hz
      exact_mod_cast hz
    refine ⟨u, hu, hi, ?_⟩
    rw [signedMessage_of_utc hw, (isoformat_eq_wireTime_iff hu).mpr ht]

/-! ## A whole second -/

/-- A record of a whole second is signed with `2026-06-01T12:00:00+00:00`. -/
theorem not_signsDocumented : ¬ ∀ (h d g : Text) (w : DateTime), SignsDocumented h d g w := by
  intro hall
  obtain ⟨u, hu, hi, hm⟩ := hall [] [] [] Sample.now
  have hn : Sample.now.astimezoneUtc = some Sample.now := DateTime.astimezoneUtc_of_utc rfl
  have he : u = Sample.now := Option.some.inj ((astimezoneUtc_eq_of_instant hu hi).symm.trans hn)
  rw [signedMessage_of_utc hn, he] at hm
  have ht := hmacText_right_inj.mp (utf8_injective (Except.ok.inj hm))
  exact (isoformat_eq_wireTime_iff rfl).mp ht rfl

end ComplianceLoop
