import ComplianceLoop.PyLib.Calendar

/-!
# `datetime` values

A `DateTime` is a date, a clock time and, when it is aware, an offset from UTC of less than a day. Its instant is its
local time less the offset, a naive value counting as UTC. `astimezoneUtc` gives the fields of the instant in UTC, so
two values that denote the same instant have the same fields there (`astimezoneUtc_congr`).

`isoformat` omits the fraction of a second when it is zero; on values of one offset it is still injective
(`isoformat_injective_utc`), the fields being separated by characters that are no digits.
-/

set_option autoImplicit false

namespace PyLib

/-- The offset of a time zone, in microseconds. -/
structure UtcOffset where
  micros : Int
  range : -86400000000 < micros ∧ micros < 86400000000
  deriving DecidableEq

/-- The offset of `timezone.utc`. -/
def utcOffset : UtcOffset := ⟨0, by decide⟩

/-- A `datetime`; `tz` is `None` for a naive value. -/
@[ext]
structure DateTime where
  date : Date
  time : Time
  tz : Option UtcOffset
  deriving DecidableEq

namespace DateTime

/-- The microseconds of the local fields. -/
def localMicros (w : DateTime) : Int := w.date.toOrdinal * dayMicros + w.time.toMicros

/-- The instant a value denotes, in microseconds; naive values are taken as UTC. -/
def instant (w : DateTime) : Int := w.localMicros - (w.tz.elim 0 UtcOffset.micros)

/-- The value with these local fields, unless the year is out of range. -/
def ofLocal (n : Int) (tz : Option UtcOffset) : Option DateTime :=
  if h : (1 ≤ (n / dayMicros).toNat ∧ (n / dayMicros).toNat ≤ maxOrdinal) ∧ (n % dayMicros).toNat < dayMicros then
    some ⟨Date.ofOrdinal _ h.1, Time.ofMicros _ h.2, tz⟩
  else none

theorem ofLocal_localMicros (w : DateTime) (tz : Option UtcOffset) :
    ofLocal w.localMicros tz = some ⟨w.date, w.time, tz⟩ := by
  obtain ⟨d, t, z⟩ := w
  have hlt := t.toMicros_lt
  have hd : ((DateTime.localMicros ⟨d, t, z⟩) / dayMicros).toNat = d.toOrdinal := by
    simp only [localMicros, dayMicros] at hlt ⊢
    omega
  have ht : ((DateTime.localMicros ⟨d, t, z⟩) % dayMicros).toNat = t.toMicros := by
    simp only [localMicros, dayMicros] at hlt ⊢
    omega
  have hr := d.toOrdinal_range
  rw [ofLocal, dif_pos (by rw [hd, ht]; exact ⟨hr, hlt⟩)]
  have h1 : ∀ n hn, n = d.toOrdinal → Date.ofOrdinal n hn = d := by
    rintro n hn rfl
    exact d.ofOrdinal_toOrdinal
  have h2 : ∀ n hn, n = t.toMicros → Time.ofMicros n hn = t := by
    rintro n hn rfl
    exact t.ofMicros_toMicros
  rw [h1 _ _ hd, h2 _ _ ht]

theorem localMicros_ofLocal {n : Int} {tz : Option UtcOffset} {w : DateTime} (h : ofLocal n tz = some w) :
    w.localMicros = n ∧ w.tz = tz := by
  unfold ofLocal at h
  split at h
  · rename_i hr
    cases h
    refine ⟨?_, rfl⟩
    simp only [localMicros, Date.toOrdinal_ofOrdinal, Time.toMicros_ofMicros]
    obtain ⟨⟨h1, -⟩, -⟩ := hr
    simp only [dayMicros] at h1 ⊢
    omega
  · cases h

/-! ## Time differences, in microseconds -/

/-- `timedelta(hours=h)`. -/
def hoursDelta (h : Int) : Except PyExc Int :=
  if -999999999 ≤ h / 24 ∧ h / 24 ≤ 999999999 then .ok (h * 3600000000)
  else
    raise .overflowError ("days=".toList ++ (toString (h / 24)).toList ++ "; must have magnitude <= 999999999".toList)

/-- `timedelta(days=d)`. -/
def daysDelta (d : Int) : Except PyExc Int :=
  if -999999999 ≤ d ∧ d ≤ 999999999 then .ok (d * 86400000000)
  else raise .overflowError ("days=".toList ++ (toString d).toList ++ "; must have magnitude <= 999999999".toList)

/-- `w + delta`. -/
def plus (w : DateTime) (delta : Int) : Except PyExc DateTime :=
  match ofLocal (w.localMicros + delta) w.tz with
  | some v => .ok v
  | none => raise .overflowError "date value out of range".toList

theorem instant_plus {w v : DateTime} {delta : Int} (h : w.plus delta = .ok v) : v.instant = w.instant + delta := by
  unfold plus at h
  split at h
  · rename_i u hu
    cases h
    obtain ⟨hlocal, htz⟩ := localMicros_ofLocal hu
    rw [instant, instant, hlocal, htz]
    omega
  · cases h

/-- `w.replace(tzinfo=timezone.utc)` of a naive value. -/
def assumeUtc (w : DateTime) : DateTime := if w.tz.isNone then { w with tz := some utcOffset } else w

theorem instant_assumeUtc (w : DateTime) : w.assumeUtc.instant = w.instant := by
  unfold assumeUtc
  split
  · rename_i h
    rw [instant, instant, Option.isNone_iff_eq_none.mp h]
    rfl
  · rfl

/-! ## Conversion to UTC -/

/-- `w.astimezone(timezone.utc)` of a value that is aware, or taken as UTC; `none` where Python raises
`OverflowError`. -/
def astimezoneUtc (w : DateTime) : Option DateTime := ofLocal w.instant (some utcOffset)

theorem astimezoneUtc_congr {v w : DateTime} (h : v.instant = w.instant) : v.astimezoneUtc = w.astimezoneUtc := by
  rw [astimezoneUtc, astimezoneUtc, h]

theorem instant_astimezoneUtc {w u : DateTime} (h : w.astimezoneUtc = some u) :
    u.instant = w.instant ∧ u.tz = some utcOffset := by
  obtain ⟨h1, h2⟩ := localMicros_ofLocal h
  refine ⟨?_, h2⟩
  rw [instant, h1, h2]
  exact Int.sub_zero _

/-- A value in UTC is its own conversion. -/
theorem astimezoneUtc_of_utc {w : DateTime} (h : w.tz = some utcOffset) : w.astimezoneUtc = some w := by
  have hi : w.instant = w.localMicros := by rw [instant, h]; exact Int.sub_zero _
  rw [astimezoneUtc, hi, ofLocal_localMicros, ← h]

/-! ## Text -/

def dateText (d : Date) : Text := pad 4 d.year ++ '-' :: (pad 2 d.month ++ '-' :: pad 2 d.day)

/-- The fraction of a second, left out when it is zero. -/
def fractionText (micros : Nat) : Text := if micros = 0 then [] else '.' :: pad 6 micros

def timeText (t : Time) : Text :=
  pad 2 t.hour ++ ':' :: (pad 2 t.minute ++ ':' :: (pad 2 t.second ++ fractionText t.microsecond))

/-- `_format_offset`: sign, hours and minutes, then seconds and microseconds where they are not zero. -/
def offsetText : Option UtcOffset → Text
  | none => []
  | some o =>
    let n := o.micros.natAbs
    let secs := n / 1000000
    (if o.micros < 0 then '-' else '+') :: (pad 2 (secs / 3600) ++ ':' :: (pad 2 (secs / 60 % 60) ++
      if secs % 60 = 0 ∧ n % 1000000 = 0 then [] else ':' :: (pad 2 (secs % 60) ++ fractionText (n % 1000000))))

/-- `w.isoformat()`. -/
def isoformat (w : DateTime) : Text := dateText w.date ++ 'T' :: (timeText w.time ++ offsetText w.tz)

theorem notMem_pad {w n : Nat} {c : Char} (hc : c.isDigit = false) : c ∉ pad w n := fun h => by
  rw [isDigit_of_mem_pad h] at hc
  cases hc

/-- The text of a value contains no pipe. -/
theorem pipe_notMem_isoformat (w : DateTime) : '|' ∉ isoformat w := by
  have hp : ∀ {w n : Nat}, '|' ∉ pad w n := fun {w n} => notMem_pad (by decide)
  have hf : ∀ n, '|' ∉ fractionText n := by
    intro n
    unfold fractionText
    split <;> simp [hp]
  have ho : '|' ∉ offsetText w.tz := by
    unfold offsetText
    split
    · simp
    · simp only [List.mem_cons, List.mem_append, not_or]
      refine ⟨?_, hp, by decide, hp, ?_⟩
      · split <;> decide
      · split <;> simp [hp, hf]
  simp [isoformat, dateText, timeText, hp, hf, ho]

/-- The fields of a date are read off its text. -/
theorem dateText_injective {d e : Date} (h : dateText d = dateText e) : d = e := by
  have hm : ∀ {w n : Nat}, '-' ∉ pad w n := fun {w n} => notMem_pad (by decide)
  obtain ⟨h1, h2⟩ := append_sep_inj hm hm h
  obtain ⟨h2, h3⟩ := append_sep_inj hm hm h2
  exact Date.ext (pad_injective 4 h1) (pad_injective 2 h2) (pad_injective 2 h3)

/-- A fraction followed by a plus sign is read off the text. -/
theorem fractionText_injective {m n : Nat} (hm : m < 1000000) (hn : n < 1000000) {s t : Text}
    (h : fractionText m ++ '+' :: s = fractionText n ++ '+' :: t) : m = n := by
  unfold fractionText at h
  split_ifs at h with h1 h2 h2
  · omega
  · simp at h
  · simp at h
  · simp only [List.cons_append, List.cons.injEq, true_and] at h
    have hl : (pad 6 m).length = (pad 6 n).length := by
      rw [length_pad (by decide) (by omega), length_pad (by decide) (by omega)]
    exact pad_injective 6 (List.append_inj h hl).1

/-- A clock time followed by a plus sign is read off the text. -/
theorem timeText_injective {u v : Time} {s t : Text} (h : timeText u ++ '+' :: s = timeText v ++ '+' :: t) :
    u = v := by
  have hm : ∀ {w n : Nat}, ':' ∉ pad w n := fun {w n} => notMem_pad (by decide)
  simp only [timeText, List.append_assoc, List.cons_append] at h
  obtain ⟨h1, h2⟩ := append_sep_inj hm hm h
  obtain ⟨h2, h3⟩ := append_sep_inj hm hm h2
  have hl : (pad 2 u.second).length = (pad 2 v.second).length := by
    have := u.second_lt
    have := v.second_lt
    rw [length_pad (by decide) (by omega), length_pad (by decide) (by omega)]
  obtain ⟨h3, h4⟩ := List.append_inj h3 hl
  exact Time.ext (pad_injective 2 h1) (pad_injective 2 h2) (pad_injective 2 h3)
    (fractionText_injective u.microsecond_lt v.microsecond_lt h4)

/-- **On values in UTC the ISO format is injective.** -/
theorem isoformat_injective_utc {v w : DateTime} (hv : v.tz = some utcOffset) (hw : w.tz = some utcOffset)
    (h : isoformat v = isoformat w) : v = w := by
  have hT : ∀ d : Date, 'T' ∉ dateText d := by
    intro d hm
    have hp : ∀ {w n : Nat}, 'T' ∉ pad w n := fun {w n} => notMem_pad (by decide)
    simp [dateText, hp] at hm
  obtain ⟨hd, ht⟩ := append_sep_inj (hT _) (hT _) h
  rw [hv, hw] at ht
  exact DateTime.ext (dateText_injective hd) (timeText_injective ht) (hv.trans hw.symm)

end DateTime

end PyLib
