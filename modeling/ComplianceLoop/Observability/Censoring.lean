import ComplianceLoop.Observability.LoggingConfig

/-!
# What the log chain censors

The three substitutions leave no match of any of the three patterns in a string (`clean_censorText`), but they are only
made in the values of the event dict that are themselves strings, and before the stack and the traceback are added. So
the event dict that is rendered is censored exactly when nothing that is to be censored stands in a key, inside of a
dict, a list or a tuple, in the stack or in the traceback (`censored_iff`).
-/

set_option autoImplicit false

namespace ComplianceLoop

open PyLib

section

variable (W : WordClass)

/-- The patterns of `_censor_sensitive_fields`. -/
def sensitivePatterns : List Regex := [panPattern W, aadhaarPattern W, keyPattern W]

/-- No pattern is found in the text. -/
def Clean (t : Text) : Prop := ∀ r ∈ sensitivePatterns W, r.spans t = []

instance (t : Text) : Decidable (Clean W t) := inferInstanceAs (Decidable (∀ r ∈ sensitivePatterns W, r.spans t = []))

variable {W}

/-! ## The matches of the patterns -/

theorem isAlphanum_of_isUpperLetter {c : Char} (h : isUpperLetter c = true) : c.isAlphanum = true := by
  simp only [isUpperLetter, Bool.and_eq_true, decide_eq_true_eq] at h
  exact isAlphanum_iff.mpr (.inl (isUpper_iff.mpr h))

theorem isAlphanum_of_isHexDigit {c : Char} (h : isHexDigit c = true) : c.isAlphanum = true := by
  simp only [isHexDigit, Bool.or_eq_true, Bool.and_eq_true, decide_eq_true_eq] at h
  rcases h with (h | h) | h
  · exact isAlphanum_iff.mpr (.inr (.inr (isDigit_iff.mpr h)))
  · exact isAlphanum_iff.mpr (.inr (.inl (isLower_iff.mpr ⟨h.1, Char.le_trans h.2 (by decide)⟩)))
  · exact isAlphanum_iff.mpr (.inl (isUpper_iff.mpr ⟨h.1, Char.le_trans h.2 (by decide)⟩))

theorem isDecimal_of_isDigit {c : Char} (h : c.isDigit = true) : isDecimal c = true := by
  simp only [Char.isDigit, Bool.and_eq_true, decide_eq_true_eq, ge_iff_le, UInt32.le_iff_toNat_le] at h
  refine List.any_eq_true.mpr ⟨0x30, List.mem_cons_self, ?_⟩
  simpa using h

theorem any_head?_append {p : Char → Bool} {u v : Text} (hne : u ≠ []) (h : ∀ c ∈ u, p c = true) :
    (u ++ v).head?.any p = true := by
  obtain ⟨c, u, rfl⟩ := List.exists_cons_of_ne_nil hne
  exact h c List.mem_cons_self

theorem any_getLast?_append {p : Char → Bool} {u v : Text} (hne : v ≠ []) (h : ∀ c ∈ v, p c = true) :
    (u ++ v).getLast?.any p = true := by
  rcases List.eq_nil_or_concat v with rfl | ⟨v, c, rfl⟩
  · exact absurd rfl hne
  · rw [List.concat_eq_append, ← List.append_assoc, List.getLast?_concat]
    exact h c (by simp)

/-- A match of `PAN_PATTERN` has ten characters, all letters or digits, and a digit among them. -/
theorem panPattern_matches {prev next : Option Char} {u : Text} (h : (panPattern W).Matches prev u next) :
    u.length = 10 ∧ (∀ c ∈ u, c.isAlphanum = true) ∧ ∃ c ∈ u, isDecimal c = true := by
  obtain ⟨⟨letters, w, rfl, hletters, digits, check, rfl, hdigits, c, rfl, hc⟩, -⟩ := Regex.matches_delimited.mp h
  rw [Regex.matches_times] at hletters hdigits
  refine ⟨by simp [hletters.1, hdigits.1], fun d hd => ?_, ?_⟩
  · rcases List.mem_append.mp hd with hd | hd
    · exact isAlphanum_of_isUpperLetter (hletters.2 d hd)
    · rcases List.mem_append.mp hd with hd | hd
      · rw [Char.isAlphanum, hdigits.2 d hd, Bool.or_true]
      · exact isAlphanum_of_isUpperLetter (List.mem_singleton.mp hd ▸ hc)
  · have hne : digits ≠ [] := List.ne_nil_of_length_pos (by omega)
    obtain ⟨d, ds, rfl⟩ := List.exists_cons_of_ne_nil hne
    exact ⟨d, by simp, isDecimal_of_isDigit (hdigits.2 d List.mem_cons_self)⟩

/-- A gap of `AADHAAR_PATTERN`. -/
theorem gap_matches {prev next : Option Char} {u : Text} (h : (Regex.opt (.char isGap)).Matches prev u next) :
    ∀ c ∈ u, isGap c = true := by
  rcases h with rfl | ⟨c, rfl, hc⟩
  · exact List.forall_mem_nil _
  · exact fun d hd => List.mem_singleton.mp hd ▸ hc

/-- A match of `AADHAAR_PATTERN` is of digits, white space and dashes, begins and ends with a digit, and has at least
twelve characters. -/
theorem aadhaarPattern_matches {prev next : Option Char} {u : Text} (h : (aadhaarPattern W).Matches prev u next) :
    12 ≤ u.length ∧ (∀ c ∈ u, isDecimal c = true ∨ isGap c = true) ∧ u.head?.any isDecimal = true ∧
      u.getLast?.any isDecimal = true := by
  obtain ⟨⟨a, w, rfl, ha, g, w, rfl, hg, b, w, rfl, hb, g', c, rfl, hg', hc⟩, -⟩ := Regex.matches_delimited.mp h
  rw [Regex.matches_times] at ha hb hc
  have hgap := gap_matches hg
  have hgap' := gap_matches hg'
  refine ⟨?_, fun d hd => ?_, ?_, ?_⟩
  · simp only [List.length_append, ha.1, hb.1, hc.1]
    omega
  · simp only [List.mem_append] at hd
    rcases hd with hd | hd | hd | hd | hd
    · exact .inl (ha.2 d hd)
    · exact .inr (hgap d hd)
    · exact .inl (hb.2 d hd)
    · exact .inr (hgap' d hd)
    · exact .inl (hc.2 d hd)
  · exact any_head?_append (List.ne_nil_of_length_pos (by omega)) ha.2
  · simp only [← List.append_assoc]
    exact any_getLast?_append (List.ne_nil_of_length_pos (by omega)) hc.2

theorem keyPattern_matches {prev next : Option Char} {u : Text} (h : (keyPattern W).Matches prev u next) :
    u.length = 64 ∧ ∀ c ∈ u, c.isAlphanum = true := by
  obtain ⟨hm, -⟩ := Regex.matches_delimited.mp h
  obtain ⟨hl, hall⟩ := Regex.matches_times.mp hm
  exact ⟨hl, fun c hc => isAlphanum_of_isHexDigit (hall c hc)⟩

/-! ## Word patterns -/

theorem brackets_notMem {p : Char → Bool} {u : Text} (hopen : p '[' = false) (hclose : p ']' = false)
    (h : ∀ c ∈ u, p c = true) : '[' ∉ u ∧ ']' ∉ u :=
  ⟨fun hm => absurd (hopen.symm.trans (h _ hm)) Bool.false_ne_true,
    fun hm => absurd (hclose.symm.trans (h _ hm)) Bool.false_ne_true⟩

/-- A pattern whose matches are of letters and digits. -/
theorem wordPattern_of_alphanum {r : Regex} {n : Nat} (hn : 0 < n)
    (h : ∀ prev u next, (Regex.delimited W.isWord r).Matches prev u next →
      u.length = n ∧ ∀ c ∈ u, c.isAlphanum = true) :
    Regex.WordPattern W.isWord (Regex.delimited W.isWord r) := by
  refine Regex.wordPattern_delimited fun prev u next hm => ?_
  obtain ⟨hl, hall⟩ := h prev u next hm
  have hne : u ≠ [] := List.ne_nil_of_length_pos (hl ▸ hn)
  have hword : ∀ c ∈ u, W.isWord c = true := fun c hc => W.alphanum c (hall c hc)
  refine ⟨?_, any_getLast?_append (u := []) hne hword, brackets_notMem (by decide) (by decide) hall⟩
  rw [← List.append_nil u]
  exact any_head?_append hne hword

theorem wordPattern_pan : Regex.WordPattern W.isWord (panPattern W) :=
  wordPattern_of_alphanum (by decide : 0 < 10) fun _ _ _ h => ⟨(panPattern_matches h).1, (panPattern_matches h).2.1⟩

theorem wordPattern_key : Regex.WordPattern W.isWord (keyPattern W) :=
  wordPattern_of_alphanum (by decide : 0 < 64) fun _ _ _ h => keyPattern_matches h

theorem wordPattern_aadhaar : Regex.WordPattern W.isWord (aadhaarPattern W) := by
  refine Regex.wordPattern_delimited fun prev u next hm => ?_
  obtain ⟨-, hall, hfirst, hlast⟩ := aadhaarPattern_matches hm
  have hword : ∀ {x : Option Char}, x.any isDecimal = true → x.any W.isWord = true := by
    intro x hx
    cases x with
    | none => cases hx
    | some c => exact W.decimal c hx
  have hchars : ∀ c ∈ u, (isDecimal c || isGap c) = true := fun c hc => Bool.or_eq_true _ _ ▸ hall c hc
  exact ⟨hword hfirst, hword hlast, brackets_notMem (by decide) (by decide) hchars⟩

/-! ## Clean texts -/

theorem clean_iff {t : Text} :
    Clean W t ↔ ¬ (panPattern W).Occurs t ∧ ¬ (aadhaarPattern W).Occurs t ∧ ¬ (keyPattern W).Occurs t := by
  rw [Clean, sensitivePatterns, List.forall_mem_cons, List.forall_mem_cons, List.forall_mem_singleton,
    Regex.spans_eq_nil_iff wordPattern_pan.proper, Regex.spans_eq_nil_iff wordPattern_aadhaar.proper,
    Regex.spans_eq_nil_iff wordPattern_key.proper]

/-- What occurs is a part of the text. -/
theorem infix_of_occurs {r : Regex} {t : Text} (h : r.Occurs t) : ∃ prev u next, u <:+: t ∧ r.Matches prev u next := by
  obtain ⟨a, u, b, rfl, hm⟩ := h
  exact ⟨_, u, _, ⟨a, b, rfl⟩, hm⟩

theorem not_occurs_key {t : Text} (h : t.length < 64) : ¬ (keyPattern W).Occurs t := by
  intro ho
  obtain ⟨prev, u, next, hu, hm⟩ := infix_of_occurs ho
  have hl := hu.length_le
  rw [(keyPattern_matches hm).1] at hl
  omega

/-- There is no number in a text without digits. -/
theorem not_occurs_of_noDecimal {t : Text} (h : ∀ c ∈ t, isDecimal c = false) :
    ¬ (panPattern W).Occurs t ∧ ¬ (aadhaarPattern W).Occurs t := by
  constructor
  · intro ho
    obtain ⟨prev, u, next, hu, hm⟩ := infix_of_occurs ho
    obtain ⟨-, -, c, hc, hd⟩ := panPattern_matches hm
    exact absurd ((h c (hu.subset hc)).symm.trans hd) Bool.false_ne_true
  · intro ho
    obtain ⟨prev, u, next, hu, hm⟩ := infix_of_occurs ho
    obtain ⟨-, -, hfirst, -⟩ := aadhaarPattern_matches hm
    cases u with
    | nil => cases hfirst
    | cons c u => exact absurd ((h c (hu.subset List.mem_cons_self)).symm.trans hfirst) Bool.false_ne_true

/-- A short text without digits is clean. -/
theorem clean_of_plain {t : Text} (h : t.length < 64 ∧ t.all (!isDecimal ·) = true) : Clean W t := by
  have hd : ∀ c ∈ t, isDecimal c = false := fun c hc => by simpa using List.all_eq_true.mp h.2 c hc
  exact clean_iff.mpr ⟨(not_occurs_of_noDecimal hd).1, (not_occurs_of_noDecimal hd).2, not_occurs_key h.1⟩

/-- The replacements are clean. -/
theorem clean_label : ∀ label ∈ ["PAN_REDACTED".toList, "AADHAAR_REDACTED".toList, "KEY_REDACTED".toList],
    Clean W ('[' :: (label ++ [']'])) := by
  intro label hl
  refine clean_of_plain ?_
  revert label
  decide

/-- **A censored string is clean.** -/
theorem clean_censorText (t : Text) : Clean W (censorText W t) := by
  have hpan : "[PAN_REDACTED]".toList = '[' :: ("PAN_REDACTED".toList ++ [']']) := by decide
  have haadhaar : "[AADHAAR_REDACTED]".toList = '[' :: ("AADHAAR_REDACTED".toList ++ [']']) := by decide
  have hkey : "[KEY_REDACTED]".toList = '[' :: ("KEY_REDACTED".toList ++ [']']) := by decide
  rw [censorText, hpan, haadhaar, hkey]
  obtain ⟨hp, -⟩ := clean_iff.mp (clean_label (W := W) _ (by simp : "PAN_REDACTED".toList ∈ _))
  obtain ⟨hp', ha, -⟩ := clean_iff.mp (clean_label (W := W) _ (by simp : "AADHAAR_REDACTED".toList ∈ _))
  obtain ⟨hp'', ha', hk⟩ := clean_iff.mp (clean_label (W := W) _ (by simp : "KEY_REDACTED".toList ∈ _))
  refine clean_iff.mpr ⟨?_, ?_, Regex.not_occurs_sub_self wordPattern_key hk _⟩
  · refine Regex.not_occurs_sub wordPattern_key wordPattern_pan hp'' ?_
    refine Regex.not_occurs_sub wordPattern_aadhaar wordPattern_pan hp' ?_
    exact Regex.not_occurs_sub_self wordPattern_pan hp t
  · refine Regex.not_occurs_sub wordPattern_key wordPattern_aadhaar ha' ?_
    exact Regex.not_occurs_sub_self wordPattern_aadhaar ha _

/-! ## The time -/

/-- The minutes, the seconds and the fraction of a time have short runs only. -/
theorem runsBelow_seconds {p : Char → Bool} {n : Nat} (hn : 8 ≤ n) (hcolon : p ':' = false) (hdot : p '.' = false)
    (t : Time) :
    RunsBelow p n (pad 2 t.minute ++ ':' :: (pad 2 t.second ++ (DateTime.fractionText t.microsecond ++ ['Z']))) := by
  have hm := t.minute_lt
  have hs := t.second_lt
  have hus := t.microsecond_lt
  have hlm : (pad 2 t.minute).length = 2 := length_pad (by decide) (by omega)
  have hls : (pad 2 t.second).length = 2 := length_pad (by decide) (by omega)
  have hlus : (pad 6 t.microsecond).length = 6 := length_pad (by decide) (by omega)
  refine (runsBelow_of_length (by omega)).append hcolon ?_
  unfold DateTime.fractionText
  split
  · refine runsBelow_of_length ?_
    simp only [List.nil_append, List.length_append, List.length_singleton]
    omega
  · rw [List.cons_append]
    refine (runsBelow_of_length (by omega)).append hdot (runsBelow_of_length ?_)
    rw [List.length_append, List.length_singleton]
    omega

/-- Letters and digits stand together in the day and the hour, or in the fraction and the `Z`, but not ten of them. -/
theorem runsBelow_alphanum_timestamp (env : LogEnv) : RunsBelow Char.isAlphanum 10 (timestamp env) := by
  obtain ⟨context, method, environ, ⟨d, t, tz⟩, now_utc, stack, current⟩ := env
  have hyear := d.year_range
  have hmonth := d.month_range
  have hday := d.day_range
  have hdays := Date.daysInMonth_le (isLeap d.year) d.month
  have hhour := t.hour_lt
  have hly : (pad 4 d.year).length = 4 := length_pad (by decide) (by omega)
  have hlm : (pad 2 d.month).length = 2 := length_pad (by decide) (by omega)
  have hld : (pad 2 d.day ++ 'T' :: pad 2 t.hour).length = 5 := by
    rw [List.length_append, List.length_cons, length_pad (by decide) (by omega), length_pad (by decide) (by omega)]
  have hruns : RunsBelow Char.isAlphanum 10 (pad 4 d.year ++ '-' :: (pad 2 d.month ++ '-' ::
      ((pad 2 d.day ++ 'T' :: pad 2 t.hour) ++ ':' :: (pad 2 t.minute ++ ':' ::
        (pad 2 t.second ++ (DateTime.fractionText t.microsecond ++ ['Z'])))))) := by
    refine (runsBelow_of_length (by omega)).append (by decide) ((runsBelow_of_length (by omega)).append (by decide) ?_)
    exact (runsBelow_of_length (by omega)).append (by decide) (runsBelow_seconds (by decide) (by decide) (by decide) t)
  simpa [timestamp, DateTime.dateText, DateTime.timeText] using hruns

/-- Digits, white space and dashes stand together in the date, but not twelve of them. -/
theorem runsBelow_gap_timestamp (env : LogEnv) : RunsBelow (fun c => isDecimal c || isGap c) 12 (timestamp env) := by
  obtain ⟨context, method, environ, ⟨d, t, tz⟩, now_utc, stack, current⟩ := env
  have hyear := d.year_range
  have hmonth := d.month_range
  have hday := d.day_range
  have hdays := Date.daysInMonth_le (isLeap d.year) d.month
  have hhour := t.hour_lt
  have hlh : (pad 2 t.hour).length = 2 := length_pad (by decide) (by omega)
  have hld : (DateTime.dateText d).length = 10 := by
    rw [DateTime.dateText, List.length_append, List.length_cons, List.length_append, List.length_cons,
      length_pad (by decide) (by omega), length_pad (by decide) (by omega), length_pad (by decide) (by omega)]
  have hruns : RunsBelow (fun c => isDecimal c || isGap c) 12 (DateTime.dateText d ++ 'T' :: (pad 2 t.hour ++ ':' ::
      (pad 2 t.minute ++ ':' :: (pad 2 t.second ++ (DateTime.fractionText t.microsecond ++ ['Z']))))) := by
    refine (runsBelow_of_length (by omega)).append (by decide) ((runsBelow_of_length (by omega)).append (by decide) ?_)
    exact runsBelow_seconds (by decide) (by decide) (by decide) t
  simpa [timestamp, DateTime.timeText] using hruns

/-- **The time that is added behind the censoring is clean.** -/
theorem clean_timestamp (env : LogEnv) : Clean W (timestamp env) := by
  refine clean_iff.mpr ⟨fun ho => ?_, fun ho => ?_, fun ho => ?_⟩
  · obtain ⟨prev, u, next, hu, hm⟩ := infix_of_occurs ho
    obtain ⟨hl, hall, -⟩ := panPattern_matches hm
    exact absurd (runsBelow_alphanum_timestamp env u hu hall) (by omega)
  · obtain ⟨prev, u, next, hu, hm⟩ := infix_of_occurs ho
    obtain ⟨hl, hall, -⟩ := aadhaarPattern_matches hm
    exact absurd (runsBelow_gap_timestamp env u hu fun c hc => Bool.or_eq_true _ _ ▸ hall c hc) (by omega)
  · obtain ⟨prev, u, next, hu, hm⟩ := infix_of_occurs ho
    obtain ⟨hl, hall⟩ := keyPattern_matches hm
    exact absurd (runsBelow_alphanum_timestamp env u hu hall) (by omega)

/-! ## The event dict that is rendered -/

variable (W) in
/-- No key and no string in a value matches. -/
def Censored (d : EventDict) : Prop := ∀ k v, d.get? k = some v → Clean W k ∧ ∀ t ∈ v.strings, Clean W t

/-- What the log call or the bound context gives for a key. -/
def givenValue (env : LogEnv) (e : EventDict) (k : Text) : Option LogValue := (e.get? k).or (env.context.get? k)

/-- The exception of the event. -/
def loggedException (env : LogEnv) (e : EventDict) : Option LoggedExc :=
  figureOutExcInfo env ((givenValue env e "exc_info".toList).getD .none)

/-- Whether the event asks for the stack. -/
def asksForStack (env : LogEnv) (e : EventDict) : Bool := ((givenValue env e "stack_info".toList).getD .none).truthy

/-- The keys whose values are taken out or replaced by a string. -/
def replacedKeys : List Text :=
  ["level".toList, "color_message".toList, "timestamp".toList, "stack_info".toList, "exc_info".toList]

/-- The value of the key is rendered as it is given. -/
def Rendered (env : LogEnv) (e : EventDict) (k : Text) : Prop :=
  k ∉ replacedKeys ∧ (k = "stack".toList → asksForStack env e = false) ∧
    (k = "exception".toList → loggedException env e = none)

variable (W) in
/-- What is not censored has nothing to censor. -/
structure NothingHidden (env : LogEnv) (e : EventDict) : Prop where
  keys : ∀ k v, givenValue env e k = some v → Clean W k
  nested : ∀ k v, givenValue env e k = some v → Rendered env e k → v.isStr = false → ∀ t ∈ v.strings, Clean W t
  stack : asksForStack env e = true → Clean W env.stack
  traceback : ∀ x, loggedException env e = some x → Clean W x.traceback

/-! ## Through the chain -/

/-- The keys that the chain names itself are clean. -/
theorem clean_chainKeys : ∀ k ∈ ["service".toList, "env".toList, "version".toList, "stack".toList,
    "exception".toList] ++ replacedKeys, Clean W k := by
  intro k hk
  refine clean_of_plain ?_
  revert k
  decide

/-- The event dict that is censored. -/
def filled (env : LogEnv) (e : EventDict) : EventDict :=
  addServiceContext env (addLogLevel env (mergeContextvars env e))

theorem get?_filled_of_given {env : LogEnv} {e : EventDict} {k : Text} {v : LogValue} (hk : k ≠ "level".toList)
    (h : givenValue env e k = some v) : (filled env e).get? k = some v := by
  have hset : ∀ {d : EventDict} {j : Text} {w : LogValue}, d.get? k = some v → (d.setdefault j w).get? k = some v := by
    intro d j w hd
    rw [EventDict.get?_setdefault]
    split
    · rename_i hj
      rw [← hj, hd, Option.getD_some]
    · exact hd
  refine hset (hset (hset ?_))
  rw [addLogLevel, EventDict.get?_set, if_neg hk, mergeContextvars, EventDict.get?_foldl_setdefault]
  exact h

/-- What is not given is a string that the chain itself adds. -/
theorem given_of_get?_filled {env : LogEnv} {e : EventDict} {k : Text} {v : LogValue}
    (h : (filled env e).get? k = some v) :
    k ≠ "level".toList ∧ givenValue env e k = some v ∨ v.isStr = true ∧ Clean W k := by
  have hset : ∀ {d : EventDict} {j t : Text}, j ∈ ["service".toList, "env".toList, "version".toList] →
      (d.setdefault j (.str t)).get? k = some v → d.get? k = some v ∨ v.isStr = true ∧ Clean W k := by
    intro d j t hj hd
    rw [EventDict.get?_setdefault] at hd
    split at hd
    · rename_i hk
      cases hold : d.get? j with
      | none =>
        rw [hold, Option.getD_none] at hd
        refine .inr ⟨Option.some.inj hd ▸ rfl, clean_chainKeys k (List.mem_append_left _ ?_)⟩
        rw [hk]
        exact List.mem_append_left ["stack".toList, "exception".toList] hj
      | some w =>
        rw [hold, Option.getD_some] at hd
        exact .inl (hk ▸ hold.trans hd)
    · exact .inl hd
  obtain h | h := hset (by decide) h
  · obtain h | h := hset (by decide) h
    · obtain h | h := hset (by decide) h
      · rw [addLogLevel, EventDict.get?_set] at h
        split at h
        · rename_i hk
          exact .inr ⟨Option.some.inj h ▸ rfl, clean_chainKeys k (hk ▸ by decide)⟩
        · rename_i hk
          rw [mergeContextvars, EventDict.get?_foldl_setdefault] at h
          exact .inl ⟨hk, h⟩
      · exact .inr h
    · exact .inr h
  · exact .inr h

theorem get?_filled {env : LogEnv} {e : EventDict} {k : Text}
    (hk : k ∉ ["level".toList, "service".toList, "env".toList, "version".toList]) :
    (filled env e).get? k = givenValue env e k := by
  simp only [List.mem_cons, List.not_mem_nil, or_false, not_or] at hk
  obtain ⟨hlevel, hservice, henv, hversion⟩ := hk
  rw [filled, addServiceContext, EventDict.get?_setdefault, if_neg hversion, EventDict.get?_setdefault, if_neg henv,
    EventDict.get?_setdefault, if_neg hservice, addLogLevel, EventDict.get?_set, if_neg hlevel, mergeContextvars,
    EventDict.get?_foldl_setdefault]
  rfl

theorem truthy_censorValue (v : LogValue) : (censorValue W v).truthy = v.truthy := by
  cases v with
  | str t =>
    have hempty : (censorText W t).isEmpty = t.isEmpty := by
      rw [Bool.eq_iff_iff, List.isEmpty_iff, List.isEmpty_iff, censorText, Regex.sub_eq_nil (by decide),
        Regex.sub_eq_nil (by decide), Regex.sub_eq_nil (by decide)]
    rw [censorValue, LogValue.truthy, LogValue.truthy, hempty]
  | _ => rfl

theorem figureOutExcInfo_censorValue (env : LogEnv) (v : LogValue) :
    figureOutExcInfo env (censorValue W v) = figureOutExcInfo env v := by
  cases v with
  | str t =>
    have htruthy := truthy_censorValue (W := W) (.str t)
    rw [censorValue] at htruthy ⊢
    rw [figureOutExcInfo, figureOutExcInfo, htruthy]
    · rintro x ⟨⟩
    · rintro x ⟨⟩
  | _ => rfl

/-- The event dict with its time. -/
theorem get?_timeStamper (env : LogEnv) (e : EventDict) (k : Text) :
    (timeStamper env (dropColorMessage (censorSensitiveFields W e))).get? k =
      if k = "timestamp".toList then some (.str (timestamp env))
      else if k = "color_message".toList then none else (e.get? k).map (censorValue W) := by
  rw [timeStamper, EventDict.get?_set, dropColorMessage, EventDict.get?_pop, censorSensitiveFields,
    EventDict.get?_mapValues]

theorem get?_stackInfoRenderer (env : LogEnv) (e : EventDict) (k : Text) :
    (stackInfoRenderer env e).get? k =
      (if k = "stack".toList ∧ ((e.get? "stack_info".toList).getD .none).truthy = true then some (.str env.stack)
        else none).or (if k = "stack_info".toList then none else e.get? k) := by
  unfold stackInfoRenderer
  by_cases ht : ((e.get? "stack_info".toList).getD .none).truthy = true
  · simp only [ht, if_true, and_true, EventDict.get?_set, EventDict.get?_pop]
    split <;> rfl
  · rw [if_neg ht, if_neg fun h => ht h.2, EventDict.get?_pop, Option.none_or]

theorem get?_formatExcInfo (env : LogEnv) (e : EventDict) (k : Text) :
    (formatExcInfo env e).get? k =
      (if k = "exception".toList then
          (figureOutExcInfo env ((e.get? "exc_info".toList).getD .none)).map fun x => .str x.traceback
        else none).or (if k = "exc_info".toList then none else e.get? k) := by
  unfold formatExcInfo
  cases figureOutExcInfo env ((e.get? "exc_info".toList).getD .none) with
  | some x =>
    simp only [EventDict.get?_set, EventDict.get?_pop]
    split <;> rfl
  | none =>
    simp only [EventDict.get?_pop, Option.map_none, ite_self]
    rfl

/-- The event dict after `TimeStamper`. -/
def stamped (W : WordClass) (env : LogEnv) (e : EventDict) : EventDict :=
  timeStamper env (dropColorMessage (censorSensitiveFields W (filled env e)))

theorem asks_rendered (env : LogEnv) (e : EventDict) :
    (((stamped W env e).get? "stack_info".toList).getD .none).truthy = asksForStack env e := by
  have htime : "stack_info".toList ≠ "timestamp".toList := by decide
  have hcolor : "stack_info".toList ≠ "color_message".toList := by decide
  rw [stamped, get?_timeStamper, if_neg htime, if_neg hcolor, get?_filled (by decide), asksForStack]
  cases givenValue env e "stack_info".toList with
  | none => rfl
  | some v => exact truthy_censorValue v

theorem figureOut_rendered (env : LogEnv) (e : EventDict) :
    figureOutExcInfo env (((stackInfoRenderer env (stamped W env e)).get? "exc_info".toList).getD .none) =
      loggedException env e := by
  have htime : "exc_info".toList ≠ "timestamp".toList := by decide
  have hcolor : "exc_info".toList ≠ "color_message".toList := by decide
  have hstack : "exc_info".toList ≠ "stack".toList := by decide
  have hinfo : "exc_info".toList ≠ "stack_info".toList := by decide
  rw [get?_stackInfoRenderer, if_neg fun h => hstack h.1, if_neg hinfo, Option.none_or, stamped, get?_timeStamper,
    if_neg htime, if_neg hcolor, get?_filled (by decide), loggedException]
  cases givenValue env e "exc_info".toList with
  | none => rfl
  | some v => exact figureOutExcInfo_censorValue env v

/-- **What is rendered for a key.** -/
theorem get?_runProcessors (env : LogEnv) (e : EventDict) (k : Text) :
    (runProcessors W env e).get? k =
      (if k = "exception".toList then (loggedException env e).map fun x => .str x.traceback else none).or
        (if k = "exc_info".toList then none else
          (if k = "stack".toList ∧ asksForStack env e = true then some (.str env.stack) else none).or
            (if k = "stack_info".toList then none
              else if k = "timestamp".toList then some (.str (timestamp env))
              else if k = "color_message".toList then none
              else ((filled env e).get? k).map (censorValue W))) := by
  have hrun : runProcessors W env e = formatExcInfo env (stackInfoRenderer env (stamped W env e)) := by
    simp only [runProcessors, buildProcessors, List.foldl_cons, List.foldl_nil, stamped, filled]
  rw [hrun, get?_formatExcInfo, figureOut_rendered, get?_stackInfoRenderer, asks_rendered, stamped, get?_timeStamper]

section

variable {env : LogEnv} {e : EventDict} {k : Text} {v : LogValue}

theorem rendered_exception {x : LoggedExc} (h : loggedException env e = some x) :
    (runProcessors W env e).get? "exception".toList = some (.str x.traceback) := by
  rw [get?_runProcessors, if_pos rfl, h]
  rfl

/-- **The message of an exception is rendered as it is.** -/
theorem message_rendered {x : LoggedExc} (h : loggedException env e = some x) :
    ∃ t, (runProcessors W env e).get? "exception".toList = some (.str t) ∧ x.message <:+: t :=
  ⟨x.traceback, rendered_exception h, x.includes⟩

theorem rendered_stack (h : asksForStack env e = true) :
    (runProcessors W env e).get? "stack".toList = some (.str env.stack) := by
  have hexc : "stack".toList ≠ "exception".toList := by decide
  have hinfo : "stack".toList ≠ "exc_info".toList := by decide
  rw [get?_runProcessors, if_neg hexc, Option.none_or, if_neg hinfo, if_pos ⟨rfl, h⟩, Option.some_or]

theorem rendered_given (hk : Rendered env e k) (h : givenValue env e k = some v) :
    (runProcessors W env e).get? k = some (censorValue W v) := by
  obtain ⟨hreplaced, hstack, hexc⟩ := hk
  simp only [replacedKeys, List.mem_cons, List.not_mem_nil, or_false, not_or] at hreplaced
  obtain ⟨hlevel, hcolor, htime, hinfo, hexcInfo⟩ := hreplaced
  have hnoStack : ¬ (k = "stack".toList ∧ asksForStack env e = true) := fun hs =>
    absurd ((hstack hs.1).symm.trans hs.2) Bool.false_ne_true
  have hnoExc :
      (if k = "exception".toList then (loggedException env e).map fun x => LogValue.str x.traceback else none) =
        none := by
    split
    · rename_i he
      rw [hexc he, Option.map_none]
    · rfl
  rw [get?_runProcessors, hnoExc, Option.none_or, if_neg hexcInfo, if_neg hnoStack, Option.none_or, if_neg hinfo,
    if_neg htime, if_neg hcolor, get?_filled_of_given hlevel h, Option.map_some]

/-- What is rendered is an exception, the stack, the time or a censored value. -/
theorem rendered_cases (h : (runProcessors W env e).get? k = some v) :
    (∃ x, loggedException env e = some x ∧ k = "exception".toList ∧ v = .str x.traceback) ∨
      (asksForStack env e = true ∧ k = "stack".toList ∧ v = .str env.stack) ∨
      (k = "timestamp".toList ∧ v = .str (timestamp env)) ∨
      ∃ w, (filled env e).get? k = some w ∧ v = censorValue W w ∧ (k ≠ "level".toList → Rendered env e k) := by
  rw [get?_runProcessors, Option.or_eq_some_iff] at h
  rcases h with h | ⟨hexc, h⟩
  · split at h
    · rename_i hk
      obtain ⟨x, hx, rfl⟩ := Option.map_eq_some_iff.mp h
      exact .inl ⟨x, hx, hk, rfl⟩
    · cases h
  · split at h
    · cases h
    · rename_i hexcInfo
      rw [Option.or_eq_some_iff] at h
      rcases h with h | ⟨hstack, h⟩
      · split at h
        · rename_i hk
          exact .inr (.inl ⟨hk.2, hk.1, (Option.some.inj h).symm⟩)
        · cases h
      · split at h
        · cases h
        · rename_i hinfo
          split at h
          · rename_i htime
            exact .inr (.inr (.inl ⟨htime, (Option.some.inj h).symm⟩))
          · rename_i htime
            split at h
            · cases h
            · rename_i hcolor
              obtain ⟨w, hw, rfl⟩ := Option.map_eq_some_iff.mp h
              refine .inr (.inr (.inr ⟨w, hw, rfl, fun hlevel => ⟨?_, fun hk => ?_, fun hk => ?_⟩⟩))
              · simp only [replacedKeys, List.mem_cons, List.not_mem_nil, or_false, not_or]
                exact ⟨hlevel, hcolor, htime, hinfo, hexcInfo⟩
              · refine Bool.eq_false_iff.mpr fun hasks => ?_
                rw [if_pos ⟨hk, hasks⟩] at hstack
                cases hstack
              · rw [if_pos hk] at hexc
                exact Option.map_eq_none_iff.mp hexc

theorem censorValue_of_not_isStr (h : v.isStr = false) : censorValue W v = v := by
  cases v with
  | str t => cases h
  | _ => rfl

end

theorem clean_str {t : Text} : (∀ u ∈ (LogValue.str t).strings, Clean W u) ↔ Clean W t := by
  rw [LogValue.strings, List.forall_mem_singleton]

/-- A key whose value is not rendered as it is given is one of the chain's own. -/
theorem clean_of_not_rendered {env : LogEnv} {e : EventDict} {k : Text} (h : ¬ Rendered env e k) : Clean W k := by
  refine clean_chainKeys k ?_
  by_contra hk
  simp only [List.mem_append, List.mem_cons, List.not_mem_nil, or_false, not_or] at hk
  obtain ⟨⟨-, -, -, hstack, hexc⟩, hreplaced⟩ := hk
  exact h ⟨hreplaced, fun hs => absurd hs hstack, fun he => absurd he hexc⟩

/-- **The rendered event dict is censored exactly when nothing hides from the censoring.** -/
theorem censored_iff (env : LogEnv) (e : EventDict) :
    Censored W (runProcessors W env e) ↔ NothingHidden W env e := by
  constructor
  · intro h
    refine ⟨fun k v hk => ?_, fun k v hk hr hv t ht => ?_, fun hs => ?_, fun x hx => ?_⟩
    · by_cases hr : Rendered env e k
      · exact (h k _ (rendered_given hr hk)).1
      · exact clean_of_not_rendered hr
    · have hgiven := rendered_given (W := W) hr hk
      rw [censorValue_of_not_isStr hv] at hgiven
      exact (h k v hgiven).2 t ht
    · exact clean_str.mp (h _ _ (rendered_stack hs)).2
    · exact clean_str.mp (h _ _ (rendered_exception hx)).2
  · intro h k v hk
    rcases rendered_cases hk with ⟨x, hx, rfl, rfl⟩ | ⟨hs, rfl, rfl⟩ | ⟨rfl, rfl⟩ | ⟨w, hw, rfl, hr⟩
    · exact ⟨clean_chainKeys _ (by decide), clean_str.mpr (h.traceback x hx)⟩
    · exact ⟨clean_chainKeys _ (by decide), clean_str.mpr (h.stack hs)⟩
    · exact ⟨clean_chainKeys _ (by decide), clean_str.mpr (clean_timestamp env)⟩
    · have hkey : Clean W k := by
        rcases given_of_get?_filled (W := W) hw with ⟨-, hgiven⟩ | ⟨-, hclean⟩
        · exact h.keys k w hgiven
        · exact hclean
      refine ⟨hkey, ?_⟩
      cases hv : w.isStr with
      | true =>
        cases w with
        | str t => exact clean_str.mpr (clean_censorText t)
        | _ => cases hv
      | false =>
        rw [censorValue_of_not_isStr hv]
        rcases given_of_get?_filled (W := W) hw with ⟨hlevel, hgiven⟩ | ⟨hstr, -⟩
        · exact h.nested k w hgiven (hr hlevel) hv
        · exact absurd (hv.symm.trans hstr) Bool.false_ne_true

end

/-! ## A record of an applicant -/

namespace LogSample

theorem decimal_isWord (c : Char) (h : isDecimal c = true) : (c.isAlphanum || c = '_' || isDecimal c) = true := by
  rw [h, Bool.or_true]

/-- `\w` without the letters outside ASCII. -/
def words : WordClass where
  isWord c := c.isAlphanum || c = '_' || isDecimal c
  alphanum c h := by rw [h, Bool.true_or, Bool.true_or]
  decimal := decimal_isWord

def emptyDict : EventDict := ⟨[], List.nodup_nil⟩

def now : DateTime :=
  ⟨⟨2031, 7, 9, by decide, by decide, by decide⟩, ⟨10, 20, 31, 40, by decide, by decide, by decide, by decide⟩,
    some utcOffset⟩

def env : LogEnv := ⟨emptyDict, "info".toList, TextDict.empty, now, rfl, [], none⟩

def applicant : LogValue := .dict [("pan".toList, .str "ABCDE1234F".toList)]

def event : EventDict where
  items := [("event".toList, .str "application.received".toList), ("applicant".toList, applicant)]
  nodup := by decide

/-- An exception with a PAN in its message. -/
def badPan : LoggedExc where
  message := "bad PAN ABCDE1234F".toList
  traceback := "ValueError: bad PAN ABCDE1234F".toList
  includes := ⟨"ValueError: ".toList, [], by decide⟩

def failure : EventDict where
  items := [("event".toList, .str "application.failed".toList), ("exc_info".toList, .exc badPan)]
  nodup := by decide

end LogSample

/-- A PAN in a nested dict is rendered. -/
theorem not_censored : ¬∀ (W : WordClass) (env : LogEnv) (e : EventDict), Censored W (runProcessors W env e) := by
  intro h
  have happlicant : (runProcessors LogSample.words LogSample.env LogSample.event).get? "applicant".toList =
      some LogSample.applicant := rfl
  have hclean := (h LogSample.words LogSample.env LogSample.event _ _ happlicant).2 "ABCDE1234F".toList (by decide)
  exact absurd hclean (by decide)

/-- A PAN in the message of an exception is rendered, too. -/
example : ¬ Censored LogSample.words (runProcessors LogSample.words LogSample.env LogSample.failure) := by
  intro h
  have hexc : loggedException LogSample.env LogSample.failure = some LogSample.badPan := rfl
  have hclean := (h _ _ (rendered_exception hexc)).2 LogSample.badPan.traceback (by decide)
  exact absurd hclean (by decide)

end ComplianceLoop
