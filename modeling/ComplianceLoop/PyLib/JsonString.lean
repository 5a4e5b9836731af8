import ComplianceLoop.PyLib.Basic

/-!
# JSON strings

A Python string is a list of code points, surrogates included (`PyStr`). `escape` is the body of a string as
`json.dumps` writes it with `ensure_ascii`: a code point above the basic plane becomes its two surrogates
(`units`), each written as a `\u` escape. `scanString` is `json.decoder.scanstring`: it reads the escapes one by one and
joins a high surrogate with a low one directly after it (`joinPairs`).

So a string comes back joined (`scanString_escape`), and joining changes nothing in what is written
(`escape_joinPairs`).
-/

set_option autoImplicit false

namespace PyLib

/-- A Unicode code point, a surrogate or not. -/
abbrev CodePoint := Fin 0x110000

/-- A Python string. -/
abbrev PyStr := List CodePoint

/-- A character as a code point. -/
def codePoint (c : Char) : CodePoint :=
  ⟨c.toNat, by have := c.valid; simp only [UInt32.isValidChar, Nat.isValidChar, Char.toNat_val] at this; omega⟩

/-- A text as a Python string. -/
def pyStr (t : Text) : PyStr := t.map codePoint

theorem codePoint_injective : Function.Injective codePoint := by
  intro a b h
  simpa [codePoint, Char.toNat_inj] using h

theorem pyStr_injective : Function.Injective pyStr := List.map_injective_iff.mpr codePoint_injective

/-! ## Surrogates -/

def isHigh (c : CodePoint) : Bool := 0xD800 ≤ c.val && c.val ≤ 0xDBFF

def isLow (c : CodePoint) : Bool := 0xDC00 ≤ c.val && c.val ≤ 0xDFFF

/-- The code point of a surrogate pair. -/
def joinSurrogates (h l : CodePoint) : CodePoint :=
  Fin.ofNat _ (0x10000 + (h.val - 0xD800) * 0x400 + (l.val - 0xDC00))

/-- The high surrogate of a code point above the basic plane. -/
def highOf (c : CodePoint) : CodePoint := Fin.ofNat _ (0xD800 + (c.val - 0x10000) / 0x400)

/-- The low surrogate of a code point above the basic plane. -/
def lowOf (c : CodePoint) : CodePoint := Fin.ofNat _ (0xDC00 + (c.val - 0x10000) % 0x400)

/-- The UTF-16 units of a code point. -/
def units (c : CodePoint) : PyStr := if c.val < 0x10000 then [c] else [highOf c, lowOf c]

/-- A high surrogate directly followed by a low one becomes one code point. -/
def joinPairs : PyStr → PyStr
  | [] => []
  | [c] => [c]
  | h :: l :: s => if isHigh h && isLow l then joinSurrogates h l :: joinPairs s else h :: joinPairs (l :: s)

theorem isHigh_iff {c : CodePoint} : isHigh c = true ↔ 0xD800 ≤ c.val ∧ c.val ≤ 0xDBFF := by simp [isHigh]

theorem isLow_iff {c : CodePoint} : isLow c = true ↔ 0xDC00 ≤ c.val ∧ c.val ≤ 0xDFFF := by simp [isLow]

theorem val_highOf (c : CodePoint) : (highOf c).val = 0xD800 + (c.val - 0x10000) / 0x400 := by
  simp only [highOf, Fin.ofNat]
  omega

theorem val_lowOf (c : CodePoint) : (lowOf c).val = 0xDC00 + (c.val - 0x10000) % 0x400 := by
  simp only [lowOf, Fin.ofNat]
  omega

theorem val_joinSurrogates {h l : CodePoint} (hh : isHigh h = true) (hl : isLow l = true) :
    (joinSurrogates h l).val = 0x10000 + (h.val - 0xD800) * 0x400 + (l.val - 0xDC00) := by
  rw [isHigh_iff] at hh
  rw [isLow_iff] at hl
  simp only [joinSurrogates, Fin.ofNat]
  omega

theorem isHigh_highOf (c : CodePoint) : isHigh (highOf c) = true := by
  rw [isHigh_iff, val_highOf]
  omega

theorem isLow_lowOf (c : CodePoint) : isLow (lowOf c) = true := by
  rw [isLow_iff, val_lowOf]
  omega

/-- Splitting and joining a code point above the basic plane. -/
theorem joinSurrogates_units {c : CodePoint} (hc : ¬ c.val < 0x10000) : joinSurrogates (highOf c) (lowOf c) = c := by
  apply Fin.ext
  rw [val_joinSurrogates (isHigh_highOf c) (isLow_lowOf c), val_highOf, val_lowOf]
  omega

/-- Joining and splitting a surrogate pair. -/
theorem units_joinSurrogates {h l : CodePoint} (hh : isHigh h = true) (hl : isLow l = true) :
    units (joinSurrogates h l) = [h, l] := by
  have hv := val_joinSurrogates hh hl
  have hh' := isHigh_iff.mp hh
  have hl' := isLow_iff.mp hl
  have h1 : highOf (joinSurrogates h l) = h := Fin.ext (by rw [val_highOf]; omega)
  have h2 : lowOf (joinSurrogates h l) = l := Fin.ext (by rw [val_lowOf]; omega)
  rw [units, if_neg (by omega), h1, h2]

theorem units_of_lt {c : CodePoint} (hc : c.val < 0x10000) : units c = [c] := if_pos hc

/-- A code point that starts no pair is kept. -/
theorem joinPairs_cons {c : CodePoint} {s : PyStr}
    (h : isHigh c = true → ∀ l ∈ s.head?, isLow l = false) : joinPairs (c :: s) = c :: joinPairs s := by
  cases s with
  | nil => rfl
  | cons l s =>
    have hn : (isHigh c && isLow l) = false := by
      cases hc : isHigh c with
      | false => rfl
      | true => simpa using h hc l rfl
    rw [joinPairs, hn]
    rfl

/-- The head of a split string is low only when the head of the string is. -/
theorem head_flatMap_units {s : PyStr} (h : ∀ l ∈ s.head?, isLow l = false) :
    ∀ l ∈ (s.flatMap units).head?, isLow l = false := by
  cases s with
  | nil => simp
  | cons c s =>
    by_cases hc : c.val < 0x10000
    · simpa [units_of_lt hc] using h
    · have hn : isLow (highOf c) = false := by
        rw [← Bool.not_eq_true, isLow_iff, val_highOf]
        omega
      simpa [units, hc] using hn

/-- Joining forgets the splitting. -/
theorem joinPairs_flatMap_units (s : PyStr) : joinPairs (s.flatMap units) = joinPairs s := by
  fun_induction joinPairs s with
  | case1 => rfl
  | case2 c =>
    by_cases hc : c.val < 0x10000
    · simp [units_of_lt hc, joinPairs]
    · simp [units, hc, joinPairs, isHigh_highOf, isLow_lowOf, joinSurrogates_units hc]
  | case3 h l s hp ih =>
    rw [Bool.and_eq_true, isHigh_iff, isLow_iff] at hp
    have hh := isHigh_iff.mpr hp.1
    have hl := isLow_iff.mpr hp.2
    simp [units_of_lt (c := h) (by omega), units_of_lt (c := l) (by omega), joinPairs, hh, hl, ih]
  | case4 h l s hp ih =>
    by_cases hc : h.val < 0x10000
    · rw [List.flatMap_cons, units_of_lt hc, List.singleton_append, joinPairs_cons, ih]
      intro hh
      exact head_flatMap_units (by simpa [hh] using hp)
    · have hu : units h = [highOf h, lowOf h] := if_neg hc
      rw [List.flatMap_cons, hu, List.cons_append, List.singleton_append, joinPairs, isHigh_highOf, isLow_lowOf,
        joinSurrogates_units hc, ih]
      rfl

/-- Splitting forgets the joining. -/
theorem flatMap_units_joinPairs (s : PyStr) : (joinPairs s).flatMap units = s.flatMap units := by
  fun_induction joinPairs s with
  | case1 => rfl
  | case2 c => rfl
  | case3 h l s hp ih =>
    rw [Bool.and_eq_true] at hp
    have hh := isHigh_iff.mp hp.1
    have hl := isLow_iff.mp hp.2
    simp [units_joinSurrogates hp.1 hp.2, units_of_lt (c := h) (by omega), units_of_lt (c := l) (by omega), ih]
  | case4 h l s hp ih => rw [List.flatMap_cons, ih, ← List.flatMap_cons]

@[simp] theorem joinPairs_joinPairs (s : PyStr) : joinPairs (joinPairs s) = joinPairs s := by
  rw [← joinPairs_flatMap_units (joinPairs s), flatMap_units_joinPairs, joinPairs_flatMap_units]

/-- A string without surrogates is joined already. -/
theorem joinPairs_of_noSurrogates {s : PyStr} (h : ∀ c ∈ s, isHigh c = false) : joinPairs s = s := by
  induction s with
  | nil => rfl
  | cons c s ih =>
    rw [joinPairs_cons (fun hc => absurd hc (by simp [h c])), ih fun d hd => h d (List.mem_cons_of_mem _ hd)]

theorem isHigh_codePoint (c : Char) : isHigh (codePoint c) = false := by
  have := c.valid
  simp only [UInt32.isValidChar, Nat.isValidChar, Char.toNat_val] at this
  rw [← Bool.not_eq_true, isHigh_iff]
  simp only [codePoint]
  omega

@[simp] theorem joinPairs_pyStr (t : Text) : joinPairs (pyStr t) = pyStr t := by
  apply joinPairs_of_noSurrogates
  intro c hc
  obtain ⟨d, _, rfl⟩ := List.mem_map.mp hc
  exact isHigh_codePoint d

/-! ## Writing -/

/-- Four hexadecimal digits. -/
def hex4 (n : Nat) : Text :=
  [(n / 0x1000 % 16).digitChar, (n / 0x100 % 16).digitChar, (n / 0x10 % 16).digitChar, (n % 16).digitChar]

/-- `\uXXXX` of a UTF-16 unit. -/
def uEscape (u : CodePoint) : Text := '\\' :: 'u' :: hex4 u.val

/-- `py_encode_basestring_ascii` on one code point. -/
def escapeChar (c : CodePoint) : Text :=
  if c.val = 0x22 then ['\\', '"']
  else if c.val = 0x5C then ['\\', '\\']
  else if c.val = 0x0A then ['\\', 'n']
  else if c.val = 0x0D then ['\\', 'r']
  else if c.val = 0x09 then ['\\', 't']
  else if c.val = 0x0C then ['\\', 'f']
  else if c.val = 0x08 then ['\\', 'b']
  else if 0x20 ≤ c.val ∧ c.val ≤ 0x7E then [Char.ofNat c.val]
  else (units c).flatMap uEscape

/-- The body of a string literal. -/
def escape (s : PyStr) : Text := s.flatMap escapeChar

/-- A string literal. -/
def quote (s : PyStr) : Text := '"' :: (escape s ++ ['"'])

theorem escapeChar_of_ge {c : CodePoint} (h : 0x7F ≤ c.val) : escapeChar c = (units c).flatMap uEscape := by
  simp only [escapeChar]
  rw [if_neg, if_neg, if_neg, if_neg, if_neg, if_neg, if_neg, if_neg] <;> omega

/-- A string and its joined form are written alike. -/
theorem escape_joinPairs (s : PyStr) : escape (joinPairs s) = escape s := by
  fun_induction joinPairs s with
  | case1 => rfl
  | case2 c => rfl
  | case3 h l s hp ih =>
    rw [Bool.and_eq_true] at hp
    have hv := val_joinSurrogates hp.1 hp.2
    have hh := isHigh_iff.mp hp.1
    have hl := isLow_iff.mp hp.2
    simp only [escape, List.flatMap_cons] at ih ⊢
    rw [escapeChar_of_ge (c := joinSurrogates h l) (by omega), escapeChar_of_ge (c := h) (by omega),
      escapeChar_of_ge (c := l) (by omega), units_joinSurrogates hp.1 hp.2, units_of_lt (c := h) (by omega),
      units_of_lt (c := l) (by omega), ih]
    simp
  | case4 h l s hp ih =>
    simp only [escape, List.flatMap_cons] at ih ⊢
    rw [ih]

/-! ## Reading -/

/-- The value of a hexadecimal digit, in either case. -/
def hexVal (c : Char) : Option Nat :=
  if '0' ≤ c ∧ c ≤ '9' then some (c.toNat - 0x30)
  else if 'a' ≤ c ∧ c ≤ 'f' then some (c.toNat - 0x57)
  else if 'A' ≤ c ∧ c ≤ 'F' then some (c.toNat - 0x37)
  else none

/-- The unit of a `\uXXXX` escape. -/
def hexUnit (a b c d : Char) : Option CodePoint := do
  let a ← hexVal a
  let b ← hexVal b
  let c ← hexVal c
  let d ← hexVal d
  return Fin.ofNat _ (a * 0x1000 + b * 0x100 + c * 0x10 + d)

/-- The code point of a one-letter escape. -/
def unescape (c : Char) : Option CodePoint :=
  if c = '"' ∨ c = '\\' ∨ c = '/' then some (codePoint c)
  else if c = 'b' then some 0x08
  else if c = 'f' then some 0x0C
  else if c = 'n' then some 0x0A
  else if c = 'r' then some 0x0D
  else if c = 't' then some 0x09
  else none

/-- Units read before the rest. -/
def prepend (us : PyStr) (p : PyStr × Text) : PyStr × Text := (us ++ p.1, p.2)

/-- The units up to the closing quote, and the text after it. -/
def scanUnits : Text → Option (PyStr × Text)
  | [] => none
  | c :: t =>
    if c = '"' then some ([], t)
    else if c = '\\' then
      match t with
      | [] => none
      | e :: t =>
        if e = 'u' then
          match t with
          | a :: b :: c :: d :: t => (hexUnit a b c d).bind fun u => (scanUnits t).map (prepend [u])
          | _ => none
        else (unescape e).bind fun u => (scanUnits t).map (prepend [u])
    -- strict mode: no raw control characters
    else if c.toNat < 0x20 then none
    else (scanUnits t).map (prepend [codePoint c])

/-- `json.decoder.scanstring`, from after the opening quote. -/
def scanString (t : Text) : Option (PyStr × Text) := (scanUnits t).map fun p => (joinPairs p.1, p.2)

theorem hexVal_digitChar : ∀ n < 16, hexVal n.digitChar = some n := by decide

theorem hexUnit_hex4 {u : CodePoint} (hu : u.val < 0x10000) :
    hexUnit (u.val / 0x1000 % 16).digitChar (u.val / 0x100 % 16).digitChar (u.val / 0x10 % 16).digitChar
      (u.val % 16).digitChar = some u := by
  have hv : ∀ n, hexVal (n % 16).digitChar = some (n % 16) := fun n => hexVal_digitChar _ (Nat.mod_lt _ (by decide))
  simp only [hexUnit, hv, Option.bind_eq_bind, Option.bind_some, Option.pure_def, Option.some.injEq]
  apply Fin.ext
  simp only [Fin.ofNat]
  omega

theorem scanUnits_uEscape {u : CodePoint} (hu : u.val < 0x10000) (t : Text) :
    scanUnits (uEscape u ++ t) = (scanUnits t).map (prepend [u]) := by
  simp only [uEscape, hex4, List.cons_append, List.nil_append]
  rw [scanUnits, if_neg (by decide), if_pos rfl]
  simp only [↓reduceIte]
  rw [hexUnit_hex4 hu]
  rfl

theorem scanUnits_short {e : Char} {u : CodePoint} (he : e ≠ 'u') (hu : unescape e = some u) (t : Text) :
    scanUnits ('\\' :: e :: t) = (scanUnits t).map (prepend [u]) := by
  rw [scanUnits.eq_def]
  simp [he, hu]

/-- A printable character is read as itself. -/
theorem scanUnits_printable {c : CodePoint} (h : 0x20 ≤ c.val ∧ c.val ≤ 0x7E) (hq : c.val ≠ 0x22) (hb : c.val ≠ 0x5C)
    (t : Text) : scanUnits (Char.ofNat c.val :: t) = (scanUnits t).map (prepend [c]) := by
  have hv : (Char.ofNat c.val).toNat = c.val := by
    have hc : c.val.isValidChar := Or.inl (by omega)
    rw [Char.ofNat, dif_pos hc]
    rfl
  have hq : Char.ofNat c.val ≠ '"' := fun he => hq (by rw [he] at hv; exact hv.symm)
  have hb : Char.ofNat c.val ≠ '\\' := fun he => hb (by rw [he] at hv; exact hv.symm)
  have hc : codePoint (Char.ofNat c.val) = c := Fin.ext hv
  rw [scanUnits.eq_def]
  simp only [if_neg hq, if_neg hb, hc]
  rw [if_neg (by omega)]

/-- The escape of one code point is read as its units. -/
theorem scanUnits_escapeChar (c : CodePoint) (t : Text) :
    scanUnits (escapeChar c ++ t) = (scanUnits t).map (prepend (units c)) := by
  have key : ∀ (e : Char) (k : CodePoint), c.val = k.val → k.val < 0x10000 → e ≠ 'u' → unescape e = some k →
      scanUnits (['\\', e] ++ t) = (scanUnits t).map (prepend (units c)) := by
    intro e k hk hlt he hu
    rw [units_of_lt (by omega), Fin.ext hk]
    exact scanUnits_short he hu t
  unfold escapeChar
  split_ifs with h1 h2 h3 h4 h5 h6 h7 h8
  · exact key '"' 0x22 h1 (by decide) (by decide) (by decide)
  · exact key '\\' 0x5C h2 (by decide) (by decide) (by decide)
  · exact key 'n' 0x0A h3 (by decide) (by decide) (by decide)
  · exact key 'r' 0x0D h4 (by decide) (by decide) (by decide)
  · exact key 't' 0x09 h5 (by decide) (by decide) (by decide)
  · exact key 'f' 0x0C h6 (by decide) (by decide) (by decide)
  · exact key 'b' 0x08 h7 (by decide) (by decide) (by decide)
  · rw [units_of_lt (by omega)]
    exact scanUnits_printable h8 h1 h2 t
  · by_cases hc : c.val < 0x10000
    · rw [units_of_lt hc, List.flatMap_singleton, scanUnits_uEscape hc]
    · have hh := isHigh_iff.mp (isHigh_highOf c)
      have hl := isLow_iff.mp (isLow_lowOf c)
      simp only [units, if_neg hc, List.flatMap_cons, List.flatMap_nil, List.append_nil, List.append_assoc]
      rw [scanUnits_uEscape (by omega), scanUnits_uEscape (by omega), Option.map_map]
      rfl

theorem scanUnits_escape (s : PyStr) (t : Text) :
    scanUnits (escape s ++ '"' :: t) = some (s.flatMap units, t) := by
  induction s with
  | nil => rw [scanUnits.eq_def]; rfl
  | cons c s ih =>
    have : escape (c :: s) ++ '"' :: t = escapeChar c ++ (escape s ++ '"' :: t) := by simp [escape]
    rw [this, scanUnits_escapeChar, ih]
    simp [prepend]

/-- A written string is read back joined. -/
theorem scanString_escape (s : PyStr) (t : Text) : scanString (escape s ++ '"' :: t) = some (joinPairs s, t) := by
  rw [scanString, scanUnits_escape]
  simp [joinPairs_flatMap_units]

/-- Reading a string consumes its closing quote at least. -/
theorem scanUnits_length {t : Text} : ∀ {p}, scanUnits t = some p → p.2.length < t.length := by
  have step : ∀ {t' : Text} {us : PyStr} {p : PyStr × Text}, (∀ {p}, scanUnits t' = some p → p.2.length < t'.length) →
      (scanUnits t').map (prepend us) = some p → p.2.length < t'.length := by
    intro t' us p ih hp
    obtain ⟨q, hq, rfl⟩ := Option.map_eq_some_iff.mp hp
    have := ih hq
    exact this
  fun_induction scanUnits t with
  | case1 => simp
  | case2 => rintro p ⟨⟩; simp
  | case3 => simp
  | case4 =>
    rename_i ih
    intro p hp
    obtain ⟨u, _, hp⟩ := Option.bind_eq_some_iff.mp hp
    have := step ih hp
    simp only [List.length_cons]
    omega
  | case5 => simp
  | case6 =>
    rename_i ih
    intro p hp
    obtain ⟨u, _, hp⟩ := Option.bind_eq_some_iff.mp hp
    have := step ih hp
    simp only [List.length_cons]
    omega
  | case7 => simp
  | case8 =>
    rename_i ih
    intro p hp
    have := step ih hp
    simp only [List.length_cons]
    omega

theorem scanString_length {t : Text} {p : PyStr × Text} (h : scanString t = some p) : p.2.length < t.length := by
  obtain ⟨q, hq, rfl⟩ := Option.map_eq_some_iff.mp h
  have := scanUnits_length hq
  exact this

end PyLib
