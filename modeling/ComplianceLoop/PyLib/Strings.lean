import ComplianceLoop.PyLib.Uuid
import ComplianceLoop.PyLib.JsonOrder

/-!
# Strings, dicts of strings and lazily filled globals

`upper` and `strip` are the methods of a string, `bytesFromHex` is `bytes.fromhex`, `intOfDecimal` is `int`. A
`TextDict` is a dict from strings to strings, such as `os.environ`. `fetch` is the idiom of a module global that is
filled on its first use: what a caller gets does not change when the global is filled (`fetch_fetch`).
-/

set_option autoImplicit false

namespace PyLib

/-! ## Case and white space -/

/-- The non-ASCII characters whose upper case is ASCII. -/
def asciiUppers : List (Nat × Text) :=
  [(0xdf, ['S', 'S']), (0x131, ['I']), (0x17f, ['S']), (0xfb00, ['F', 'F']), (0xfb01, ['F', 'I']), (0xfb02, ['F', 'L']),
    (0xfb03, ['F', 'F', 'I']), (0xfb04, ['F', 'F', 'L']), (0xfb05, ['S', 'T']), (0xfb06, ['S', 'T'])]

/-- `t.upper()`; any other non-ASCII character keeps its own spelling: the callers match the result against a pattern
of ASCII characters only. -/
def upper (t : Text) : Text := t.flatMap fun c => (getItem c.toNat asciiUppers).getD [c.toUpper]

/-- `t.strip()`. -/
def strip (t : Text) : Text :=
  stripChars (fun c => isCSpace c || (0x1c ≤ c.toNat && c.toNat ≤ 0x1f) || wideSpaces.contains c.toNat) t

/-! ## Dicts -/

section

variable {α β : Type} [DecidableEq α]

theorem getItem_setItem_of_ne {j k : α} (h : j ≠ k) (v : β) (ms : List (α × β)) :
    getItem j (setItem k v ms) = getItem j ms := by
  induction ms with
  | nil => simp [setItem, getItem, h.symm]
  | cons m ms ih =>
    rw [setItem]
    by_cases hk : m.1 = k
    · rw [if_pos hk, getItem, getItem, if_neg h.symm, if_neg (hk ▸ h.symm)]
    · rw [if_neg hk, getItem, getItem, ih]

theorem getItem_filter_ne (j k : α) (ms : List (α × β)) :
    getItem j (ms.filter fun m => m.1 ≠ k) = if j = k then none else getItem j ms := by
  induction ms with
  | nil => simp [getItem]
  | cons m ms ih =>
    by_cases hm : m.1 = k
    · rw [List.filter_cons_of_neg (by simp [hm]), ih, getItem, hm]
      split
      · rfl
      · rename_i hj
        rw [if_neg fun h => hj h.symm]
    · rw [List.filter_cons_of_pos (by simp [hm]), getItem, getItem, ih]
      split
      · rename_i hj
        rw [if_neg (hj ▸ hm)]
      · rfl

theorem getItem_mapValues {γ : Type} (f : β → γ) (k : α) (ms : List (α × β)) :
    getItem k (ms.map fun m => (m.1, f m.2)) = (getItem k ms).map f := by
  induction ms with
  | nil => rfl
  | cons m ms ih =>
    rw [List.map_cons, getItem, getItem, ih]
    split <;> rfl

end

/-- A dict from strings to strings. -/
structure TextDict where
  items : List (Text × Text)
  nodup : (items.map Prod.fst).Nodup
  deriving DecidableEq

namespace TextDict

def empty : TextDict := ⟨[], List.nodup_nil⟩

/-- `d.get(k)`. -/
def get? (d : TextDict) (k : Text) : Option Text := getItem k d.items

/-- `d.get(k, default)`. -/
def get (d : TextDict) (k default : Text) : Text := (d.get? k).getD default

/-- `d[k] = v`. -/
def set (d : TextDict) (k v : Text) : TextDict := ⟨setItem k v d.items, nodup_setItem d.nodup⟩

/-- `d.update(e)`. -/
def update (d e : TextDict) : TextDict := e.items.foldl (fun d p => d.set p.1 p.2) d

theorem get?_set (d : TextDict) (j k v : Text) : (d.set k v).get? j = if j = k then some v else d.get? j := by
  split
  · rename_i h
    rw [h]
    exact getItem_setItem k v d.items
  · rename_i h
    exact getItem_setItem_of_ne h v d.items

@[simp] theorem get?_set_self (d : TextDict) (k v : Text) : (d.set k v).get? k = some v := by rw [get?_set, if_pos rfl]

theorem get?_set_of_ne (d : TextDict) {j k : Text} (h : j ≠ k) (v : Text) : (d.set k v).get? j = d.get? j := by
  rw [get?_set, if_neg h]

theorem get?_foldl_set (ps : List (Text × Text)) (hn : (ps.map Prod.fst).Nodup) (d : TextDict) (k : Text) :
    (ps.foldl (fun d p => d.set p.1 p.2) d).get? k = (getItem k ps).or (d.get? k) := by
  induction ps generalizing d with
  | nil => rfl
  | cons p ps ih =>
    rw [List.map_cons, List.nodup_cons] at hn
    rw [List.foldl_cons, ih hn.2, get?_set, getItem]
    by_cases hk : k = p.1
    · have hg : getItem k ps = none := by
        cases hg : getItem k ps with
        | none => rfl
        | some v => exact absurd (List.mem_map.mpr ⟨_, getItem_mem hg, hk⟩) hn.1
      rw [if_pos hk, if_pos hk.symm, hg]
      rfl
    · rw [if_neg hk, if_neg fun h => hk h.symm]

theorem get?_update (d e : TextDict) (k : Text) : (d.update e).get? k = (e.get? k).or (d.get? k) :=
  get?_foldl_set e.items e.nodup d k

end TextDict

/-! ## `bytes.fromhex` -/

/-- The bytes, or the position of the first character that is neither part of a pair of digits nor white space between
two pairs. -/
def hexPairs (pos : Nat) : Text → Except Nat Bytes
  | [] => .ok []
  | c :: t =>
    if isCSpace c then hexPairs (pos + 1) t
    else match hexVal c, t with
      | none, _ => .error pos
      | some _, [] => .error (pos + 1)
      | some high, d :: t =>
        match hexVal d with
        | none => .error (pos + 1)
        | some low => (hexPairs (pos + 2) t).map (UInt8.ofNat (16 * high + low) :: ·)

/-- `bytes.fromhex(t)`. -/
def bytesFromHex (t : Text) : Except PyExc Bytes :=
  match if isAscii t then hexPairs 0 t else .error (t.takeWhile fun c => c.toNat < 128).length with
  | .ok b => .ok b
  | .error pos =>
    raise .valueError ("non-hexadecimal number found in fromhex() arg at position ".toList ++ Nat.toDigits 10 pos)

/-! ## `int(text)` -/

/-- Decimal digits with single underscores between them. -/
def decimalRun (t : Text) : Option Nat :=
  let groups := t.splitOn '_'
  if groups.all fun g => !g.isEmpty && g.all Char.isDigit then some (Nat.ofDigitChars 10 groups.flatten 0) else none

/-- `int(t)`; `none` where Python raises `ValueError`. -/
def intOfDecimal (t : Text) : Option Int :=
  match stripChars isCSpace (t.map asciiNumeral) with
  | [] => none
  | c :: r =>
    if c = '-' then (decimalRun r).map fun n : Nat => -(n : Int)
    else if c = '+' then (decimalRun r).map Int.ofNat
    else (decimalRun (c :: r)).map Int.ofNat

theorem isLowerHex_of_isDigit {c : Char} (h : c.isDigit = true) : isLowerHex c = true := by
  rw [isLowerHex, h, Bool.true_or]

theorem decimalRun_of_digits {t : Text} (hne : t ≠ []) (hd : ∀ c ∈ t, c.isDigit = true) :
    decimalRun t = some (Nat.ofDigitChars 10 t 0) := by
  have hsplit : t.splitOn '_' = [t] := by
    refine List.splitOnP_eq_singleton fun c hc => ?_
    obtain ⟨-, -, -, -, hu, -⟩ := lowerHex_cases (isLowerHex_of_isDigit (hd c hc))
    exact beq_eq_false_iff_ne.mpr hu
  simp [decimalRun, hsplit, hne]
  exact hd

/-- `int(str(n)) == n`. -/
theorem intOfDecimal_toDigits (n : Nat) : intOfDecimal (Nat.toDigits 10 n) = some (n : Int) := by
  have hd : ∀ c ∈ Nat.toDigits 10 n, c.isDigit = true := fun c hc =>
    Nat.isDigit_of_mem_toDigits (by decide) (by decide) hc
  have hchars := fun c hc => lowerHex_cases (isLowerHex_of_isDigit (hd c hc))
  have hmap : (Nat.toDigits 10 n).map asciiNumeral = Nat.toDigits 10 n :=
    (List.map_congr_left fun c hc => (hchars c hc).1).trans (List.map_id' _)
  have hstrip : stripChars isCSpace (Nat.toDigits 10 n) = Nat.toDigits 10 n :=
    stripChars_of_none fun c hc => (hchars c hc).2.1
  obtain ⟨c, r, ht⟩ := List.exists_cons_of_ne_nil (Nat.toDigits_ne_nil (b := 10) (n := n))
  obtain ⟨-, -, hminus, hplus, -⟩ := hchars c (ht ▸ List.mem_cons_self)
  rw [intOfDecimal, hmap, hstrip, ht]
  simp only [if_neg hminus, if_neg hplus]
  rw [← ht, decimalRun_of_digits Nat.toDigits_ne_nil hd, Nat.ofDigitChars_ten_toDigits]
  rfl

/-! ## Globals that are filled on their first use -/

/-- What the caller gets, and the global afterwards. -/
def fetch {α : Type} (load : Except PyExc α) (cell : Option α) : Except PyExc α × Option α :=
  match cell with
  | some a => (.ok a, cell)
  | none =>
    match load with
    | .ok a => (.ok a, some a)
    | .error e => (.error e, none)

theorem fetch_none {α : Type} (load : Except PyExc α) : (fetch load none).1 = load := by cases load <;> rfl

@[simp] theorem fetch_some {α : Type} (load : Except PyExc α) (a : α) : fetch load (some a) = (.ok a, some a) := rfl

/-- The second caller gets what the first one got. -/
theorem fetch_fetch {α : Type} (load : Except PyExc α) (cell : Option α) :
    (fetch load (fetch load cell).2).1 = (fetch load cell).1 := by
  cases cell with
  | some a => rfl
  | none => cases load <;> rfl

end PyLib
