import Mathlib.Data.List.DropRight
import Mathlib.Tactic.Ring
import ComplianceLoop.PyLib.JsonString

/-!
# UUIDs and their texts

`Uuid.str` is the one text that `str(u)` writes: 32 lower-case hexadecimal digits in five groups. `Uuid.parse` is
`uuid.UUID(text)`, which accepts far more: an `urn:uuid:` prefix, braces, hyphens anywhere, upper case, and whatever
else `int(text, 16)` lets through (white space, a sign, `0x`, single underscores, the decimal digits of other scripts).

`parse_str` says that the written text is read back; `pipe_notMem_of_parse` that no accepted text contains a pipe.
-/

set_option autoImplicit false

namespace PyLib

/-! ## `str.replace` and `str.strip` -/

/-- `t.replace(p, "")`, with `k` characters of the last match still to be skipped. -/
def removeFrom (p : Text) : Nat → Text → Text
  | _, [] => []
  | 0, c :: t => if p.isPrefixOf (c :: t) then removeFrom p (p.length - 1) t else c :: removeFrom p 0 t
  | k + 1, _ :: t => removeFrom p k t

/-- `t.replace(p, "")` for a non-empty `p`. -/
def removeAll (p t : Text) : Text := removeFrom p 0 t

/-- `t.strip(cs)`, where `f` tells the characters of `cs`. -/
def stripChars (f : Char → Bool) (t : Text) : Text := (t.dropWhile f).rdropWhile f

theorem removeAll_of_notMem {c : Char} {p : Text} : ∀ {t : Text}, c ∉ t → removeAll (c :: p) t = t
  | [], _ => rfl
  | d :: t, h => by
    have hd : (c :: p).isPrefixOf (d :: t) = false := by
      rw [List.isPrefixOf_cons_cons, Bool.and_eq_false_imp]
      intro hcd
      exact absurd (beq_iff_eq.mp hcd ▸ List.mem_cons_self) h
    have := removeAll_of_notMem (p := p) fun hm => h (List.mem_cons_of_mem d hm)
    simpa [removeAll, removeFrom, hd] using this

/-- A character outside the pattern survives. -/
theorem mem_removeFrom {a : Char} {p : Text} {x : Char} (hx : x ∉ a :: p) :
    ∀ (k : Nat) (t : Text), x ∉ t.take k → x ∈ t → x ∈ removeFrom (a :: p) k t
  | _, [], _, h => absurd h List.not_mem_nil
  | 0, c :: t, _, h => by
    rw [removeFrom]
    split
    · rename_i hp
      obtain ⟨r, hr⟩ := List.isPrefixOf_iff_prefix.mp hp
      simp only [List.cons_append, List.cons.injEq] at hr
      obtain ⟨rfl, rfl⟩ := hr
      refine mem_removeFrom hx _ _ ?_ ?_
      · simpa using fun hm => hx (List.mem_cons_of_mem _ hm)
      · exact (List.mem_cons.mp h).resolve_left fun he => hx (he ▸ List.mem_cons_self)
    · rcases List.mem_cons.mp h with rfl | h
      · exact List.mem_cons_self
      · exact List.mem_cons_of_mem _ (mem_removeFrom hx 0 t (by simp) h)
  | k + 1, c :: t, hk, h => by
    rw [List.take_succ_cons, List.mem_cons, not_or] at hk
    exact mem_removeFrom hx k t hk.2 ((List.mem_cons.mp h).resolve_left hk.1)

theorem mem_removeAll {a : Char} {p t : Text} {x : Char} (hx : x ∉ a :: p) (h : x ∈ t) : x ∈ removeAll (a :: p) t :=
  mem_removeFrom hx 0 t (by simp) h

theorem mem_dropWhile {f : Char → Bool} {x : Char} (hx : f x = false) {t : Text} (h : x ∈ t) : x ∈ t.dropWhile f := by
  rw [← List.takeWhile_append_dropWhile (p := f) (l := t), List.mem_append] at h
  refine h.resolve_left fun hm => ?_
  rw [List.mem_takeWhile_imp hm] at hx
  cases hx

theorem mem_stripChars {f : Char → Bool} {x : Char} (hx : f x = false) {t : Text} (h : x ∈ t) : x ∈ stripChars f t := by
  rw [stripChars, List.rdropWhile, List.mem_reverse]
  exact mem_dropWhile hx (List.mem_reverse.mpr (mem_dropWhile hx h))

/-- Nothing is stripped from a text without such characters. -/
theorem stripChars_of_none {f : Char → Bool} {t : Text} (h : ∀ c ∈ t, f c = false) : stripChars f t = t := by
  have hd : ∀ {u : Text}, (∀ c ∈ u, f c = false) → u.dropWhile f = u := by
    intro u hu
    cases u with
    | nil => rfl
    | cons c u => rw [List.dropWhile_cons, if_neg (by simp [hu c List.mem_cons_self])]
  rw [stripChars, hd h, List.rdropWhile, hd (by simpa using h), List.reverse_reverse]

/-! ## `int(text, 16)` -/

/-- The zeros of the decimal digits of Unicode, each followed by its nine others. -/
def decimalZeros : List Nat :=
  [0x30, 0x660, 0x6f0, 0x7c0, 0x966, 0x9e6, 0xa66, 0xae6, 0xb66, 0xbe6, 0xc66, 0xce6, 0xd66, 0xde6, 0xe50, 0xed0,
    0xf20, 0x1040, 0x1090, 0x17e0, 0x1810, 0x1946, 0x19d0, 0x1a80, 0x1a90, 0x1b50, 0x1bb0, 0x1c40, 0x1c50, 0xa620,
    0xa8d0, 0xa900, 0xa9d0, 0xa9f0, 0xaa50, 0xabf0, 0xff10, 0x104a0, 0x10d30, 0x11066, 0x110f0, 0x11136, 0x111d0,
    0x112f0, 0x11450, 0x114d0, 0x11650, 0x116c0, 0x11730, 0x118e0, 0x11950, 0x11c50, 0x11d50, 0x11da0, 0x16a60,
    0x16ac0, 0x16b50, 0x1d7ce, 0x1d7d8, 0x1d7e2, 0x1d7ec, 0x1d7f6, 0x1e140, 0x1e2f0, 0x1e950, 0x1fbf0]

/-- The white space of Unicode outside ASCII. -/
def wideSpaces : List Nat :=
  [0x85, 0xa0, 0x1680, 0x2000, 0x2001, 0x2002, 0x2003, 0x2004, 0x2005, 0x2006, 0x2007, 0x2008, 0x2009, 0x200a, 0x2028,
    0x2029, 0x202f, 0x205f, 0x3000]

/-- `_PyUnicode_TransformDecimalAndSpaceToASCII` on one character; `?` stands for one that no number contains. -/
def asciiNumeral (c : Char) : Char :=
  if c.toNat < 127 then c
  else if wideSpaces.contains c.toNat then ' '
  else match decimalZeros.find? fun z => z ≤ c.toNat && c.toNat ≤ z + 9 with
    | some z => Nat.digitChar (c.toNat - z)
    | none => '?'

/-- White space of the C locale. -/
def isCSpace (c : Char) : Bool := c.toNat = 0x20 || (0x9 ≤ c.toNat && c.toNat ≤ 0xD)

/-- Hexadecimal digits with single underscores between them, after the value `v` of those read so far. -/
def hexTail : Nat → Text → Option Nat
  | v, [] => some v
  | v, [c] => (hexVal c).map fun d => 16 * v + d
  | v, c :: d :: t =>
    if c = '_' then (hexVal d).bind fun x => hexTail (16 * v + x) t
    else (hexVal c).bind fun x => hexTail (16 * v + x) (d :: t)

/-- A non-empty run of hexadecimal digits. -/
def hexRun : Text → Option Nat
  | [] => none
  | c :: t => (hexVal c).bind fun x => hexTail x t

/-- The text after an optional `0x`, with the underscore that may follow it. -/
def dropHexPrefix : Text → Text
  | '0' :: x :: t => if x = 'x' || x = 'X' then (if t.head? = some '_' then t.tail else t) else '0' :: x :: t
  | t => t

/-- `int(t, 16)`; `none` where Python raises `ValueError`. -/
def intOfHex (t : Text) : Option Int :=
  match stripChars isCSpace (t.map asciiNumeral) with
  | [] => none
  | c :: r =>
    if c = '-' then (hexRun (dropHexPrefix r)).map fun n : Nat => -(n : Int)
    else if c = '+' then (hexRun (dropHexPrefix r)).map Int.ofNat
    else (hexRun (dropHexPrefix (c :: r))).map Int.ofNat

/-- The digits of `'%0kx' % n` for `n < 16 ^ k`. -/
def hexDigits : Nat → Nat → Text
  | 0, _ => []
  | k + 1, n => hexDigits k (n / 16) ++ [Nat.digitChar (n % 16)]

theorem length_hexDigits : ∀ k n, (hexDigits k n).length = k
  | 0, _ => rfl
  | k + 1, n => by rw [hexDigits, List.length_append, length_hexDigits k, List.length_singleton]

theorem isLowerHex_digitChar : ∀ n < 16, isLowerHex (Nat.digitChar n) = true := by decide

theorem lowerHex_hexDigits : ∀ k n, LowerHex (hexDigits k n)
  | 0, _ => fun _ h => absurd h List.not_mem_nil
  | k + 1, n => fun c hc => by
    rcases List.mem_append.mp hc with hc | hc
    · exact lowerHex_hexDigits k _ c hc
    · rw [List.mem_singleton.mp hc]
      exact isLowerHex_digitChar _ (Nat.mod_lt _ (by decide))

theorem lowerHex_cases {c : Char} (h : isLowerHex c = true) :
    asciiNumeral c = c ∧ isCSpace c = false ∧ c ≠ '-' ∧ c ≠ '+' ∧ c ≠ '_' ∧ c ≠ 'x' ∧ c ≠ 'X' ∧ c ≠ 'u' := by
  have hr := isLowerHex_range h
  have hn : ∀ d : Char, c = d → c.toNat = d.toNat := fun _ => congrArg Char.toNat
  refine ⟨if_pos (by omega), ?_, ?_, ?_, ?_, ?_, ?_, ?_⟩
  · simp only [isCSpace, Bool.or_eq_false_iff, decide_eq_false_iff_not, Bool.and_eq_false_imp, decide_eq_true_eq]
    omega
  all_goals
    intro he
    have := hn _ he
    simp at this
    omega

theorem hexTail_cons {c : Char} (h : c ≠ '_') (v : Nat) (t : Text) :
    hexTail v (c :: t) = (hexVal c).bind fun x => hexTail (16 * v + x) t := by
  cases t with
  | nil => cases hc : hexVal c <;> simp [hexTail, hc]
  | cons d t => rw [hexTail, if_neg h]

theorem hexTail_append : ∀ {s : Text} (t : Text) (v : Nat), LowerHex s →
    hexTail v (s ++ t) = (hexTail v s).bind fun w => hexTail w t
  | [], _, _, _ => rfl
  | c :: s, t, v, h => by
    obtain ⟨-, -, -, -, hc, -⟩ := lowerHex_cases (h c List.mem_cons_self)
    rw [List.cons_append, hexTail_cons hc, hexTail_cons hc]
    cases hexVal c with
    | none => rfl
    | some x => exact hexTail_append t _ fun d hd => h d (List.mem_cons_of_mem _ hd)

/-- The written digits are read back. -/
theorem hexTail_hexDigits (v : Nat) : ∀ k n, n < 16 ^ k → hexTail v (hexDigits k n) = some (16 ^ k * v + n)
  | 0, n, hn => by
    obtain rfl : n = 0 := by simpa using hn
    simp [hexDigits, hexTail]
  | k + 1, n, hn => by
    have hk : n / 16 < 16 ^ k := by
      rw [Nat.div_lt_iff_lt_mul (by decide)]
      rwa [Nat.pow_succ] at hn
    rw [hexDigits, hexTail_append _ _ (lowerHex_hexDigits k _), hexTail_hexDigits v k _ hk, Option.bind_some, hexTail,
      hexVal_digitChar _ (Nat.mod_lt _ (by decide)), Option.map_some, Nat.pow_succ]
    congr 1
    have := Nat.div_add_mod n 16
    calc 16 * (16 ^ k * v + n / 16) + n % 16 = 16 ^ k * 16 * v + (16 * (n / 16) + n % 16) := by ring
      _ = 16 ^ k * 16 * v + n := by rw [this]

theorem intOfHex_lowerHex {t : Text} (h : LowerHex t) (hne : t ≠ []) :
    intOfHex t = (hexTail 0 t).map Int.ofNat := by
  have hs : stripChars isCSpace (t.map asciiNumeral) = t := by
    rw [List.map_congr_left fun c hc => (lowerHex_cases (h c hc)).1, List.map_id']
    exact stripChars_of_none fun c hc => (lowerHex_cases (h c hc)).2.1
  rw [intOfHex, hs]
  obtain _ | ⟨c, r⟩ := t
  · exact absurd rfl hne
  · obtain ⟨-, -, h1, h2, h3, -⟩ := lowerHex_cases (h c List.mem_cons_self)
    have hp : dropHexPrefix (c :: r) = c :: r := by
      unfold dropHexPrefix
      split
      · rename_i x u he
        obtain ⟨rfl, rfl⟩ := List.cons.inj he
        obtain ⟨-, -, -, -, -, h4, h5, -⟩ := lowerHex_cases (h x (by simp))
        rw [if_neg (by simp [h4, h5])]
      · rfl
    simp only [if_neg h1, if_neg h2, hp, hexRun, hexTail_cons h3, Nat.mul_zero, Nat.zero_add]

/-! ## The type -/

/-- A UUID: 128 bits. -/
structure Uuid where
  int : Fin (2 ^ 128)
  deriving DecidableEq

instance uuidNeZero : NeZero (2 ^ 128) := ⟨by decide⟩

namespace Uuid

/-- `str(u)`. -/
def str (u : Uuid) : Text :=
  let hex := hexDigits 32 u.int.val
  hex.take 8 ++ '-' :: ((hex.drop 8).take 4 ++ '-' :: ((hex.drop 12).take 4 ++ '-' :: ((hex.drop 16).take 4 ++
    '-' :: hex.drop 20)))

/-- `uuid.UUID(t)`; `none` where Python raises `ValueError`. -/
def parse (t : Text) : Option Uuid :=
  let hex := (stripChars (fun c => c = '{' || c = '}') (removeAll "uuid:".toList (removeAll "urn:".toList t))).filter
    (· ≠ '-')
  if hex.length = 32 then
    (intOfHex hex).bind fun n => if h : n.toNat < 2 ^ 128 ∧ 0 ≤ n then some ⟨⟨n.toNat, h.1⟩⟩ else none
  else none

theorem filter_str (u : Uuid) : u.str.filter (· ≠ '-') = hexDigits 32 u.int.val := by
  have hd : ∀ t : Text, (∀ c ∈ t, c ∈ hexDigits 32 u.int.val) → t.filter (· ≠ '-') = t := by
    intro t ht
    rw [List.filter_eq_self]
    intro c hc
    obtain ⟨-, -, h, -⟩ := lowerHex_cases (lowerHex_hexDigits 32 _ c (ht c hc))
    simpa using h
  have h1 : ∀ n, ((hexDigits 32 u.int.val).take n).filter (· ≠ '-') = (hexDigits 32 u.int.val).take n :=
    fun n => hd _ fun c hc => List.mem_of_mem_take hc
  have h2 : ∀ i j, (((hexDigits 32 u.int.val).drop i).take j).filter (· ≠ '-') =
      ((hexDigits 32 u.int.val).drop i).take j :=
    fun i j => hd _ fun c hc => List.mem_of_mem_drop (List.mem_of_mem_take hc)
  have h3 : ∀ n, ((hexDigits 32 u.int.val).drop n).filter (· ≠ '-') = (hexDigits 32 u.int.val).drop n :=
    fun n => hd _ fun c hc => List.mem_of_mem_drop hc
  have hg : ∀ i j, ((hexDigits 32 u.int.val).drop i).take j ++ (hexDigits 32 u.int.val).drop (i + j) =
      (hexDigits 32 u.int.val).drop i := fun i j => by rw [← List.drop_drop, List.take_append_drop]
  have hf : ∀ t : Text, ('-' :: t).filter (· ≠ '-') = t.filter (· ≠ '-') := fun t => List.filter_cons_of_neg (by simp)
  simp only [str, List.filter_append, hf, h1, h2, h3]
  rw [hg 16 4, hg 12 4, hg 8 4, List.take_append_drop]

/-- A text of lower-case hexadecimal digits and hyphens. -/
theorem mem_str {u : Uuid} {c : Char} (h : c ∈ u.str) : isLowerHex c = true ∨ c = '-' := by
  by_cases hc : c = '-'
  · exact .inr hc
  · have hm : c ∈ u.str.filter (· ≠ '-') := List.mem_filter.mpr ⟨h, by simpa using hc⟩
    rw [filter_str] at hm
    exact .inl (lowerHex_hexDigits 32 _ c hm)

theorem pipe_notMem_str (u : Uuid) : '|' ∉ u.str := fun h => by
  rcases mem_str h with h | h
  · have := isLowerHex_range h
    simp at this
  · exact absurd h (by decide)

/-- **The written text is read back.** -/
theorem parse_str (u : Uuid) : parse u.str = some u := by
  have hu : 'u' ∉ u.str := fun h => by
    rcases mem_str h with h | h
    · exact (lowerHex_cases h).2.2.2.2.2.2.2 rfl
    · exact absurd h (by decide)
  have hs : stripChars (fun c => c = '{' || c = '}') u.str = u.str := stripChars_of_none fun c hc => by
    have : c.toNat < 123 := by
      rcases mem_str hc with h | rfl
      · have := isLowerHex_range h
        omega
      · decide
    have h1 : c ≠ '{' := by rintro rfl; simp at this
    have h2 : c ≠ '}' := by rintro rfl; simp at this
    simp [h1, h2]
  have h1 : removeAll "urn:".toList u.str = u.str := removeAll_of_notMem hu
  have h2 : removeAll "uuid:".toList u.str = u.str := removeAll_of_notMem hu
  have hl := lowerHex_hexDigits 32 u.int.val
  have hv : intOfHex (hexDigits 32 u.int.val) = some (u.int.val : Int) := by
    have hlt : u.int.val < 16 ^ 32 := lt_of_lt_of_eq u.int.isLt (by norm_num)
    rw [intOfHex_lowerHex hl (by simp [hexDigits]), hexTail_hexDigits 0 32 _ hlt, Option.map_some, Nat.mul_zero,
      Nat.zero_add]
    rfl
  simp only [parse, h1, h2, hs, filter_str, length_hexDigits, hv, Option.bind_some]
  rw [if_pos trivial, dif_pos ⟨by simp, by simp⟩]
  simp

/-! ## Accepted texts -/

theorem hexVal_pipe : hexVal '|' = none := by decide

theorem pipe_notMem_of_hexTail : ∀ {t : Text} {v n : Nat}, hexTail v t = some n → '|' ∉ t
  | [], _, _, _ => List.not_mem_nil
  | [c], v, n, h => by
    rintro hm
    rw [← List.mem_singleton.mp hm] at h
    simp [hexTail, hexVal_pipe] at h
  | c :: d :: t, v, n, h => by
    rw [hexTail] at h
    split at h
    · rename_i hc
      obtain ⟨x, hx, h⟩ := Option.bind_eq_some_iff.mp h
      have := pipe_notMem_of_hexTail h
      simp only [List.mem_cons, not_or]
      refine ⟨by rw [hc]; decide, ?_, this⟩
      rintro rfl
      simp [hexVal_pipe] at hx
    · obtain ⟨x, hx, h⟩ := Option.bind_eq_some_iff.mp h
      have := pipe_notMem_of_hexTail h
      rw [List.mem_cons, not_or]
      refine ⟨?_, this⟩
      rintro rfl
      simp [hexVal_pipe] at hx

theorem pipe_notMem_of_hexRun {t : Text} {n : Nat} (h : hexRun (dropHexPrefix t) = some n) : '|' ∉ t := by
  have hr : ∀ {u : Text} {n : Nat}, hexRun u = some n → '|' ∉ u := by
    intro u n h
    obtain _ | ⟨c, u⟩ := u
    · exact List.not_mem_nil
    · obtain ⟨x, hx, h⟩ := Option.bind_eq_some_iff.mp h
      rw [List.mem_cons, not_or]
      refine ⟨?_, pipe_notMem_of_hexTail h⟩
      rintro rfl
      simp [hexVal_pipe] at hx
  unfold dropHexPrefix at h
  split at h
  · rename_i x u
    split_ifs at h with hx hu
    · have := hr h
      obtain _ | ⟨d, u⟩ := u
      · simp at hu
      · simp only [List.head?_cons, Option.some.injEq] at hu
        have hx : x ≠ '|' := by rintro rfl; simp at hx
        simpa [hu, hx.symm] using this
    · have hx : x ≠ '|' := by rintro rfl; simp at hx
      simpa [hx.symm] using hr h
    · exact hr h
  · exact hr h

theorem pipe_notMem_of_intOfHex {t : Text} {n : Int} (h : intOfHex t = some n) : '|' ∉ t := by
  intro hm
  have hm : '|' ∈ stripChars isCSpace (t.map asciiNumeral) :=
    mem_stripChars (by decide) (List.mem_map.mpr ⟨'|', hm, by decide⟩)
  unfold intOfHex at h
  split at h
  · cases h
  · rename_i c r he
    rw [he] at hm
    have hc : ∀ d : Char, d ≠ '|' → c = d → '|' ∈ r := fun d hd hcd =>
      (List.mem_cons.mp hm).resolve_left fun h => hd (hcd ▸ h.symm)
    split_ifs at h with h1 h2 <;> obtain ⟨k, hk, -⟩ := Option.map_eq_some_iff.mp h
    · exact pipe_notMem_of_hexRun hk (hc _ (by decide) h1)
    · exact pipe_notMem_of_hexRun hk (hc _ (by decide) h2)
    · exact pipe_notMem_of_hexRun hk hm

/-- **No accepted text contains a pipe.** -/
theorem pipe_notMem_of_parse {t : Text} {u : Uuid} (h : parse t = some u) : '|' ∉ t := by
  intro hm
  simp only [parse] at h
  split at h
  · obtain ⟨n, hn, -⟩ := Option.bind_eq_some_iff.mp h
    refine pipe_notMem_of_intOfHex hn (List.mem_filter.mpr ⟨mem_stripChars (by decide) ?_, by decide⟩)
    exact mem_removeAll (by decide) (mem_removeAll (by decide) hm)
  · cases h

end Uuid

end PyLib
