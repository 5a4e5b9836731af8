import ComplianceLoop.PyLib.Strings

/-!
# Searching texts: `find`, `replace` and regular expressions

`find` and `replace` are the methods of a string. A `Regex` is a pattern of the fragment of `re` in which a repetition
is of a character class: `ends` lists the lengths of its matches at a position, in the order in which the matcher tries
them, `spans` is `finditer`, `split` is `re.split` and `sub` is `re.sub`, all for patterns that match at least one
character.
-/

set_option autoImplicit false

namespace PyLib

/-! ## `str.find` and `str.replace` -/

/-- `t.find(p)`, counted from the position `i` of the front of `t`. -/
def findFrom (p : Text) (i : Nat) : Text → Int
  | [] => if p.isEmpty then i else -1
  | c :: t => if p.isPrefixOf (c :: t) then i else findFrom p (i + 1) t

/-- `t.find(p)`. -/
def find (p t : Text) : Int := findFrom p 0 t

/-- `t.replace(p, r)`, with `k` characters of the last match still to be skipped. -/
def replaceFrom (p r : Text) : Nat → Text → Text
  | _, [] => []
  | 0, c :: t => if p.isPrefixOf (c :: t) then r ++ replaceFrom p r (p.length - 1) t else c :: replaceFrom p r 0 t
  | k + 1, _ :: t => replaceFrom p r k t

/-- `t.replace(p, r)` for a non-empty `p`. -/
def replaceAll (p r t : Text) : Text := replaceFrom p r 0 t

theorem mem_replaceFrom {p r : Text} {c : Char} : ∀ {k : Nat} {t : Text}, c ∈ replaceFrom p r k t → c ∈ r ∨ c ∈ t
  | _, [], h => by cases h
  | k + 1, d :: t, h => by
    rw [replaceFrom] at h
    exact (mem_replaceFrom h).imp_right (List.mem_cons_of_mem d)
  | 0, d :: t, h => by
    rw [replaceFrom] at h
    split at h
    · rcases List.mem_append.mp h with h | h
      · exact .inl h
      · exact (mem_replaceFrom h).imp_right (List.mem_cons_of_mem d)
    · rcases List.mem_cons.mp h with rfl | h
      · exact .inr List.mem_cons_self
      · exact (mem_replaceFrom h).imp_right (List.mem_cons_of_mem d)

/-- A replacement brings no other characters than those of `r`. -/
theorem mem_replaceAll {p r t : Text} {c : Char} (h : c ∈ replaceAll p r t) : c ∈ r ∨ c ∈ t := mem_replaceFrom h

/-- `sep.join(ts)` contains each of the `ts`. -/
theorem infix_intercalate {sep t : Text} {ts : List Text} (h : t ∈ ts) : t <:+: sep.intercalate ts := by
  induction ts with
  | nil => cases h
  | cons u ts ih =>
    cases ts with
    | nil =>
      rw [List.intercalate_singleton, List.mem_singleton.mp h]
    | cons v ts =>
      rw [List.intercalate_cons_cons, List.append_assoc]
      rcases List.mem_cons.mp h with rfl | h
      · exact (List.prefix_append t _).isInfix
      · exact (ih h).trans (((List.suffix_append sep _).trans (List.suffix_append u _)).isInfix)

/-- A joined text around one of its parts. -/
theorem intercalate_append_cons (sep x : Text) (m : List Text) : ∀ l : List Text,
    sep.intercalate (l ++ x :: m) = (l.map (· ++ sep)).flatten ++ (x ++ (m.map (sep ++ ·)).flatten)
  | [] => by
    induction m generalizing x with
    | nil => simp
    | cons y m ih =>
      simp only [List.nil_append] at ih ⊢
      rw [List.intercalate_cons_cons, ih]
      simp
  | y :: l => by
    rw [List.cons_append, List.intercalate_cons_of_ne_nil (by simp), intercalate_append_cons sep x m l]
    simp

/-- A part is read off the joined text. -/
theorem intercalate_replace {sep x y : Text} {l m : List Text}
    (h : sep.intercalate (l ++ x :: m) = sep.intercalate (l ++ y :: m)) : x = y := by
  rw [intercalate_append_cons, intercalate_append_cons] at h
  exact List.append_cancel_right (List.append_cancel_left h)

theorem mem_intercalate {sep : Text} {c : Char} {ts : List Text} (h : c ∈ sep.intercalate ts) :
    c ∈ sep ∨ ∃ t ∈ ts, c ∈ t := by
  induction ts with
  | nil => cases h
  | cons u ts ih =>
    cases ts with
    | nil =>
      rw [List.intercalate_singleton] at h
      exact .inr ⟨u, List.mem_cons_self, h⟩
    | cons v ts =>
      rw [List.intercalate_cons_cons, List.mem_append, List.mem_append] at h
      rcases h with (h | h) | h
      · exact .inr ⟨u, List.mem_cons_self, h⟩
      · exact .inl h
      · obtain hs | ⟨t, ht, hc⟩ := ih h
        · exact .inl hs
        · exact .inr ⟨t, List.mem_cons_of_mem u ht, hc⟩

/-! ## Character classes -/

/-- `\s`: the white space that `strip` removes. -/
def isSpace (c : Char) : Bool :=
  isCSpace c || (0x1c ≤ c.toNat && c.toNat ≤ 0x1f) || wideSpaces.contains c.toNat

/-- `\d`. -/
def isDecimal (c : Char) : Bool := decimalZeros.any fun z => z ≤ c.toNat && c.toNat ≤ z + 9

/-- `[A-Z]`. -/
def isUpperLetter (c : Char) : Bool := 'A' ≤ c && c ≤ 'Z'

/-- The ASCII letter, or the character itself, that a case-insensitive pattern compares. -/
def foldCase (c : Char) : Char :=
  if c.toNat = 0x130 || c.toNat = 0x131 then 'i'
  else if c.toNat = 0x17f then 's'
  else if c.toNat = 0x212a then 'k'
  else c.toLower

section

variable {c : Char}

theorem isUpper_iff : c.isUpper = true ↔ 'A' ≤ c ∧ c ≤ 'Z' := decide_eq_true_iff

theorem isLower_iff : c.isLower = true ↔ 'a' ≤ c ∧ c ≤ 'z' := by
  show ('a' ≤ c && c ≤ 'z') = true ↔ _
  rw [Bool.and_eq_true, decide_eq_true_iff, decide_eq_true_iff]

theorem isDigit_iff : c.isDigit = true ↔ '0' ≤ c ∧ c ≤ '9' := by
  show ('0' ≤ c && c ≤ '9') = true ↔ _
  rw [Bool.and_eq_true, decide_eq_true_iff, decide_eq_true_iff]

theorem isAlpha_iff : c.isAlpha = true ↔ c.isUpper = true ∨ c.isLower = true := by
  show (c.isUpper || c.isLower) = true ↔ _
  rw [Bool.or_eq_true]

theorem isAlphanum_iff : c.isAlphanum = true ↔ c.isUpper = true ∨ c.isLower = true ∨ c.isDigit = true := by
  show (c.isAlpha || c.isDigit) = true ↔ _
  rw [Bool.or_eq_true, isAlpha_iff, or_assoc]

end

/-! ## Patterns -/

inductive Regex where
  /-- A character of a class. -/
  | char (p : Char → Bool)
  /-- `[p]*`, as many as possible first. -/
  | many (p : Char → Bool)
  /-- A condition on the characters before and behind the position. -/
  | bound (p : Option Char → Option Char → Bool)
  | cat (r s : Regex)
  /-- `r?`, with `r` first. -/
  | opt (r : Regex)

namespace Regex

/-- `[p]+`. -/
def some (p : Char → Bool) : Regex := .cat (.char p) (.many p)

/-- The characters of `t` in either case. -/
def word : Text → Regex
  | [] => .bound fun _ _ => true
  | c :: t => .cat (.char fun d => foldCase d = foldCase c) (word t)

/-- `^` of a pattern with `re.MULTILINE`. -/
def lineStart : Regex := .bound fun before _ => before.all (· = '\n')

/-- The character before the position `n` of `t`. -/
def before (prev : Option Char) (t : Text) : Nat → Option Char
  | 0 => prev
  | n + 1 => t[n]?

/-- The lengths of the matches at the front of `t`, which stands behind `prev`. -/
def ends : Regex → Option Char → Text → List Nat
  | .char _, _, [] => []
  | .char p, _, c :: _ => if p c then [1] else []
  | .many p, _, t => (List.range ((t.takeWhile p).length + 1)).reverse
  | .bound p, prev, t => if p prev t.head? then [0] else []
  | .cat r s, prev, t => (r.ends prev t).flatMap fun n => (s.ends (before prev t n) (t.drop n)).map (n + ·)
  | .opt r, prev, t => r.ends prev t ++ [0]

/-- The length of the match, less one. -/
def matchPred (r : Regex) (prev : Option Char) (t : Text) : Option Nat :=
  match (r.ends prev t).head? with
  | Option.some (n + 1) => Option.some n
  | _ => none

/-- The positions and the lengths of the matches, with `k` characters of the last match still to be skipped. -/
def spansFrom (r : Regex) (i : Nat) : Nat → Option Char → Text → List (Nat × Nat)
  | _, _, [] => []
  | k + 1, _, c :: t => spansFrom r (i + 1) k (Option.some c) t
  | 0, prev, c :: t =>
    match r.matchPred prev (c :: t) with
    | Option.some n => (i, n + 1) :: spansFrom r (i + 1) n (Option.some c) t
    | none => spansFrom r (i + 1) 0 (Option.some c) t

/-- `re.finditer`. -/
def spans (r : Regex) (t : Text) : List (Nat × Nat) := spansFrom r 0 0 none t

/-- The pieces between the matches, with `k` characters of the last match still to be skipped. -/
def splitFrom (r : Regex) : Nat → Option Char → Text → List Text
  | _, _, [] => [[]]
  | k + 1, _, c :: t => splitFrom r k (Option.some c) t
  | 0, prev, c :: t =>
    match r.matchPred prev (c :: t) with
    | Option.some n => [] :: splitFrom r n (Option.some c) t
    | none => (splitFrom r 0 (Option.some c) t).modifyHead (c :: ·)

/-- `re.split`. -/
def split (r : Regex) (t : Text) : List Text := splitFrom r 0 none t

/-- `re.sub(r, repl, t)`. -/
def sub (r : Regex) (repl t : Text) : Text := repl.intercalate (r.split t)

theorem mem_splitFrom {r : Regex} {c : Char} {piece : Text} (hc : c ∈ piece) :
    ∀ {k : Nat} {prev : Option Char} {t : Text}, piece ∈ r.splitFrom k prev t → c ∈ t
  | _, _, [], h => by
    rw [splitFrom, List.mem_singleton] at h
    exact h ▸ hc
  | k + 1, _, d :: t, h => by
    rw [splitFrom] at h
    exact List.mem_cons_of_mem d (mem_splitFrom hc h)
  | 0, prev, d :: t, h => by
    rw [splitFrom] at h
    split at h
    · rcases List.mem_cons.mp h with rfl | h
      · cases hc
      · exact List.mem_cons_of_mem d (mem_splitFrom hc h)
    · cases hs : r.splitFrom 0 (Option.some d) t with
      | nil =>
        rw [hs] at h
        cases h
      | cons q qs =>
        rw [hs, List.modifyHead_cons] at h
        rcases List.mem_cons.mp h with rfl | h
        · rcases List.mem_cons.mp hc with rfl | hc
          · exact List.mem_cons_self
          · exact List.mem_cons_of_mem d (mem_splitFrom hc (hs ▸ List.mem_cons_self))
        · exact List.mem_cons_of_mem d (mem_splitFrom hc (hs ▸ List.mem_cons_of_mem q h))

/-- The pieces have no other characters than the text. -/
theorem mem_split {r : Regex} {c : Char} {piece t : Text} (h : piece ∈ r.split t) (hc : c ∈ piece) : c ∈ t :=
  mem_splitFrom hc h

theorem mem_sub {r : Regex} {c : Char} {repl t : Text} (h : c ∈ r.sub repl t) : c ∈ repl ∨ c ∈ t := by
  obtain h | ⟨piece, hp, hc⟩ := mem_intercalate h
  · exact .inl h
  · exact .inr (mem_split hp hc)

end Regex

end PyLib
