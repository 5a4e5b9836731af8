import ComplianceLoop.PyLib.Matching

/-!
# Patterns with lazy repetitions and alternatives

A `Pattern` adds to `Regex` what the longer patterns need: alternatives, `.*?` with `re.DOTALL`, and a group that is
repeated. `ends` lists the lengths of the matches in the order in which the matcher tries them; `remove` is
`re.sub("", t)`, and `Regex.subGroup` is a substitution that keeps the last group. Both are for patterns that match at
least one character.
-/

set_option autoImplicit false

namespace PyLib

inductive Pattern where
  | plain (r : Regex)
  | cat (r s : Pattern)
  /-- `r|s`. -/
  | alt (r s : Pattern)
  /-- `.*?` with `re.DOTALL`: as few characters as possible first. -/
  | lazyAny
  /-- `(?:r){n,}`, as many as possible first. -/
  | atLeast (n : Nat) (r : Pattern)

namespace Pattern

/-- The lengths of `(?:r){n,}`: `n` times at least, then as long as the body still matches some characters. -/
def repeatEnds (body : Option Char → Text → List Nat) : Nat → Nat → Option Char → Text → List Nat
  | 0, n, _, _ => if n = 0 then [0] else []
  | fuel + 1, n, prev, t =>
    (((body prev t).filter (0 < ·)).flatMap fun m =>
      (repeatEnds body fuel (n - 1) (Regex.before prev t m) (t.drop m)).map (m + ·)) ++ if n = 0 then [0] else []

/-- The lengths of the matches at the front of `t`, which stands behind `prev`. -/
def ends : Pattern → Option Char → Text → List Nat
  | .plain r, prev, t => r.ends prev t
  | .cat r s, prev, t => (r.ends prev t).flatMap fun n => (s.ends (Regex.before prev t n) (t.drop n)).map (n + ·)
  | .alt r s, prev, t => r.ends prev t ++ s.ends prev t
  | .lazyAny, _, t => List.range (t.length + 1)
  | .atLeast n r, prev, t => repeatEnds r.ends t.length n prev t

/-- The length of the match, less one. -/
def matchPred (r : Pattern) (prev : Option Char) (t : Text) : Option Nat :=
  match (r.ends prev t).head? with
  | some (n + 1) => some n
  | _ => none

/-- `re.sub("", t)`, with `k` characters of the last match still to be skipped. -/
def removeFrom (r : Pattern) : Nat → Option Char → Text → Text
  | _, _, [] => []
  | k + 1, _, c :: t => removeFrom r k (some c) t
  | 0, prev, c :: t =>
    match r.matchPred prev (c :: t) with
    | some n => removeFrom r n (some c) t
    | none => c :: removeFrom r 0 (some c) t

/-- `re.sub("", t)`. -/
def remove (r : Pattern) (t : Text) : Text := removeFrom r 0 none t

end Pattern

namespace Regex

/-- The lengths of the first match of `r(s)`: of `r`, and of the group. -/
def groupMatch (r s : Regex) (prev : Option Char) (t : Text) : Option (Nat × Nat) :=
  ((r.ends prev t).flatMap fun n => (s.ends (before prev t n) (t.drop n)).map (n, ·)).head?

/-- `re.sub("r(s)", repl + "\1", t)`, with `k` characters of the last match still to be skipped. -/
def subGroupFrom (r s : Regex) (repl : Text) : Nat → Option Char → Text → Text
  | _, _, [] => []
  | k + 1, _, c :: t => subGroupFrom r s repl k (Option.some c) t
  | 0, prev, c :: t =>
    match r.groupMatch s prev (c :: t) with
    | Option.some (n, m) =>
      repl ++ (((c :: t).drop n).take m ++ subGroupFrom r s repl (n + m - 1) (Option.some c) t)
    | none => c :: subGroupFrom r s repl 0 (Option.some c) t

/-- `re.sub("r(s)", repl + "\1", t)`. -/
def subGroup (r s : Regex) (repl t : Text) : Text := subGroupFrom r s repl 0 none t

end Regex

end PyLib
