import ComplianceLoop.PyLib.Backtracking
import ComplianceLoop.PyLib.Matching

/-!
# Substitutions that keep a group

`re.sub("r(s)", repl + "\1", t)` with the equations of its three cases (`subGroupFrom_of_match`,
`subGroupFrom_of_none`, `subGroupFrom_nil`). A pattern is *foreign* to such a substitution when its matches begin with a
character that neither the new text nor a group has, do not have the first character of the new text, and do not depend
on what comes behind them. A foreign pattern has no match in the result that it did not have before the substitution at
a place where nothing was substituted (`not_occursFrom_subGroupFrom`); so a pattern that is foreign to its own
substitution is gone, and stays gone under the others that it is foreign to.
-/

set_option autoImplicit false

namespace PyLib

namespace Regex

/-- The pattern matches at the front of `t`, which stands behind `prev`. -/
def BeginsAt (q : Regex) (prev : Option Char) (t : Text) : Prop := ∃ u b, t = u ++ b ∧ q.Matches prev u b.head?

section

variable {r s q : Regex} {repl t : Text} {prev : Option Char} {n m : Nat}

theorem mem_pairs {n m : Nat} :
    (n, m) ∈ ((r.ends prev t).flatMap fun n => (s.ends (before prev t n) (t.drop n)).map (n, ·)) ↔
      n ∈ r.ends prev t ∧ m ∈ s.ends (before prev t n) (t.drop n) := by
  simp only [List.mem_flatMap, List.mem_map, Prod.mk.injEq]
  constructor
  · rintro ⟨n', hn, m', hm, rfl, rfl⟩
    exact ⟨hn, hm⟩
  · rintro ⟨hn, hm⟩
    exact ⟨n, hn, m, hm, rfl, rfl⟩

/-- What a match is. -/
theorem groupMatch_eq_some (h : r.groupMatch s prev t = Option.some (n, m)) :
    ∃ u v b, t = u ++ (v ++ b) ∧ u.length = n ∧ v.length = m ∧ r.Matches prev u (v.head?.or b.head?) ∧
      s.Matches (u.getLast?.or prev) v b.head? := by
  obtain ⟨hn, hm⟩ := mem_pairs.mp (List.mem_of_head? h)
  obtain ⟨u, w, rfl, rfl, hu⟩ := exists_of_mem_ends hn
  rw [before_append, List.drop_left] at hm
  obtain ⟨v, b, rfl, rfl, hv⟩ := exists_of_mem_ends hm
  rw [head?_append_or] at hu
  exact ⟨u, v, b, rfl, rfl, rfl, hu, hv⟩

/-- There is one exactly where `rs` matches. -/
theorem groupMatch_eq_none : r.groupMatch s prev t = none ↔ ¬ (cat r s).BeginsAt prev t := by
  rw [groupMatch, List.head?_eq_none_iff, List.eq_nil_iff_forall_not_mem]
  constructor
  · rintro h ⟨u, b, rfl, v, w, rfl, hv, hw⟩
    refine h (v.length, w.length) (mem_pairs.mpr ⟨?_, ?_⟩)
    · rw [List.append_assoc, mem_ends, head?_append_or]
      exact hv
    · rw [List.append_assoc, before_append, List.drop_left, mem_ends]
      exact hw
  · rintro h ⟨n, m⟩ hp
    obtain ⟨hn, hm⟩ := mem_pairs.mp hp
    obtain ⟨u, w, rfl, rfl, hu⟩ := exists_of_mem_ends hn
    rw [before_append, List.drop_left] at hm
    obtain ⟨v, b, rfl, rfl, hv⟩ := exists_of_mem_ends hm
    rw [head?_append_or] at hu
    exact h ⟨u ++ v, b, (List.append_assoc u v b).symm, u, v, rfl, hu, hv⟩

/-! ## The equations -/

theorem subGroupFrom_skip (a : Text) : ∀ {k : Nat} {prev : Option Char} {t : Text}, k = a.length →
    subGroupFrom r s repl k prev (a ++ t) = subGroupFrom r s repl 0 (a.getLast?.or prev) t := by
  induction a with
  | nil =>
    rintro k prev t rfl
    rfl
  | cons c a ih =>
    rintro k prev t rfl
    rw [List.length_cons, List.cons_append, subGroupFrom, ih rfl, getLast?_cons_or]

theorem subGroupFrom_nil : subGroupFrom r s repl 0 prev [] = [] := by rw [subGroupFrom]

theorem subGroupFrom_of_none {c : Char} (h : ¬ (cat r s).BeginsAt prev (c :: t)) :
    subGroupFrom r s repl 0 prev (c :: t) = c :: subGroupFrom r s repl 0 (Option.some c) t := by
  rw [subGroupFrom, groupMatch_eq_none.mpr h]

/-- The front of the match is replaced, and the group is kept. -/
theorem subGroupFrom_of_match (repl : Text) (hr : r.Proper) {c : Char} (h : (cat r s).BeginsAt prev (c :: t)) :
    ∃ u v b, c :: t = u ++ (v ++ b) ∧ u ≠ [] ∧ r.Matches prev u (v.head?.or b.head?) ∧
      s.Matches (u.getLast?.or prev) v b.head? ∧
      subGroupFrom r s repl 0 prev (c :: t) =
        repl ++ (v ++ subGroupFrom r s repl 0 ((u ++ v).getLast?.or prev) b) := by
  obtain ⟨⟨n, m⟩, hm⟩ := Option.ne_none_iff_exists'.mp (groupMatch_eq_none.not.mpr (not_not.mpr h))
  obtain ⟨u, v, b, ht, rfl, rfl, hu, hv⟩ := groupMatch_eq_some hm
  have hne : u ≠ [] := fun hnil => hr _ _ (hnil ▸ hu)
  refine ⟨u, v, b, ht, hne, hu, hv, ?_⟩
  rw [subGroupFrom, hm]
  obtain ⟨d, u, rfl⟩ := List.exists_cons_of_ne_nil hne
  obtain ⟨rfl, rfl⟩ := List.cons_eq_cons.mp ht
  have hskip : subGroupFrom r s repl ((c :: u).length + v.length - 1) (Option.some c) (u ++ (v ++ b)) =
      subGroupFrom r s repl 0 ((c :: u ++ v).getLast?.or prev) b := by
    rw [← List.append_assoc, subGroupFrom_skip (u ++ v) (by simp only [List.length_cons, List.length_append]; omega),
      ← getLast?_cons_or c (u ++ v) prev]
    rfl
  have hgroup : ((c :: u ++ (v ++ b)).drop (c :: u).length).take v.length = v := by
    rw [List.drop_left, List.take_left]
  exact congrArg (repl ++ ·) (congrArg₂ (· ++ ·) hgroup hskip)

/-- Where nothing matches, nothing is replaced. -/
theorem subGroupFrom_of_not_occurs : ∀ {t : Text} {prev : Option Char}, ¬ (cat r s).OccursFrom prev t →
    subGroupFrom r s repl 0 prev t = t
  | [], _, _ => subGroupFrom_nil
  | c :: t, prev, h => by
    obtain ⟨hfront, hrest⟩ := not_or.mp (occursFrom_cons.not.mp h)
    rw [subGroupFrom_of_none hfront, subGroupFrom_of_not_occurs hrest]

/-- Characters that neither the front of a match nor the new text has stay as they are. -/
theorem filter_subGroupFrom (hr : r.Proper) {p : Char → Bool} (hrepl : ∀ c ∈ repl, p c = false)
    (hfront : ∀ prev u next, r.Matches prev u next → ∀ c ∈ u, p c = false) (t : Text) (prev : Option Char) :
    (subGroupFrom r s repl 0 prev t).filter p = t.filter p := by
  have hnone : ∀ x : Text, (∀ c ∈ x, p c = false) → x.filter p = [] := fun x hx =>
    List.filter_eq_nil_iff.mpr fun c hc => Bool.eq_false_iff.mp (hx c hc)
  induction hl : t.length using Nat.strong_induction_on generalizing t prev with
  | _ n ih =>
    cases t with
    | nil => rw [subGroupFrom_nil]
    | cons c t =>
      by_cases hm : (cat r s).BeginsAt prev (c :: t)
      · obtain ⟨u, v, b, ht, hne, hu, -, heq⟩ := subGroupFrom_of_match repl hr hm
        have hlt : b.length < n := by
          have := List.length_pos_iff.mpr hne
          have := congrArg List.length ht
          simp only [List.length_append] at this
          omega
        rw [heq, ht]
        simp only [List.filter_append]
        rw [hnone repl hrepl, hnone u (hfront _ _ _ hu), ih b.length hlt b _ rfl]
      · rw [subGroupFrom_of_none hm, List.filter_cons, List.filter_cons,
          ih t.length (by rw [← hl, List.length_cons]; omega) t _ rfl]

end

/-! ## Foreign patterns -/

/-- The matches of `q` begin with `first`, which neither `repl` nor a group of `s` has, they do not have the first
character of `repl`, and what follows them does not matter. -/
structure ForeignTo (q s : Regex) (repl : Text) (first : Char) : Prop where
  front : ∀ prev u next, q.Matches prev u next → u.head? = Option.some first
  newText : first ∉ repl ∧ repl ≠ []
  group : ∀ prev v next, s.Matches prev v next → v ≠ [] ∧ first ∉ v
  avoids : ∀ prev u next, q.Matches prev u next → ∀ c ∈ u, repl.head? ≠ Option.some c
  ahead : ∀ prev u next next', q.Matches prev u next → q.Matches prev u next'

section

variable {r s q : Regex} {repl : Text} {first : Char}

theorem ForeignTo.proper (h : ForeignTo q s repl first) : q.Proper := fun prev next hm => by
  cases h.front prev [] next hm

/-- A text without the first character of all matches has no match of its own. -/
theorem occursFrom_append_of_notMem (hfront : ∀ prev u next, q.Matches prev u next → u.head? = Option.some first) :
    ∀ {x t : Text} {prev : Option Char}, first ∉ x → q.OccursFrom prev (x ++ t) → q.OccursFrom (x.getLast?.or prev) t
  | [], _, _, _, hocc => hocc
  | c :: x, t, prev, hx, hocc => by
    obtain ⟨hc, hx⟩ := not_or.mp (List.mem_cons.not.mp hx)
    rw [List.cons_append, occursFrom_cons] at hocc
    rcases hocc with ⟨u, b, ht, hm⟩ | hocc
    · obtain ⟨w, rfl⟩ := List.head?_eq_some_iff.mp (hfront prev u _ hm)
      exact absurd (List.cons_eq_cons.mp ht).1.symm hc
    · rw [getLast?_cons_or]
      exact occursFrom_append_of_notMem hfront hx hocc

/-- A stretch of the result without the first character of the new text was there before. -/
theorem prefix_of_prefix_subGroupFrom (hr : r.Proper) (hrepl : repl ≠ []) : ∀ {t u : Text} {prev : Option Char},
    (∀ c ∈ u, repl.head? ≠ Option.some c) → u <+: subGroupFrom r s repl 0 prev t → u <+: t
  | [], _, _, _, hpre => by
    rw [subGroupFrom_nil, List.prefix_nil] at hpre
    exact hpre ▸ List.nil_prefix
  | c :: t, u, prev, hu, hpre => by
    cases u with
    | nil => exact List.nil_prefix
    | cons d u =>
      obtain ⟨hd, hu⟩ := List.forall_mem_cons.mp hu
      by_cases hm : (cat r s).BeginsAt prev (c :: t)
      · obtain ⟨_, v, b, -, -, -, -, heq⟩ := subGroupFrom_of_match repl hr hm
        obtain ⟨e, repl', rfl⟩ := List.exists_cons_of_ne_nil hrepl
        rw [heq, List.cons_append, List.cons_prefix_cons] at hpre
        exact absurd (congrArg Option.some hpre.1.symm) hd
      · rw [subGroupFrom_of_none hm, List.cons_prefix_cons] at hpre
        obtain ⟨rfl, hpre⟩ := hpre
        exact List.cons_prefix_cons.mpr ⟨rfl, prefix_of_prefix_subGroupFrom hr hrepl hu hpre⟩

/-- **A foreign pattern whose matches are all replaced is gone.** -/
theorem not_occursFrom_subGroupFrom (hr : r.Proper) (h : ForeignTo q s repl first) (t : Text) (prev : Option Char)
    (hall : ∀ a b, t = a ++ b → q.BeginsAt (a.getLast?.or prev) b → (cat r s).BeginsAt (a.getLast?.or prev) b) :
    ¬ q.OccursFrom prev (subGroupFrom r s repl 0 prev t) := by
  induction hl : t.length using Nat.strong_induction_on generalizing t prev with
  | _ n ih =>
    cases t with
    | nil =>
      rw [subGroupFrom_nil]
      exact occursFrom_nil h.proper prev
    | cons c t =>
      by_cases hm : (cat r s).BeginsAt prev (c :: t)
      · obtain ⟨u, v, b, ht, hne, -, hv, heq⟩ := subGroupFrom_of_match repl hr hm
        obtain ⟨hvne, hfirst⟩ := h.group _ _ _ hv
        have hlt : b.length < n := by
          have := List.length_pos_iff.mpr hne
          have := congrArg List.length ht
          simp only [List.length_append] at this
          omega
        -- the group ends in the same character in both texts
        have hlast : (u ++ v).getLast?.or prev = v.getLast?.or (repl.getLast?.or prev) := by
          obtain ⟨d, hd⟩ := Option.ne_none_iff_exists'.mp (mt List.getLast?_eq_none_iff.mp hvne)
          rw [List.getLast?_append, hd]
          rfl
        rw [heq]
        intro hocc
        refine ih b.length hlt b ((u ++ v).getLast?.or prev) (fun a b' hb hbegins => ?_) rfl ?_
        · have hcut : c :: t = (u ++ (v ++ a)) ++ b' := by rw [ht, hb, List.append_assoc, List.append_assoc]
          have hprev : (u ++ (v ++ a)).getLast?.or prev = a.getLast?.or ((u ++ v).getLast?.or prev) := by
            rw [← List.append_assoc, List.getLast?_append, Option.or_assoc]
          rw [← hprev] at hbegins ⊢
          exact hall _ b' hcut hbegins
        · have hrest := occursFrom_append_of_notMem h.front hfirst
            (occursFrom_append_of_notMem h.front h.newText.1 hocc)
          rwa [← hlast] at hrest
      · rw [subGroupFrom_of_none hm, occursFrom_cons]
        rintro (⟨u, b, ht, hu⟩ | hocc)
        · -- the match was there before
          have hpre : u <+: subGroupFrom r s repl 0 prev (c :: t) := by
            rw [subGroupFrom_of_none hm, ht]
            exact List.prefix_append u b
          obtain ⟨b', hb'⟩ := prefix_of_prefix_subGroupFrom hr h.newText.2 (h.avoids prev u _ hu) hpre
          exact hm (hall [] (c :: t) rfl ⟨u, b', hb'.symm, h.ahead _ _ _ _ hu⟩)
        · refine ih t.length (by rw [← hl, List.length_cons]; omega) t _ (fun a b ht hbegins => ?_) rfl hocc
          rw [← getLast?_cons_or c a prev] at hbegins ⊢
          exact hall (c :: a) b (congrArg (c :: ·) ht) hbegins

end

end Regex

end PyLib
