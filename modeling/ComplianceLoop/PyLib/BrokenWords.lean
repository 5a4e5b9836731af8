import ComplianceLoop.PyLib.GroupSubst

/-!
# Words that are put together again

`re.sub("(w)s(w)", "\1\2", t)`, where `w` is a character of a word and `s` a separator, which has none. A match takes
the character behind the separator with it, so the next match cannot begin there: two separators around one single
character (`Doubled`) are not both taken away. That is all that is left over (`broken_rejoin_iff`), and it is what a
second substitution would change (`rejoin_eq_self`, `count_rejoin_lt`).
-/

set_option autoImplicit false

namespace PyLib

namespace Regex

/-- The lengths of the first match of `(r)s(q)`: of the first group, of what is between, and of the second group. -/
def groupsMatch (r s q : Regex) (prev : Option Char) (t : Text) : Option (Nat × Nat × Nat) :=
  ((r.ends prev t).flatMap fun n => (s.ends (before prev t n) (t.drop n)).flatMap fun m =>
    (q.ends (before (before prev t n) (t.drop n) m) ((t.drop n).drop m)).map fun k => (n, m, k)).head?

/-- `re.sub("(r)s(q)", "\1\2", t)`, with `k` characters of the last match still to be skipped. -/
def subGroupsFrom (r s q : Regex) : Nat → Option Char → Text → Text
  | _, _, [] => []
  | k + 1, _, c :: t => subGroupsFrom r s q k (Option.some c) t
  | 0, prev, c :: t =>
    match r.groupsMatch s q prev (c :: t) with
    | Option.some (n, m, k) =>
      (c :: t).take n ++ ((((c :: t).drop n).drop m).take k ++ subGroupsFrom r s q (n + m + k - 1) (Option.some c) t)
    | none => c :: subGroupsFrom r s q 0 (Option.some c) t

/-- `re.sub("(r)s(q)", "\1\2", t)`. -/
def subGroups (r s q : Regex) (t : Text) : Text := subGroupsFrom r s q 0 none t

theorem groupsMatch_eq_some {r s q : Regex} {prev : Option Char} {t : Text} {n m k : Nat}
    (h : r.groupsMatch s q prev t = Option.some (n, m, k)) :
    ∃ u v w b, t = u ++ (v ++ (w ++ b)) ∧ u.length = n ∧ v.length = m ∧ w.length = k ∧
      r.Matches prev u (v ++ (w ++ b)).head? ∧ s.Matches (u.getLast?.or prev) v (w ++ b).head? ∧
      q.Matches (v.getLast?.or (u.getLast?.or prev)) w b.head? := by
  have hmem := List.mem_of_head? h
  simp only [List.mem_flatMap, List.mem_map, Prod.mk.injEq] at hmem
  obtain ⟨n', hn, m', hm, k', hk, rfl, rfl, rfl⟩ := hmem
  obtain ⟨u, x, rfl, rfl, hu⟩ := exists_of_mem_ends hn
  rw [before_append, List.drop_left] at hm hk
  obtain ⟨v, y, rfl, rfl, hv⟩ := exists_of_mem_ends hm
  rw [before_append, List.drop_left] at hk
  obtain ⟨w, b, rfl, rfl, hw⟩ := exists_of_mem_ends hk
  exact ⟨u, v, w, b, rfl, rfl, rfl, rfl, hu, hv, hw⟩

theorem groupsMatch_ne_none {r s q : Regex} {prev : Option Char} {u v w b : Text}
    (hu : r.Matches prev u (v ++ (w ++ b)).head?) (hv : s.Matches (u.getLast?.or prev) v (w ++ b).head?)
    (hw : q.Matches (v.getLast?.or (u.getLast?.or prev)) w b.head?) :
    r.groupsMatch s q prev (u ++ (v ++ (w ++ b))) ≠ none := by
  rw [groupsMatch, ne_eq, List.head?_eq_none_iff, List.eq_nil_iff_forall_not_mem]
  intro hall
  refine hall (u.length, v.length, w.length) ?_
  simp only [List.mem_flatMap, List.mem_map, Prod.mk.injEq]
  refine ⟨u.length, (mem_ends r prev u _).mpr hu, v.length, ?_, w.length, ?_, rfl, rfl, rfl⟩
  · rw [before_append, List.drop_left, mem_ends]
    exact hv
  · rw [before_append, List.drop_left, before_append, List.drop_left, mem_ends]
    exact hw

theorem subGroupsFrom_skip {r s q : Regex} (a : Text) : ∀ {k : Nat} {prev : Option Char} {t : Text}, k = a.length →
    subGroupsFrom r s q k prev (a ++ t) = subGroupsFrom r s q 0 (a.getLast?.or prev) t := by
  induction a with
  | nil =>
    rintro k prev t rfl
    rfl
  | cons c a ih =>
    rintro k prev t rfl
    rw [List.length_cons, List.cons_append, subGroupsFrom, ih rfl, getLast?_cons_or]

end Regex

/-! ## Breaks -/

/-- A word at the front goes on behind a separator. -/
inductive BreakAt (p : Char → Bool) (sep : Text → Prop) : Text → Prop
  | mk {c d : Char} {u b : Text} (hc : p c = true) (hu : sep u) (hd : p d = true) : BreakAt p sep (c :: (u ++ d :: b))

/-- And again behind the next character. -/
inductive BreakTwiceAt (p : Char → Bool) (sep : Text → Prop) : Text → Prop
  | mk {c d e : Char} {u v b : Text} (hc : p c = true) (hu : sep u) (hd : p d = true) (hv : sep v) (he : p e = true) :
      BreakTwiceAt p sep (c :: (u ++ d :: (v ++ e :: b)))

/-- A word of the text goes on behind a separator. -/
def Broken (p : Char → Bool) (sep : Text → Prop) (t : Text) : Prop := ∃ x, x <:+ t ∧ BreakAt p sep x

/-- Two separators stand around a single character of a word. -/
def Doubled (p : Char → Bool) (sep : Text → Prop) (t : Text) : Prop := ∃ x, x <:+ t ∧ BreakTwiceAt p sep x

/-- The pattern matches the separators: they are not empty and have no character of a word. -/
structure Separates (p : Char → Bool) (s : Regex) (sep : Text → Prop) : Prop where
  iff : ∀ prev u next, s.Matches prev u next ↔ sep u
  ne_nil : ∀ u, sep u → u ≠ []
  notWord : ∀ u, sep u → ∀ c ∈ u, p c = false

section

variable {p : Char → Bool} {s : Regex} {sep : Text → Prop} {c d : Char} {t u b : Text}

theorem broken_cons : Broken p sep (c :: t) ↔ BreakAt p sep (c :: t) ∨ Broken p sep t := by
  simp only [Broken, List.suffix_cons_iff, or_and_right, exists_or, exists_eq_left]

theorem doubled_cons : Doubled p sep (c :: t) ↔ BreakTwiceAt p sep (c :: t) ∨ Doubled p sep t := by
  simp only [Doubled, List.suffix_cons_iff, or_and_right, exists_or, exists_eq_left]

theorem broken_iff : Broken p sep t ↔
    ∃ a c u d b, t = a ++ c :: (u ++ d :: b) ∧ p c = true ∧ sep u ∧ p d = true := by
  constructor
  · rintro ⟨x, ⟨a, rfl⟩, hbreak⟩
    cases hbreak with
    | mk hc hu hd => exact ⟨a, _, _, _, _, rfl, hc, hu, hd⟩
  · rintro ⟨a, c, u, d, b, rfl, hc, hu, hd⟩
    exact ⟨_, List.suffix_append a _, .mk hc hu hd⟩

theorem not_broken_nil : ¬ Broken p sep [] := by
  rintro ⟨x, hx, hbreak⟩
  rw [List.suffix_nil.mp hx] at hbreak
  cases hbreak

theorem not_doubled_nil : ¬ Doubled p sep [] := by
  rintro ⟨x, hx, hbreak⟩
  rw [List.suffix_nil.mp hx] at hbreak
  cases hbreak

theorem BreakTwiceAt.breakAt (h : BreakTwiceAt p sep t) : BreakAt p sep t := by
  cases h with
  | mk hc hu hd hv he => exact .mk hc hu hd

theorem BreakAt.head (h : BreakAt p sep (c :: t)) : p c = true := by
  cases h with
  | mk hc hu hd => exact hc

theorem Doubled.of_suffix (h : Doubled p sep t) (ht : t <:+ u) : Doubled p sep u := by
  obtain ⟨x, hx, hbreak⟩ := h
  exact ⟨x, hx.trans ht, hbreak⟩

/-- No break begins in a separator. -/
theorem doubled_append_of_notWord (hu : ∀ c ∈ u, p c = false) (h : Doubled p sep (u ++ t)) : Doubled p sep t := by
  induction u with
  | nil => exact h
  | cons c u ih =>
    obtain ⟨hc, hu⟩ := List.forall_mem_cons.mp hu
    rw [List.cons_append, doubled_cons] at h
    rcases h with hbreak | h
    · rw [hbreak.breakAt.head] at hc
      cases hc
    · exact ih hu h

/-- What stands before the first character of a word is read off the text. -/
theorem cut_unique {v b' : Text} {e : Char} (hu : ∀ c ∈ u, p c = false) (hv : ∀ c ∈ v, p c = false) (hd : p d = true)
    (he : p e = true) (h : u ++ d :: b = v ++ e :: b') : u = v ∧ d = e ∧ b = b' := by
  induction u generalizing v with
  | nil =>
    cases v with
    | nil => exact ⟨rfl, (List.cons_eq_cons.mp h).1, (List.cons_eq_cons.mp h).2⟩
    | cons f v =>
      obtain ⟨rfl, -⟩ := List.cons_eq_cons.mp h
      exact absurd (hd.symm.trans (hv d List.mem_cons_self)) Bool.noConfusion
  | cons f u ih =>
    obtain ⟨hf, hu⟩ := List.forall_mem_cons.mp hu
    cases v with
    | nil =>
      obtain ⟨rfl, -⟩ := List.cons_eq_cons.mp h
      exact absurd (he.symm.trans hf) Bool.noConfusion
    | cons g v =>
      obtain ⟨hfg, hrest⟩ := List.cons_eq_cons.mp h
      obtain ⟨huv, hde, hb⟩ := ih hu (List.forall_mem_cons.mp hv).2 hrest
      exact ⟨by rw [hfg, huv], hde, hb⟩

/-! ## The substitution -/

/-- `re.sub("(w)s(w)", "\1\2", t)` for a character class `w`. -/
def rejoin (p : Char → Bool) (s : Regex) (t : Text) : Text := Regex.subGroups (.char p) s (.char p) t

theorem rejoin_nil : rejoin p s [] = [] := by rw [rejoin, Regex.subGroups, Regex.subGroupsFrom]

/-- There is a match at the front exactly where a word goes on behind a separator. -/
theorem groupsMatch_of_breakAt (hs : Separates p s sep) (prev : Option Char) (hc : p c = true) (hu : sep u)
    (hd : p d = true) :
    Regex.groupsMatch (.char p) s (.char p) prev (c :: (u ++ d :: b)) = some (1, u.length, 1) := by
  have hne : Regex.groupsMatch (.char p) s (.char p) prev ([c] ++ (u ++ ([d] ++ b))) ≠ none :=
    Regex.groupsMatch_ne_none ⟨c, rfl, hc⟩ ((hs.iff _ _ _).mpr hu) ⟨d, rfl, hd⟩
  obtain ⟨⟨n, m, k⟩, hm⟩ := Option.ne_none_iff_exists'.mp hne
  obtain ⟨x, v, w, b', ht, rfl, rfl, rfl, ⟨c', rfl, hc'⟩, hv, ⟨e, rfl, he⟩⟩ := Regex.groupsMatch_eq_some hm
  obtain ⟨rfl, hrest⟩ := List.cons_eq_cons.mp ht
  have hv' := (hs.iff _ _ _).mp hv
  obtain ⟨rfl, -, -⟩ := cut_unique (hs.notWord u hu) (hs.notWord v hv') hd he hrest
  exact hm

theorem groupsMatch_eq_none (hs : Separates p s sep) (prev : Option Char) (h : ¬ BreakAt p sep t) :
    Regex.groupsMatch (.char p) s (.char p) prev t = none := by
  by_contra hne
  obtain ⟨⟨n, m, k⟩, hm⟩ := Option.ne_none_iff_exists'.mp hne
  obtain ⟨x, v, w, b', rfl, -, -, -, ⟨c', rfl, hc'⟩, hv, ⟨e, rfl, he⟩⟩ := Regex.groupsMatch_eq_some hm
  exact h (.mk hc' ((hs.iff _ _ _).mp hv) he)

theorem subGroupsFrom_of_none (hs : Separates p s sep) (prev : Option Char) (h : ¬ BreakAt p sep (c :: t)) :
    Regex.subGroupsFrom (.char p) s (.char p) 0 prev (c :: t) =
      c :: Regex.subGroupsFrom (.char p) s (.char p) 0 (some c) t := by
  rw [Regex.subGroupsFrom, groupsMatch_eq_none hs prev h]

theorem subGroupsFrom_of_break (hs : Separates p s sep) (prev : Option Char) (hc : p c = true) (hu : sep u)
    (hd : p d = true) : Regex.subGroupsFrom (.char p) s (.char p) 0 prev (c :: (u ++ d :: b)) =
      c :: d :: Regex.subGroupsFrom (.char p) s (.char p) 0 (some d) b := by
  have hskip : Regex.subGroupsFrom (.char p) s (.char p) (1 + u.length + 1 - 1) (some c) ((u ++ [d]) ++ b) =
      Regex.subGroupsFrom (.char p) s (.char p) 0 (some d) b := by
    rw [Regex.subGroupsFrom_skip (u ++ [d]) (by simp only [List.length_append, List.length_singleton]; omega),
      List.getLast?_concat, Option.some_or]
  rw [List.append_assoc, List.singleton_append] at hskip
  rw [Regex.subGroupsFrom, groupsMatch_of_breakAt hs prev hc hu hd]
  dsimp only
  rw [hskip, List.take_succ_cons, List.take_zero, List.drop_succ_cons, List.drop_zero, List.drop_left,
    List.take_succ_cons, List.take_zero]
  rfl

/-- What stands before the text does not matter. -/
theorem subGroupsFrom_eq_rejoin (hs : Separates p s sep) (prev : Option Char) (t : Text) :
    Regex.subGroupsFrom (.char p) s (.char p) 0 prev t = rejoin p s t := by
  cases t with
  | nil => rw [rejoin_nil, Regex.subGroupsFrom]
  | cons c t =>
    by_cases h : BreakAt p sep (c :: t)
    · cases h with
      | mk hc hu hd =>
        rw [rejoin, Regex.subGroups, subGroupsFrom_of_break hs _ hc hu hd, subGroupsFrom_of_break hs _ hc hu hd]
    · rw [rejoin, Regex.subGroups, subGroupsFrom_of_none hs _ h, subGroupsFrom_of_none hs _ h]

theorem rejoin_of_none (hs : Separates p s sep) (h : ¬ BreakAt p sep (c :: t)) :
    rejoin p s (c :: t) = c :: rejoin p s t := by
  rw [rejoin, Regex.subGroups, subGroupsFrom_of_none hs none h, subGroupsFrom_eq_rejoin hs]

theorem rejoin_of_break (hs : Separates p s sep) (hc : p c = true) (hu : sep u) (hd : p d = true) :
    rejoin p s (c :: (u ++ d :: b)) = c :: d :: rejoin p s b := by
  rw [rejoin, Regex.subGroups, subGroupsFrom_of_break hs none hc hu hd, subGroupsFrom_eq_rejoin hs]

/-- A text is copied up to its first break, and goes on behind it. -/
theorem rejoin_induction {motive : Text → Prop} (sep : Text → Prop) (p : Char → Bool) (nil : motive [])
    (copy : ∀ c t, ¬ BreakAt p sep (c :: t) → motive t → motive (c :: t))
    (join : ∀ c u d b, p c = true → sep u → p d = true → motive b → motive (c :: (u ++ d :: b))) (t : Text) :
    motive t := by
  induction hl : t.length using Nat.strong_induction_on generalizing t with
  | _ n ih =>
    cases t with
    | nil => exact nil
    | cons c t =>
      by_cases h : BreakAt p sep (c :: t)
      · cases h with
        | @mk _ d u b hc hu hd =>
          refine join c u d b hc hu hd (ih b.length ?_ b rfl)
          simp only [List.length_cons, List.length_append] at hl
          omega
      · exact copy c t h (ih t.length (by rw [← hl, List.length_cons]; omega) t rfl)

/-! ## What is left -/

theorem head?_rejoin (hs : Separates p s sep) (t : Text) : (rejoin p s t).head? = t.head? := by
  induction t using rejoin_induction sep p with
  | nil => rw [rejoin_nil]
  | copy c t h _ => rw [rejoin_of_none hs h, List.head?_cons, List.head?_cons]
  | join c u d b hc hu hd _ => rw [rejoin_of_break hs hc hu hd, List.head?_cons, List.head?_cons]

/-- The substitution brings no character. -/
theorem mem_rejoin (hs : Separates p s sep) (h : c ∈ rejoin p s t) : c ∈ t := by
  induction t using rejoin_induction sep p with
  | nil => rwa [rejoin_nil] at h
  | copy d t hbreak ih =>
    rw [rejoin_of_none hs hbreak] at h
    exact List.mem_cons.mpr ((List.mem_cons.mp h).imp_right ih)
  | join e u d b hc hu hd ih =>
    rw [rejoin_of_break hs hc hu hd, List.mem_cons, List.mem_cons] at h
    rw [List.mem_cons, List.mem_append, List.mem_cons]
    rcases h with h | h | h
    · exact .inl h
    · exact .inr (.inr (.inl h))
    · exact .inr (.inr (.inr (ih h)))

/-- Separators stay as they are. -/
theorem rejoin_append_of_notWord (hs : Separates p s sep) (hu : ∀ c ∈ u, p c = false) (t : Text) :
    rejoin p s (u ++ t) = u ++ rejoin p s t := by
  induction u with
  | nil => rfl
  | cons c u ih =>
    obtain ⟨hc, hu⟩ := List.forall_mem_cons.mp hu
    have hnone : ¬ BreakAt p sep (c :: (u ++ t)) := fun h => by
      rw [h.head] at hc
      cases hc
    rw [List.cons_append, rejoin_of_none hs hnone, ih hu, List.cons_append]

/-- A separator and the character behind it were there before. -/
theorem eq_append_of_rejoin (hs : Separates p s sep) (hu : ∀ c ∈ u, p c = false) {y : Text}
    (h : rejoin p s t = u ++ d :: y) : ∃ b, t = u ++ d :: b := by
  induction u generalizing t with
  | nil =>
    have hhead := head?_rejoin hs t
    rw [h, List.nil_append, List.head?_cons] at hhead
    obtain ⟨b, hb⟩ := List.head?_eq_some_iff.mp hhead.symm
    exact ⟨b, hb⟩
  | cons f u ih =>
    obtain ⟨hf, hu⟩ := List.forall_mem_cons.mp hu
    have hhead := head?_rejoin hs t
    rw [h, List.cons_append, List.head?_cons] at hhead
    obtain ⟨t', rfl⟩ := List.head?_eq_some_iff.mp hhead.symm
    have hnone : ¬ BreakAt p sep (f :: t') := fun hbreak => by
      rw [hbreak.head] at hf
      cases hf
    rw [rejoin_of_none hs hnone, List.cons_append] at h
    obtain ⟨b, rfl⟩ := ih hu (List.cons_eq_cons.mp h).2
    exact ⟨b, rfl⟩

/-- And they stay behind a character that is taken. -/
theorem rejoin_separated (hs : Separates p s sep) (hu : sep u) (d : Char) (b : Text) :
    ∃ y, rejoin p s (u ++ d :: b) = u ++ d :: y := by
  have hhead := head?_rejoin hs (d :: b)
  rw [List.head?_cons] at hhead
  obtain ⟨y, hy⟩ := List.head?_eq_some_iff.mp hhead
  exact ⟨y, by rw [rejoin_append_of_notWord hs (hs.notWord u hu), hy]⟩

theorem doubled_of_broken_rejoin (hs : Separates p s sep) : Broken p sep (rejoin p s t) → Doubled p sep t := by
  induction t using rejoin_induction sep p with
  | nil =>
    rw [rejoin_nil]
    exact fun h => absurd h not_broken_nil
  | copy c t hnone ih =>
    rw [rejoin_of_none hs hnone, broken_cons]
    rintro (hbreak | h)
    · -- the break was there before
      generalize ht : rejoin p s t = t' at hbreak
      cases hbreak with
      | mk hc hu hd =>
        obtain ⟨b, rfl⟩ := eq_append_of_rejoin hs (hs.notWord _ hu) ht
        exact absurd (.mk hc hu hd) hnone
    · exact doubled_cons.mpr (.inr (ih h))
  | join c u d b hc hu hd ih =>
    rw [rejoin_of_break hs hc hu hd, broken_cons, broken_cons]
    rintro (hbreak | hbreak | h)
    · generalize ht : d :: rejoin p s b = t' at hbreak
      cases hbreak with
      | @mk _ e v y _ hv he =>
        obtain ⟨f, v', rfl⟩ := List.exists_cons_of_ne_nil (hs.ne_nil v hv)
        have hf := hs.notWord _ hv f List.mem_cons_self
        rw [← (List.cons_eq_cons.mp ht).1, hd] at hf
        cases hf
    · generalize ht : rejoin p s b = t' at hbreak
      cases hbreak with
      | mk _ hv he =>
        obtain ⟨b', rfl⟩ := eq_append_of_rejoin hs (hs.notWord _ hv) ht
        exact ⟨_, List.suffix_refl _, .mk hc hu hd hv he⟩
    · have hsuffix : b <:+ c :: (u ++ d :: b) :=
        ((List.suffix_cons d b).trans (List.suffix_append u _)).trans (List.suffix_cons c _)
      exact (ih h).of_suffix hsuffix

theorem broken_rejoin_of_doubled (hs : Separates p s sep) : Doubled p sep t → Broken p sep (rejoin p s t) := by
  induction t using rejoin_induction sep p with
  | nil => exact fun h => absurd h not_doubled_nil
  | copy c t hnone ih =>
    rw [rejoin_of_none hs hnone, doubled_cons, broken_cons]
    rintro (hbreak | h)
    · exact absurd hbreak.breakAt hnone
    · exact .inr (ih h)
  | join c u d b hc hu hd ih =>
    rw [rejoin_of_break hs hc hu hd, doubled_cons, broken_cons, broken_cons]
    rintro (hbreak | h)
    · -- the second separator of the two is left
      generalize ht : u ++ d :: b = t' at hbreak
      cases hbreak with
      | @mk _ d' e u' v b' _ hu' hd' hv he =>
        obtain ⟨rfl, rfl, rfl⟩ := cut_unique (hs.notWord u hu) (hs.notWord u' hu') hd hd' ht
        obtain ⟨y, hy⟩ := rejoin_separated hs hv e b'
        rw [hy]
        exact .inr (.inl (.mk hd hv he))
    · have h := doubled_append_of_notWord (hs.notWord u hu) h
      rw [doubled_cons] at h
      rcases h with hbreak | h
      · -- and so is the first one behind a character that has been taken
        generalize ht : d :: b = t' at hbreak
        cases hbreak with
        | @mk d' e f v w b' _ hv he hw hf =>
          obtain ⟨rfl, rfl⟩ := List.cons_eq_cons.mp ht
          obtain ⟨y, hy⟩ := rejoin_separated hs hv e (w ++ f :: b')
          rw [hy]
          exact .inr (.inl (.mk hd hv he))
      · exact .inr (.inr (ih h))

/-- **A break is left exactly where two separators stood around a single character.** -/
theorem broken_rejoin_iff (hs : Separates p s sep) : Broken p sep (rejoin p s t) ↔ Doubled p sep t :=
  ⟨doubled_of_broken_rejoin hs, broken_rejoin_of_doubled hs⟩

/-- A text without breaks stays as it is. -/
theorem rejoin_eq_self (hs : Separates p s sep) (h : ¬ Broken p sep t) : rejoin p s t = t := by
  induction t using rejoin_induction sep p with
  | nil => exact rejoin_nil
  | copy c t hnone ih => rw [rejoin_of_none hs hnone, ih fun ht => h (broken_cons.mpr (.inr ht))]
  | join c u d b hc hu hd ih => exact absurd (broken_cons.mpr (.inl (.mk hc hu hd))) h

theorem count_rejoin_le (hs : Separates p s sep) (h : Char) (t : Text) : (rejoin p s t).count h ≤ t.count h := by
  induction t using rejoin_induction sep p with
  | nil => rw [rejoin_nil]
  | copy c t hnone ih =>
    rw [rejoin_of_none hs hnone, List.count_cons, List.count_cons]
    omega
  | join c u d b hc hu hd ih =>
    rw [rejoin_of_break hs hc hu hd]
    simp only [List.count_cons, List.count_append]
    omega

theorem length_rejoin_le (hs : Separates p s sep) (t : Text) : (rejoin p s t).length ≤ t.length := by
  induction t using rejoin_induction sep p with
  | nil => rw [rejoin_nil]
  | copy c t hnone ih =>
    rw [rejoin_of_none hs hnone, List.length_cons, List.length_cons]
    omega
  | join c u d b hc hu hd ih =>
    rw [rejoin_of_break hs hc hu hd]
    simp only [List.length_cons, List.length_append]
    omega

/-- A text with a break loses a separator. -/
theorem count_rejoin_lt (hs : Separates p s sep) {h : Char} (hh : ∀ u, sep u → h ∈ u) (hbroken : Broken p sep t) :
    (rejoin p s t).count h < t.count h := by
  induction t using rejoin_induction sep p with
  | nil => exact absurd hbroken not_broken_nil
  | copy c t hnone ih =>
    have hrest := ih ((broken_cons.mp hbroken).resolve_left hnone)
    rw [rejoin_of_none hs hnone, List.count_cons, List.count_cons]
    omega
  | join c u d b hc hu hd _ =>
    have hle := count_rejoin_le hs h b
    have hpos := List.count_pos_iff.mpr (hh u hu)
    rw [rejoin_of_break hs hc hu hd]
    simp only [List.count_cons, List.count_append]
    omega

end

end PyLib
