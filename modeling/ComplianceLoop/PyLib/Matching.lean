import ComplianceLoop.PyLib.Regex

/-!
# What a pattern matches

`Matches` says which stretch of text a pattern matches between two neighbours; the lengths that the matcher tries are
those of the stretches that match (`mem_ends`). A text in which no stretch matches is one in which `finditer` finds
nothing (`spans_eq_nil_iff`).

A *word pattern* has its matches between characters that are no part of a word. Replacing them by a text in brackets
makes no new match, neither of the pattern itself nor of another one (`not_occurs_sub`).
-/

set_option autoImplicit false

namespace PyLib

namespace Regex

/-! ## Stretches -/

/-- The pattern matches `u` between the characters `prev` and `next`. -/
def Matches : Regex → Option Char → Text → Option Char → Prop
  | .char p, _, u, _ => ∃ c, u = [c] ∧ p c = true
  | .many p, _, u, _ => ∀ c ∈ u, p c = true
  | .bound p, prev, u, next => u = [] ∧ p prev next = true
  | .cat r s, prev, u, next =>
    ∃ v w, u = v ++ w ∧ r.Matches prev v (w.head?.or next) ∧ s.Matches (v.getLast?.or prev) w next
  | .opt r, prev, u, next => u = [] ∨ r.Matches prev u next

/-- Some stretch of `t`, which stands behind `prev`, matches. -/
def OccursFrom (r : Regex) (prev : Option Char) (t : Text) : Prop :=
  ∃ a u b, t = a ++ u ++ b ∧ r.Matches (a.getLast?.or prev) u b.head?

/-- Some stretch of `t` matches. -/
def Occurs (r : Regex) (t : Text) : Prop := r.OccursFrom none t

theorem head?_append_or (u b : Text) : (u ++ b).head? = u.head?.or b.head? := by cases u <;> simp

theorem before_append (prev : Option Char) (v b : Text) : before prev (v ++ b) v.length = v.getLast?.or prev := by
  rcases List.eq_nil_or_concat v with rfl | ⟨v, c, rfl⟩
  · rfl
  · rw [List.concat_eq_append, List.length_append, List.length_singleton, before, List.getLast?_concat]
    simp

theorem length_le_takeWhile (p : Char → Bool) (u b : Text) :
    u.length ≤ ((u ++ b).takeWhile p).length ↔ ∀ c ∈ u, p c = true := by
  induction u with
  | nil => simp
  | cons c u ih =>
    rw [List.cons_append, List.takeWhile_cons]
    cases hc : p c with
    | true => simp [hc, ih]
    | false => simp [hc]

/-- **The lengths that are tried are those of the stretches that match.** -/
theorem mem_ends (r : Regex) (prev : Option Char) (u b : Text) :
    u.length ∈ r.ends prev (u ++ b) ↔ r.Matches prev u b.head? := by
  induction r generalizing prev u b with
  | char p =>
    rw [Matches]
    match u with
    | [] =>
      cases b with
      | nil => simp [ends]
      | cons d b => cases hd : p d <;> simp [ends, hd]
    | [c] => cases hc : p c <;> simp [ends, hc]
    | c :: d :: u => cases hc : p c <;> simp [ends, hc]
  | many p =>
    rw [ends, List.mem_reverse, List.mem_range, Nat.lt_succ_iff, length_le_takeWhile, Matches]
  | bound p =>
    rw [Matches, ends]
    cases u with
    | nil => cases hp : p prev b.head? <;> simp [hp]
    | cons c u => cases hp : p prev ((c :: u) ++ b).head? <;> simp
  | cat r s ihr ihs =>
    -- a match of both is a cut of the stretch
    have hcut : ∀ v w : Text, (v.length ∈ r.ends prev (v ++ (w ++ b)) ∧
        w.length ∈ s.ends (before prev (v ++ (w ++ b)) v.length) ((v ++ (w ++ b)).drop v.length)) ↔
          r.Matches prev v (w.head?.or b.head?) ∧ s.Matches (v.getLast?.or prev) w b.head? := fun v w => by
      rw [before_append, List.drop_left, ihr, ihs, head?_append_or]
    rw [ends, Matches]
    simp only [List.mem_flatMap, List.mem_map]
    constructor
    · rintro ⟨n, hn, m, hm, hl⟩
      have hv : (u.take n).length = n := List.length_take_of_le (by omega)
      have hw : (u.drop n).length = m := by rw [List.length_drop]; omega
      have hu : u ++ b = u.take n ++ (u.drop n ++ b) := by rw [← List.append_assoc, List.take_append_drop]
      have hboth := (hcut (u.take n) (u.drop n)).mp (by rw [hv, hw, ← hu]; exact ⟨hn, hm⟩)
      exact ⟨u.take n, u.drop n, (List.take_append_drop n u).symm, hboth⟩
    · rintro ⟨v, w, rfl, hboth⟩
      obtain ⟨hn, hm⟩ := (hcut v w).mpr hboth
      rw [List.append_assoc]
      exact ⟨v.length, hn, w.length, hm, List.length_append.symm⟩
  | opt r ih =>
    rw [ends, Matches, List.mem_append, ih, List.mem_singleton, List.length_eq_zero_iff, or_comm]

theorem le_length_of_mem_ends {r : Regex} {prev : Option Char} {t : Text} {n : Nat} (h : n ∈ r.ends prev t) :
    n ≤ t.length := by
  induction r generalizing prev t n with
  | char p =>
    cases t with
    | nil => exact absurd h List.not_mem_nil
    | cons c t =>
      rw [ends] at h
      split at h
      · simp [List.mem_singleton.mp h]
      · exact absurd h List.not_mem_nil
  | many p =>
    rw [ends, List.mem_reverse, List.mem_range, Nat.lt_succ_iff] at h
    exact Nat.le_trans h (List.takeWhile_prefix p).length_le
  | bound p =>
    rw [ends] at h
    split at h
    · rw [List.mem_singleton.mp h]
      exact Nat.zero_le _
    · exact absurd h List.not_mem_nil
  | cat r s ihr ihs =>
    rw [ends, List.mem_flatMap] at h
    obtain ⟨m, hm, h⟩ := h
    rw [List.mem_map] at h
    obtain ⟨k, hk, rfl⟩ := h
    have hm' := ihr hm
    have hk' := ihs hk
    rw [List.length_drop] at hk'
    omega
  | opt r ih =>
    rw [ends, List.mem_append] at h
    rcases h with h | h
    · exact ih h
    · rw [List.mem_singleton.mp h]
      exact Nat.zero_le _

/-- A length that is tried is that of a stretch that matches. -/
theorem exists_of_mem_ends {r : Regex} {prev : Option Char} {t : Text} {n : Nat} (h : n ∈ r.ends prev t) :
    ∃ u b, t = u ++ b ∧ u.length = n ∧ r.Matches prev u b.head? := by
  have hl : (t.take n).length = n := List.length_take_of_le (le_length_of_mem_ends h)
  refine ⟨t.take n, t.drop n, (List.take_append_drop n t).symm, hl, ?_⟩
  rw [← mem_ends, List.take_append_drop, hl]
  exact h

/-! ## Searching -/

/-- Every match has a character. -/
def Proper (r : Regex) : Prop := ∀ prev next, ¬ r.Matches prev [] next

theorem matchPred_eq_some {r : Regex} {prev : Option Char} {t : Text} {n : Nat}
    (h : r.matchPred prev t = Option.some n) :
    ∃ u b, t = u ++ b ∧ u.length = n + 1 ∧ r.Matches prev u b.head? := by
  unfold matchPred at h
  cases he : r.ends prev t with
  | nil =>
    rw [he] at h
    cases h
  | cons m ms =>
    rw [he, List.head?_cons] at h
    cases m with
    | zero => cases h
    | succ m =>
      obtain rfl : m = n := Option.some.inj h
      exact exists_of_mem_ends (he ▸ List.mem_cons_self)

section

variable {r : Regex}

/-- Nothing matches at a position exactly when the matcher finds nothing there. -/
theorem matchPred_eq_none (hr : r.Proper) {prev : Option Char} {t : Text} :
    r.matchPred prev t = none ↔ ∀ u b, t = u ++ b → ¬ r.Matches prev u b.head? := by
  constructor
  · intro h u b ht hm
    rw [← mem_ends, ← ht] at hm
    unfold matchPred at h
    cases he : r.ends prev t with
    | nil =>
      rw [he] at hm
      exact absurd hm List.not_mem_nil
    | cons n ns =>
      rw [he, List.head?_cons] at h
      cases n with
      | zero => exact hr _ _ ((r.mem_ends prev [] t).mp (he ▸ List.mem_cons_self))
      | succ n => cases h
  · intro h
    cases hm : r.matchPred prev t with
    | none => rfl
    | some n =>
      obtain ⟨u, b, ht, -, hu⟩ := matchPred_eq_some hm
      exact absurd hu (h u b ht)

theorem occursFrom_nil (hr : r.Proper) (prev : Option Char) : ¬ r.OccursFrom prev [] := by
  rintro ⟨a, u, b, ht, hm⟩
  have hu : u = [] := (List.append_eq_nil_iff.mp (List.append_eq_nil_iff.mp ht.symm).1).2
  exact hr _ _ (hu ▸ hm)

theorem getLast?_cons_or (c : Char) (a : Text) (prev : Option Char) :
    (c :: a).getLast?.or prev = a.getLast?.or (Option.some c) := by
  rw [List.getLast?_cons]
  cases a.getLast? <;> rfl

theorem occursFrom_cons {prev : Option Char} {c : Char} {t : Text} :
    r.OccursFrom prev (c :: t) ↔
      (∃ u b, c :: t = u ++ b ∧ r.Matches prev u b.head?) ∨ r.OccursFrom (Option.some c) t := by
  constructor
  · rintro ⟨a, u, b, ht, hm⟩
    cases a with
    | nil => exact .inl ⟨u, b, ht, hm⟩
    | cons d a =>
      obtain ⟨rfl, rfl⟩ := List.cons_eq_cons.mp ht
      exact .inr ⟨a, u, b, rfl, getLast?_cons_or c a prev ▸ hm⟩
  · rintro (⟨u, b, ht, hm⟩ | ⟨a, u, b, rfl, hm⟩)
    · exact ⟨[], u, b, ht, hm⟩
    · exact ⟨c :: a, u, b, rfl, (getLast?_cons_or c a prev).symm ▸ hm⟩

theorem spansFrom_eq_nil_iff (hr : r.Proper) {i : Nat} {prev : Option Char} {t : Text} :
    r.spansFrom i 0 prev t = [] ↔ ¬ r.OccursFrom prev t := by
  induction t generalizing i prev with
  | nil => simp [spansFrom, occursFrom_nil hr prev]
  | cons c t ih =>
    rw [spansFrom, occursFrom_cons]
    cases hm : r.matchPred prev (c :: t) with
    | some n =>
      obtain ⟨u, b, ht, -, hu⟩ := matchPred_eq_some hm
      simp [show ∃ u b, c :: t = u ++ b ∧ r.Matches prev u b.head? from ⟨u, b, ht, hu⟩]
    | none =>
      rw [not_or, ← ih (i := i + 1)]
      have hnone : ¬ ∃ u b, c :: t = u ++ b ∧ r.Matches prev u b.head? := fun ⟨u, b, ht, hu⟩ =>
        (matchPred_eq_none hr).mp hm u b ht hu
      exact (and_iff_right hnone).symm

/-- **`finditer` finds nothing exactly when no stretch matches.** -/
theorem spans_eq_nil_iff (hr : r.Proper) {t : Text} : r.spans t = [] ↔ ¬ r.Occurs t := spansFrom_eq_nil_iff hr

end

/-! ## Replacing -/

/-- `re.sub`, with `k` characters of the last match still to be skipped. -/
def subFrom (r : Regex) (repl : Text) : Nat → Option Char → Text → Text
  | _, _, [] => []
  | k + 1, _, c :: t => subFrom r repl k (Option.some c) t
  | 0, prev, c :: t =>
    match r.matchPred prev (c :: t) with
    | Option.some n => repl ++ subFrom r repl n (Option.some c) t
    | none => c :: subFrom r repl 0 (Option.some c) t

theorem subFrom_of_some {r : Regex} {repl : Text} {prev : Option Char} {c : Char} {t : Text} {n : Nat}
    (h : r.matchPred prev (c :: t) = Option.some n) :
    r.subFrom repl 0 prev (c :: t) = repl ++ r.subFrom repl n (Option.some c) t := by
  simp only [subFrom, h]

theorem subFrom_of_none {r : Regex} {repl : Text} {prev : Option Char} {c : Char} {t : Text}
    (h : r.matchPred prev (c :: t) = none) :
    r.subFrom repl 0 prev (c :: t) = c :: r.subFrom repl 0 (Option.some c) t := by
  simp only [subFrom, h]

theorem splitFrom_ne_nil (r : Regex) (k : Nat) (prev : Option Char) (t : Text) : r.splitFrom k prev t ≠ [] := by
  fun_induction splitFrom r k prev t with
  | case1 => exact List.cons_ne_nil _ _
  | case2 _ _ _ _ ih => exact ih
  | case3 => exact List.cons_ne_nil _ _
  | case4 prev c t hm ih =>
    obtain ⟨p, ps, hp⟩ := List.exists_cons_of_ne_nil ih
    rw [hp]
    exact List.cons_ne_nil _ _

theorem intercalate_splitFrom (r : Regex) (repl : Text) (k : Nat) (prev : Option Char) (t : Text) :
    repl.intercalate (r.splitFrom k prev t) = r.subFrom repl k prev t := by
  fun_induction splitFrom r k prev t with
  | case1 k prev =>
    rw [List.intercalate_singleton]
    cases k <;> rfl
  | case2 k prev c t ih => exact ih
  | case3 prev c t n hm ih =>
    obtain ⟨p, ps, hp⟩ := List.exists_cons_of_ne_nil (r.splitFrom_ne_nil n (Option.some c) t)
    rw [subFrom_of_some hm, ← ih, hp, List.intercalate_cons_cons, List.nil_append]
  | case4 prev c t hm ih =>
    obtain ⟨p, ps, hp⟩ := List.exists_cons_of_ne_nil (r.splitFrom_ne_nil 0 (Option.some c) t)
    rw [subFrom_of_none hm, ← ih, hp, List.modifyHead_cons]
    cases ps with
    | nil => rw [List.intercalate_singleton, List.intercalate_singleton]
    | cons q qs => rw [List.intercalate_cons_cons, List.intercalate_cons_cons, List.append_assoc, List.cons_append,
        List.append_assoc]

/-- What does not see the characters of the matches does not see the splitting. -/
theorem flatMap_splitFrom {β : Type} {r : Regex} {p : Char → Bool} {F : Text → List β}
    (hr : ∀ prev u next, r.Matches prev u next → ∀ c ∈ u, p c = true) (hnil : F [] = [])
    (hF : ∀ c s t, p c = true → F (s ++ c :: t) = F s ++ F t) (t : Text) :
    ∀ (k : Nat) (prev : Option Char) (s : Text), (∀ c ∈ t.take k, p c = true) → (k = 0 ∨ s = []) →
      ((r.splitFrom k prev t).modifyHead (s ++ ·)).flatMap F = F (s ++ t) := by
  induction t with
  | nil =>
    intro k prev s _ _
    rw [splitFrom, List.modifyHead_cons, List.flatMap_singleton]
  | cons c t ih =>
    intro k prev s hk hs
    cases k with
    | succ k =>
      obtain rfl : s = [] := hs.resolve_left (Nat.succ_ne_zero k)
      rw [List.take_succ_cons, List.forall_mem_cons] at hk
      have hc := hF c [] t hk.1
      rw [List.nil_append, hnil, List.nil_append] at hc
      rw [splitFrom, ih k (Option.some c) [] hk.2 (.inr rfl), List.nil_append, List.nil_append, hc]
    | zero =>
      rw [splitFrom]
      cases hm : r.matchPred prev (c :: t) with
      | some n =>
        obtain ⟨u, b, ht, hu, hmatch⟩ := matchPred_eq_some hm
        have hwhite : ∀ d ∈ (c :: t).take (n + 1), p d = true := by
          rw [ht, ← hu, List.take_left]
          exact hr _ _ _ hmatch
        rw [List.take_succ_cons, List.forall_mem_cons] at hwhite
        have hrest := ih n (Option.some c) [] hwhite.2 (.inr rfl)
        rw [show (([] : Text) ++ ·) = id from rfl, List.modifyHead_id, id_eq, List.nil_append] at hrest
        rw [List.modifyHead_cons, List.flatMap_cons, List.append_nil, hF c s t hwhite.1, hrest]
      | none =>
        have hrest := ih 0 (Option.some c) (s ++ [c]) (List.forall_mem_nil _) (.inl rfl)
        rw [List.append_assoc, List.singleton_append] at hrest
        rw [← hrest, List.modifyHead_modifyHead]
        simp [Function.comp_def]

theorem flatMap_split {β : Type} {r : Regex} {p : Char → Bool} {F : Text → List β}
    (hr : ∀ prev u next, r.Matches prev u next → ∀ c ∈ u, p c = true) (hnil : F [] = [])
    (hF : ∀ c s t, p c = true → F (s ++ c :: t) = F s ++ F t) (t : Text) : (r.split t).flatMap F = F t := by
  have := flatMap_splitFrom hr hnil hF t 0 none [] (List.forall_mem_nil _) (.inl rfl)
  rwa [show (([] : Text) ++ ·) = id from rfl, List.modifyHead_id, id_eq, List.nil_append] at this

theorem sub_eq_subFrom (r : Regex) (repl t : Text) : r.sub repl t = r.subFrom repl 0 none t :=
  intercalate_splitFrom r repl 0 none t

/-- Deleting the matches leaves a part of the text. -/
theorem sub_nil_sublist (r : Regex) (t : Text) : (r.sub [] t).Sublist t := by
  have hloop : ∀ (k : Nat) (prev : Option Char) (t : Text), (r.subFrom [] k prev t).Sublist t := by
    intro k prev t
    fun_induction subFrom r [] k prev t with
    | case1 => exact List.Sublist.refl []
    | case2 k prev c t ih => exact ih.trans (List.sublist_cons_self c t)
    | case3 prev c t n hm ih => exact ih.trans (List.sublist_cons_self c t)
    | case4 prev c t hm ih => exact ih.cons_cons c
  rw [sub_eq_subFrom]
  exact hloop 0 none t

/-- Where no match is shorter than its replacement, the text does not grow. -/
theorem length_sub_le {r : Regex} {repl : Text}
    (h : ∀ prev t n, r.matchPred prev t = Option.some n → repl.length ≤ n + 1) (t : Text) :
    (r.sub repl t).length ≤ t.length := by
  have hloop : ∀ (k : Nat) (prev : Option Char) (t : Text), k ≤ t.length →
      (r.subFrom repl k prev t).length + k ≤ t.length := by
    intro k prev t
    fun_induction subFrom r repl k prev t with
    | case1 =>
      intro hk
      rwa [List.length_nil, Nat.zero_add]
    | case2 k prev c t ih =>
      intro hk
      rw [List.length_cons] at hk ⊢
      have hrest := ih (by omega)
      omega
    | case3 prev c t n hm ih =>
      intro _
      obtain ⟨u, b, ht, hu, -⟩ := matchPred_eq_some hm
      have hlength := congrArg List.length ht
      rw [List.length_cons, List.length_append] at hlength
      have hrest := ih (by omega)
      have hrepl := h prev (c :: t) n hm
      rw [List.length_append, List.length_cons]
      omega
    | case4 prev c t hm ih =>
      intro _
      have hrest := ih (Nat.zero_le _)
      rw [List.length_cons, List.length_cons]
      omega
  rw [sub_eq_subFrom]
  exact hloop 0 none t (Nat.zero_le _)

/-- A stretch that begins and ends in a word, between characters that are in no word, and without brackets. -/
structure Bounded (isWord : Char → Bool) (prev : Option Char) (u : Text) (next : Option Char) : Prop where
  before : prev.any isWord = false
  first : u.head?.any isWord = true
  last : u.getLast?.any isWord = true
  behind : next.any isWord = false
  noOpening : '[' ∉ u
  noClosing : ']' ∉ u

/-- A pattern whose matches are such stretches. -/
def WordPattern (isWord : Char → Bool) (r : Regex) : Prop :=
  ∀ prev u next, r.Matches prev u next → Bounded isWord prev u next

theorem WordPattern.proper {isWord : Char → Bool} {r : Regex} (hr : WordPattern isWord r) : r.Proper := by
  intro prev next hm
  have hfirst := (hr prev [] next hm).first
  cases hfirst

theorem sub_eq_nil {r : Regex} {repl : Text} (hrepl : repl ≠ []) {t : Text} : r.sub repl t = [] ↔ t = [] := by
  rw [sub_eq_subFrom]
  cases t with
  | nil => exact ⟨fun _ => rfl, fun _ => rfl⟩
  | cons c t =>
    cases hm : r.matchPred none (c :: t) with
    | none => simp [subFrom_of_none hm]
    | some n => simp [subFrom_of_some hm, hrepl]

/-! ## Repetitions and word boundaries -/

/-- `p{n}`. -/
def times (p : Char → Bool) : Nat → Regex
  | 0 => .bound fun _ _ => true
  | n + 1 => .cat (.char p) (times p n)

theorem matches_times {p : Char → Bool} {n : Nat} {prev next : Option Char} {u : Text} :
    (times p n).Matches prev u next ↔ u.length = n ∧ ∀ c ∈ u, p c = true := by
  induction n generalizing prev u with
  | zero =>
    rw [times, Matches, List.length_eq_zero_iff]
    constructor
    · rintro ⟨rfl, -⟩
      exact ⟨rfl, List.forall_mem_nil _⟩
    · exact fun h => ⟨h.1, rfl⟩
  | succ n ih =>
    rw [times, Matches]
    constructor
    · rintro ⟨v, w, rfl, ⟨c, rfl, hc⟩, hw⟩
      obtain ⟨hl, hall⟩ := ih.mp hw
      exact ⟨by simp [hl], by simpa [hc] using hall⟩
    · rintro ⟨hl, hall⟩
      cases u with
      | nil => cases hl
      | cons c u =>
        refine ⟨[c], u, rfl, ⟨c, rfl, hall c List.mem_cons_self⟩, ih.mpr ⟨Nat.succ.inj hl, fun d hd => ?_⟩⟩
        exact hall d (List.mem_cons_of_mem c hd)

/-- `\b`. -/
def boundary (isWord : Char → Bool) : Regex := .bound fun prev next => prev.any isWord != next.any isWord

/-- `\br\b`. -/
def delimited (isWord : Char → Bool) (r : Regex) : Regex := .cat (boundary isWord) (.cat r (boundary isWord))

theorem matches_delimited {isWord : Char → Bool} {r : Regex} {prev next : Option Char} {u : Text} :
    (delimited isWord r).Matches prev u next ↔
      r.Matches prev u next ∧ prev.any isWord ≠ (u.head?.or next).any isWord ∧
        (u.getLast?.or prev).any isWord ≠ next.any isWord := by
  simp only [delimited, boundary, Matches, bne_iff_ne]
  constructor
  · rintro ⟨v, w, rfl, ⟨rfl, hfront⟩, v', w', rfl, hr, rfl, hback⟩
    simp only [List.nil_append, List.append_nil, List.getLast?_nil, Option.none_or, List.head?_nil] at *
    exact ⟨hr, hfront, hback⟩
  · rintro ⟨hr, hfront, hback⟩
    exact ⟨[], u, rfl, ⟨rfl, hfront⟩, u, [], (List.append_nil u).symm, by simpa using hr, rfl, by simpa using hback⟩

/-- The delimited pattern is a word pattern when its matches begin and end in a word and contain no brackets. -/
theorem wordPattern_delimited {isWord : Char → Bool} {r : Regex}
    (h : ∀ prev u next, (delimited isWord r).Matches prev u next →
      u.head?.any isWord = true ∧ u.getLast?.any isWord = true ∧ '[' ∉ u ∧ ']' ∉ u) :
    WordPattern isWord (delimited isWord r) := by
  intro prev u next hm
  obtain ⟨-, hfront, hback⟩ := matches_delimited.mp hm
  obtain ⟨hfirst, hlast, hopen, hclose⟩ := h prev u next hm
  have hor : ∀ {x y : Option Char}, x.any isWord = true → (x.or y).any isWord = true := by
    intro x y hx
    cases x with
    | none => cases hx
    | some c => exact hx
  rw [hor hfirst] at hfront
  rw [hor hlast] at hback
  exact ⟨Bool.eq_false_iff.mpr hfront, hfirst, hlast, Bool.eq_false_iff.mpr hback.symm, hopen, hclose⟩

/-! ## Replacements in brackets -/

/-- What has been copied up to an opening bracket comes from the front of the text. -/
theorem subFrom_eq_append {r : Regex} {inner : Text} :
    ∀ {u b : Text} {prev : Option Char} {t : Text}, '[' ∉ u → r.subFrom ('[' :: inner) 0 prev t = u ++ b →
      ∃ b', t = u ++ b' ∧ r.subFrom ('[' :: inner) 0 (u.getLast?.or prev) b' = b
  | [], b, prev, t, _, h => ⟨t, rfl, h⟩
  | c :: u, b, prev, [], _, h => by cases h
  | c :: u, b, prev, d :: t, hu, h => by
    rw [List.mem_cons, not_or] at hu
    rw [subFrom] at h
    split at h
    · exact absurd (List.cons_eq_cons.mp h).1 hu.1
    · obtain ⟨rfl, htail⟩ := List.cons_eq_cons.mp h
      obtain ⟨b', rfl, hb⟩ := subFrom_eq_append hu.2 htail
      exact ⟨b', rfl, by rw [← hb, getLast?_cons_or]⟩

/-- Where no match begins, the next character is copied. -/
theorem head?_subFrom {r : Regex} {repl : Text} {prev : Option Char} {t : Text} (h : r.matchPred prev t = none) :
    (r.subFrom repl 0 prev t).head? = t.head? := by
  cases t with
  | nil => rfl
  | cons c t => rw [subFrom_of_none h, List.head?_cons, List.head?_cons]

section

variable {isWord : Char → Bool} {r s : Regex} {inner : Text}

/-- What begins behind the front of a text begins in the rest. -/
theorem append_of_length_le {x y a b : Text} (h : x ++ y = a ++ b) (hl : x.length ≤ a.length) :
    ∃ a', a = x ++ a' ∧ y = a' ++ b := by
  rcases List.append_eq_append_iff.mp h with ⟨a', ha, hb⟩ | ⟨a', ha, hb⟩
  · exact ⟨a', ha, hb⟩
  · have ha0 : a' = [] := by
      rw [ha, List.length_append] at hl
      exact List.length_eq_zero_iff.mp (by omega)
    rw [ha0, List.append_nil] at ha
    rw [ha0, List.nil_append] at hb
    exact ⟨[], by rw [ha, List.append_nil], hb.symm⟩

/-- A match inside a text in brackets, whatever stands around it, is a match in that text alone. -/
theorem occurs_brackets {prev : Option Char} {u a b rest : Text} (hs : WordPattern isWord s)
    (hm : s.Matches (a.getLast?.or prev) u b.head?) (h : '[' :: (inner ++ ']' :: rest) = a ++ u ++ b)
    (hl : a.length ≤ inner.length + 1) : s.Occurs ('[' :: (inner ++ [']'])) := by
  have hu := hs _ _ _ hm
  cases a with
  | nil =>
    -- a match does not begin with the bracket
    cases u with
    | nil => exact absurd hu.first Bool.false_ne_true
    | cons c u =>
      obtain ⟨rfl, -⟩ := List.cons_eq_cons.mp h
      exact absurd List.mem_cons_self hu.noOpening
  | cons c a =>
    obtain ⟨rfl, hrest⟩ := List.cons_eq_cons.mp h
    have hinside : ∀ x, inner = a ++ u ++ x → b = x ++ ']' :: rest → s.Occurs ('[' :: (inner ++ [']'])) := by
      rintro x rfl rfl
      refine ⟨'[' :: a, u, x ++ [']'], by simp, ?_⟩
      rw [getLast?_cons_or] at hm ⊢
      rw [head?_append_or] at hm ⊢
      exact hm
    rw [List.length_cons, Nat.succ_le_succ_iff] at hl
    rcases List.append_eq_append_iff.mp hrest with ⟨x, hx, hb⟩ | ⟨x, hx, hb⟩
    · cases x with
      | nil =>
        rw [List.append_nil] at hx
        exact hinside [] ((List.append_nil _).symm ▸ hx.symm) hb.symm
      | cons d x =>
        -- nor does it go on behind the closing bracket
        obtain ⟨rfl, -⟩ := List.cons_eq_cons.mp hb
        refine absurd ?_ hu.noClosing
        rcases List.append_eq_append_iff.mp hx with ⟨y, hy, huy⟩ | ⟨y, hy, huy⟩
        · rw [huy]
          exact List.mem_append_right y List.mem_cons_self
        · have hy0 : y = [] := by
            rw [hy, List.length_append] at hl
            exact List.length_eq_zero_iff.mp (by omega)
          rw [hy0, List.nil_append] at huy
          rw [← huy]
          exact List.mem_cons_self
    · exact hinside x hx hb

/-- Behind a stretch that ends in a word nothing begins. -/
theorem matchPred_of_bounded (hr : WordPattern isWord r) {prev next : Option Char} {u b : Text}
    (hu : Bounded isWord prev u next) : r.matchPred (u.getLast?.or prev) b = none := by
  cases hm : r.matchPred (u.getLast?.or prev) b with
  | none => rfl
  | some n =>
    obtain ⟨v, w, -, -, hmv⟩ := matchPred_eq_some hm
    have hbefore := (hr _ _ _ hmv).before
    have hlast := hu.last
    cases hu' : u.getLast? with
    | none =>
      rw [hu'] at hlast
      cases hlast
    | some d =>
      rw [hu'] at hbefore hlast
      exact absurd (hbefore.symm.trans hlast) Bool.false_ne_true

/-- Where `r` is tried behind the first character, it is tried in the text. -/
theorem not_matches_cons {c : Char} {prev : Option Char} {t : Text}
    (h : ∀ a u b, c :: t = a ++ u ++ b → r.matchPred (a.getLast?.or prev) (u ++ b) = none →
      ¬ s.Matches (a.getLast?.or prev) u b.head?) (a u b : Text) (ht : t = a ++ u ++ b)
    (hm : r.matchPred (a.getLast?.or (Option.some c)) (u ++ b) = none) :
    ¬ s.Matches (a.getLast?.or (Option.some c)) u b.head? := by
  have hhere := h (c :: a) u b (congrArg (c :: ·) ht)
  rw [getLast?_cons_or] at hhere
  exact hhere hm

/-- **A replacement in brackets makes no match.** -/
theorem not_occursFrom_subFrom (hr : WordPattern isWord r) (hs : WordPattern isWord s)
    (hinner : ¬ s.Occurs ('[' :: (inner ++ [']']))) (k : Nat) (prev : Option Char) (t : Text) {out : Option Char}
    (hout : k = 0 ∧ out = prev ∨ out = Option.some ']' ∧ t[k]?.any isWord = false)
    (hskip : ∀ a u b, t = a ++ u ++ b → r.matchPred (a.getLast?.or prev) (u ++ b) = none →
      ¬ s.Matches (a.getLast?.or prev) u b.head?) :
    ¬ s.OccursFrom out (r.subFrom ('[' :: (inner ++ [']'])) k prev t) := by
  fun_induction subFrom r ('[' :: (inner ++ [']'])) k prev t generalizing out with
  | case1 => exact occursFrom_nil hs.proper out
  | case2 k prev c t ih =>
    exact ih (.inr (hout.resolve_left fun h => absurd h.1 (Nat.succ_ne_zero k))) (not_matches_cons hskip)
  | case3 prev c t n hm ih =>
    rintro ⟨a, u, b, hsplit, hmatch⟩
    rw [List.cons_append, List.append_assoc, List.singleton_append] at hsplit
    by_cases hl : a.length ≤ inner.length + 1
    · exact hinner (occurs_brackets hs hmatch hsplit hl)
    · have hcut : ('[' :: (inner ++ [']'])) ++ r.subFrom ('[' :: (inner ++ [']'])) n (Option.some c) t =
          a ++ (u ++ b) := by
        simpa using hsplit
      have hlong : ('[' :: (inner ++ [']'])).length ≤ a.length := by
        simp only [List.length_cons, List.length_append, List.length_nil]
        omega
      obtain ⟨a', rfl, hrest⟩ := append_of_length_le hcut hlong
      have hlast : ('[' :: (inner ++ [']']) ++ a').getLast?.or out = a'.getLast?.or (Option.some ']') := by
        rw [List.getLast?_append, ← List.cons_append, List.getLast?_concat]
        cases a'.getLast? <;> rfl
      have htail := hrest.trans (List.append_assoc a' u b).symm
      refine ih (.inr ⟨rfl, ?_⟩) (not_matches_cons hskip) ⟨a', u, b, htail, hlast ▸ hmatch⟩
      obtain ⟨v, w, hv, hlv, hmv⟩ := matchPred_eq_some hm
      have hnext : t[n]? = w.head? := by
        rw [← List.getElem?_cons_succ (a := c), hv, ← hlv, List.getElem?_append_right (Nat.le_refl _), Nat.sub_self,
          List.head?_eq_getElem?]
      rw [hnext]
      exact (hr _ _ _ hmv).behind
  | case4 prev c t hm ih =>
    intro hoccurs
    rcases occursFrom_cons.mp hoccurs with ⟨u, b, hsplit, hmatch⟩ | htail
    · have hu := hs _ _ _ hmatch
      rcases hout with ⟨-, rfl⟩ | ⟨-, hnext⟩
      · rw [← subFrom_of_none hm] at hsplit
        obtain ⟨b', ht, hb⟩ := subFrom_eq_append hu.noOpening hsplit
        rw [← hb, head?_subFrom (matchPred_of_bounded hr hu)] at hmatch
        exact hskip [] u b' ht (ht ▸ hm) hmatch
      · cases u with
        | nil => exact absurd hu.first Bool.false_ne_true
        | cons d u =>
          obtain ⟨rfl, -⟩ := List.cons_eq_cons.mp hsplit
          exact absurd (hnext.symm.trans hu.first) Bool.false_ne_true
    · exact ih (.inl ⟨rfl, rfl⟩) (not_matches_cons hskip) htail

/-- A text without matches of `s` has none when the matches of `r` are replaced. -/
theorem not_occurs_sub (hr : WordPattern isWord r) (hs : WordPattern isWord s)
    (hinner : ¬ s.Occurs ('[' :: (inner ++ [']']))) {t : Text} (ht : ¬ s.Occurs t) :
    ¬ s.Occurs (r.sub ('[' :: (inner ++ [']'])) t) := by
  rw [sub_eq_subFrom]
  refine not_occursFrom_subFrom hr hs hinner 0 none t (.inl ⟨rfl, rfl⟩) fun a u b hsplit _ hm => ?_
  exact ht ⟨a, u, b, hsplit, hm⟩

/-- Nor are there matches of `r` itself. -/
theorem not_occurs_sub_self (hr : WordPattern isWord r) (hinner : ¬ r.Occurs ('[' :: (inner ++ [']']))) (t : Text) :
    ¬ r.Occurs (r.sub ('[' :: (inner ++ [']'])) t) := by
  rw [sub_eq_subFrom]
  refine not_occursFrom_subFrom hr hr hinner 0 none t (.inl ⟨rfl, rfl⟩) fun a u b _ hnone hm => ?_
  exact (matchPred_eq_none hr.proper).mp hnone u b rfl hm

end

end Regex

/-! ## Runs of a character class -/

/-- No `n` characters of the class stand together. -/
def RunsBelow (p : Char → Bool) (n : Nat) (t : Text) : Prop := ∀ u, u <:+: t → (∀ c ∈ u, p c = true) → u.length < n

theorem runsBelow_of_length {p : Char → Bool} {n : Nat} {t : Text} (h : t.length < n) : RunsBelow p n t :=
  fun _ hu _ => Nat.lt_of_le_of_lt hu.length_le h

/-- A character outside the class ends a run. -/
theorem RunsBelow.append {p : Char → Bool} {n : Nat} {a b : Text} {c : Char} (ha : RunsBelow p n a)
    (hc : p c = false) (hb : RunsBelow p n b) : RunsBelow p n (a ++ c :: b) := by
  intro u hu hall
  have hnot : c ∉ u := fun hm => absurd (hc.symm.trans (hall c hm)) Bool.false_ne_true
  have hfront : ∀ {v w : Text}, v <+: c :: w → c ∉ v → v = [] := by
    intro v w hv hcv
    cases v with
    | nil => rfl
    | cons d v => exact absurd (List.cons_prefix_cons.mp hv).1.symm fun h => hcv (h ▸ List.mem_cons_self)
  rcases List.infix_append_iff.mp hu with hu | hu | ⟨v, w, rfl, hv, hw⟩
  · exact ha u hu hall
  · rcases List.infix_cons_iff.mp hu with hu | hu
    · rw [hfront hu hnot]
      exact ha [] List.nil_infix (List.forall_mem_nil _)
    · exact hb u hu hall
  · rw [hfront hw fun hm => hnot (List.mem_append_right v hm), List.append_nil] at hall ⊢
    exact ha v hv.isInfix hall

end PyLib
