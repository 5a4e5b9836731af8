import Mathlib.Data.List.Perm.Basic
import ComplianceLoop.PyLib.Marks

/-!
# Texts whose first occurrences are replaced

`substFirst` replaces the first occurrence of a stretch, and `substTable` goes through a table of stretches and
replacements, each of which works on what the one before has left. Where the stretches and the replacements cannot touch
each other (`Independent`) this is the same in every order (`substTable_perm`), and the stretches that are found are
those of the text as it was (`substTable_snd`).
-/

set_option autoImplicit false

namespace PyLib

/-! ## The first occurrence -/

/-- An occurrence that cannot begin in the front begins behind it. -/
theorem infix_append_iff_of_noneBegins {α : Type} {p t : List α} : ∀ {w : List α}, NoneBegins p w →
    (p <:+: w ++ t ↔ p <:+: t)
  | [], _ => Iff.rfl
  | c :: w, h => by
    have hhead : ¬ p <+: c :: (w ++ t) := fun hpre =>
      h (c :: w) (List.suffix_refl _) (List.cons_ne_nil c w)
        (List.prefix_or_prefix_of_prefix (List.prefix_append (c :: w) t) hpre)
    rw [List.cons_append, List.infix_cons_iff, or_iff_right hhead,
      infix_append_iff_of_noneBegins (h.of_suffix (List.suffix_cons c w))]

section

variable {α : Type} [DecidableEq α] {p q r s t w : List α}

/-- The first stretch `p` replaced by `r`. -/
def substFirst (p r : List α) : List α → List α
  | [] => []
  | c :: t => if p <+: c :: t then r ++ (c :: t).drop p.length else c :: substFirst p r t

theorem substFirst_append (hp : p ≠ []) (t : List α) : substFirst p r (p ++ t) = r ++ t := by
  obtain ⟨c, u, rfl⟩ := List.exists_cons_of_ne_nil hp
  have hpre : c :: u <+: c :: (u ++ t) := ⟨t, rfl⟩
  rw [List.cons_append, substFirst, if_pos hpre, ← List.cons_append, List.drop_left]

theorem substFirst_cons {c : α} (h : ¬ p <+: c :: t) : substFirst p r (c :: t) = c :: substFirst p r t := by
  rw [substFirst, if_neg h]

/-- The first occurrence, by what stands before it. -/
theorem substFirst_of_first (hp : p ≠ []) : ∀ {x : List α} (y : List α),
    (∀ k < x.length, ¬ p <+: (x ++ (p ++ y)).drop k) → substFirst p r (x ++ (p ++ y)) = x ++ (r ++ y)
  | [], y, _ => substFirst_append hp y
  | c :: x, y, h => by
    have hhead : ¬ p <+: c :: (x ++ (p ++ y)) := h 0 (Nat.succ_pos _)
    rw [List.cons_append, substFirst_cons hhead, substFirst_of_first hp y, List.cons_append]
    exact fun k hk => h (k + 1) (Nat.succ_lt_succ hk)

theorem substFirst_of_absent (h : ¬ p <:+: t) : substFirst p r t = t := by
  induction t with
  | nil => rfl
  | cons c t ih =>
    rw [List.infix_cons_iff, not_or] at h
    rw [substFirst_cons h.1, ih h.2]

/-- What comes first is read off a text that has the stretch. -/
theorem exists_first (hp : p ≠ []) (h : p <:+: t) :
    ∃ x y, t = x ++ (p ++ y) ∧ ∀ r : List α, substFirst p r t = x ++ (r ++ y) := by
  induction t with
  | nil => exact absurd (List.infix_nil.mp h) hp
  | cons c t ih =>
    by_cases hpre : p <+: c :: t
    · obtain ⟨y, hy⟩ := hpre
      exact ⟨[], y, hy.symm, fun r => by rw [← hy, substFirst_append hp, List.nil_append]⟩
    · obtain ⟨x, y, rfl, hr⟩ := ih ((List.infix_cons_iff.mp h).resolve_left hpre)
      exact ⟨c :: x, y, rfl, fun r => by rw [substFirst_cons hpre, hr, List.cons_append]⟩

/-! ## Stretches that do not touch -/

/-- A stretch in which no match begins stays in front. -/
theorem substFirst_noneBegins (t : List α) : ∀ {w : List α}, NoneBegins p w →
    substFirst p r (w ++ t) = w ++ substFirst p r t
  | [], _ => rfl
  | c :: w, h => by
    have hhead : ¬ p <+: c :: (w ++ t) := fun hp =>
      h (c :: w) (List.suffix_refl _) (List.cons_ne_nil c w)
        (List.prefix_or_prefix_of_prefix (List.prefix_append (c :: w) t) hp)
    rw [List.cons_append, substFirst_cons hhead, substFirst_noneBegins t (h.of_suffix (List.suffix_cons c w)),
      List.cons_append]

/-- A front that the replacement cannot have made was there before. -/
theorem prefix_of_prefix_substFirst : ∀ {t p : List α}, NoneBegins s p → p <+: substFirst q s t → p <+: t
  | [], _, _, h => h
  | c :: t, p, hs, h => by
    cases p with
    | nil => exact List.nil_prefix
    | cons d p =>
      by_cases hq : q <+: c :: t
      · rw [substFirst, if_pos hq] at h
        exact absurd (List.prefix_or_prefix_of_prefix h (List.prefix_append s _))
          (hs (d :: p) (List.suffix_refl _) (List.cons_ne_nil d p))
      · rw [substFirst_cons hq, List.cons_prefix_cons] at h
        rw [List.cons_prefix_cons]
        exact ⟨h.1, prefix_of_prefix_substFirst (hs.of_suffix (List.suffix_cons d p)) h.2⟩

/-- A front in which the stretch does not begin stays. -/
theorem prefix_substFirst (h : NoneBegins q p) (hpre : p <+: t) : p <+: substFirst q s t := by
  obtain ⟨y, rfl⟩ := hpre
  rw [substFirst_noneBegins y h]
  exact List.prefix_append p _

/-- **What cannot touch the stretch and its replacement does not notice the replacing.** -/
theorem infix_substFirst_iff (hq : q ≠ []) (hpq : Apart p q) (hps : Apart p s) :
    p <:+: substFirst q s t ↔ p <:+: t := by
  induction t with
  | nil => rfl
  | cons c t ih =>
    by_cases h : q <+: c :: t
    · obtain ⟨y, hy⟩ := h
      rw [← hy, substFirst_append hq, infix_append_iff_of_noneBegins hps.2, infix_append_iff_of_noneBegins hpq.2]
    · have hfront : p <+: substFirst q s (c :: t) ↔ p <+: c :: t :=
        ⟨prefix_of_prefix_substFirst hps.1, prefix_substFirst hpq.1⟩
      rw [substFirst_cons h] at hfront ⊢
      rw [List.infix_cons_iff, List.infix_cons_iff, hfront, ih]

/-- **Two replacings that cannot touch can be done in either order.** -/
theorem substFirst_comm (hp : p ≠ []) (hq : q ≠ []) (hpq : Apart p q) (hps : Apart p s) (hqr : Apart q r) :
    substFirst p r (substFirst q s t) = substFirst q s (substFirst p r t) := by
  induction t with
  | nil => rfl
  | cons c t ih =>
    by_cases h : p <+: c :: t
    · obtain ⟨y, hy⟩ := h
      rw [← hy, substFirst_append hp, substFirst_noneBegins y hpq.1, substFirst_append hp,
        substFirst_noneBegins y hqr.2]
    · by_cases h' : q <+: c :: t
      · obtain ⟨y, hy⟩ := h'
        rw [← hy, substFirst_append hq, substFirst_noneBegins y hpq.2, substFirst_append hq,
          substFirst_noneBegins y hps.2]
      · have hleft : ¬ p <+: c :: substFirst q s t := fun hpre =>
          h (prefix_of_prefix_substFirst (q := q) hps.1 (by rwa [substFirst_cons h']))
        have hright : ¬ q <+: c :: substFirst p r t := fun hpre =>
          h' (prefix_of_prefix_substFirst (q := p) hqr.1 (by rwa [substFirst_cons h]))
        rw [substFirst_cons h', substFirst_cons h, substFirst_cons hleft, substFirst_cons hright, ih]

end

/-! ## Tables -/

section

variable {α : Type}

/-- The stretches and the replacements of two rows cannot touch. -/
def Independent (a b : List α × List α) : Prop := Apart a.1 b.1 ∧ Apart a.1 b.2 ∧ Apart b.1 a.2

/-- A table of stretches whose rows are independent. -/
structure Separate (table : List (List α × List α)) : Prop where
  nonempty : ∀ a ∈ table, a.1 ≠ []
  nodup : table.Nodup
  independent : ∀ a ∈ table, ∀ b ∈ table, a ≠ b → Independent a b

theorem Separate.tail {a : List α × List α} {table : List (List α × List α)} (h : Separate (a :: table)) :
    Separate table where
  nonempty b hb := h.nonempty b (List.mem_cons_of_mem a hb)
  nodup := h.nodup.of_cons
  independent b hb c hc := h.independent b (List.mem_cons_of_mem a hb) c (List.mem_cons_of_mem a hc)

theorem Separate.head {a : List α × List α} {table : List (List α × List α)} (h : Separate (a :: table)) :
    ∀ b ∈ table, Independent b a := fun b hb =>
  h.independent b (List.mem_cons_of_mem a hb) a List.mem_cons_self fun he => h.nodup.notMem (he ▸ hb)

/-- The weight of a text, when each of its elements has one. -/
def weigh (f : α → Nat) (t : List α) : Nat := (t.map f).sum

@[simp] theorem weigh_append (f : α → Nat) (s t : List α) : weigh f (s ++ t) = weigh f s + weigh f t := by
  simp [weigh]

end

section

variable {α : Type} [DecidableEq α]

/-- The text and the stretches that have been found, after one more row of the table. -/
def substRow (found : List α × List (List α)) (row : List α × List α) : List α × List (List α) :=
  if row.1 <:+: found.1 then (substFirst row.1 row.2 found.1, found.2 ++ [row.1]) else found

/-- The first occurrence of each stretch of the table replaced, one after another. -/
def substTable (table : List (List α × List α)) (t : List α) : List α × List (List α) := table.foldl substRow (t, [])

theorem substRow_fst (found : List α × List (List α)) (row : List α × List α) :
    (substRow found row).1 = substFirst row.1 row.2 found.1 := by
  rw [substRow]
  split
  · rfl
  · rename_i h
    exact (substFirst_of_absent h).symm

theorem foldl_substRow_fst (table : List (List α × List α)) : ∀ found : List α × List (List α),
    (table.foldl substRow found).1 = table.foldl (fun t row => substFirst row.1 row.2 t) found.1 := by
  induction table with
  | nil => exact fun _ => rfl
  | cons a table ih =>
    intro found
    rw [List.foldl_cons, ih, List.foldl_cons, substRow_fst]

theorem substTable_fst (table : List (List α × List α)) (t : List α) :
    (substTable table t).1 = table.foldl (fun t row => substFirst row.1 row.2 t) t := foldl_substRow_fst table (t, [])

/-- **The rows of a separate table can be used in any order.** -/
theorem substTable_perm {table table' : List (List α × List α)} (h : Separate table) (hp : table.Perm table')
    (t : List α) : (substTable table t).1 = (substTable table' t).1 := by
  rw [substTable_fst, substTable_fst]
  refine hp.foldl_eq' (fun a ha b hb z => ?_) t
  by_cases hab : a = b
  · rw [hab]
  · obtain ⟨h1, h2, h3⟩ := h.independent b hb a ha (Ne.symm hab)
    exact substFirst_comm (h.nonempty b hb) (h.nonempty a ha) h1 h2 h3

/-- **The stretches that are found are those of the text as it was.** -/
theorem substTable_snd {table : List (List α × List α)} (h : Separate table) (t : List α) :
    (substTable table t).2 = (table.map Prod.fst).filter (· <:+: t) := by
  have hfold : ∀ (table : List (List α × List α)) (found : List α × List (List α)), Separate table →
      (table.foldl substRow found).2 = found.2 ++ (table.map Prod.fst).filter (· <:+: found.1) := by
    intro table
    induction table with
    | nil => exact fun found _ => (List.append_nil _).symm
    | cons a table ih =>
      intro found h
      -- the rows behind the first one find in its text what they find in the text before
      have hrest : (table.map Prod.fst).filter (· <:+: (substRow found a).1) =
          (table.map Prod.fst).filter (· <:+: found.1) := by
        refine List.filter_congr fun p hp => ?_
        obtain ⟨b, hb, rfl⟩ := List.mem_map.mp hp
        obtain ⟨h1, h2, -⟩ := h.head b hb
        refine decide_eq_decide.mpr ?_
        rw [substRow_fst]
        exact infix_substFirst_iff (h.nonempty a List.mem_cons_self) h1 h2
      rw [List.foldl_cons, ih _ h.tail, hrest, List.map_cons, substRow]
      split
      · rename_i hfound
        rw [List.filter_cons_of_pos (by simpa using hfound), List.append_assoc, List.singleton_append]
      · rename_i hfound
        rw [List.filter_cons_of_neg (by simpa using hfound)]
  exact (hfold table (t, []) h).trans (List.nil_append _)

/-- What is replaced by a text that has it is found again. -/
theorem infix_substTable_iff {table : List (List α × List α)} (h : Separate table)
    (hself : ∀ a ∈ table, a.1 <:+: a.2) {b : List α × List α} (hb : b ∈ table) (t : List α) :
    b.1 <:+: (substTable table t).1 ↔ b.1 <:+: t := by
  rw [substTable_fst]
  have hstep : ∀ (rows : List (List α × List α)) (t : List α), (∀ a ∈ rows, a ∈ table) →
      (b.1 <:+: rows.foldl (fun t row => substFirst row.1 row.2 t) t ↔ b.1 <:+: t) := by
    intro rows
    induction rows with
    | nil => exact fun _ _ => Iff.rfl
    | cons a rows ih =>
      intro t hrows
      obtain ⟨ha, hrows⟩ := List.forall_mem_cons.mp hrows
      rw [List.foldl_cons, ih _ hrows]
      by_cases hab : b = a
      · subst hab
        refine ⟨fun hin => ?_, fun hin => ?_⟩
        · by_contra hnot
          rw [substFirst_of_absent hnot] at hin
          exact hnot hin
        · obtain ⟨x, y, -, hr⟩ := exists_first (h.nonempty b hb) hin
          rw [hr]
          exact (hself b hb).trans ⟨x, y, List.append_assoc _ _ _⟩
      · obtain ⟨h1, h2, -⟩ := h.independent b hb a ha hab
        exact infix_substFirst_iff (h.nonempty a ha) h1 h2
  exact hstep table t fun _ ha => ha

/-- **A table adds the replacements of what it finds, and takes away what it finds.** -/
theorem weigh_substTable {table : List (List α × List α)} (h : Separate table) (f : α → Nat) (t : List α) :
    weigh f (substTable table t).1 + ((table.filter (·.1 <:+: t)).map fun a => weigh f a.1).sum =
      weigh f t + ((table.filter (·.1 <:+: t)).map fun a => weigh f a.2).sum := by
  rw [substTable_fst]
  induction table generalizing t with
  | nil => rfl
  | cons a table ih =>
    have hrest : table.filter (·.1 <:+: substFirst a.1 a.2 t) = table.filter (·.1 <:+: t) := by
      refine List.filter_congr fun b hb => ?_
      obtain ⟨h1, h2, -⟩ := h.head b hb
      exact decide_eq_decide.mpr (infix_substFirst_iff (h.nonempty a List.mem_cons_self) h1 h2)
    have htail := ih h.tail (substFirst a.1 a.2 t)
    rw [hrest] at htail
    rw [List.foldl_cons]
    by_cases hfound : a.1 <:+: t
    · obtain ⟨x, y, ht, hr⟩ := exists_first (h.nonempty a List.mem_cons_self) hfound
      have hnew : weigh f (substFirst a.1 a.2 t) + weigh f a.1 = weigh f t + weigh f a.2 := by
        rw [hr, ht]
        simp only [weigh_append]
        omega
      rw [List.filter_cons_of_pos (by simpa using hfound), List.map_cons, List.sum_cons, List.map_cons, List.sum_cons]
      omega
    · rw [substFirst_of_absent hfound] at htail ⊢
      rw [List.filter_cons_of_neg (by simpa using hfound)]
      exact htail

end

end PyLib
