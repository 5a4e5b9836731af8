import Mathlib.Data.List.Infix
import ComplianceLoop.PyLib.Regex

/-!
# Texts replaced one after another

A text is replaced by another one wherever it occurs, then a second text, and so on. What has been replaced is followed
with marks: `Sum.inr i` stands for the `i`-th text, and `display` writes a text with each mark shown in one way or
another. Replacing in the displayed text is putting marks, as long as what is replaced cannot touch what is shown
(`replaceRounds_eq`). Rounds of marks put back the marks of a given text exactly when in no round there is a match that
does not come from a mark (`marking_display_iff`).
-/

set_option autoImplicit false

namespace PyLib

/-! ## Replacing over any alphabet -/

section

variable {α : Type} [DecidableEq α]

/-- The leftmost stretches `p` replaced by `r`, with `k` elements of the last one still to be skipped. -/
def substFrom (p r : List α) : Nat → List α → List α
  | _, [] => []
  | 0, c :: t => if p <+: c :: t then r ++ substFrom p r (p.length - 1) t else c :: substFrom p r 0 t
  | k + 1, _ :: t => substFrom p r k t

def subst (p r t : List α) : List α := substFrom p r 0 t

variable {p r : List α}

theorem subst_nil : subst p r [] = [] := rfl

theorem substFrom_skip (t : List α) : ∀ u : List α, substFrom p r u.length (u ++ t) = subst p r t
  | [] => rfl
  | c :: u => by rw [List.length_cons, List.cons_append, substFrom, substFrom_skip t u]

theorem subst_append (hp : p ≠ []) (t : List α) : subst p r (p ++ t) = r ++ subst p r t := by
  obtain ⟨c, u, rfl⟩ := List.exists_cons_of_ne_nil hp
  have h : c :: u <+: c :: (u ++ t) := ⟨t, rfl⟩
  rw [subst, List.cons_append, substFrom, if_pos h, List.length_cons, Nat.add_sub_cancel, substFrom_skip]

theorem subst_cons {c : α} {t : List α} (h : ¬ p <+: c :: t) : subst p r (c :: t) = c :: subst p r t := by
  rw [subst, substFrom, if_neg h, subst]

/-- A scan for `p`: the text ends, `p` stands at its front, or it does not. -/
theorem scan_induction (hp : p ≠ []) {motive : List α → Prop} (nil : motive [])
    (found : ∀ t, motive t → motive (p ++ t)) (other : ∀ c t, ¬ p <+: c :: t → motive t → motive (c :: t))
    (t : List α) : motive t := by
  induction hl : t.length using Nat.strong_induction_on generalizing t with
  | _ n ih =>
    cases t with
    | nil => exact nil
    | cons c t =>
      by_cases h : p <+: c :: t
      · obtain ⟨u, hu⟩ := h
        rw [← hu]
        refine found u (ih u.length ?_ u rfl)
        have := List.length_pos_iff.mpr hp
        rw [← hl, ← hu, List.length_append]
        omega
      · exact other c t h (ih t.length (by rw [← hl, List.length_cons]; omega) t rfl)

/-- A replacement brings no other elements than those of `r`. -/
theorem mem_subst (hp : p ≠ []) {c : α} {t : List α} (h : c ∈ subst p r t) : c ∈ r ∨ c ∈ t := by
  induction t using scan_induction hp with
  | nil => cases h
  | found t ih =>
    rw [subst_append hp, List.mem_append] at h
    rcases h with h | h
    · exact .inl h
    · exact (ih h).imp_right (List.mem_append_right p)
  | other d t hpre ih =>
    rw [subst_cons hpre, List.mem_cons] at h
    rcases h with rfl | h
    · exact .inr List.mem_cons_self
    · exact (ih h).imp_right (List.mem_cons_of_mem d)

/-- A stretch in which no match begins stays. -/
theorem subst_append_of_none {t : List α} : ∀ {w : List α}, (∀ s, s ≠ [] → s <:+ w → ¬ p <+: s ++ t) →
    subst p r (w ++ t) = w ++ subst p r t
  | [], _ => rfl
  | c :: w, h => by
    have hhead : ¬ p <+: c :: (w ++ t) := h (c :: w) (List.cons_ne_nil c w) (List.suffix_refl _)
    rw [List.cons_append, subst_cons hhead,
      subst_append_of_none fun s hne hs => h s hne (hs.trans (List.suffix_cons c w)), List.cons_append]

/-- When a new element `m` is written for `p`, a stretch stays only if no match begins in it. -/
theorem subst_append_eq_iff (hp : p ≠ []) {m : α} {t x : List α} : ∀ {w : List α}, m ∉ w →
    (subst p [m] (w ++ t) = w ++ x ↔ (∀ s, s ≠ [] → s <:+ w → ¬ p <+: s ++ t) ∧ subst p [m] t = x)
  | [], _ => by
    refine ⟨fun h => ⟨fun s hne hs => absurd (List.suffix_nil.mp hs) hne, h⟩, And.right⟩
  | c :: w, hm => by
    rw [List.mem_cons, not_or] at hm
    by_cases hpre : p <+: c :: (w ++ t)
    · have hright := hpre
      obtain ⟨u, hu⟩ := hpre
      refine iff_of_false (fun h => ?_) fun h => h.1 (c :: w) (List.cons_ne_nil c w) (List.suffix_refl _) hright
      rw [List.cons_append, ← hu, subst_append hp] at h
      exact hm.1 (List.cons_eq_cons.mp h).1
    · rw [List.cons_append, subst_cons hpre, List.cons_append, List.cons_inj_right, subst_append_eq_iff hp hm.2]
      refine and_congr_left fun _ => ⟨fun h s hne hs => ?_, fun h s hne hs => ?_⟩
      · rcases List.suffix_cons_iff.mp hs with rfl | hs
        · exact hpre
        · exact h s hne hs
      · exact h s hne (hs.trans (List.suffix_cons c w))

/-- What `p` and `r` have in common is kept. -/
theorem flatMap_subst (hp : p ≠ []) {γ : Type} {f : α → List γ} (hf : p.flatMap f = r.flatMap f) (t : List α) :
    (subst p r t).flatMap f = t.flatMap f := by
  induction t using scan_induction hp with
  | nil => rfl
  | found t ih => rw [subst_append hp, List.flatMap_append, List.flatMap_append, ih, hf]
  | other c t h ih => rw [subst_cons h, List.flatMap_cons, List.flatMap_cons, ih]

/-- An element that is not in `p` separates. -/
theorem subst_append_cons (hp : p ≠ []) {c : α} (hc : c ∉ p) (s t : List α) :
    subst p r (s ++ c :: t) = subst p r s ++ c :: subst p r t := by
  have hnot : ∀ s : List α, ¬ p <+: s → ¬ p <+: s ++ c :: t := by
    intro s hs hpre
    have hmem : c ∈ s ++ [c] := List.mem_append_right s List.mem_cons_self
    rw [List.append_cons] at hpre
    rcases List.prefix_or_prefix_of_prefix hpre (List.prefix_append _ t) with h | h
    · rcases List.prefix_concat_iff.mp h with rfl | h
      · exact hc hmem
      · exact hs h
    · exact hc (h.subset hmem)
  induction s using scan_induction hp with
  | nil => rw [List.nil_append, subst_cons (hnot [] (by simpa using hp)), subst_nil, List.nil_append]
  | found s ih => rw [List.append_assoc, subst_append hp, subst_append hp, ih, List.append_assoc]
  | other d s h ih =>
    have hhead : ¬ p <+: d :: (s ++ c :: t) := hnot (d :: s) h
    rw [List.cons_append, subst_cons hhead, subst_cons h, ih, List.cons_append]

/-- Where `r` has an element that is not of the kind, nothing has been replaced if all are of the kind. -/
theorem forall_mem_of_subst (hp : p ≠ []) {q : α → Prop} (hr : ∃ c ∈ r, ¬ q c) {t : List α}
    (h : ∀ c ∈ subst p r t, q c) : ∀ c ∈ t, q c := by
  induction t using scan_induction hp with
  | nil => exact List.forall_mem_nil _
  | found t _ =>
    obtain ⟨c, hc, hq⟩ := hr
    rw [subst_append hp] at h
    exact absurd (h c (List.mem_append_left _ hc)) hq
  | other c t hpre ih =>
    rw [subst_cons hpre, List.forall_mem_cons] at h
    exact List.forall_mem_cons.mpr ⟨h.1, ih h.2⟩

end

theorem replaceFrom_eq_substFrom (p r : Text) : ∀ (k : Nat) (t : Text), replaceFrom p r k t = substFrom p r k t
  | _, [] => by simp [replaceFrom, substFrom]
  | 0, c :: t => by
    rw [replaceFrom, substFrom, replaceFrom_eq_substFrom p r, replaceFrom_eq_substFrom p r]
    simp only [List.isPrefixOf_iff_prefix]
  | k + 1, _ :: t => by rw [replaceFrom, substFrom, replaceFrom_eq_substFrom p r]

/-- `str.replace` is the replacing over characters. -/
theorem replaceAll_eq_subst (p r t : Text) : replaceAll p r t = subst p r t := replaceFrom_eq_substFrom p r 0 t

/-! ## Where two texts can touch -/

section

variable {α : Type} {p v s t x y : List α}

/-- One of the texts begins with the other one. -/
def Agree (s t : List α) : Prop := s <+: t ∨ t <+: s

instance [DecidableEq α] (s t : List α) : Decidable (Agree s t) := inferInstanceAs (Decidable (_ ∨ _))

theorem Agree.symm (h : Agree s t) : Agree t s := Or.symm h

theorem agree_cons_iff {c d : α} : Agree (c :: s) (d :: t) ↔ c = d ∧ Agree s t := by
  rw [Agree, Agree, List.cons_prefix_cons, List.cons_prefix_cons]
  constructor
  · rintro (⟨h, hs⟩ | ⟨h, hs⟩)
    · exact ⟨h, .inl hs⟩
    · exact ⟨h.symm, .inr hs⟩
  · rintro ⟨rfl, hs | hs⟩
    · exact .inl ⟨rfl, hs⟩
    · exact .inr ⟨rfl, hs⟩

theorem agree_of_append_eq (h : s ++ x = t ++ y) : Agree s t :=
  List.prefix_or_prefix_of_prefix (List.prefix_append s x) (h ▸ List.prefix_append t y)

/-- The ends of `p` in which an occurrence of `v` can begin. -/
def overlaps [DecidableEq α] (v p : List α) : List (List α) := p.tails.filter fun s => s ≠ [] ∧ Agree s v

theorem mem_overlaps [DecidableEq α] : s ∈ overlaps v p ↔ s <:+ p ∧ s ≠ [] ∧ Agree s v := by
  rw [overlaps, List.mem_filter, List.mem_tails, decide_eq_true_iff]

/-- An occurrence of `v` cannot begin inside of `p`. -/
def NoneBegins (v p : List α) : Prop := ∀ s, s <:+ p → s ≠ [] → ¬ Agree s v

theorem NoneBegins.of_suffix (h : NoneBegins v p) (hs : s <:+ p) : NoneBegins v s := fun _ hu => h _ (hu.trans hs)

/-- Occurrences of the two texts do not touch the same characters. -/
def Apart (p v : List α) : Prop := NoneBegins v p ∧ NoneBegins p v

/-- Texts that end with characters of which the other one has none. -/
theorem apart_of_getLast {c d : α} (hp : p.getLast? = some c) (hc : c ∉ v) (hv : v.getLast? = some d) (hd : d ∉ p) :
    Apart p v := by
  have key : ∀ {p v : List α} {c d : α}, p.getLast? = some c → c ∉ v → v.getLast? = some d → d ∉ p →
      NoneBegins v p := by
    rintro p v c d hp hc hv hd s ⟨w, rfl⟩ hne (hs | hs)
    · rw [List.getLast?_append_of_ne_nil w hne] at hp
      exact hc (hs.subset (List.mem_of_getLast? hp))
    · exact hd (List.mem_append_right w (hs.subset (List.mem_of_getLast? hv)))
  exact ⟨key hp hc hv hd, key hv hd hp hc⟩

theorem Apart.symm (h : Apart p v) : Apart v p := And.symm h

end

/-! ## Marks -/

section

variable {α ι : Type}

/-- A text without marks. -/
def literal (t : List α) : List (α ⊕ ι) := t.map .inl

/-- The text with each mark shown as its view. -/
def display (view : ι → List α) (ms : List (α ⊕ ι)) : List α := ms.flatMap (Sum.elim (fun c => [c]) view)

section

variable (view : ι → List α) (l r : List (α ⊕ ι)) (t : List α)

theorem display_nil : display view [] = [] := rfl

theorem display_append : display view (l ++ r) = display view l ++ display view r := List.flatMap_append

theorem display_inl (c : α) : display view (.inl c :: r) = c :: display view r := rfl

theorem display_inr (i : ι) : display view (.inr i :: r) = view i ++ display view r := rfl

theorem display_literal : display view (literal t) = t := by
  induction t with
  | nil => rfl
  | cons c t ih => exact congrArg (c :: ·) ih

end

theorem literal_append (s t : List α) : (literal (s ++ t) : List (α ⊕ ι)) = literal s ++ literal t := List.map_append

theorem agree_of_literal {s t : List α} {x y : List (α ⊕ ι)} (h : literal s ++ x = literal t ++ y) : Agree s t := by
  have hinj : Function.Injective (Sum.inl : α → α ⊕ ι) := Sum.inl_injective
  have := agree_of_append_eq h
  rwa [Agree, literal, literal, List.prefix_map_iff_of_injective hinj, List.prefix_map_iff_of_injective hinj] at this

variable {view : ι → List α} {ms : List (α ⊕ ι)}

/-- What is read off a displayed text was no mark, up to the view of the first mark in it. -/
theorem literal_or_mark : ∀ {p : List α} {ms : List (α ⊕ ι)} {y : List α}, display view ms = p ++ y →
    (∃ r, ms = literal p ++ r ∧ display view r = y) ∨
      ∃ w s i r, p = w ++ s ∧ s ≠ [] ∧ ms = literal w ++ .inr i :: r ∧ Agree s (view i)
  | [], ms, _, h => .inl ⟨ms, rfl, h⟩
  | c :: p, [], _, h => by cases h
  | c :: p, .inr i :: ms, y, h => .inr ⟨[], c :: p, i, ms, rfl, List.cons_ne_nil c p, rfl, agree_of_append_eq h.symm⟩
  | c :: p, .inl d :: ms, y, h => by
    rw [display_inl, List.cons_append, List.cons_eq_cons] at h
    obtain ⟨rfl, h⟩ := h
    rcases literal_or_mark h with ⟨r, rfl, hr⟩ | ⟨w, s, i, r, rfl, hs, rfl, hagree⟩
    · exact .inl ⟨r, rfl, hr⟩
    · exact .inr ⟨d :: w, s, i, r, rfl, hs, rfl, hagree⟩

/-- A displayed text is cut between two of its parts or inside of a mark. -/
theorem cut_display {v : List α} : ∀ {ms : List (α ⊕ ι)} {u : List α}, display view ms = u ++ v →
    (∃ l r, ms = l ++ r ∧ display view l = u ∧ display view r = v) ∨
      ∃ l i r s s', ms = l ++ .inr i :: r ∧ view i = s ++ s' ∧ s ≠ [] ∧ s' ≠ [] ∧ v = s' ++ display view r
  | [], u, h => by
    obtain ⟨rfl, rfl⟩ := List.append_eq_nil_iff.mp h.symm
    exact .inl ⟨[], [], rfl, rfl, rfl⟩
  | .inl c :: ms, [], h => .inl ⟨[], .inl c :: ms, rfl, rfl, h⟩
  | .inl c :: ms, d :: u, h => by
    rw [display_inl, List.cons_append, List.cons_eq_cons] at h
    obtain ⟨rfl, h⟩ := h
    rcases cut_display h with ⟨l, r, rfl, hl, hr⟩ | ⟨l, i, r, s, s', rfl, hi⟩
    · exact .inl ⟨.inl c :: l, r, rfl, by rw [display_inl, hl], hr⟩
    · exact .inr ⟨.inl c :: l, i, r, s, s', rfl, hi⟩
  | .inr i :: ms, u, h => by
    rw [display_inr] at h
    rcases List.append_eq_append_iff.mp h with ⟨a, rfl, hrest⟩ | ⟨s', hi, hv⟩
    · rcases cut_display hrest with ⟨l, r, rfl, hl, hr⟩ | ⟨l, j, r, s, s', rfl, hj⟩
      · exact .inl ⟨.inr i :: l, r, rfl, by rw [display_inr, hl], hr⟩
      · exact .inr ⟨.inr i :: l, j, r, s, s', rfl, hj⟩
    · by_cases hu : u = []
      · refine .inl ⟨[], .inr i :: ms, rfl, hu.symm, ?_⟩
        rw [display_inr, hi, hu, List.nil_append, hv]
      · by_cases hs' : s' = []
        · refine .inl ⟨[.inr i], ms, rfl, ?_, ?_⟩
          · rw [display_inr, display_nil, List.append_nil, hi, hs', List.append_nil]
          · rw [hv, hs', List.nil_append]
        · exact .inr ⟨[], i, ms, u, s', rfl, hi, hu, hs', hv⟩

/-- A text that is apart from the views is read off the text with marks. -/
theorem exists_literal_between {p u v : List α} (hms : ∀ i, .inr i ∈ ms → Apart p (view i))
    (h : display view ms = u ++ (p ++ v)) :
    ∃ l r, ms = l ++ (literal p ++ r) ∧ display view l = u ∧ display view r = v := by
  rcases cut_display h with ⟨l, r, rfl, hl, hr⟩ | ⟨l, i, r, s, s', rfl, hi, -, hs', hv⟩
  · rcases literal_or_mark hr with ⟨r, rfl, hrest⟩ | ⟨w, s, i, r, rfl, hs, rfl, hagree⟩
    · exact ⟨l, r, rfl, hl, hrest⟩
    · have hmem : .inr i ∈ l ++ (literal w ++ .inr i :: r) := by simp
      exact absurd hagree ((hms i hmem).1 s (List.suffix_append w s) hs)
  · have hapart := (hms i (List.mem_append_right l List.mem_cons_self)).2
    exact absurd (agree_of_append_eq hv.symm) (hapart s' ⟨s, hi.symm⟩ hs')

/-! ## Putting marks -/

variable [DecidableEq α] [DecidableEq ι]

/-- The mark `i` put wherever `p` is read outside of the marks. -/
def markAll (p : List α) (i : ι) (ms : List (α ⊕ ι)) : List (α ⊕ ι) := subst (literal p) [.inr i] ms

variable {p : List α}

omit [DecidableEq α] [DecidableEq ι] in
theorem literal_ne_nil (hp : p ≠ []) : (literal p : List (α ⊕ ι)) ≠ [] := by
  simpa [literal] using hp

/-- A mark that is shown as what it was put for does not change the text. -/
theorem display_markAll_self (hp : p ≠ []) {i : ι} (hi : view i = p) :
    display view (markAll p i ms) = display view ms := by
  refine flatMap_subst (literal_ne_nil hp) ?_ ms
  have := display_literal view p
  rw [display] at this
  rw [this, List.flatMap_singleton, Sum.elim_inr, hi]

/-- **Replacing in the displayed text is putting marks.** -/
theorem subst_display (hp : p ≠ []) {j : ι} (hms : ∀ i, .inr i ∈ ms → Apart p (view i)) :
    subst p (view j) (display view ms) = display view (markAll p j ms) := by
  have hl : (literal p : List (α ⊕ ι)) ≠ [] := literal_ne_nil hp
  induction ms using scan_induction hl with
  | nil => rfl
  | found ms ih =>
    have hrest := ih fun i hi => hms i (List.mem_append_right _ hi)
    rw [display_append, display_literal, subst_append hp, hrest, markAll, markAll, subst_append hl, display_append,
      display_inr, display_nil, List.append_nil]
  | other c ms h ih =>
    have hrest := ih fun i hi => hms i (List.mem_cons_of_mem c hi)
    rw [markAll] at hrest ⊢
    rw [subst_cons h]
    cases c with
    | inl c =>
      have hnot : ¬ p <+: c :: display view ms := by
        rintro ⟨t, ht⟩
        obtain ⟨l, r, hlr, hnil, -⟩ := exists_literal_between (u := []) hms ht.symm
        cases l with
        | nil => exact h ⟨r, hlr.symm⟩
        | cons d l =>
          rw [List.cons_append, List.cons_eq_cons] at hlr
          rw [← hlr.1] at hnil
          cases hnil
      rw [display_inl, subst_cons hnot, hrest, display_inl]
    | inr i =>
      have hnone : ∀ s, s ≠ [] → s <:+ view i → ¬ p <+: s ++ display view ms := by
        rintro s hne hs ⟨t, ht⟩
        exact (hms i List.mem_cons_self).2 s hs hne (agree_of_append_eq ht.symm)
      rw [display_inr, subst_append_of_none hnone, hrest, display_inr]

end

/-! ## Rounds -/

section

variable {α : Type} {N : Nat}

theorem display_eq_nil {p : Nat → List α} (hp : ∀ i < N, p i ≠ []) {ms : List (α ⊕ Nat)}
    (hms : ∀ i, .inr i ∈ ms → i < N) (h : display p ms = []) : ms = [] := by
  cases ms with
  | nil => rfl
  | cons tok ms =>
    cases tok with
    | inl c => cases h
    | inr i => exact absurd (List.append_eq_nil_iff.mp h).1 (hp i (hms i List.mem_cons_self))

/-- A character in one text is no mark in the other one, if a second view does not begin like the first one. -/
theorem display_inl_ne_inr [DecidableEq α] {p q : Nat → List α} {k : α → Bool} {e : α} (hk : k e = true) {i : Nat}
    (hp : ∃ s, p i = e :: s) (hq : ((q i).filter k).head?.any (· ≠ e) = true) {c : α} {ms ms' : List (α ⊕ Nat)}
    (h : display p (.inl c :: ms) = display p (.inr i :: ms')) :
    (display q (.inl c :: ms)).filter k ≠ (display q (.inr i :: ms')).filter k := by
  intro hf
  obtain ⟨s, hs⟩ := hp
  obtain ⟨d, hmem, hd⟩ := (Option.any_eq_true _ _).mp hq
  obtain ⟨u, hu⟩ := List.head?_eq_some_iff.mp hmem
  rw [display_inl, display_inr, hs, List.cons_append, List.cons_eq_cons] at h
  rw [display_inl, display_inr, h.1, List.filter_cons_of_pos hk, List.filter_append, hu, List.cons_append,
    List.cons_eq_cons] at hf
  exact of_decide_eq_true hd hf.1.symm

/-- Views that begin with the character `e` are told apart from the other characters by a second view, of which the
characters of one kind are enough. -/
theorem display_unique [DecidableEq α] {p q : Nat → List α} {k : α → Bool} {e : α} (hk : k e = true)
    (hagree : ∀ i < N, ∀ j < N, Agree (p i) (p j) → i = j) (hp : ∀ i < N, ∃ s, p i = e :: s)
    (hq : ∀ i < N, ((q i).filter k).head?.any (· ≠ e) = true) : ∀ {ms ms' : List (α ⊕ Nat)},
      (∀ i, .inr i ∈ ms → i < N) → (∀ i, .inr i ∈ ms' → i < N) → display p ms = display p ms' →
        (display q ms).filter k = (display q ms').filter k → ms = ms' := by
  have hne : ∀ i < N, p i ≠ [] := by
    intro i hi
    obtain ⟨s, hs⟩ := hp i hi
    exact hs ▸ List.cons_ne_nil e s
  intro ms
  induction ms with
  | nil =>
    intro ms' _ hms' h _
    exact (display_eq_nil hne hms' h.symm).symm
  | cons tok ms ih =>
    intro ms' hms hms' h hf
    cases ms' with
    | nil => exact display_eq_nil hne hms h
    | cons tok' ms' =>
      have hrest : display p ms = display p ms' → (display q ms).filter k = (display q ms').filter k → ms = ms' :=
        ih (fun i hi => hms i (List.mem_cons_of_mem tok hi)) fun i hi => hms' i (List.mem_cons_of_mem tok' hi)
      cases tok with
      | inl c =>
        cases tok' with
        | inl d =>
          rw [display_inl, display_inl, List.cons_eq_cons] at h
          rw [display_inl, display_inl, h.1, List.filter_cons, List.filter_cons] at hf
          rw [h.1, hrest h.2 (by split at hf <;> simpa using hf)]
        | inr j =>
          have hj : j < N := hms' j List.mem_cons_self
          exact absurd hf (display_inl_ne_inr hk (hp j hj) (hq j hj) h)
      | inr i =>
        cases tok' with
        | inl d =>
          have hi : i < N := hms i List.mem_cons_self
          exact absurd hf.symm (display_inl_ne_inr hk (hp i hi) (hq i hi) h.symm)
        | inr j =>
          rw [display_inr, display_inr] at h hf
          obtain rfl := hagree i (hms i List.mem_cons_self) j (hms' j List.mem_cons_self) (agree_of_append_eq h)
          rw [List.filter_append, List.filter_append, List.append_cancel_left_eq] at hf
          rw [hrest (List.append_cancel_left h) hf]

end

section

variable {α : Type}

/-- The marks from `n` on shown. -/
def showFrom (p : Nat → List α) (n : Nat) (ms : List (α ⊕ Nat)) : List (α ⊕ Nat) :=
  ms.flatMap (Sum.elim (fun c => [.inl c]) fun i => if i < n then [.inr i] else literal (p i))

variable (p : Nat → List α) {n : Nat} (ms ms' : List (α ⊕ Nat)) {i : Nat}

theorem showFrom_append : showFrom p n (ms ++ ms') = showFrom p n ms ++ showFrom p n ms' := List.flatMap_append

theorem showFrom_cons (tok : α ⊕ Nat) : showFrom p n (tok :: ms) = showFrom p n [tok] ++ showFrom p n ms :=
  showFrom_append p [tok] ms

theorem showFrom_literal (t : List α) : showFrom p n (literal t) = literal t := by
  induction t with
  | nil => rfl
  | cons c t ih => exact congrArg (.inl c :: ·) ih

theorem showFrom_inr_of_lt (h : i < n) : showFrom p n [.inr i] = [.inr i] := by simp [showFrom, h]

theorem showFrom_inr_of_le (h : n ≤ i) : showFrom p n [.inr i] = literal (p i) := by simp [showFrom, Nat.not_lt.mpr h]

variable {ms} in
/-- The first character that is shown is that of a mark or no mark. -/
theorem showFrom_eq_inl_cons {c : α} {w : List (α ⊕ Nat)} (h : showFrom p n ms = .inl c :: w) :
    (∃ i m, n ≤ i ∧ ms = .inr i :: m) ∨ ∃ m, ms = .inl c :: m ∧ showFrom p n m = w := by
  cases ms with
  | nil => cases h
  | cons tok m =>
    rw [showFrom_cons] at h
    cases tok with
    | inl d =>
      obtain ⟨hd, hw⟩ := List.cons_eq_cons.mp h
      exact .inr ⟨m, by rw [hd], hw⟩
    | inr i =>
      by_cases hi : i < n
      · rw [showFrom_inr_of_lt p hi] at h
        cases h
      · exact .inl ⟨i, m, by omega, rfl⟩

/-- What is read was no mark, if what is shown for marks cannot begin in it. -/
theorem exists_literal_showFrom : ∀ {q : List α} {ms y : List (α ⊕ Nat)},
    (∀ i, .inr i ∈ ms → NoneBegins (p i) q) → showFrom p n ms = literal q ++ y →
      ∃ r, ms = literal q ++ r ∧ showFrom p n r = y
  | [], ms, _, _, h => ⟨ms, rfl, h⟩
  | c :: q, ms, y, hms, h => by
    rcases showFrom_eq_inl_cons p h with ⟨i, m, hi, rfl⟩ | ⟨m, rfl, hm⟩
    · rw [showFrom_cons, showFrom_inr_of_le p hi] at h
      refine absurd (agree_of_literal h.symm) (hms i List.mem_cons_self _ (List.suffix_refl _) ?_)
      exact List.cons_ne_nil c q
    · obtain ⟨r, rfl, hr⟩ := exists_literal_showFrom (fun i hi =>
        (hms i (List.mem_cons_of_mem _ hi)).of_suffix (List.suffix_cons c q)) hm
      exact ⟨r, rfl, hr⟩

theorem showFrom_zero : showFrom p 0 ms = literal (display p ms) := by
  induction ms with
  | nil => rfl
  | cons tok ms ih =>
    rw [showFrom_cons, ih]
    cases tok with
    | inl c => rfl
    | inr i => rw [showFrom_inr_of_le p (Nat.zero_le i), display_inr, literal_append]

theorem showFrom_of_lt (h : ∀ i, .inr i ∈ ms → i < n) : showFrom p n ms = ms := by
  induction ms with
  | nil => rfl
  | cons tok ms ih =>
    rw [showFrom_cons, ih fun i hi => h i (List.mem_cons_of_mem tok hi)]
    cases tok with
    | inl c => rfl
    | inr i => rw [showFrom_inr_of_lt p (h i List.mem_cons_self), List.singleton_append]

theorem showFrom_showFrom {k : Nat} (h : n ≤ k) : showFrom p n (showFrom p k ms) = showFrom p n ms := by
  induction ms with
  | nil => rfl
  | cons tok ms ih =>
    rw [showFrom_cons, showFrom_append, ih, showFrom_cons p ms]
    cases tok with
    | inl c => rfl
    | inr i =>
      by_cases hi : i < k
      · rw [showFrom_inr_of_lt p hi]
      · rw [showFrom_inr_of_le p (by omega), showFrom_inr_of_le p (by omega), showFrom_literal]

theorem showFrom_markAll [DecidableEq α] {p : Nat → List α} (hp : p n ≠ []) :
    showFrom p n (markAll (p n) n ms) = showFrom p n ms := by
  refine flatMap_subst (literal_ne_nil hp) ?_ ms
  have := showFrom_literal p (n := n) (p n)
  rw [showFrom] at this
  rw [this, List.flatMap_singleton, Sum.elim_inr, if_neg (Nat.lt_irrefl n)]

/-- In round `n` there is a match that begins in a part of the text with marks other than the mark `n`. -/
def StrayMatch (p : Nat → List α) (n : Nat) (ms : List (α ⊕ Nat)) : Prop :=
  ∃ l tok m, ms = l ++ tok :: m ∧ tok ≠ .inr n ∧
    ∃ s, s ≠ [] ∧ s <:+ showFrom p n [tok] ∧ literal (p n) <+: s ++ showFrom p n m

variable {p ms}

theorem strayMatch_cons {tok : α ⊕ Nat} :
    StrayMatch p n (tok :: ms) ↔
      (tok ≠ .inr n ∧ ∃ s, s ≠ [] ∧ s <:+ showFrom p n [tok] ∧ literal (p n) <+: s ++ showFrom p n ms) ∨
        StrayMatch p n ms := by
  constructor
  · rintro ⟨l, tok', m, heq, h⟩
    cases l with
    | nil =>
      obtain ⟨rfl, rfl⟩ := List.cons_eq_cons.mp heq
      exact .inl h
    | cons d l =>
      obtain ⟨-, rfl⟩ := List.cons_eq_cons.mp heq
      exact .inr ⟨l, tok', m, rfl, h⟩
  · rintro (h | ⟨l, tok', m, rfl, h⟩)
    · exact ⟨[], tok, ms, rfl, h⟩
    · exact ⟨tok :: l, tok', m, rfl, h⟩

end

section

variable {α : Type} [DecidableEq α]

/-- `p 0` replaced by `r 0`, then `p 1` by `r 1`, and so on. -/
def replaceRounds (p r : Nat → List α) : Nat → List α → List α
  | 0, t => t
  | n + 1, t => subst (p n) (r n) (replaceRounds p r n t)

/-- The rounds as a loop. -/
theorem foldl_subst (p r : Nat → List α) (t : List α) (n : Nat) :
    ((List.range n).map fun i => (p i, r i)).foldl (fun t q => subst q.1 q.2 t) t = replaceRounds p r n t := by
  induction n with
  | zero => rfl
  | succ n ih =>
    rw [List.range_succ, List.map_append, List.foldl_append, ih]
    rfl

/-- An element that is in no `p i` separates. -/
theorem replaceRounds_append_cons {p r : Nat → List α} {N : Nat} {c : α} (hp : ∀ i < N, p i ≠ [])
    (hc : ∀ i < N, c ∉ p i) (s t : List α) : ∀ {n : Nat}, n ≤ N →
      replaceRounds p r n (s ++ c :: t) = replaceRounds p r n s ++ c :: replaceRounds p r n t
  | 0, _ => rfl
  | n + 1, hn => by
    rw [replaceRounds, replaceRounds_append_cons hp hc s t (by omega), subst_append_cons (hp n hn) (hc n hn)]
    rfl

/-- Where every `r i` has an element that is not of the kind, nothing has been replaced if all are of the kind. -/
theorem forall_mem_of_replaceRounds {p r : Nat → List α} {N : Nat} {q : α → Prop} (hp : ∀ i < N, p i ≠ [])
    (hr : ∀ i < N, ∃ c ∈ r i, ¬ q c) {t : List α} : ∀ {n : Nat}, n ≤ N →
      (∀ c ∈ replaceRounds p r n t, q c) → ∀ c ∈ t, q c
  | 0, _, h => h
  | n + 1, hn, h => forall_mem_of_replaceRounds hp hr (by omega) (forall_mem_of_subst (hp n hn) (hr n hn) h)

/-- Mark 0 put for `p 0`, then mark 1 for `p 1`, and so on. -/
def marking (p : Nat → List α) : Nat → List α → List (α ⊕ Nat)
  | 0, t => literal t
  | n + 1, t => markAll (p n) n (marking p n t)

variable {p r : Nat → List α} {N : Nat}

/-- The rounds so far put their own marks only. -/
theorem mark_lt (hp : ∀ i < N, p i ≠ []) {t : List α} {i : Nat} : ∀ {n : Nat}, n ≤ N → .inr i ∈ marking p n t → i < n
  | 0, _, h => by
    rw [marking, literal] at h
    simp at h
  | n + 1, hn, h => by
    rw [marking, markAll] at h
    rcases mem_subst (literal_ne_nil (hp n (by omega))) h with h | h
    · rw [List.mem_singleton, Sum.inr.injEq] at h
      omega
    · have := mark_lt hp (by omega) h
      omega

/-- The marks stand for what they were put for. -/
theorem display_marking (hp : ∀ i < N, p i ≠ []) (t : List α) : ∀ {n : Nat}, n ≤ N → display p (marking p n t) = t
  | 0, _ => display_literal p t
  | n + 1, hn => by
    rw [marking, display_markAll_self (hp n (by omega)) rfl, display_marking hp t (by omega)]

/-- **Rounds of replacing show the marks that rounds of marking put.** -/
theorem replaceRounds_eq (hp : ∀ i < N, p i ≠ []) (h : ∀ i < N, ∀ j < N, Apart (p i) (r j)) (t : List α) :
    ∀ {n : Nat}, n ≤ N → replaceRounds p r n t = display r (marking p n t)
  | 0, _ => (display_literal r t).symm
  | n + 1, hn => by
    have hms : ∀ i, .inr i ∈ marking p n t → Apart (p n) (r i) := by
      intro i hi
      have := mark_lt hp (by omega) hi
      exact h n (by omega) i (by omega)
    rw [replaceRounds, replaceRounds_eq hp h t (by omega), subst_display (hp n (by omega)) hms, marking]

/-! ## What the rounds put back -/

variable {n : Nat} {ms : List (α ⊕ Nat)}

/-- A round puts back its own marks if nothing else matches. -/
theorem markAll_showFrom_iff (hp : p n ≠ []) :
    markAll (p n) n (showFrom p n ms) = showFrom p (n + 1) ms ↔ ¬ StrayMatch p n ms := by
  have hl : (literal (p n) : List (α ⊕ Nat)) ≠ [] := literal_ne_nil hp
  induction ms with
  | nil =>
    refine iff_of_true rfl ?_
    rintro ⟨l, tok, m, heq, -⟩
    simp at heq
  | cons tok ms ih =>
    have hrest : subst (literal (p n)) [.inr n] (showFrom p n ms) = showFrom p (n + 1) ms ↔ ¬ StrayMatch p n ms := ih
    rw [markAll, strayMatch_cons, showFrom_cons p (n := n), showFrom_cons p (n := n + 1)]
    by_cases htok : tok = .inr n
    · rw [htok, showFrom_inr_of_le p (Nat.le_refl n), showFrom_inr_of_lt p (Nat.lt_succ_self n), subst_append hl,
        List.append_cancel_left_eq, hrest]
      simp
    · obtain ⟨w, hw, hw', hmem⟩ : ∃ w, showFrom p n [tok] = w ∧ showFrom p (n + 1) [tok] = w ∧ .inr n ∉ w := by
        cases tok with
        | inl c => exact ⟨_, rfl, rfl, by simp [showFrom]⟩
        | inr i =>
          have hi : i ≠ n := fun h => htok (congrArg Sum.inr h)
          by_cases hlt : i < n
          · exact ⟨_, showFrom_inr_of_lt p hlt, showFrom_inr_of_lt p (by omega), by simpa using hi.symm⟩
          · exact ⟨_, showFrom_inr_of_le p (by omega), showFrom_inr_of_le p (by omega), by simp [literal]⟩
      rw [hw, hw', subst_append_eq_iff hl hmem, hrest, not_or, not_and]
      refine and_congr_left fun _ => ⟨?_, ?_⟩
      · rintro h - ⟨s, hne, hs, hpre⟩
        exact h s hne hs hpre
      · intro h s hne hs hpre
        exact h htok ⟨s, hne, hs, hpre⟩

/-- **Rounds put back the marks of a displayed text exactly when in no round anything else matches.** -/
theorem marking_display_iff (hp : ∀ i < N, p i ≠ []) (hms : ∀ i, .inr i ∈ ms → i < N) :
    marking p N (display p ms) = ms ↔ ∀ n < N, ¬ StrayMatch p n ms := by
  have key : ∀ n ≤ N, marking p n (display p ms) = showFrom p n ms ↔ ∀ k < n, ¬ StrayMatch p k ms := by
    intro n
    induction n with
    | zero => exact fun _ => iff_of_true (showFrom_zero p ms).symm fun k hk => absurd hk (Nat.not_lt_zero k)
    | succ n ih =>
      intro hn
      have hpn := hp n (by omega)
      rw [Nat.forall_lt_succ_right, ← ih (by omega), ← markAll_showFrom_iff hpn, marking]
      refine ⟨fun h => ?_, fun h => by rw [h.1, h.2]⟩
      have hback : marking p n (display p ms) = showFrom p n ms := by
        rw [← showFrom_showFrom p ms (Nat.le_succ n), ← h, showFrom_markAll _ hpn, showFrom_of_lt p _ fun i hi => ?_]
        exact mark_lt hp (by omega) hi
      exact ⟨hback, by rw [← hback, h]⟩
  rw [← key N (Nat.le_refl N), showFrom_of_lt p ms hms]

end

end PyLib
