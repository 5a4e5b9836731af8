import Mathlib.Algebra.Ring.Nat
import Mathlib.Data.List.Chain
import Mathlib.Data.List.Nodup
import Mathlib.Data.List.Infix

/-!
# Sliding windows

A run of items is cut into windows by their weight. Each item is appended to the open window; when it has at least the
given size it is closed, and the next window is opened with an overlap, the end of the closed one (`carry`).

- The closed windows are those in which some item of the run fills the open one (`mem_closed_iff`).
- Where the windows start follows from the weights alone (`start`, `mem_all_iff_start`).
- The last item of a window is in no earlier one (`pairwise_closed`), except in an overlap that is left at the end.
- Each window is the overlap of the window before it, and new items (`all_eq_linked`). So two windows with others
  between them have an overlap as long as these add less to it than the overlap weighs (`shares_iff`).
-/

set_option autoImplicit false

namespace Sliding

universe u

variable {α : Type u} (weight : α → Nat) (size overlap : Int)

/-- The weight of a window. -/
def total (w : List α) : Nat := (w.map weight).sum

/-- The overlap of a window with the next one: the items behind which the window weighs less than `overlap`. -/
def carry : List α → List α
  | [] => []
  | x :: w => if (total weight w : Int) < overlap then x :: w else carry w

/-- The closed windows, and the open one. -/
structure Windows (α : Type u) where
  closed : List (List α)
  opened : List α

/-- One more item. -/
def Windows.push (s : Windows α) (x : α) : Windows α :=
  let w := s.opened ++ [x]
  if size ≤ total weight w then ⟨s.closed ++ [w], carry weight overlap w⟩ else ⟨s.closed, w⟩

/-- The windows of a run. -/
def slide (us : List α) : Windows α := us.foldl (Windows.push weight size overlap) ⟨[], []⟩

/-- The closed windows, and the open one if it is not empty. -/
def Windows.all (s : Windows α) : List (List α) := if s.opened.isEmpty then s.closed else s.closed ++ [s.opened]

variable {weight size overlap}

@[simp] theorem total_nil : total weight [] = 0 := rfl

@[simp] theorem total_cons (x : α) (w : List α) : total weight (x :: w) = weight x + total weight w := by
  rw [total, List.map_cons, List.sum_cons, total]

@[simp] theorem total_append (v w : List α) : total weight (v ++ w) = total weight v + total weight w := by
  rw [total, List.map_append, List.sum_append, total, total]

/-! ## The overlap -/

theorem carry_suffix (w : List α) : carry weight overlap w <:+ w := by
  induction w with
  | nil => exact List.suffix_refl []
  | cons x w ih =>
    unfold carry
    split
    · exact List.suffix_refl _
    · exact ih.trans (List.suffix_cons x w)

/-- When the new items weigh less than the overlap, it reaches into the items before them. -/
theorem carry_append_of_lt {o r : List α} (ho : o ≠ []) (h : (total weight r : Int) < overlap) :
    ∃ o', o' ≠ [] ∧ o' <:+ o ∧ carry weight overlap (o ++ r) = o' ++ r := by
  induction o with
  | nil => exact absurd rfl ho
  | cons x o ih =>
    rw [List.cons_append, carry]
    split
    · exact ⟨x :: o, List.cons_ne_nil x o, List.suffix_refl _, rfl⟩
    · rename_i hlarge
      obtain rfl | hne := eq_or_ne o []
      · exact absurd h hlarge
      · obtain ⟨o', ho', hsuffix, heq⟩ := ih hne
        exact ⟨o', ho', hsuffix.trans (List.suffix_cons x o), heq⟩

/-- Otherwise it does not. -/
theorem carry_append_of_le {r : List α} (o : List α) (h : overlap ≤ (total weight r : Int)) :
    carry weight overlap (o ++ r) = carry weight overlap r := by
  induction o with
  | nil => rfl
  | cons x o ih =>
    have hlarge : ¬ (total weight (o ++ r) : Int) < overlap := by
      rw [total_append]
      omega
    rw [List.cons_append, carry, if_neg hlarge, ih]

/-! ## The windows of a run -/

theorem slide_concat (us : List α) (x : α) :
    slide weight size overlap (us ++ [x]) = (slide weight size overlap us).push weight size overlap x :=
  List.foldl_append

/-- The item fills the window. -/
theorem push_full {s : Windows α} {x : α} (h : size ≤ total weight (s.opened ++ [x])) :
    s.push weight size overlap x = ⟨s.closed ++ [s.opened ++ [x]], carry weight overlap (s.opened ++ [x])⟩ :=
  if_pos h

/-- The window has room for more. -/
theorem push_room {s : Windows α} {x : α} (h : ¬ size ≤ total weight (s.opened ++ [x])) :
    s.push weight size overlap x = ⟨s.closed, s.opened ++ [x]⟩ :=
  if_neg h

theorem slide_concat_full {us : List α} {x : α}
    (h : size ≤ total weight ((slide weight size overlap us).opened ++ [x])) :
    slide weight size overlap (us ++ [x]) =
      ⟨(slide weight size overlap us).closed ++ [(slide weight size overlap us).opened ++ [x]],
        carry weight overlap ((slide weight size overlap us).opened ++ [x])⟩ :=
  (slide_concat us x).trans (push_full h)

theorem slide_concat_room {us : List α} {x : α}
    (h : ¬ size ≤ total weight ((slide weight size overlap us).opened ++ [x])) :
    slide weight size overlap (us ++ [x]) =
      ⟨(slide weight size overlap us).closed, (slide weight size overlap us).opened ++ [x]⟩ :=
  (slide_concat us x).trans (push_room h)

/-- The open window is an end of the run. -/
theorem opened_suffix (us : List α) : (slide weight size overlap us).opened <:+ us := by
  induction us using List.reverseRecOn with
  | nil => exact List.suffix_refl []
  | append_singleton us x ih =>
    have happend : (slide weight size overlap us).opened ++ [x] <:+ us ++ [x] := by
      obtain ⟨before, hbefore⟩ := ih
      exact ⟨before, by rw [← List.append_assoc, hbefore]⟩
    by_cases hfull : size ≤ total weight ((slide weight size overlap us).opened ++ [x])
    · rw [slide_concat_full hfull]
      exact (carry_suffix _).trans happend
    · rw [slide_concat_room hfull]
      exact happend

/-- **The closed windows**: an item of the run fills the window that is open before it. -/
theorem mem_closed_iff {us w : List α} : w ∈ (slide weight size overlap us).closed ↔ ∃ vs x rest, us = vs ++ x :: rest ∧
    size ≤ total weight ((slide weight size overlap vs).opened ++ [x]) ∧
      w = (slide weight size overlap vs).opened ++ [x] := by
  induction us using List.reverseRecOn with
  | nil =>
    refine iff_of_false List.not_mem_nil ?_
    rintro ⟨vs, x, rest, h, -⟩
    simp at h
  | append_singleton us y ih =>
    have hold : (∃ vs x rest, us ++ [y] = vs ++ x :: (rest ++ [y]) ∧
        size ≤ total weight ((slide weight size overlap vs).opened ++ [x]) ∧
          w = (slide weight size overlap vs).opened ++ [x]) ↔ w ∈ (slide weight size overlap us).closed := by
      rw [ih]
      refine exists_congr fun vs => exists_congr fun x => exists_congr fun rest => and_congr_left fun _ => ?_
      rw [← List.cons_append, ← List.append_assoc, List.append_left_inj]
    have hsplit : (∃ vs x rest, us ++ [y] = vs ++ x :: rest ∧
        size ≤ total weight ((slide weight size overlap vs).opened ++ [x]) ∧
          w = (slide weight size overlap vs).opened ++ [x]) ↔ w ∈ (slide weight size overlap us).closed ∨
        (size ≤ total weight ((slide weight size overlap us).opened ++ [y]) ∧
          w = (slide weight size overlap us).opened ++ [y]) := by
      rw [← hold]
      constructor
      · rintro ⟨vs, x, rest, h, hfull, rfl⟩
        obtain rfl | ⟨rest, z, rfl⟩ := List.eq_nil_or_concat rest
        · obtain ⟨rfl, hxy⟩ := List.append_inj' h rfl
          obtain rfl : y = x := List.head_eq_of_cons_eq hxy
          exact .inr ⟨hfull, rfl⟩
        · have hyz : us ++ [y] = (vs ++ x :: rest) ++ [z] := by simpa using h
          obtain rfl : y = z := List.head_eq_of_cons_eq (List.append_inj' hyz rfl).2
          exact .inl ⟨vs, x, rest, by simpa using h, hfull, rfl⟩
      · rintro (⟨vs, x, rest, h, hfull, rfl⟩ | ⟨hfull, rfl⟩)
        · exact ⟨vs, x, rest ++ [y], h, hfull, rfl⟩
        · exact ⟨us, y, [], rfl, hfull, rfl⟩
    rw [hsplit]
    by_cases hfull : size ≤ total weight ((slide weight size overlap us).opened ++ [y])
    · rw [slide_concat_full hfull, List.mem_append, List.mem_singleton, and_iff_right hfull]
    · rw [slide_concat_room hfull]
      exact ⟨.inl, fun h => h.resolve_right fun h => hfull h.1⟩

theorem mem_all_iff {s : Windows α} {w : List α} : w ∈ s.all ↔ w ∈ s.closed ∨ (w = s.opened ∧ s.opened ≠ []) := by
  unfold Windows.all
  cases h : s.opened with
  | nil => simp
  | cons x opened => simp

/-- A window is a stretch of the run. -/
theorem infix_of_mem_all {us w : List α} (h : w ∈ (slide weight size overlap us).all) : w <:+: us := by
  obtain h | ⟨rfl, -⟩ := mem_all_iff.mp h
  · obtain ⟨vs, x, rest, rfl, -, rfl⟩ := mem_closed_iff.mp h
    have hsuffix : (slide weight size overlap vs).opened <:+ vs := opened_suffix vs
    obtain ⟨before, hbefore⟩ := hsuffix
    refine ⟨before, rest, ?_⟩
    rw [← List.append_assoc, hbefore, List.append_assoc, List.singleton_append]
  · exact (opened_suffix us).isInfix

theorem subset_of_mem_all {us w : List α} (h : w ∈ (slide weight size overlap us).all) : w ⊆ us :=
  (infix_of_mem_all h).subset

theorem subset_of_mem_closed {us w : List α} (h : w ∈ (slide weight size overlap us).closed) : w ⊆ us :=
  subset_of_mem_all (mem_all_iff.mpr (.inl h))

/-- No window is empty. -/
theorem ne_nil_of_mem_all {us w : List α} (h : w ∈ (slide weight size overlap us).all) : w ≠ [] := by
  obtain h | ⟨rfl, hne⟩ := mem_all_iff.mp h
  · obtain ⟨vs, x, rest, -, -, rfl⟩ := mem_closed_iff.mp h
    exact List.append_ne_nil_of_right_ne_nil _ (List.cons_ne_nil x [])
  · exact hne

/-! ## Windows by their weights -/

section

variable (ns : List Nat) (size overlap : Int)

/-- The weight of the items from `i` on and before `j`. -/
def span (i j : Nat) : Nat := ((ns.take j).drop i).sum

/-- Where the overlap of the window from `i` to `j` starts. -/
def carryStart (i j : Nat) : Nat :=
  ((List.range' i (j - i)).find? fun k => (span ns (k + 1) j : Int) < overlap).getD j

/-- Where the window starts that is open after the first `j` items. -/
def start : Nat → Nat
  | 0 => 0
  | j + 1 => if size ≤ span ns (start j) (j + 1) then carryStart ns overlap (start j) (j + 1) else start j

variable {ns size overlap}

theorem total_stretch (us : List α) (i j : Nat) :
    total weight ((us.take j).drop i) = span (us.map weight) i j := by
  rw [span, ← List.map_take, ← List.map_drop, total]

theorem carryStart_le {i j : Nat} : carryStart ns overlap i j ≤ j := by
  unfold carryStart
  cases h : (List.range' i (j - i)).find? fun k => (span ns (k + 1) j : Int) < overlap with
  | none => exact le_refl j
  | some k =>
    have hmem := List.mem_range'_1.mp (List.mem_of_find?_eq_some h)
    rw [Option.getD_some]
    omega

theorem start_le (j : Nat) : start ns size overlap j ≤ j := by
  induction j with
  | zero => exact le_refl 0
  | succ j ih =>
    unfold start
    split
    · exact carryStart_le
    · omega

/-- One item is looked at. -/
theorem carryStart_of_lt {i j : Nat} (h : i < j) : carryStart ns overlap i j =
    if (span ns (i + 1) j : Int) < overlap then i else carryStart ns overlap (i + 1) j := by
  have hrange : List.range' i (j - i) = i :: List.range' (i + 1) (j - (i + 1)) := by
    rw [show j - i = j - (i + 1) + 1 by omega, List.range'_succ]
  unfold carryStart
  rw [hrange, List.find?_cons]
  by_cases hlt : (span ns (i + 1) j : Int) < overlap
  · rw [if_pos hlt, decide_eq_true hlt, Option.getD_some]
  · rw [if_neg hlt, decide_eq_false hlt]

/-- The overlap of a stretch of the run. -/
theorem carry_stretch {us : List α} {i j : Nat} (hij : i ≤ j) (hj : j ≤ us.length) :
    carry weight overlap ((us.take j).drop i) = (us.take j).drop (carryStart (us.map weight) overlap i j) := by
  have hlength : (us.take j).length = j := List.length_take_of_le hj
  induction h : j - i generalizing i with
  | zero =>
    obtain rfl : i = j := by omega
    have hnil : ∀ k, i ≤ k → (us.take i).drop k = [] := fun k hk => List.drop_of_length_le (by omega)
    rw [hnil i (le_refl i), carryStart, Nat.sub_self, hnil]
    · rfl
    · exact le_refl i
  | succ n ih =>
    have hlt : i < (us.take j).length := by omega
    rw [carryStart_of_lt (by omega), List.drop_eq_getElem_cons hlt, carry, total_stretch,
      ← List.drop_eq_getElem_cons hlt, ih (by omega) (by omega)]
    split
    · rfl
    · rfl

/-- One more item in a stretch of the run. -/
theorem stretch_concat {us : List α} {i j : Nat} (hij : i ≤ j) (hj : j < us.length) :
    (us.take j).drop i ++ [us[j]] = (us.take (j + 1)).drop i := by
  rw [← List.take_append_getElem hj, List.drop_append_of_le_length]
  rw [List.length_take_of_le hj.le]
  exact hij

/-- **The open window** is the stretch from its start. -/
theorem opened_take {us : List α} {j : Nat} (hj : j ≤ us.length) :
    (slide weight size overlap (us.take j)).opened = (us.take j).drop (start (us.map weight) size overlap j) := by
  induction j with
  | zero => rw [List.take_zero, List.drop_nil]; rfl
  | succ j ih =>
    have hlt : j < us.length := by omega
    have hwindow : (slide weight size overlap (us.take j)).opened ++ [us[j]] =
        (us.take (j + 1)).drop (start (us.map weight) size overlap j) := by
      rw [ih hlt.le, stretch_concat (start_le j) hlt]
    have htotal := congrArg (total weight) hwindow
    rw [total_stretch] at htotal
    rw [start, ← htotal]
    split
    · rename_i hfull
      rw [← List.take_append_getElem hlt, slide_concat_full hfull, hwindow, carry_stretch _ hj,
        List.take_append_getElem hlt]
      exact Nat.le_succ_of_le (start_le j)
    · rename_i hroom
      rw [← List.take_append_getElem hlt, slide_concat_room hroom, hwindow, List.take_append_getElem hlt]

/-- **The windows by their weights**: the stretches that an item fills, and what is left at the end. -/
theorem mem_all_iff_start {us w : List α} : w ∈ (slide weight size overlap us).all ↔
    (∃ j < us.length, size ≤ span (us.map weight) (start (us.map weight) size overlap j) (j + 1) ∧
        w = (us.take (j + 1)).drop (start (us.map weight) size overlap j)) ∨
      start (us.map weight) size overlap us.length < us.length ∧
        w = us.drop (start (us.map weight) size overlap us.length) := by
  have hwindow : ∀ {j : Nat} (hlt : j < us.length), (slide weight size overlap (us.take j)).opened ++ [us[j]] =
      (us.take (j + 1)).drop (start (us.map weight) size overlap j) := fun hlt => by
    rw [opened_take hlt.le, stretch_concat (start_le _) hlt]
  have hrest : (slide weight size overlap (us.take us.length)).opened = _ := opened_take (le_refl us.length)
  rw [List.take_length] at hrest
  rw [mem_all_iff, mem_closed_iff, hrest, ← List.length_pos_iff, List.length_drop, Nat.sub_pos_iff_lt,
    and_comm (b := _ < _)]
  refine or_congr_left ⟨?_, ?_⟩
  · rintro ⟨vs, x, rest, hus, hfull, rfl⟩
    have hlt : vs.length < us.length := by simp [hus]
    have hvs : us.take vs.length = vs := by rw [hus, List.take_left]
    have hx : us[vs.length] = x := by simp [hus]
    have hopened := hwindow hlt
    rw [hvs, hx] at hopened
    rw [hopened, total_stretch] at hfull
    exact ⟨vs.length, hlt, hfull, hopened⟩
  · rintro ⟨j, hlt, hfull, rfl⟩
    refine ⟨us.take j, us[j], us.drop (j + 1), ?_, ?_, (hwindow hlt).symm⟩
    · rw [← List.drop_eq_getElem_cons hlt, List.take_append_drop]
    · rw [hwindow hlt, total_stretch]
      exact hfull

end

/-! ## What is new in a window -/

/-- The last item of the second window is not in the first one. -/
def EndsNew (w w' : List α) : Prop := ∀ x ∈ w'.getLast?, x ∉ w

/-- A window that ends with an item that is not in any of the windows. -/
theorem pairwise_endsNew_concat {ws : List (List α)} {us w : List α} {x : α} (h : ws.Pairwise EndsNew)
    (hsub : ∀ w' ∈ ws, w' ⊆ us) (hx : x ∉ us) (hlast : w.getLast? = some x) : (ws ++ [w]).Pairwise EndsNew := by
  refine List.pairwise_append.mpr ⟨h, List.pairwise_singleton _ w, fun w' hw' v hv y hy => ?_⟩
  rw [List.mem_singleton.mp hv, hlast] at hy
  rw [← Option.some.inj hy]
  exact fun hmem => hx (hsub w' hw' hmem)

/-- **Each closed window ends with an item that is in no earlier one.** -/
theorem pairwise_closed {us : List α} (h : us.Nodup) : (slide weight size overlap us).closed.Pairwise EndsNew := by
  induction us using List.reverseRecOn with
  | nil => exact List.Pairwise.nil
  | append_singleton us x ih =>
    obtain ⟨hus, -, hdisjoint⟩ := List.nodup_append.mp h
    have hx : x ∉ us := fun hmem => hdisjoint x hmem x (List.mem_singleton_self x) rfl
    by_cases hfull : size ≤ total weight ((slide weight size overlap us).opened ++ [x])
    · rw [slide_concat_full hfull]
      exact pairwise_endsNew_concat (ih hus) (fun _ => subset_of_mem_closed) hx List.getLast?_concat
    · rw [slide_concat_room hfull]
      exact ih hus

/-! ## Windows from the new items of each -/

variable (weight overlap)

/-- The windows with these new items, after the window `prev`. -/
def linked (prev : List α) : List (List α) → List (List α)
  | [] => []
  | new :: news => (carry weight overlap prev ++ new) :: linked (carry weight overlap prev ++ new) news

variable {weight overlap}

theorem linked_concat (prev : List α) (news : List (List α)) (new : List α) :
    linked weight overlap prev (news ++ [new]) = linked weight overlap prev news ++
      [carry weight overlap ((linked weight overlap prev news).getLastD prev) ++ new] := by
  induction news generalizing prev with
  | nil => rfl
  | cons n news ih =>
    rw [List.cons_append, linked, ih, linked, List.cons_append, List.getLastD_cons]

variable (weight size overlap) in
/-- A run consists of the new items of its windows. -/
theorem slide_eq_linked (us : List α) : ∃ news last, us = news.flatten ++ last ∧
    (slide weight size overlap us).closed = linked weight overlap [] news ∧
      (slide weight size overlap us).opened =
        carry weight overlap ((linked weight overlap [] news).getLastD []) ++ last := by
  induction us using List.reverseRecOn with
  | nil => exact ⟨[], [], rfl, rfl, rfl⟩
  | append_singleton us x ih =>
    obtain ⟨news, last, hus, hclosed, hopened⟩ := ih
    by_cases hfull : size ≤ total weight ((slide weight size overlap us).opened ++ [x])
    · refine ⟨news ++ [last ++ [x]], [], by simp [hus], ?_, ?_⟩
      · rw [slide_concat_full hfull, linked_concat, hclosed, hopened, List.append_assoc]
      · rw [slide_concat_full hfull, linked_concat, List.getLastD_concat, hopened, List.append_assoc, List.append_nil]
    · refine ⟨news, last ++ [x], by simp [hus], ?_, ?_⟩
      · rw [slide_concat_room hfull, hclosed]
      · rw [slide_concat_room hfull, hopened, List.append_assoc]

variable (weight size overlap) in
theorem all_eq_linked (us : List α) : ∃ news : List (List α), news.flatten = us ∧
    (slide weight size overlap us).all = linked weight overlap [] news := by
  obtain ⟨news, last, hus, hclosed, hopened⟩ := slide_eq_linked weight size overlap us
  unfold Windows.all
  split
  · rename_i hempty
    have hlast : last = [] := by
      rw [hopened, List.isEmpty_iff, List.append_eq_nil_iff] at hempty
      exact hempty.2
    exact ⟨news, by rw [hus, hlast, List.append_nil], hclosed⟩
  · exact ⟨news ++ [last], by simp [hus], by rw [linked_concat, hclosed, hopened]⟩

/-- The items of a window are those of the window before it, or new. -/
theorem subset_of_mem_linked {prev w : List α} {news : List (List α)} (h : w ∈ linked weight overlap prev news) :
    w ⊆ prev ++ news.flatten := by
  induction news generalizing prev with
  | nil => cases h
  | cons new news ih =>
    have hfirst : carry weight overlap prev ++ new ⊆ prev ++ (new :: news).flatten := by
      intro x hx
      obtain hx | hx := List.mem_append.mp hx
      · exact List.mem_append_left _ ((carry_suffix prev).subset hx)
      · simp [hx]
    rw [linked] at h
    obtain rfl | h := List.mem_cons.mp h
    · exact hfirst
    · intro x hx
      obtain hx | hx := List.mem_append.mp (ih h hx)
      · exact hfirst hx
      · exact List.mem_append_right _ (by simp [List.flatten_cons, hx])

/-- The windows behind one of the windows. -/
theorem linked_eq_append {prev w : List α} {news ws ws' : List (List α)}
    (h : linked weight overlap prev news = ws ++ w :: ws') :
    ∃ news₁ news₂, news = news₁ ++ news₂ ∧ w ⊆ prev ++ news₁.flatten ∧ ws' = linked weight overlap w news₂ := by
  induction ws generalizing prev news with
  | nil =>
    cases news with
    | nil => cases h
    | cons new news =>
      obtain ⟨hw, hws⟩ := List.cons.inj h
      have hmem : w ∈ linked weight overlap prev [new] := by rw [← hw, linked]; exact List.mem_cons_self
      exact ⟨[new], news, rfl, subset_of_mem_linked hmem, by rw [← hws, hw]⟩
  | cons v ws ih =>
    cases news with
    | nil => cases h
    | cons new news =>
      obtain ⟨hv, hws⟩ := List.cons.inj h
      obtain ⟨news₁, news₂, rfl, hsub, hws'⟩ := ih hws
      refine ⟨new :: news₁, news₂, rfl, fun x hx => ?_, hws'⟩
      obtain hx | hx := List.mem_append.mp (hsub hx)
      · obtain hx | hx := List.mem_append.mp hx
        · exact List.mem_append_left _ ((carry_suffix prev).subset hx)
        · simp [hx]
      · exact List.mem_append_right _ (by simp [List.flatten_cons, hx])

/-! ## Windows that have an overlap -/

/-- The first window ends with items with which the second one starts. -/
def Shares (w w' : List α) : Prop := ∃ o, o ≠ [] ∧ o <:+ w ∧ o <+: w'

/-- Behind enough new items, nothing of `w` is in the overlap. -/
theorem not_mem_of_mem_carry {w o r : List α} (hr : ∀ x ∈ r, x ∉ w) (h : overlap ≤ total weight r) :
    ∀ x ∈ carry weight overlap (o ++ r), x ∉ w := by
  rw [carry_append_of_le o h]
  exact fun x hx => hr x ((carry_suffix r).subset hx)

theorem not_shares_of_disjoint {w w' : List α} (h : ∀ x ∈ w', x ∉ w) : ¬ Shares w w' := by
  rintro ⟨o, ho, hsuffix, hfront⟩
  obtain ⟨x, hx⟩ := List.exists_mem_of_ne_nil o ho
  exact h x (hfront.subset hx) (hsuffix.subset hx)

section

variable [DecidableEq α] {us w w' : List α} {ds rest : List (List α)}

/-- The weight that a window has beside the items of `w`. -/
def beside (weight : α → Nat) (w d : List α) : Nat := total weight (d.filter (· ∉ w))

theorem beside_append {o r : List α} (ho : o ⊆ w) (hr : ∀ x ∈ r, x ∉ w) :
    beside weight w (o ++ r) = total weight r := by
  have hold : o.filter (· ∉ w) = [] := List.filter_eq_nil_iff.mpr fun x hx => by simpa using ho hx
  have hnew : r.filter (· ∉ w) = r := List.filter_eq_self.mpr fun x hx => by simpa using hr x hx
  rw [beside, List.filter_append, hold, hnew, List.nil_append]

/-- Behind a window `o ++ r` that starts with items of `w`: as long as the windows add little, they do so too. -/
theorem shares_linked_iff {o r : List α} {news : List (List α)} (ho : o ≠ []) (hsuffix : o <:+ w)
    (hr : ∀ x ∈ r, x ∉ w) (hnews : ∀ x ∈ news.flatten, x ∉ w)
    (h : linked weight overlap (o ++ r) news = ds ++ w' :: rest) :
    Shares w w' ↔ (total weight r : Int) < overlap ∧ ∀ d ∈ ds, (beside weight w d : Int) < overlap := by
  induction ds generalizing o r news with
  | nil =>
    cases news with
    | nil => cases h
    | cons new news =>
      have hw' : carry weight overlap (o ++ r) ++ new = w' := (List.cons.inj h).1
      have hnew : ∀ x ∈ new, x ∉ w := fun x hx => hnews x (by simp [hx])
      by_cases hlt : (total weight r : Int) < overlap
      · obtain ⟨o', ho', hsuffix', hcarry⟩ := carry_append_of_lt ho hlt
        refine iff_of_true ⟨o', ho', hsuffix'.trans hsuffix, ?_⟩ ⟨hlt, fun d hd => absurd hd List.not_mem_nil⟩
        rw [← hw', hcarry, List.append_assoc]
        exact List.prefix_append o' _
      · refine iff_of_false (not_shares_of_disjoint fun x hx => ?_) fun hcond => hlt hcond.1
        rw [← hw'] at hx
        exact (List.mem_append.mp hx).elim (not_mem_of_mem_carry hr (Int.not_lt.mp hlt) x) (hnew x)
  | cons d ds ih =>
    cases news with
    | nil => cases h
    | cons new news =>
      obtain ⟨hd, hrest⟩ := List.cons.inj h
      have hnew : ∀ x ∈ new, x ∉ w := fun x hx => hnews x (by simp [hx])
      have hlater : ∀ x ∈ news.flatten, x ∉ w := fun x hx => hnews x (by simp [List.flatten_cons, hx])
      by_cases hlt : (total weight r : Int) < overlap
      · obtain ⟨o', ho', hsuffix', hcarry⟩ := carry_append_of_lt ho hlt
        rw [hcarry, List.append_assoc] at hd hrest
        have hboth : ∀ x ∈ r ++ new, x ∉ w := fun x hx => (List.mem_append.mp hx).elim (hr x) (hnew x)
        rw [ih ho' (hsuffix'.trans hsuffix) hboth hlater hrest, List.forall_mem_cons, ← hd,
          beside_append (hsuffix'.trans hsuffix).subset hboth, and_iff_right hlt]
      · refine iff_of_false (not_shares_of_disjoint fun x hx => ?_) fun hcond => hlt hcond.1
        -- none of the later windows has an item of `w`
        have hmem : w' ∈ linked weight overlap (carry weight overlap (o ++ r) ++ new) news := by
          rw [show linked weight overlap _ news = _ from hrest]
          simp
        obtain hx | hx := List.mem_append.mp (subset_of_mem_linked hmem hx)
        · exact (List.mem_append.mp hx).elim (not_mem_of_mem_carry hr (Int.not_lt.mp hlt) x) (hnew x)
        · exact hlater x hx

/-- **Two windows of a run have an overlap if and only if no window between them has too much beside the first one.** -/
theorem shares_iff (hus : us.Nodup) (hoverlap : 0 < overlap) {ws : List (List α)}
    (h : (slide weight size overlap us).all = ws ++ w :: (ds ++ w' :: rest)) :
    Shares w w' ↔ ∀ d ∈ ds, (beside weight w d : Int) < overlap := by
  have hmem : w ∈ (slide weight size overlap us).all := by simp [h]
  have hw : w ≠ [] := ne_nil_of_mem_all hmem
  obtain ⟨news, rfl, hlinked⟩ := all_eq_linked weight size overlap us
  obtain ⟨news₁, news₂, rfl, hsub, hrest⟩ := linked_eq_append (hlinked.symm.trans h)
  rw [List.flatten_append] at hus
  obtain ⟨-, -, hdisjoint⟩ := List.nodup_append.mp hus
  have hnews : ∀ x ∈ news₂.flatten, x ∉ w := fun x hx hmem => hdisjoint x (hsub hmem) x hx rfl
  have hiff := shares_linked_iff (r := []) hw (List.suffix_refl w) (fun x hx => absurd hx List.not_mem_nil) hnews
    (by rw [List.append_nil]; exact hrest.symm)
  rw [hiff, total_nil]
  exact and_iff_right hoverlap

end

/-! ## Windows that are kept -/

section

variable {β : Type u} {R : β → β → Prop} {p : β → Bool}

/-- Two kept elements, and others between them that are not kept. -/
def Adjacent (p : β → Bool) (l : List β) (a : β) (ds : List β) (b : β) : Prop :=
  a :: (ds ++ [b]) <:+: l ∧ p a = true ∧ (∀ d ∈ ds, p d = false) ∧ p b = true

/-- The relation holds along the kept elements if and only if it holds for any two without a kept one between them. -/
theorem isChain_filter_iff (l : List β) : (l.filter p).IsChain R ↔ ∀ a ds b, Adjacent p l a ds b → R a b := by
  induction l with
  | nil =>
    refine iff_of_true List.IsChain.nil ?_
    rintro a ds b ⟨h, -⟩
    exact absurd (List.infix_nil.mp h) (List.cons_ne_nil _ _)
  | cons c l ih =>
    cases hc : p c with
    | false =>
      rw [List.filter_cons_of_neg (by simp [hc]), ih]
      refine forall_congr' fun a => forall_congr' fun ds => forall_congr' fun b => ?_
      refine imp_congr_left (and_congr_left fun ⟨ha, _⟩ => ?_)
      rw [List.infix_cons_iff]
      refine ⟨.inr, fun h => h.resolve_left fun hfront => ?_⟩
      rw [(List.cons_prefix_cons.mp hfront).1, hc] at ha
      cases ha
    | true =>
      rw [List.filter_cons_of_pos hc, List.isChain_cons, ih, List.head?_filter]
      constructor
      · rintro ⟨hhead, htail⟩ a ds b ⟨hstretch, ha, hds, hb⟩
        obtain hfront | hstretch := List.infix_cons_iff.mp hstretch
        · obtain ⟨rfl, rest, hl⟩ := List.cons_prefix_cons.mp hfront
          refine hhead b (List.find?_eq_some_iff_append.mpr ⟨hb, ds, rest, ?_, fun d hd => by simp [hds d hd]⟩)
          rw [← hl, List.append_assoc, List.singleton_append]
        · exact htail a ds b ⟨hstretch, ha, hds, hb⟩
      · refine fun hall => ⟨fun b hb => ?_, fun a ds b ⟨hstretch, hrest⟩ => ?_⟩
        · obtain ⟨hpb, ds, rest, rfl, hds⟩ := List.find?_eq_some_iff_append.mp hb
          refine hall c ds b ⟨⟨[], rest, ?_⟩, hc, fun d hd => by simpa using hds d hd, hpb⟩
          simp
        · exact hall a ds b ⟨List.infix_cons_iff.mpr (.inr hstretch), hrest⟩

end

/-- **The kept windows of a run follow each other with overlaps if and only if no window between two of them has too
much beside the first one.** -/
theorem isChain_shares_iff [DecidableEq α] {us : List α} (hus : us.Nodup) (hoverlap : 0 < overlap)
    (keep : List α → Bool) :
    ((slide weight size overlap us).all.filter keep).IsChain Shares ↔
      ∀ w ds w', Adjacent keep (slide weight size overlap us).all w ds w' →
        ∀ d ∈ ds, (beside weight w d : Int) < overlap := by
  rw [isChain_filter_iff]
  refine forall_congr' fun w => forall_congr' fun ds => forall_congr' fun w' => forall_congr' fun hadj => ?_
  obtain ⟨ws, rest, hall⟩ := hadj.1
  have hsplit : (slide weight size overlap us).all = ws ++ w :: (ds ++ w' :: rest) := by
    rw [← hall]
    simp
  exact shares_iff hus hoverlap hsplit

end Sliding
