import ComplianceLoop.PyLib.Marks
import ComplianceLoop.PyLib.Words

/-!
# Functions that work run by run

A `RunMap` of a character class replaces the stretches of the class, each on its own, and copies every other character.
Such functions are equal when they are on the texts of the class (`RunMap.ext`), two of them that work on disjoint
classes can be exchanged (`RunMap.comm`), and those that work on white space can be exchanged with `strip`
(`RunMap.strip`). Substitutions of long runs are of this kind, and so is the reading of line endings.
-/

set_option autoImplicit false

namespace PyLib

/-- A text begins with a character that is not of the class, or with a whole stretch of the class. -/
theorem cases_front (p : Char → Bool) {t : Text} (hne : t ≠ []) : (∃ c u, t = c :: u ∧ p c = false) ∨
    ∃ r u, t = r ++ u ∧ r ≠ [] ∧ (∀ c ∈ r, p c = true) ∧ ∀ c ∈ u.head?, p c = false := by
  obtain ⟨c, u, rfl⟩ := List.exists_cons_of_ne_nil hne
  cases hc : p c with
  | false => exact .inl ⟨c, u, rfl, hc⟩
  | true =>
    refine .inr ⟨(c :: u).takeWhile p, (c :: u).dropWhile p, List.takeWhile_append_dropWhile.symm, ?_, ?_, ?_⟩
    · rw [List.takeWhile_cons_of_pos hc]
      exact List.cons_ne_nil _ _
    · exact fun d hd => List.mem_takeWhile_imp hd
    · intro d hd
      have := List.head?_dropWhile_not p (c :: u)
      rw [Option.mem_def] at hd
      rw [hd] at this
      simpa using this

/-- Induction over the stretches of two classes and the characters between them. -/
theorem runs_induction (p q : Char → Bool) {motive : Text → Prop} (nil : motive [])
    (other : ∀ c u, p c = false → q c = false → motive u → motive (c :: u))
    (first : ∀ r u, r ≠ [] → (∀ c ∈ r, p c = true) → (∀ c ∈ u.head?, p c = false) → motive u → motive (r ++ u))
    (second : ∀ r u, r ≠ [] → (∀ c ∈ r, q c = true) → (∀ c ∈ u.head?, q c = false) → motive u → motive (r ++ u))
    (t : Text) : motive t := by
  induction hl : t.length using Nat.strong_induction_on generalizing t with
  | _ n ih =>
    have hlt : ∀ {r u : Text}, r ≠ [] → t = r ++ u → motive u := by
      rintro r u hr rfl
      have := List.length_pos_iff.mpr hr
      exact ih u.length (by rw [← hl, List.length_append]; omega) u rfl
    by_cases hne : t = []
    · rw [hne]
      exact nil
    rcases cases_front p hne with ⟨c, u, rfl, hp⟩ | ⟨r, u, rfl, hr, hall, hu⟩
    · rcases cases_front q hne with ⟨d, v, hdv, hq⟩ | ⟨r, v, hrv, hr, hall, hv⟩
      · obtain ⟨rfl, rfl⟩ := List.cons_eq_cons.mp hdv
        exact other c u hp hq (hlt (List.cons_ne_nil c []) rfl)
      · have hrest := hlt hr hrv
        rw [hrv]
        exact second r v hr hall hv hrest
    · exact first r u hr hall hu (hlt hr rfl)

/-- A text of the class is one run. -/
theorem mapRuns_of_run {p : Char → Bool} {f : Text → Text} {r : Text} (hr : ∀ c ∈ r, p c = true) :
    mapRuns p f r = flush f r := by
  have hrun : ∀ (x run : Text), (∀ c ∈ x, p c = true) → mapRunsFrom p f run x = flush f (run ++ x) := by
    intro x
    induction x with
    | nil => exact fun run _ => by rw [mapRunsFrom, List.append_nil]
    | cons c x ih =>
      intro run hx
      obtain ⟨hc, hx⟩ := List.forall_mem_cons.mp hx
      rw [mapRunsFrom, if_pos hc, ih _ hx, List.append_assoc, List.singleton_append]
  exact hrun r [] hr

/-- Works on the stretches of a class, each on its own. -/
structure RunMap (p : Char → Bool) (F : Text → Text) : Prop where
  nil : F [] = []
  cut : ∀ (s : Text) (c : Char) (t : Text), p c = false → F (s ++ c :: t) = F s ++ c :: F t
  keeps : ∀ r : Text, (∀ c ∈ r, p c = true) → ∀ c ∈ F r, p c = true
  nonempty : ∀ r : Text, r ≠ [] → F r ≠ []

namespace RunMap

variable {p q : Char → Bool} {F G : Text → Text} {s t r : Text}

theorem cons (h : RunMap p F) {c : Char} (hc : p c = false) (t : Text) : F (c :: t) = c :: F t := by
  have := h.cut [] c t hc
  rwa [h.nil, List.nil_append, List.nil_append] at this

theorem append_of_head (h : RunMap p F) (ht : ∀ c ∈ t.head?, p c = false) (s : Text) : F (s ++ t) = F s ++ F t := by
  cases t with
  | nil => rw [List.append_nil, h.nil, List.append_nil]
  | cons c t => rw [h.cut s c t (ht c rfl), h.cons (ht c rfl)]

/-- A text without characters of the class is copied. -/
theorem append_of_none (h : RunMap p F) (t : Text) : ∀ {s : Text}, (∀ c ∈ s, p c = false) → F (s ++ t) = s ++ F t
  | [], _ => rfl
  | c :: s, hs => by
    obtain ⟨hc, hs⟩ := List.forall_mem_cons.mp hs
    rw [List.cons_append, h.cons hc, h.append_of_none t hs, List.cons_append]

theorem eq_nil_iff (h : RunMap p F) : F t = [] ↔ t = [] := by
  refine ⟨fun ht => ?_, ?_⟩
  · by_contra hne
    exact h.nonempty t hne ht
  · rintro rfl
    exact h.nil

/-- **Two functions that agree on the texts of the class are equal.** -/
theorem ext (hF : RunMap p F) (hG : RunMap p G) (h : ∀ r : Text, (∀ c ∈ r, p c = true) → F r = G r) (t : Text) :
    F t = G t := by
  induction t using runs_induction p p with
  | nil => rw [hF.nil, hG.nil]
  | other c u hc _ ih => rw [hF.cons hc, hG.cons hc, ih]
  | first r u _ hall hu ih => rw [hF.append_of_head hu, hG.append_of_head hu, h r hall, ih]
  | second r u _ hall hu ih => rw [hF.append_of_head hu, hG.append_of_head hu, h r hall, ih]

theorem comp (hF : RunMap p F) (hG : RunMap p G) : RunMap p (fun t => F (G t)) where
  nil := by rw [hG.nil, hF.nil]
  cut s c t hc := by rw [hG.cut s c t hc, hF.cut _ c _ hc]
  keeps r hr := hF.keeps _ (hG.keeps r hr)
  nonempty r hr := hF.nonempty _ (hG.nonempty r hr)

/-- The front of a text that is not of another class stays so. -/
theorem head_notMem (h : RunMap p F) (hd : ∀ c, p c = true → q c = false) (ht : ∀ c ∈ t.head?, q c = false) :
    ∀ c ∈ (F t).head?, q c = false := by
  by_cases hne : t = []
  · rw [hne, h.nil]
    exact fun c hc => nomatch hc
  rcases cases_front p hne with ⟨c, u, rfl, hc⟩ | ⟨r, u, rfl, hr, hall, hu⟩
  · rw [h.cons hc]
    exact ht
  · intro c hc
    rw [h.append_of_head hu, List.head?_append_of_ne_nil _ (h.nonempty r hr)] at hc
    exact hd c (h.keeps r hall c (List.mem_of_mem_head? hc))

/-- **Functions of disjoint classes can be exchanged.** -/
theorem comm (hF : RunMap p F) (hG : RunMap q G) (hd : ∀ c, p c = true → q c = false) (t : Text) :
    F (G t) = G (F t) := by
  have hd' : ∀ c, q c = true → p c = false := fun c hq => by
    cases hp : p c with
    | false => rfl
    | true => exact absurd (hq.symm.trans (hd c hp)) Bool.noConfusion
  induction t using runs_induction p q with
  | nil => rw [hF.nil, hG.nil, hF.nil]
  | other c u hp hq ih => rw [hG.cons hq, hF.cons hp, hF.cons hp, hG.cons hq, ih]
  | first r u _ hall hu ih =>
    have hnone : ∀ x : Text, (∀ c ∈ x, p c = true) → ∀ c ∈ x, q c = false := fun x hx c hc => hd c (hx c hc)
    rw [hF.append_of_head hu, hG.append_of_none _ (hnone r hall), hF.append_of_head (hG.head_notMem hd' hu),
      hG.append_of_none _ (hnone _ (hF.keeps r hall)), ih]
  | second r u _ hall hu ih =>
    have hnone : ∀ x : Text, (∀ c ∈ x, q c = true) → ∀ c ∈ x, p c = false := fun x hx c hc => hd' c (hx c hc)
    rw [hG.append_of_head hu, hF.append_of_none _ (hnone _ (hG.keeps r hall)), hF.append_of_none _ (hnone r hall),
      hG.append_of_head (hF.head_notMem hd hu), ih]

/-- The maximal runs replaced, where no run vanishes. -/
theorem mapRuns {f : Text → Text} (hf : ∀ r : Text, r ≠ [] → (∀ c ∈ r, p c = true) → f r ≠ [] ∧ ∀ c ∈ f r, p c = true) :
    RunMap p (mapRuns p f) where
  nil := mapRuns_nil
  cut s c t hc := mapRuns_append hc s t
  keeps r hr := mem_mapRuns (fun r hne hall => (hf r hne hall).2) hr
  nonempty r hr := by
    rcases cases_front p hr with ⟨c, u, rfl, hc⟩ | ⟨r, u, rfl, hr, hall, hu⟩
    · rw [mapRuns_cons hc]
      exact List.cons_ne_nil _ _
    · rw [mapRuns_append_of_head hu, mapRuns_of_run hall, flush, if_neg hr]
      exact fun h => (hf r hr hall).1 (List.append_eq_nil_iff.mp h).1

/-- Long runs that are replaced leave their trace, or there are none. -/
theorem mapRuns_long {n : Nat} (repl t : Text) :
    PyLib.mapRuns p (Regex.replaceLong n repl) t = t ∨
      n ≤ t.countP p ∧ repl.countP p ≤ (PyLib.mapRuns p (Regex.replaceLong n repl) t).countP p := by
  have hrun : ∀ {r u : Text}, r ≠ [] → (∀ c ∈ r, p c = true) → (∀ c ∈ u.head?, p c = false) →
      (PyLib.mapRuns p (Regex.replaceLong n repl) u = u ∨
        n ≤ u.countP p ∧ repl.countP p ≤ (PyLib.mapRuns p (Regex.replaceLong n repl) u).countP p) →
      (PyLib.mapRuns p (Regex.replaceLong n repl) (r ++ u) = r ++ u ∨ n ≤ (r ++ u).countP p ∧
        repl.countP p ≤ (PyLib.mapRuns p (Regex.replaceLong n repl) (r ++ u)).countP p) := by
    intro r u hr hall hu ih
    rw [mapRuns_append_of_head hu, mapRuns_of_run hall, flush, if_neg hr, Regex.replaceLong]
    simp only [List.countP_append]
    split
    · rename_i hl
      rw [List.countP_eq_length.mpr hall]
      exact .inr ⟨by omega, by omega⟩
    · rcases ih with ih | ⟨h1, h2⟩
      · exact .inl (by rw [ih])
      · exact .inr ⟨by omega, by omega⟩
  induction t using runs_induction p p with
  | nil => exact .inl rfl
  | other c u hc _ ih =>
    rw [mapRuns_cons hc, List.countP_cons, List.countP_cons]
    rcases ih with ih | ⟨h1, h2⟩
    · exact .inl (by rw [ih])
    · exact .inr ⟨by omega, by omega⟩
  | first r u hr hall hu ih => exact hrun hr hall hu ih
  | second r u hr hall hu ih => exact hrun hr hall hu ih

/-- Runs that have been shortened are not shortened again. -/
theorem mapRuns_mapRuns {n : Nat} {repl : Text} (hne : repl ≠ []) (hl : repl.length < n)
    (hp : ∀ c ∈ repl, p c = true) (t : Text) :
    PyLib.mapRuns p (Regex.replaceLong n repl) (PyLib.mapRuns p (Regex.replaceLong n repl) t) =
      PyLib.mapRuns p (Regex.replaceLong n repl) t := by
  have hrun : RunMap p (PyLib.mapRuns p (Regex.replaceLong n repl)) := by
    refine RunMap.mapRuns fun r hr hall => ?_
    unfold Regex.replaceLong
    split
    · exact ⟨hne, hp⟩
    · exact ⟨hr, hall⟩
  refine (hrun.comp hrun).ext hrun (fun r hr => ?_) t
  have hshort : ∀ {r : Text}, ¬ n ≤ r.length → flush (Regex.replaceLong n repl) r = r := by
    intro r hr
    rw [flush, Regex.replaceLong, if_neg hr]
    split
    · rename_i h
      exact h.symm
    · rfl
  rw [mapRuns_of_run hr]
  by_cases hlong : n ≤ r.length
  · have hne' : r ≠ [] := by
      rintro rfl
      rw [List.length_nil] at hlong
      omega
    rw [flush, if_neg hne', Regex.replaceLong, if_pos hlong, mapRuns_of_run hp, hshort (by omega)]
  · rw [hshort hlong, mapRuns_of_run hr, hshort hlong]

/-- A function of a smaller class is one of a larger class, if it does not leave that. -/
theorem mono (h : RunMap q F) (hq : ∀ c, q c = true → p c = true)
    (hkeeps : ∀ r : Text, (∀ c ∈ r, p c = true) → ∀ c ∈ F r, p c = true) : RunMap p F where
  nil := h.nil
  cut s c t hc := h.cut s c t (by
    cases hqc : q c with
    | false => rfl
    | true => exact absurd (hc.symm.trans (hq c hqc)) Bool.noConfusion)
  keeps := hkeeps
  nonempty := h.nonempty

/-- What keeps white space apart can be exchanged with `strip`. -/
theorem strip (h : RunMap p F) (hp : ∀ c, p c = true → isSpace c = true) (t : Text) :
    PyLib.strip (F t) = F (PyLib.strip t) := by
  have hmap : ∀ t, F t = PyLib.mapRuns p F t :=
    h.ext (RunMap.mapRuns fun r hne hr => ⟨h.nonempty r hne, h.keeps r hr⟩) fun r hr => by
      rw [mapRuns_of_run hr, flush]
      split
      · rename_i hnil
        rw [hnil, h.nil]
      · rfl
  rw [hmap, hmap]
  refine strip_mapRuns (fun c hc => ?_) (fun r _ hr c hc => hp c (h.keeps r hr c hc)) t
  cases hpc : p c with
  | false => rfl
  | true => exact absurd (hc.symm.trans (hp c hpc)) Bool.noConfusion

/-- Characters in the result that are not of the class have been copied. -/
theorem eq_append_of_none (h : RunMap p F) : ∀ {s t y : Text}, (∀ c ∈ s, p c = false) → F t = s ++ y →
    ∃ u, t = s ++ u ∧ F u = y
  | [], t, _, _, ht => ⟨t, rfl, ht⟩
  | c :: s, t, y, hs, ht => by
    obtain ⟨hc, hs'⟩ := List.forall_mem_cons.mp hs
    have hne : t ≠ [] := by
      rintro rfl
      rw [h.nil] at ht
      cases ht
    rcases cases_front p hne with ⟨d, u, rfl, hd⟩ | ⟨r, u, rfl, hr, hall, hu⟩
    · rw [h.cons hd, List.cons_append] at ht
      obtain ⟨rfl, hrest⟩ := List.cons_eq_cons.mp ht
      obtain ⟨v, rfl, hv⟩ := h.eq_append_of_none hs' hrest
      exact ⟨v, rfl, hv⟩
    · obtain ⟨d, r', hd⟩ := List.exists_cons_of_ne_nil (h.nonempty r hr)
      rw [h.append_of_head hu, hd, List.cons_append, List.cons_append] at ht
      have hpd := h.keeps r hall d (hd ▸ List.mem_cons_self)
      rw [(List.cons_eq_cons.mp ht).1, hc] at hpd
      cases hpd

/-- A character in the result that is not of the class has been copied, with what stands on both sides of it. -/
theorem exists_cut (h : RunMap p F) {c : Char} (hc : p c = false) : ∀ {t x y : Text}, F t = x ++ c :: y →
    ∃ a b, t = a ++ c :: b ∧ F a = x ∧ F b = y := by
  intro t
  induction t using runs_induction p p with
  | nil =>
    intro x y ht
    rw [h.nil] at ht
    cases x <;> cases ht
  | other d u hd _ ih =>
    intro x y ht
    rw [h.cons hd] at ht
    cases x with
    | nil =>
      obtain ⟨rfl, hy⟩ := List.cons_eq_cons.mp ht
      exact ⟨[], u, rfl, h.nil, hy⟩
    | cons e x =>
      obtain ⟨rfl, hrest⟩ := List.cons_eq_cons.mp ht
      obtain ⟨a, b, rfl, ha, hb⟩ := ih hrest
      exact ⟨d :: a, b, rfl, by rw [h.cons hd, ha], hb⟩
  | first r u hr hall hu ih | second r u hr hall hu ih =>
    intro x y ht
    rw [h.append_of_head hu] at ht
    -- the character stands behind the run
    obtain ⟨x', rfl, hrest⟩ : ∃ x', x = F r ++ x' ∧ F u = x' ++ c :: y := by
      rcases List.append_eq_append_iff.mp ht with ⟨x', hx, hrest⟩ | ⟨z, hx, hz⟩
      · exact ⟨x', hx, hrest⟩
      · cases z with
        | nil => exact ⟨[], by simpa using hx.symm, by simpa using hz.symm⟩
        | cons e z =>
          obtain ⟨rfl, -⟩ := List.cons_eq_cons.mp hz
          have hpc := h.keeps r hall c (by rw [hx]; simp)
          rw [hc] at hpc
          cases hpc
    obtain ⟨a, b, rfl, rfl, hb⟩ := ih hrest
    have hhead : ∀ d ∈ a.head?, p d = false := by
      intro d hd
      cases a with
      | nil => cases hd
      | cons e a => exact hu d hd
    exact ⟨r ++ a, b, (List.append_assoc r a _).symm, h.append_of_head hhead r, hb⟩

theorem mem_iff (h : RunMap p F) {c : Char} (hc : p c = false) : c ∈ F t ↔ c ∈ t := by
  constructor
  · intro hmem
    obtain ⟨x, y, hxy⟩ := List.append_of_mem hmem
    obtain ⟨a, b, rfl, -⟩ := h.exists_cut hc hxy
    exact List.mem_append_right a List.mem_cons_self
  · intro hmem
    obtain ⟨a, b, rfl⟩ := List.append_of_mem hmem
    rw [h.cut a c b hc]
    exact List.mem_append_right _ List.mem_cons_self

theorem count_eq (h : RunMap p F) {c : Char} (hc : p c = false) (t : Text) : (F t).count c = t.count c := by
  have hnone : ∀ {r : Text}, (∀ d ∈ r, p d = true) → r.count c = 0 := fun hr =>
    List.count_eq_zero.mpr fun hmem => absurd ((hr c hmem).symm.trans hc) Bool.noConfusion
  induction t using runs_induction p p with
  | nil => rw [h.nil]
  | other d u hd _ ih => rw [h.cons hd, List.count_cons, List.count_cons, ih]
  | first r u _ hall hu ih | second r u _ hall hu ih =>
    rw [h.append_of_head hu, List.count_append, List.count_append, ih, hnone hall, hnone (h.keeps r hall)]

/-- White space in the result has come from white space. -/
theorem eq_append_of_space (h : RunMap p F) (hp : ∀ c, p c = true → isSpace c = true) {ws y : Text}
    (hws : ∀ c ∈ ws, isSpace c = true) (hy : ∃ c, y.head? = some c ∧ isSpace c = false) : ∀ {t : Text}, F t = ws ++ y →
      ∃ ws' u, t = ws' ++ u ∧ (∀ c ∈ ws', isSpace c = true) ∧ (ws ≠ [] → ws' ≠ []) ∧ F u = y := by
  intro t ht
  induction hl : t.length using Nat.strong_induction_on generalizing t ws with
  | _ n ih =>
    cases hnil : ws with
    | nil => exact ⟨[], t, rfl, List.forall_mem_nil _, fun hne => absurd rfl hne, by rw [ht, hnil, List.nil_append]⟩
    | cons e ws₀ =>
      rw [← hnil]
      have hne : t ≠ [] := by
        rintro rfl
        rw [h.nil, hnil] at ht
        cases ht
      rcases cases_front p hne with ⟨c, u, rfl, hc⟩ | ⟨r, u, rfl, hr, hall, hu⟩
      · rw [h.cons hc, hnil, List.cons_append] at ht
        obtain ⟨rfl, hrest⟩ := List.cons_eq_cons.mp ht
        rw [hnil] at hws
        obtain ⟨hspace, hws₀⟩ := List.forall_mem_cons.mp hws
        obtain ⟨ws', v, rfl, hws', -, hv⟩ := ih u.length (by rw [← hl, List.length_cons]; omega) hws₀ hrest rfl
        exact ⟨c :: ws', v, rfl, List.forall_mem_cons.mpr ⟨hspace, hws'⟩, fun _ => List.cons_ne_nil _ _, hv⟩
      · rw [h.append_of_head hu] at ht
        -- the stretch of the result ends before the character that is no white space
        obtain ⟨x, hx, hFu⟩ : ∃ x, ws = F r ++ x ∧ F u = x ++ y := by
          rcases List.append_eq_append_iff.mp ht with ⟨x, hx, hFu⟩ | ⟨x, hx, hy'⟩
          · exact ⟨x, hx, hFu⟩
          · cases x with
            | nil => exact ⟨[], by simpa using hx.symm, by simpa using hy'.symm⟩
            | cons d x =>
              obtain ⟨c, hc, hspace⟩ := hy
              rw [hy', List.cons_append] at hc
              obtain rfl := Option.some.inj hc
              have hpd := hp d (h.keeps r hall d (by rw [hx]; simp))
              rw [hspace] at hpd
              cases hpd
        have hlt : u.length < n := by
          have := List.length_pos_iff.mpr hr
          rw [← hl, List.length_append]
          omega
        obtain ⟨ws', v, rfl, hws', -, hv⟩ := ih u.length hlt
          (fun c hc => hws c (by rw [hx]; exact List.mem_append_right _ hc)) hFu rfl
        refine ⟨r ++ ws', v, by rw [List.append_assoc], ?_, fun _ hnil => hr (List.append_eq_nil_iff.mp hnil).1, hv⟩
        intro c hc
        rcases List.mem_append.mp hc with hc | hc
        · exact hp c (hall c hc)
        · exact hws' c hc

end RunMap

/-! ## Patterns that match alike -/

namespace Regex

variable {p : Char → Bool} {r s : Regex}

/-- Patterns with the same matches substitute alike. -/
theorem sub_congr (h : r.ends = s.ends) (repl t : Text) : r.sub repl t = s.sub repl t := by
  have hpred : r.matchPred = s.matchPred := by
    funext prev t
    rw [matchPred, matchPred, h]
  have hfrom : ∀ (t : Text) (k : Nat) (prev : Option Char), r.subFrom repl k prev t = s.subFrom repl k prev t := by
    intro t
    induction t with
    | nil => exact fun _ _ => by rw [subFrom, subFrom]
    | cons c t ih =>
      rintro (_ | k) prev
      · rw [subFrom, subFrom, hpred]
        split <;> simp only [ih]
      · rw [subFrom, subFrom, ih]
  rw [sub_eq_subFrom, sub_eq_subFrom, hfrom]

/-- The matches behind a character of the class. -/
def endsBehind (p : Char → Bool) (f : Option Char → Text → List Nat) : Option Char → Text → List Nat
  | _, [] => []
  | _, c :: t => if p c then (f (Option.some c) t).map (1 + ·) else []

theorem ends_char_cat : (cat (.char p) r).ends = endsBehind p r.ends := by
  funext prev t
  cases t with
  | nil => rfl
  | cons c t =>
    rw [ends, ends, endsBehind]
    split <;> simp [before]

theorem ends_atLeast_zero : (atLeast p 0).ends = (many p).ends := by
  funext prev t
  simp [atLeast, times, ends]

theorem ends_atLeast_succ {n : Nat} : (atLeast p (n + 1)).ends = endsBehind p (atLeast p n).ends := by
  funext prev t
  cases t with
  | nil => rfl
  | cons c t =>
    rw [atLeast, times, ends, ends_char_cat, endsBehind, endsBehind, atLeast]
    split
    · simp [ends, List.flatMap_map, List.map_flatMap, Function.comp_def, Nat.add_assoc, Nat.add_comm 1]
    · rfl

end Regex

theorem strip_strip (t : Text) : strip (strip t) = strip t := by
  obtain ⟨-, -, -, -, -, hhead, hlast⟩ := exists_strip t
  exact strip_eq_self hhead hlast

end PyLib
