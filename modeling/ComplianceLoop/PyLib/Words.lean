import ComplianceLoop.PyLib.Places
import ComplianceLoop.PyLib.Matching

/-!
# Words, lines and runs

`words` is `str.split` without an argument, `lines` is `t.split("\n")`. Both take a text apart at a separator
(`words_append_space`, `lines_append_newline`), and everything about them comes from that. `mapRuns` replaces the
maximal runs of a character class; the substitution of `[p]{n,}` is one of that kind (`sub_atLeast`).
-/

set_option autoImplicit false

namespace PyLib

/-! ## Words -/

/-- `t.split()`. -/
def words (t : Text) : List Text := (t.splitOnP isSpace).filter (· ≠ [])

theorem words_append_space {c : Char} (hc : isSpace c = true) (s t : Text) :
    words (s ++ c :: t) = words s ++ words t := by
  rw [words, List.splitOnP_append_cons s t hc, List.filter_append, words, words]

theorem words_nil : words [] = [] := by simp [words]

theorem words_space_cons {c : Char} (hc : isSpace c = true) (t : Text) : words (c :: t) = words t := by
  have := words_append_space hc [] t
  rwa [words_nil, List.nil_append, List.nil_append] at this

theorem words_append_single {c : Char} (hc : isSpace c = true) (s : Text) : words (s ++ [c]) = words s := by
  rw [words_append_space hc, words_nil, List.append_nil]

theorem words_spaces_append {r : Text} (hr : ∀ c ∈ r, isSpace c = true) (t : Text) : words (r ++ t) = words t := by
  induction r with
  | nil => rfl
  | cons c r ih =>
    obtain ⟨hc, hr⟩ := List.forall_mem_cons.mp hr
    rw [List.cons_append, words_space_cons hc, ih hr]

/-- White space between two texts separates their words. -/
theorem words_append_spaces {r : Text} (hne : r ≠ []) (hr : ∀ c ∈ r, isSpace c = true) (s t : Text) :
    words (s ++ (r ++ t)) = words s ++ words t := by
  obtain ⟨c, r, rfl⟩ := List.exists_cons_of_ne_nil hne
  obtain ⟨hc, hr⟩ := List.forall_mem_cons.mp hr
  rw [List.cons_append, words_append_space hc, words_spaces_append hr]

/-- There is white space where the two texts meet. -/
def MeetAtSpace (s t : Text) : Prop := (∃ c ∈ s.getLast?, isSpace c = true) ∨ ∃ c ∈ t.head?, isSpace c = true

theorem words_append_of_meet {s t : Text} (h : MeetAtSpace s t) : words (s ++ t) = words s ++ words t := by
  rcases h with ⟨c, hc, hs⟩ | ⟨c, hc, hs⟩
  · obtain ⟨u, rfl⟩ := List.getLast?_eq_some_iff.mp hc
    rw [List.append_assoc, List.singleton_append, words_append_space hs, words_append_single hs]
  · obtain ⟨u, rfl⟩ := List.head?_eq_some_iff.mp hc
    rw [words_append_space hs, words_space_cons hs]

theorem words_append_right {r : Text} (hr : ∀ c ∈ r, isSpace c = true) (s : Text) : words (s ++ r) = words s := by
  cases r with
  | nil => rw [List.append_nil]
  | cons c r =>
    have := words_append_spaces (List.cons_ne_nil c r) hr s []
    rwa [List.append_nil, words_nil, List.append_nil] at this

/-- A text with white space around it has the words of the text. -/
theorem words_strip (t : Text) : words (strip t) = words t := by
  have hfront : words (t.dropWhile isSpace) = words t := by
    have := words_spaces_append (r := t.takeWhile isSpace) (fun c hc => List.mem_takeWhile_imp hc) (t.dropWhile isSpace)
    rwa [List.takeWhile_append_dropWhile, eq_comm] at this
  have hback := words_append_right (r := (t.dropWhile isSpace).rtakeWhile isSpace)
    (fun c hc => List.mem_rtakeWhile_imp hc) ((t.dropWhile isSpace).rdropWhile isSpace)
  rw [List.rdropWhile_append_rtakeWhile] at hback
  rw [strip_eq, ← hfront, hback]

/-- A character that is no white space goes to the first piece. -/
theorem words_cons {c : Char} (hc : isSpace c = false) {t q : Text} {qs : List Text}
    (h : t.splitOnP isSpace = q :: qs) : words (c :: t) = (c :: q) :: qs.filter (· ≠ []) := by
  rw [words, List.splitOnP_cons_eq_if_modifyHead, hc, if_neg Bool.false_ne_true, h, List.modifyHead_cons]
  rfl

theorem flatten_filter_ne_nil (ts : List Text) : (ts.filter (· ≠ [])).flatten = ts.flatten := by
  induction ts with
  | nil => rfl
  | cons t ts ih => cases t <;> simp_all

/-- The words hold the characters that are no white space. -/
theorem flatten_words (t : Text) : (words t).flatten = t.filter (!isSpace ·) := by
  rw [words, flatten_filter_ne_nil]
  induction t with
  | nil => rfl
  | cons c t ih =>
    obtain ⟨q, qs, h⟩ := List.exists_cons_of_ne_nil (List.splitOnP_ne_nil isSpace t)
    rw [List.splitOnP_cons_eq_if_modifyHead]
    cases hc : isSpace c with
    | true => simp [hc, ih]
    | false =>
      rw [h] at ih ⊢
      simp [hc, ← ih]

theorem words_eq_nil_iff {t : Text} : words t = [] ↔ ∀ c ∈ t, isSpace c = true := by
  constructor
  · intro h
    have hf := flatten_words t
    rw [h, List.flatten_nil, eq_comm, List.filter_eq_nil_iff] at hf
    simpa using hf
  · intro h
    have := words_spaces_append h []
    rwa [List.append_nil, words_nil] at this

/-- Between two words there is a character at least. -/
theorem length_words_le (t : Text) : (words t).flatten.length + (words t).length ≤ t.length + 1 := by
  have hall : (t.splitOnP isSpace).flatten.length + (t.splitOnP isSpace).length = t.length + 1 := by
    induction t with
    | nil => rfl
    | cons c t ih =>
      obtain ⟨q, qs, h⟩ := List.exists_cons_of_ne_nil (List.splitOnP_ne_nil isSpace t)
      rw [List.splitOnP_cons_eq_if_modifyHead]
      rw [h] at ih ⊢
      split <;> simp at ih ⊢ <;> omega
  have hle : (words t).length ≤ (t.splitOnP isSpace).length := List.length_filter_le _ _
  rw [words, flatten_filter_ne_nil] at *
  omega

/-- A character more at the front makes a word more when it does not stand before a word. -/
theorem length_words_cons {c : Char} (hc : isSpace c = false) (t : Text) :
    (words (c :: t)).length = (words t).length + if t.head?.any (!isSpace ·) then 0 else 1 := by
  cases t with
  | nil => simp [words_cons hc List.splitOnP_nil, words_nil]
  | cons d t =>
    obtain ⟨q, qs, h⟩ := List.exists_cons_of_ne_nil (List.splitOnP_ne_nil isSpace t)
    cases hd : isSpace d with
    | true =>
      have hs : (d :: t).splitOnP isSpace = [] :: t.splitOnP isSpace := by
        rw [List.splitOnP_cons_eq_if_modifyHead, hd, if_pos rfl]
      rw [words_cons hc hs, words_space_cons hd, words]
      simp [hd]
    | false =>
      have hs : (d :: t).splitOnP isSpace = (d :: q) :: qs := by
        rw [List.splitOnP_cons_eq_if_modifyHead, hd, if_neg Bool.false_ne_true, h, List.modifyHead_cons]
      rw [words_cons hc hs, words_cons hd h]
      simp [hd]

/-- Two texts that meet inside a word have a word less. -/
theorem length_words_append {t : Text} {d : Char} (ht : t.head? = some d) (hd : isSpace d = false) :
    ∀ {s : Text} {c : Char}, s.getLast? = some c → isSpace c = false →
      (words (s ++ t)).length + 1 = (words s).length + (words t).length
  | [], _, h, _ => by cases h
  | [x], c, h, hc => by
    obtain rfl : x = c := Option.some.inj h
    rw [List.singleton_append, length_words_cons hc, length_words_cons hc, ht]
    simp [hd, words_nil]
    omega
  | x :: y :: s, c, h, hc => by
    have ih := length_words_append ht hd (s := y :: s) (by rwa [List.getLast?_cons_cons] at h) hc
    cases hx : isSpace x with
    | true => rwa [List.cons_append, words_space_cons hx, words_space_cons hx]
    | false =>
      rw [List.cons_append, length_words_cons hx, length_words_cons hx, List.cons_append, List.head?_cons,
        List.head?_cons]
      rw [List.cons_append] at ih
      omega

/-! ## `str.strip` -/

/-- White space around a text does not matter to `strip`. -/
theorem strip_append_spaces {l r : Text} (hl : ∀ c ∈ l, isSpace c = true) (hr : ∀ c ∈ r, isSpace c = true) (s : Text) :
    strip (l ++ (s ++ r)) = strip s := by
  have hback : ∀ x : Text, (x ++ r).rdropWhile isSpace = x.rdropWhile isSpace := by
    intro x
    rw [List.rdropWhile, List.reverse_append, List.dropWhile_append_of_pos (by simpa using hr), List.rdropWhile]
  rw [strip_eq, strip_eq, List.dropWhile_append_of_pos hl, List.dropWhile_append]
  split
  · rename_i h
    rw [List.isEmpty_iff.mp h, List.dropWhile_eq_nil_iff.mpr hr]
  · exact hback _

/-- A text that neither starts nor ends with white space. -/
theorem strip_eq_self {s : Text} (hs : ∀ c ∈ s.head?, isSpace c = false) (ht : ∀ c ∈ s.getLast?, isSpace c = false) :
    strip s = s := by
  have hfront : s.dropWhile isSpace = s := by
    cases s with
    | nil => rfl
    | cons c s => rw [List.dropWhile_cons_of_neg (by simp [hs c rfl])]
  rw [strip_eq, hfront, List.rdropWhile_eq_self_iff]
  intro hne
  simp [ht _ (List.getLast?_eq_some_getLast hne)]

/-- What `strip` takes off, and what it leaves. -/
theorem exists_strip (s : Text) : ∃ l r : Text, s = l ++ (strip s ++ r) ∧ (∀ c ∈ l, isSpace c = true) ∧
    (∀ c ∈ r, isSpace c = true) ∧ (∀ c ∈ (strip s).head?, isSpace c = false) ∧
      ∀ c ∈ (strip s).getLast?, isSpace c = false := by
  refine ⟨s.takeWhile isSpace, (s.dropWhile isSpace).rtakeWhile isSpace, ?_, fun c hc => List.mem_takeWhile_imp hc,
    fun c hc => List.mem_rtakeWhile_imp hc, fun c hc => ?_, fun c hc => ?_⟩
  · rw [strip_eq, List.rdropWhile_append_rtakeWhile, List.takeWhile_append_dropWhile]
  · obtain ⟨t, ht⟩ := List.head?_eq_some_iff.mp hc
    exact isSpace_head_strip ht
  · have hne : strip s ≠ [] := by
      rintro h
      rw [h] at hc
      cases hc
    have hlast := List.rdropWhile_last_not isSpace (s.dropWhile isSpace) hne
    rw [List.getLast?_eq_some_getLast hne] at hc
    obtain rfl := Option.some.inj hc
    simpa [strip_eq] using hlast

/-- `strip` leaves the first character that is no white space in front. -/
theorem head?_strip (t : Text) : (strip t).head? = (words t).flatten.head? := by
  obtain ⟨l, r, ht, hl, hr, hhead, -⟩ := exists_strip t
  have hfind : t.find? (!isSpace ·) = (strip t).head? := by
    have hln : l.find? (!isSpace ·) = none := List.find?_eq_none.mpr fun c hc => by simp [hl c hc]
    have hrn : r.find? (!isSpace ·) = none := List.find?_eq_none.mpr fun c hc => by simp [hr c hc]
    rw [ht, List.find?_append, List.find?_append, hln, hrn, ← ht]
    cases hs : strip t with
    | nil => rfl
    | cons c s =>
      rw [hs] at hhead
      simp [hhead c rfl]
  rw [flatten_words, List.head?_filter, hfind]

/-- A text with words inside another one stays inside it when both are stripped. -/
theorem strip_infix_strip {s t : Text} (h : s <:+: t) : strip s <:+: strip t := by
  obtain ⟨l, r, hs, -, -, hhead, hlast⟩ := exists_strip s
  obtain ⟨u, v, rfl⟩ := h
  generalize strip s = core at hs hhead hlast ⊢
  subst hs
  cases core with
  | nil => exact List.nil_infix
  | cons c core =>
    have hfront : ∀ x z : Text, ∃ y, (x ++ (c :: z)).dropWhile isSpace = y ++ (c :: z) := by
      intro x z
      rw [List.dropWhile_append]
      split
      · exact ⟨[], by rw [List.dropWhile_cons_of_neg (by simp [hhead c rfl]), List.nil_append]⟩
      · exact ⟨_, rfl⟩
    have hback : ∀ x y : Text, ∃ z, (y ++ (c :: core) ++ x).rdropWhile isSpace = y ++ (c :: core) ++ z := by
      intro x y
      have hd : ∃ u d, y ++ (c :: core) = u ++ [d] ∧ isSpace d = false := by
        obtain ⟨u, d, hu⟩ := (List.eq_nil_or_concat' (c :: core)).resolve_left (List.cons_ne_nil c core)
        exact ⟨y ++ u, d, by rw [hu, List.append_assoc], hlast d (by rw [hu]; simp)⟩
      obtain ⟨u, d, hu, hd⟩ := hd
      rw [hu, List.rdropWhile, List.reverse_append, List.dropWhile_append]
      split
      · exact ⟨[], by simp [hd]⟩
      · exact ⟨(x.reverse.dropWhile isSpace).reverse, by simp⟩
    obtain ⟨y, hy⟩ := hfront (u ++ l) (core ++ (r ++ v))
    obtain ⟨z, hz⟩ := hback (r ++ v) y
    have ht : strip (u ++ (l ++ (c :: core ++ r)) ++ v) = y ++ (c :: core) ++ z := by
      rw [strip_eq, ← hz]
      simp only [List.append_assoc, List.cons_append] at hy ⊢
      rw [hy]
    rw [ht]
    exact ⟨y, z, rfl⟩

/-! ## Lines -/

/-- `t.split("\n")`. -/
def lines (t : Text) : List Text := t.splitOn '\n'

theorem lines_append_newline (s t : Text) : lines (s ++ '\n' :: t) = lines s ++ lines t :=
  List.splitOn_append_cons_self s t

theorem lines_of_notMem {t : Text} (h : '\n' ∉ t) : lines t = [t] := List.splitOn_eq_singleton h

/-- A function that works line by line. -/
theorem lines_map {g : Text → Text} (hg : ∀ s t, g (s ++ '\n' :: t) = g s ++ '\n' :: g t)
    (hn : ∀ s, '\n' ∉ s → '\n' ∉ g s) (t : Text) : lines (g t) = (lines t).map g := by
  induction hl : t.length using Nat.strong_induction_on generalizing t with
  | _ n ih =>
    by_cases h : '\n' ∈ t
    · obtain ⟨a, b, rfl, ha⟩ := List.eq_append_cons_of_mem h
      have hb : b.length < n := by
        rw [← hl]
        simp
        omega
      rw [hg, lines_append_newline, lines_append_newline, lines_of_notMem ha, lines_of_notMem (hn a ha), ih _ hb b rfl,
        List.map_append, List.map_singleton]
    · rw [lines_of_notMem h, lines_of_notMem (hn t h), List.map_singleton]

/-- Lines that are joined with newlines, when an empty line counts for nothing. -/
theorem flatMap_lines_intercalate {β : Type} {w : Text → List β} (hw : w [] = []) (ts : List Text) :
    (lines (['\n'].intercalate ts)).flatMap w = ts.flatMap fun t => (lines t).flatMap w := by
  induction ts with
  | nil => simp [lines, hw]
  | cons t ts ih =>
    cases ts with
    | nil => simp
    | cons u ts =>
      rw [List.intercalate_cons_cons, List.append_assoc, List.singleton_append, lines_append_newline,
        List.flatMap_append, ih]
      rfl

theorem words_intercalate (ts : List Text) : words (['\n'].intercalate ts) = ts.flatMap words := by
  induction ts with
  | nil => exact words_nil
  | cons t ts ih =>
    cases ts with
    | nil => simp
    | cons u ts =>
      rw [List.intercalate_cons_cons, List.append_assoc, List.singleton_append, words_append_space (by decide), ih]
      rfl

/-! ## Runs of a character class -/

/-- A run that has ended. -/
def flush (f : Text → Text) (run : Text) : Text := if run = [] then [] else f run

/-- Every maximal run of `p` replaced, where `run` has been read of the current one. -/
def mapRunsFrom (p : Char → Bool) (f : Text → Text) : Text → Text → Text
  | run, [] => flush f run
  | run, c :: t => if p c then mapRunsFrom p f (run ++ [c]) t else flush f run ++ c :: mapRunsFrom p f [] t

/-- Every maximal run of `p` replaced. -/
def mapRuns (p : Char → Bool) (f : Text → Text) (t : Text) : Text := mapRunsFrom p f [] t

section

variable {p : Char → Bool} {f : Text → Text}

theorem mapRunsFrom_append {c : Char} (hc : p c = false) (t : Text) : ∀ (run s : Text),
    mapRunsFrom p f run (s ++ c :: t) = mapRunsFrom p f run s ++ c :: mapRuns p f t
  | run, [] => by simp [mapRunsFrom, hc, mapRuns]
  | run, d :: s => by
    rw [List.cons_append, mapRunsFrom, mapRunsFrom, mapRunsFrom_append hc t, mapRunsFrom_append hc t]
    split
    · rfl
    · rw [List.append_assoc, List.cons_append]

/-- A character outside the class ends a run. -/
theorem mapRuns_append {c : Char} (hc : p c = false) (s t : Text) :
    mapRuns p f (s ++ c :: t) = mapRuns p f s ++ c :: mapRuns p f t := mapRunsFrom_append hc t [] s

/-- Replacing runs does not change what does not depend on their lengths. -/
theorem mapRuns_invariant {β : Type} {F : Text → List β}
    (hF : ∀ (s r t : Text), r ≠ [] → (∀ c ∈ r, p c = true) → F (s ++ (r ++ t)) = F s ++ F t)
    (hf : ∀ r : Text, r ≠ [] → (∀ c ∈ r, p c = true) → f r ≠ [] ∧ ∀ c ∈ f r, p c = true) (t : Text) :
    F (mapRuns p f t) = F t := by
  have hflush : ∀ (run s t : Text), (∀ c ∈ run, p c = true) → F (s ++ (flush f run ++ t)) = F (s ++ (run ++ t)) := by
    intro run s t hrun
    unfold flush
    split
    · rename_i h
      rw [h]
    · rename_i h
      obtain ⟨h1, h2⟩ := hf run h hrun
      rw [hF s _ t h1 h2, hF s run t h hrun]
  have hfrom : ∀ (t run s : Text), (∀ c ∈ run, p c = true) → F (s ++ mapRunsFrom p f run t) = F (s ++ (run ++ t)) := by
    intro t
    induction t with
    | nil =>
      intro run s hrun
      have := hflush run s [] hrun
      rwa [List.append_nil] at this
    | cons c t ih =>
      intro run s hrun
      rw [mapRunsFrom]
      split
      · rename_i hc
        rw [ih (run ++ [c]) s, List.append_assoc, List.singleton_append]
        simpa [or_imp, forall_and] using ⟨hrun, hc⟩
      · have h1 := ih [] (s ++ (flush f run ++ [c])) (List.forall_mem_nil _)
        have h2 := hflush run s (c :: t) hrun
        simp only [List.append_assoc, List.singleton_append, List.nil_append] at h1
        rw [h1, h2]
  exact hfrom t [] [] (List.forall_mem_nil _)

theorem mem_flush {run : Text} {c : Char} (h : c ∈ flush f run) : run ≠ [] ∧ c ∈ f run := by
  unfold flush at h
  split at h
  · cases h
  · exact ⟨‹_›, h⟩

/-- The text has the characters of what the runs are replaced with, and those of the text. -/
theorem mem_mapRuns {q : Char → Prop} (hf : ∀ r : Text, r ≠ [] → (∀ c ∈ r, p c = true) → ∀ c ∈ f r, q c) {t : Text}
    (ht : ∀ c ∈ t, q c) : ∀ c ∈ mapRuns p f t, q c := by
  have hfrom : ∀ (t run : Text), (∀ c ∈ run, p c = true) → (∀ c ∈ t, q c) → ∀ c ∈ mapRunsFrom p f run t, q c := by
    intro t
    induction t with
    | nil =>
      intro run hrun _ c hc
      obtain ⟨hne, hc⟩ := mem_flush hc
      exact hf run hne hrun c hc
    | cons d t ih =>
      intro run hrun ht c hc
      obtain ⟨hd, ht⟩ := List.forall_mem_cons.mp ht
      rw [mapRunsFrom] at hc
      split at hc
      · rename_i hpd
        refine ih (run ++ [d]) ?_ ht c hc
        simpa [or_imp, forall_and] using ⟨hrun, hpd⟩
      · rcases List.mem_append.mp hc with hc | hc
        · obtain ⟨hne, hc⟩ := mem_flush hc
          exact hf run hne hrun c hc
        · rcases List.mem_cons.mp hc with rfl | hc
          · exact hd
          · exact ih [] (List.forall_mem_nil _) ht c hc
  exact hfrom t [] (List.forall_mem_nil _) ht

theorem mapRuns_nil : mapRuns p f [] = [] := rfl

theorem mapRuns_cons {c : Char} (hc : p c = false) (t : Text) : mapRuns p f (c :: t) = c :: mapRuns p f t :=
  mapRuns_append hc [] t

theorem mapRuns_append_of_head {t : Text} (ht : ∀ c ∈ t.head?, p c = false) (s : Text) :
    mapRuns p f (s ++ t) = mapRuns p f s ++ mapRuns p f t := by
  cases t with
  | nil => rw [List.append_nil, mapRuns_nil, List.append_nil]
  | cons c t => rw [mapRuns_append (ht c rfl), mapRuns_cons (ht c rfl)]

theorem mapRuns_append_of_last {s : Text} (hs : ∀ c ∈ s.getLast?, p c = false) (t : Text) :
    mapRuns p f (s ++ t) = mapRuns p f s ++ mapRuns p f t := by
  rcases List.eq_nil_or_concat' s with rfl | ⟨u, c, rfl⟩
  · rfl
  · have hc : p c = false := hs c (by simp)
    rw [List.append_assoc, List.singleton_append, mapRuns_append hc, mapRuns_append hc, mapRuns_nil, List.append_assoc,
      List.singleton_append]

/-- A text that neither starts nor ends with a character of the class, between two others. -/
theorem mapRuns_middle {s : Text} (hne : s ≠ []) (hhead : ∀ c ∈ s.head?, p c = false)
    (hlast : ∀ c ∈ s.getLast?, p c = false) (l r : Text) :
    mapRuns p f (l ++ (s ++ r)) = mapRuns p f l ++ (mapRuns p f s ++ mapRuns p f r) := by
  rw [mapRuns_append_of_head, mapRuns_append_of_last hlast]
  rwa [List.head?_append_of_ne_nil _ hne]

/-- The ends of a text that are not in the class stay. -/
theorem mapRuns_ends {s : Text} (hhead : ∀ c ∈ s.head?, p c = false) (hlast : ∀ c ∈ s.getLast?, p c = false) :
    (mapRuns p f s).head? = s.head? ∧ (mapRuns p f s).getLast? = s.getLast? := by
  constructor
  · cases s with
    | nil => rfl
    | cons c s => rw [mapRuns_cons (hhead c rfl), List.head?_cons, List.head?_cons]
  · rcases List.eq_nil_or_concat' s with rfl | ⟨u, c, rfl⟩
    · rfl
    · rw [mapRuns_append (hlast c (by simp)), mapRuns_nil]
      simp

/-- A stripped text with its runs of white space replaced by white space. -/
theorem strip_mapRuns (hp : ∀ c, isSpace c = false → p c = false)
    (hf : ∀ r : Text, r ≠ [] → (∀ c ∈ r, p c = true) → ∀ c ∈ f r, isSpace c = true) (t : Text) :
    strip (mapRuns p f t) = mapRuns p f (strip t) := by
  obtain ⟨l, r, ht, hl, hr, hhead, hlast⟩ := exists_strip t
  have hh : ∀ c ∈ (strip t).head?, p c = false := fun c hc => hp c (hhead c hc)
  have hl' : ∀ c ∈ (strip t).getLast?, p c = false := fun c hc => hp c (hlast c hc)
  by_cases hne : strip t = []
  · rw [hne, List.nil_append] at ht
    have hall : ∀ c ∈ t, isSpace c = true := by
      rw [ht]
      exact fun c hc => (List.mem_append.mp hc).elim (hl c) (hr c)
    have := strip_append_spaces (mem_mapRuns hf hall) (List.forall_mem_nil _) []
    rw [List.append_nil, List.append_nil] at this
    rw [this, hne]
    rfl
  · obtain ⟨h1, h2⟩ := mapRuns_ends (f := f) hh hl'
    nth_rewrite 1 [ht]
    rw [mapRuns_middle hne hh hl', strip_append_spaces (mem_mapRuns hf hl) (mem_mapRuns hf hr)]
    exact strip_eq_self (h1 ▸ hhead) (h2 ▸ hlast)

/-- A part with its runs replaced is a part of the whole with its runs replaced. -/
theorem mapRuns_infix_of_ends {s t : Text} (h : s <:+: t) (hhead : ∀ c ∈ s.head?, p c = false)
    (hlast : ∀ c ∈ s.getLast?, p c = false) : mapRuns p f s <:+: mapRuns p f t := by
  by_cases hne : s = []
  · rw [hne]
    exact List.nil_infix
  · obtain ⟨u, v, rfl⟩ := h
    rw [List.append_assoc, mapRuns_middle hne hhead hlast]
    exact ⟨_, _, List.append_assoc _ _ _⟩

end

/-! ## Substitution of long runs -/

namespace Regex

variable {p : Char → Bool} {n : Nat}

/-- `[p]{n,}`. -/
def atLeast (p : Char → Bool) (n : Nat) : Regex := .cat (times p n) (.many p)

theorem ends_times (prev : Option Char) (t : Text) :
    (times p n).ends prev t = if n ≤ (t.takeWhile p).length then [n] else [] := by
  induction n generalizing prev t with
  | zero => simp [times, ends]
  | succ n ih =>
    cases t with
    | nil => simp [times, ends]
    | cons c t =>
      cases hc : p c with
      | false => simp [times, ends, hc]
      | true =>
        simp only [times, ends, hc, if_true, List.flatMap_cons, List.flatMap_nil, List.append_nil, List.drop_one,
          List.tail_cons, ih, List.takeWhile_cons_of_pos hc, List.length_cons, Nat.add_le_add_iff_right]
        split
        · simp [Nat.add_comm]
        · rfl

theorem length_takeWhile_drop : ∀ {n : Nat} {t : Text}, n ≤ (t.takeWhile p).length →
    n + ((t.drop n).takeWhile p).length = (t.takeWhile p).length
  | 0, t, _ => by rw [List.drop_zero, Nat.zero_add]
  | n + 1, [], h => by simp at h
  | n + 1, c :: t, h => by
    cases hc : p c with
    | false => simp [hc] at h
    | true =>
      rw [List.takeWhile_cons_of_pos hc, List.length_cons] at h ⊢
      rw [List.drop_succ_cons, ← length_takeWhile_drop (Nat.le_of_succ_le_succ h), Nat.add_right_comm]

/-- The match takes the whole run, when that is long enough. -/
theorem matchPred_atLeast (hn : 0 < n) (prev : Option Char) (t : Text) :
    (atLeast p n).matchPred prev t =
      if n ≤ (t.takeWhile p).length then Option.some ((t.takeWhile p).length - 1) else none := by
  have hends : (atLeast p n).ends prev t = if n ≤ (t.takeWhile p).length then
      ((List.range (((t.drop n).takeWhile p).length + 1)).reverse.map (n + ·)) else [] := by
    rw [atLeast, ends, ends_times]
    split
    · simp [ends]
    · rfl
  rw [matchPred, hends]
  split_ifs with h
  · rw [List.range_succ, List.reverse_append, List.reverse_singleton, List.singleton_append, List.map_cons,
      List.head?_cons, length_takeWhile_drop h]
    obtain ⟨k, hk⟩ := Nat.exists_eq_succ_of_ne_zero (show (t.takeWhile p).length ≠ 0 by omega)
    rw [hk]
    rfl
  · rfl

theorem length_sub_atLeast_le (hn : 0 < n) {repl : Text} (hrepl : repl.length ≤ n) (t : Text) :
    ((atLeast p n).sub repl t).length ≤ t.length := by
  refine length_sub_le (fun prev t m hm => ?_) t
  rw [matchPred_atLeast hn] at hm
  split at hm
  · rename_i hlong
    have hlength := Option.some.inj hm
    omega
  · cases hm

theorem subFrom_skip (r : Regex) (repl : Text) (t : Text) : ∀ (u : Text) (prev : Option Char),
    ∃ prev', r.subFrom repl u.length prev (u ++ t) = r.subFrom repl 0 prev' t
  | [], prev => ⟨prev, rfl⟩
  | c :: u, prev => by
    obtain ⟨prev', h⟩ := subFrom_skip r repl t u (Option.some c)
    exact ⟨prev', by rw [List.length_cons, List.cons_append, subFrom, h]⟩

/-- What a run is replaced with. -/
def replaceLong (n : Nat) (repl run : Text) : Text := if n ≤ run.length then repl else run

/-- A maximal run at the front. -/
theorem subFrom_run (hn : 0 < n) (repl : Text) {t : Text} (ht : ∀ c ∈ t.head?, p c = false) : ∀ {run : Text},
    (∀ c ∈ run, p c = true) → ∀ prev, ∃ prev', (atLeast p n).subFrom repl 0 prev (run ++ t) =
      flush (replaceLong n repl) run ++ (atLeast p n).subFrom repl 0 prev' t
  | [], _, prev => ⟨prev, rfl⟩
  | c :: run, hrun, prev => by
    have htake : ((c :: run) ++ t).takeWhile p = c :: run := by
      rw [List.takeWhile_append_of_pos hrun]
      cases t with
      | nil => simp
      | cons d t => rw [List.takeWhile_cons_of_neg (by simp [ht d rfl]), List.append_nil]
    have hm := matchPred_atLeast (p := p) hn prev ((c :: run) ++ t)
    rw [htake] at hm
    by_cases hl : n ≤ (c :: run).length
    · rw [if_pos hl] at hm
      obtain ⟨prev', hs⟩ := subFrom_skip (atLeast p n) repl t run (Option.some c)
      refine ⟨prev', ?_⟩
      rw [flush, if_neg (List.cons_ne_nil c run), replaceLong, if_pos hl, ← hs]
      exact subFrom_of_some hm
    · rw [if_neg hl] at hm
      obtain ⟨prev', hs⟩ := subFrom_run hn repl ht (List.forall_mem_cons.mp hrun).2 (Option.some c)
      have hshort : flush (replaceLong n repl) run = run := by
        unfold flush replaceLong
        split
        · rename_i h
          exact h.symm
        · rw [List.length_cons] at hl
          rw [if_neg (by omega)]
      rw [hshort] at hs
      refine ⟨prev', ?_⟩
      rw [flush, if_neg (List.cons_ne_nil c run), replaceLong, if_neg hl]
      exact (subFrom_of_none hm).trans (congrArg (c :: ·) hs)

/-- **The substitution of `[p]{n,}` replaces the runs that are long enough.** -/
theorem sub_atLeast (hn : 0 < n) (repl t : Text) : (atLeast p n).sub repl t = mapRuns p (replaceLong n repl) t := by
  have hfrom : ∀ (t run : Text) (prev : Option Char), (∀ c ∈ run, p c = true) →
      (atLeast p n).subFrom repl 0 prev (run ++ t) = mapRunsFrom p (replaceLong n repl) run t := by
    intro t
    induction t with
    | nil =>
      intro run prev hrun
      obtain ⟨prev', h⟩ := subFrom_run hn repl (t := []) (by simp) hrun prev
      rw [h, mapRunsFrom]
      simp [subFrom]
    | cons c t ih =>
      intro run prev hrun
      rw [mapRunsFrom]
      split
      · rename_i hc
        rw [← ih (run ++ [c]) prev, List.append_assoc, List.singleton_append]
        simpa [or_imp, forall_and] using ⟨hrun, hc⟩
      · rename_i hc
        have hc : p c = false := by simpa using hc
        obtain ⟨prev', h⟩ := subFrom_run hn repl (t := c :: t) (by simp [hc]) hrun prev
        have hm : (atLeast p n).matchPred prev' (c :: t) = none := by
          rw [matchPred_atLeast hn, List.takeWhile_cons_of_neg (by simp [hc]), if_neg (by simp; omega)]
        rw [h, subFrom_of_none hm, ← ih [] (Option.some c) (List.forall_mem_nil _), List.nil_append]
  rw [sub_eq_subFrom]
  exact hfrom t [] none (List.forall_mem_nil _)

end Regex

end PyLib
