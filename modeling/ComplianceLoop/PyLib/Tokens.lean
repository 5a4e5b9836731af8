import Mathlib.Data.List.SplitBy
import ComplianceLoop.PyLib.FirstMatch
import ComplianceLoop.PyLib.Matching

/-!
# Standing as a word

`re.search` of `\b` + text + `\b` finds the first place where the text stands as a word. `tokens` takes a text apart
into its maximal words and the single characters between them; a text that begins and ends in a word stands in another
one exactly when its tokens stand together in those of the other one (`infix_tokens_iff`), and replacing what the search
finds is replacing the first occurrence among the tokens (`tokens_splice`).
-/

set_option autoImplicit false

namespace PyLib

namespace Regex

/-- The characters of `t`, as `re.escape` writes them. -/
def literal : Text → Regex
  | [] => .bound fun _ _ => true
  | c :: t => .cat (.char (· = c)) (literal t)

theorem matches_literal {p : Text} : ∀ {prev : Option Char} {u : Text} {next : Option Char},
    (literal p).Matches prev u next ↔ u = p := by
  induction p with
  | nil => exact ⟨And.left, fun h => ⟨h, rfl⟩⟩
  | cons c p ih =>
    intro prev u next
    rw [literal, Matches]
    constructor
    · rintro ⟨v, w, rfl, ⟨d, rfl, hd⟩, hw⟩
      rw [ih.mp hw, of_decide_eq_true hd, List.singleton_append]
    · rintro rfl
      exact ⟨[c], p, rfl, ⟨c, rfl, decide_eq_true rfl⟩, ih.mpr rfl⟩

/-- `re.search`: the position and the length of the first match. -/
def search (r : Regex) (t : Text) : Option (Nat × Nat) := (r.spans t).head?

theorem search_eq_none {r : Regex} (hr : r.Proper) {t : Text} : r.search t = none ↔ ¬ r.Occurs t := by
  rw [search, List.head?_eq_none_iff, spans_eq_nil_iff hr]

/-- The match that is found, and no match begins before it. -/
structure FoundFrom (r : Regex) (prev : Option Char) (t a u b : Text) : Prop where
  split : t = a ++ (u ++ b)
  found : r.Matches (a.getLast?.or prev) u b.head?
  first : ∀ a' u' b', t = a' ++ (u' ++ b') → a'.length < a.length → ¬ r.Matches (a'.getLast?.or prev) u' b'.head?

theorem foundFrom_of_spansFrom {r : Regex} (hr : r.Proper) {n m : Nat} (t : Text) : ∀ {i : Nat} {prev : Option Char},
    (r.spansFrom i 0 prev t).head? = Option.some (n, m) →
      ∃ a u b, FoundFrom r prev t a u b ∧ n = i + a.length ∧ m = u.length := by
  induction t with
  | nil => exact fun h => by cases h
  | cons c t ih =>
    intro i prev h
    rw [spansFrom] at h
    cases hm : r.matchPred prev (c :: t) with
    | some k =>
      obtain ⟨u, b, ht, hu, hmatch⟩ := matchPred_eq_some hm
      simp only [hm, List.head?_cons, Option.some.injEq, Prod.mk.injEq] at h
      refine ⟨[], u, b, ⟨ht, hmatch, fun a' _ _ _ hl => absurd hl (Nat.not_lt_zero _)⟩, ?_, ?_⟩
      · simpa using h.1.symm
      · omega
    | none =>
      simp only [hm] at h
      obtain ⟨a, u, b, hfound, hn, hl⟩ := ih h
      refine ⟨c :: a, u, b, ⟨by rw [hfound.split, List.cons_append], ?_, ?_⟩, ?_, hl⟩
      · rw [getLast?_cons_or]
        exact hfound.found
      · intro a' u' b' ht hlt
        cases a' with
        | nil => exact (matchPred_eq_none hr).mp hm u' b' ht
        | cons d a' =>
          obtain ⟨rfl, htail⟩ := List.cons_eq_cons.mp ht
          rw [getLast?_cons_or]
          exact hfound.first a' u' b' htail (by simpa using hlt)
      · rw [hn, List.length_cons]
        omega

/-- **What `re.search` finds.** -/
theorem search_eq_some {r : Regex} (hr : r.Proper) {t : Text} {n m : Nat} (h : r.search t = Option.some (n, m)) :
    ∃ a u b, FoundFrom r none t a u b ∧ n = a.length ∧ m = u.length := by
  obtain ⟨a, u, b, hfound, hn, hm⟩ := foundFrom_of_spansFrom hr t h
  exact ⟨a, u, b, hfound, by rw [hn, Nat.zero_add], hm⟩

end Regex

/-! ## Words -/

/-- `\w`: of the ASCII characters the letters, the digits and the underscore, every decimal digit, and no white
space. -/
structure WordChars where
  isWord : Char → Bool
  ascii : ∀ c : Char, c.toNat < 128 → isWord c = (c.isAlphanum || c = '_')
  decimal : ∀ c : Char, isDecimal c = true → isWord c = true
  space : ∀ c : Char, isSpace c = true → isWord c = false

section

variable {isWord : Char → Bool} {p s t a b : Text}

/-- The text begins and ends in a word. -/
structure WordEnds (isWord : Char → Bool) (p : Text) : Prop where
  first : p.head?.any isWord = true
  last : p.getLast?.any isWord = true

/-- The text stands as a word in `t`: no word goes on around it. -/
def Stands (isWord : Char → Bool) (p t : Text) : Prop :=
  ∃ a b, t = a ++ (p ++ b) ∧ a.getLast?.any isWord = false ∧ b.head?.any isWord = false

theorem WordEnds.ne_nil (hp : WordEnds isWord p) : p ≠ [] := by
  rintro rfl
  cases hp.first

/-- `\b` + text + `\b`. -/
theorem matches_delimited_literal (hp : WordEnds isWord p) {prev next : Option Char} {u : Text} :
    (Regex.delimited isWord (Regex.literal p)).Matches prev u next ↔
      u = p ∧ prev.any isWord = false ∧ next.any isWord = false := by
  rw [Regex.matches_delimited, Regex.matches_literal]
  refine and_congr_right ?_
  rintro rfl
  have hfront : (u.head?.or next).any isWord = true := by
    have := hp.first
    cases hu : u.head? with
    | none => rw [hu] at this; cases this
    | some c => rwa [hu] at this
  have hback : (u.getLast?.or prev).any isWord = true := by
    have := hp.last
    cases hu : u.getLast? with
    | none => rw [hu] at this; cases this
    | some c => rwa [hu] at this
  rw [hfront, hback, ne_eq, Bool.not_eq_true, ne_comm, ne_eq, Bool.not_eq_true]

theorem proper_delimited_literal (hp : WordEnds isWord p) : (Regex.delimited isWord (Regex.literal p)).Proper :=
  fun _ _ hm => hp.ne_nil ((matches_delimited_literal hp).mp hm).1.symm

/-- The search finds nothing exactly when the text stands nowhere as a word. -/
theorem occurs_delimited_literal (hp : WordEnds isWord p) :
    (Regex.delimited isWord (Regex.literal p)).Occurs t ↔ Stands isWord p t := by
  constructor
  · rintro ⟨a, u, b, rfl, hm⟩
    rw [matches_delimited_literal hp, Option.or_none] at hm
    obtain ⟨rfl, ha, hb⟩ := hm
    exact ⟨a, b, List.append_assoc _ _ _, ha, hb⟩
  · rintro ⟨a, b, rfl, ha, hb⟩
    refine ⟨a, p, b, (List.append_assoc _ _ _).symm, ?_⟩
    rw [matches_delimited_literal hp, Option.or_none]
    exact ⟨rfl, ha, hb⟩

/-! ## Tokens -/

/-- The maximal words of a text and the characters between them. -/
def tokens (isWord : Char → Bool) (t : Text) : List Text := t.splitBy fun c d => isWord c && isWord d

theorem flatten_tokens (isWord : Char → Bool) (t : Text) : (tokens isWord t).flatten = t := List.flatten_splitBy _ t

theorem tokens_ne_nil (h : t ≠ []) : tokens isWord t ≠ [] := List.splitBy_ne_nil.mpr h

/-- No word goes on from one text into the other. -/
def MeetApart (isWord : Char → Bool) (s t : Text) : Prop := s.getLast?.any isWord = false ∨ t.head?.any isWord = false

theorem tokens_append (h : MeetApart isWord s t) : tokens isWord (s ++ t) = tokens isWord s ++ tokens isWord t := by
  refine List.splitBy_append fun c hc d hd => ?_
  rw [Option.mem_def] at hc hd
  rw [MeetApart, hc, hd, Option.any_some, Option.any_some] at h
  rcases h with h | h
  · rw [h, Bool.false_and]
  · rw [h, Bool.and_false]

/-- Between two tokens no word goes on. -/
theorem meetApart_of_tokens {x y : List Text} (h : tokens isWord t = x ++ y) :
    MeetApart isWord x.flatten y.flatten := by
  have hchain := List.isChain_getLast_head_splitBy (fun c d => isWord c && isWord d) t
  rw [show t.splitBy _ = x ++ y from h, List.isChain_append] at hchain
  obtain ⟨-, -, hmeet⟩ := hchain
  rcases List.eq_nil_or_concat' x with rfl | ⟨x, u, rfl⟩
  · exact .inl rfl
  cases y with
  | nil => exact .inr rfl
  | cons v y =>
    obtain ⟨hu, hv, hr⟩ := hmeet u (by simp) v rfl
    have hlast : (x ++ [u]).flatten.getLast? = some (u.getLast hu) := by
      rw [List.flatten_append, List.flatten_singleton, List.getLast?_append_of_ne_nil _ hu,
        List.getLast?_eq_some_getLast hu]
    have hhead : (v :: y).flatten.head? = some (v.head hv) := by
      rw [List.flatten_cons, List.head?_append_of_ne_nil _ hv, List.head?_eq_some_head hv]
    rw [MeetApart, hlast, hhead, Option.any_some, Option.any_some]
    exact Bool.and_eq_false_iff.mp hr

/-- What tokens that stand together say about the text. -/
theorem stands_of_tokens (hp : WordEnds isWord p) {x y : List Text}
    (h : tokens isWord t = x ++ (tokens isWord p ++ y)) :
    t = x.flatten ++ (p ++ y.flatten) ∧ x.flatten.getLast?.any isWord = false ∧ y.flatten.head?.any isWord = false := by
  have hsplit : t = x.flatten ++ (p ++ y.flatten) := by
    rw [← flatten_tokens isWord t, h, List.flatten_append, List.flatten_append, flatten_tokens]
  have hfront := meetApart_of_tokens h
  have hback := meetApart_of_tokens (h.trans (List.append_assoc _ _ _).symm)
  rw [List.flatten_append, flatten_tokens] at hfront hback
  refine ⟨hsplit, hfront.resolve_right ?_, hback.resolve_left ?_⟩
  · rw [List.head?_append_of_ne_nil _ hp.ne_nil, hp.first]
    exact Bool.noConfusion
  · rw [List.getLast?_append_of_ne_nil _ hp.ne_nil, hp.last]
    exact Bool.noConfusion

theorem tokens_around (ha : a.getLast?.any isWord = false) (hb : b.head?.any isWord = false) (s : Text) :
    tokens isWord (a ++ (s ++ b)) = tokens isWord a ++ (tokens isWord s ++ tokens isWord b) := by
  rw [tokens_append (.inl ha), tokens_append (.inr hb)]

/-- **A text stands as a word exactly when its tokens stand together.** -/
theorem infix_tokens_iff (hp : WordEnds isWord p) : tokens isWord p <:+: tokens isWord t ↔ Stands isWord p t := by
  constructor
  · rintro ⟨x, y, h⟩
    obtain ⟨ht, hx, hy⟩ := stands_of_tokens hp (h.symm.trans (List.append_assoc _ _ _))
    exact ⟨_, _, ht, hx, hy⟩
  · rintro ⟨a, b, rfl, ha, hb⟩
    exact ⟨tokens isWord a, tokens isWord b, by rw [tokens_around ha hb, List.append_assoc]⟩

/-- **Replacing what the search finds is replacing the first occurrence among the tokens.** -/
theorem tokens_splice (hp : WordEnds isWord p) {n m : Nat} (r : Text)
    (h : (Regex.delimited isWord (Regex.literal p)).search t = some (n, m)) :
    tokens isWord (t.take n ++ r ++ t.drop (n + m)) =
      substFirst (tokens isWord p) (tokens isWord r) (tokens isWord t) := by
  obtain ⟨a, u, b, ⟨rfl, hm, hfirst⟩, rfl, rfl⟩ := Regex.search_eq_some (proper_delimited_literal hp) h
  rw [matches_delimited_literal hp, Option.or_none] at hm
  obtain ⟨rfl, ha, hb⟩ := hm
  rw [List.take_left, ← List.drop_drop, List.drop_left, List.drop_left, List.append_assoc, tokens_around ha hb,
    tokens_around ha hb, substFirst_of_first (tokens_ne_nil hp.ne_nil)]
  -- an earlier occurrence among the tokens would be an earlier match
  rintro k hk ⟨y, hy⟩
  have hsplit : tokens isWord (a ++ (u ++ b)) =
      (tokens isWord a).take k ++ (tokens isWord u ++ y) := by
    rw [hy, tokens_around ha hb, List.drop_append_of_le_length hk.le, ← List.append_assoc (List.take k _),
      List.take_append_drop]
  obtain ⟨ht, hx, hy⟩ := stands_of_tokens hp hsplit
  refine hfirst _ u _ ht ?_ ((matches_delimited_literal hp).mpr ⟨rfl, by rwa [Option.or_none], hy⟩)
  have hlen : a.length = (((tokens isWord a).take k).flatten ++ ((tokens isWord a).drop k).flatten).length := by
    rw [← List.flatten_append, List.take_append_drop, flatten_tokens]
  obtain ⟨v, rest, hrest⟩ := List.exists_cons_of_ne_nil (List.drop_eq_nil_iff.not.mpr (Nat.not_le.mpr hk))
  have hv : v ≠ [] := by
    have hmem : v ∈ tokens isWord a := List.mem_of_mem_drop (hrest ▸ List.mem_cons_self)
    exact List.ne_nil_of_mem_splitBy hmem
  have hpos := List.length_pos_iff.mpr hv
  rw [hrest, List.flatten_cons, List.length_append, List.length_append] at hlen
  omega

end

end PyLib
