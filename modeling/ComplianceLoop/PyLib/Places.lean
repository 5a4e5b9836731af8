import ComplianceLoop.PyLib.Regex

/-!
# Places in a text

Where `find` finds a text that stands at a given place, where the pieces of `re.split` stand, and where the words of a
text start, counted over its white space.
-/

set_option autoImplicit false

namespace PyLib

/-! ## `str.find` -/

/-- A text is found at the first of its places. -/
theorem findFrom_of_prefix {p : Text} : ∀ {n i : Nat} {t : Text}, n ≤ t.length → p <+: t.drop n →
    (∀ j < n, ¬ p <+: t.drop j) → findFrom p i t = ((i + n : Nat) : Int)
  | 0, i, [], _, h, _ => by
    rw [List.drop_nil, List.prefix_nil] at h
    rw [findFrom, h]
    rfl
  | 0, i, c :: t, _, h, _ => by
    have hhere : p.isPrefixOf (c :: t) = true := List.isPrefixOf_iff_prefix.mpr h
    rw [findFrom, if_pos hhere]
    rfl
  | n + 1, i, [], hn, _, _ => absurd hn (Nat.not_succ_le_zero n)
  | n + 1, i, c :: t, hn, h, hfirst => by
    have hhere : ¬ p.isPrefixOf (c :: t) = true := fun hp =>
      hfirst 0 (Nat.succ_pos n) (List.isPrefixOf_iff_prefix.mp hp)
    rw [findFrom, if_neg hhere, findFrom_of_prefix (Nat.le_of_succ_le_succ hn) h fun j hj => hfirst (j + 1) (by omega),
      Nat.add_assoc, Nat.add_comm 1 n]

/-- A text that stands at a place is found there if and only if it stands at no earlier place. -/
theorem find_eq_iff {p t : Text} {n : Nat} (hp : p ≠ []) (h : p <+: t.drop n) :
    find p t = n ↔ ∀ j < n, ¬ p <+: t.drop j := by
  have hle : ∀ {m : Nat}, p <+: t.drop m → m ≤ t.length := by
    intro m hm
    by_contra hlt
    rw [List.drop_eq_nil_of_le (by omega), List.prefix_nil] at hm
    exact hp hm
  constructor
  · intro hfind
    classical
    have hsome : ∃ m, p <+: t.drop m := ⟨n, h⟩
    have hleast : find p t = ((0 + Nat.find hsome : Nat) : Int) :=
      findFrom_of_prefix (hle (Nat.find_spec hsome)) (Nat.find_spec hsome) fun j hj => Nat.find_min hsome hj
    rw [hfind, Nat.zero_add, Int.ofNat_inj] at hleast
    intro j hj
    exact Nat.find_min hsome (hleast ▸ hj)
  · intro hfirst
    rw [find, findFrom_of_prefix (hle h) h hfirst, Nat.zero_add]

/-- A text that stands somewhere is found. -/
theorem find_nonneg {p t : Text} {n : Nat} (hp : p ≠ []) (h : p <+: t.drop n) : 0 ≤ find p t := by
  classical
  have hsome : ∃ m, p <+: t.drop m := ⟨n, h⟩
  rw [(find_eq_iff hp (Nat.find_spec hsome)).mpr fun j hj => Nat.find_min hsome hj]
  exact Int.natCast_nonneg _

/-! ## Slices -/

/-- A text that stands at the start of a slice and fits in. -/
theorem prefix_slice {p t : Text} {n m : Nat} (h : p <+: t.drop n) (hm : n + p.length ≤ m) :
    p <+: (t.take m).drop n := by
  rw [List.drop_take]
  exact List.prefix_take_iff.mpr ⟨h, by omega⟩

/-- A text that stands at the end of a slice. -/
theorem suffix_slice {p t : Text} {n k : Nat} (h : p <+: t.drop n) (hk : k ≤ n) :
    p <:+ (t.take (n + p.length)).drop k := by
  have hend : ((t.take (n + p.length)).drop k).drop (n - k) = p := by
    rw [List.drop_drop, Nat.add_sub_cancel' hk, List.drop_take, Nat.add_sub_cancel_left]
    exact (List.prefix_iff_eq_take.mp h).symm
  have hsuffix := List.drop_suffix (n - k) ((t.take (n + p.length)).drop k)
  rwa [hend] at hsuffix

/-! ## `str.strip` -/

theorem strip_eq (t : Text) : strip t = (t.dropWhile isSpace).rdropWhile isSpace := rfl

/-- What `strip` leaves stands behind the white space at the front. -/
theorem strip_stands (t : Text) : strip t <+: t.drop (t.takeWhile isSpace).length := by
  have hsplit : t.takeWhile isSpace ++ t.dropWhile isSpace = t := List.takeWhile_append_dropWhile
  have hdrop : (t.takeWhile isSpace ++ t.dropWhile isSpace).drop (t.takeWhile isSpace).length = t.dropWhile isSpace :=
    List.drop_left
  rw [hsplit] at hdrop
  rw [strip_eq, hdrop]
  exact List.rdropWhile_prefix _ _

/-- It does not start with white space. -/
theorem isSpace_head_strip {t r : Text} {c : Char} (h : strip t = c :: r) : isSpace c = false := by
  have hfront : c :: r <+: t.dropWhile isSpace := by
    rw [← h, strip_eq]
    exact List.rdropWhile_prefix _ _
  obtain ⟨rest, hrest⟩ := hfront
  have hhead := List.head?_dropWhile_not isSpace t
  rw [← hrest] at hhead
  simpa using hhead

/-! ## The places of the pieces of a text -/

namespace Regex

/-- `splitFrom` of the text behind the position `i`, with the places of the pieces. -/
def placedFrom (r : Regex) (i : Nat) : Nat → Option Char → Text → List (Nat × Text)
  | _, _, [] => [(i, [])]
  | k + 1, _, c :: t => placedFrom r (i + 1) k (Option.some c) t
  | 0, prev, c :: t =>
    match r.matchPred prev (c :: t) with
    | Option.some n => (i, []) :: placedFrom r (i + 1) n (Option.some c) t
    | none => (placedFrom r (i + 1) 0 (Option.some c) t).modifyHead fun piece => (i, c :: piece.2)

/-- The pieces of `re.split`, with their places. -/
def placed (r : Regex) (t : Text) : List (Nat × Text) := placedFrom r 0 0 none t

theorem map_snd_placedFrom (r : Regex) : ∀ (i k : Nat) (prev : Option Char) (t : Text),
    (r.placedFrom i k prev t).map Prod.snd = r.splitFrom k prev t
  | _, _, _, [] => by
    rw [placedFrom, splitFrom]
    rfl
  | i, k + 1, _, c :: t => by rw [placedFrom, splitFrom, map_snd_placedFrom r]
  | i, 0, prev, c :: t => by
    rw [placedFrom, splitFrom]
    cases r.matchPred prev (c :: t) with
    | some n =>
      dsimp only
      rw [List.map_cons, map_snd_placedFrom r]
    | none =>
      dsimp only
      rw [← map_snd_placedFrom r (i + 1)]
      cases r.placedFrom (i + 1) 0 (Option.some c) t with
      | nil => rfl
      | cons piece pieces => rfl

theorem map_snd_placed (r : Regex) (t : Text) : (r.placed t).map Prod.snd = r.split t :=
  map_snd_placedFrom r 0 0 none t

/-- Without characters to skip, the first piece starts at the front. -/
theorem head_placedFrom (r : Regex) (i : Nat) : ∀ (prev : Option Char) (t : Text),
    ∃ piece pieces, r.placedFrom i 0 prev t = (i, piece) :: pieces
  | _, [] => ⟨[], [], by rw [placedFrom]⟩
  | prev, c :: t => by
    rw [placedFrom]
    cases r.matchPred prev (c :: t) with
    | some n => exact ⟨[], _, rfl⟩
    | none =>
      obtain ⟨piece, pieces, h⟩ := head_placedFrom r (i + 1) (Option.some c) t
      dsimp only
      rw [h]
      exact ⟨c :: piece, pieces, rfl⟩

/-- The pieces stand in the text, one behind the other. -/
structure Placed (i : Nat) (t : Text) (pieces : List (Nat × Text)) : Prop where
  stands : ∀ p ∈ pieces, i ≤ p.1 ∧ p.2 <+: t.drop (p.1 - i)
  ordered : pieces.Pairwise fun p q => p.1 + p.2.length < q.1

theorem Placed.cons {i : Nat} {c : Char} {t : Text} {pieces : List (Nat × Text)} (h : Placed (i + 1) t pieces) :
    Placed i (c :: t) pieces := by
  refine ⟨fun p hp => ?_, h.ordered⟩
  obtain ⟨hle, hfront⟩ := h.stands p hp
  refine ⟨by omega, ?_⟩
  rw [show p.1 - i = (p.1 - (i + 1)) + 1 by omega, List.drop_succ_cons]
  exact hfront

theorem placedFrom_placed (r : Regex) : ∀ (i k : Nat) (prev : Option Char) (t : Text),
    Placed i t (r.placedFrom i k prev t)
  | i, _, _, [] => by
    rw [placedFrom]
    refine ⟨fun p hp => ?_, List.pairwise_singleton _ _⟩
    rw [List.mem_singleton.mp hp]
    exact ⟨Nat.le_refl i, List.nil_prefix⟩
  | i, k + 1, _, c :: t => by
    rw [placedFrom]
    exact (placedFrom_placed r (i + 1) k _ t).cons
  | i, 0, prev, c :: t => by
    rw [placedFrom]
    cases r.matchPred prev (c :: t) with
    | some n =>
      -- an empty piece before the match
      have hrest := placedFrom_placed r (i + 1) n (Option.some c) t
      refine ⟨fun p hp => ?_, List.pairwise_cons.mpr ⟨fun q hq => ?_, hrest.ordered⟩⟩
      · obtain rfl | hp := List.mem_cons.mp hp
        · exact ⟨Nat.le_refl i, List.nil_prefix⟩
        · exact hrest.cons.stands p hp
      · exact (hrest.stands q hq).1
    | none =>
      have hrest := placedFrom_placed r (i + 1) 0 (Option.some c) t
      obtain ⟨piece, pieces, h⟩ := head_placedFrom r (i + 1) (Option.some c) t
      dsimp only
      rw [h] at hrest ⊢
      rw [List.modifyHead_cons]
      obtain ⟨hhead, hordered⟩ := List.pairwise_cons.mp hrest.ordered
      refine ⟨fun p hp => ?_, List.pairwise_cons.mpr ⟨fun q hq => ?_, hordered⟩⟩
      · obtain rfl | hp := List.mem_cons.mp hp
        · refine ⟨Nat.le_refl i, ?_⟩
          have hfront := (hrest.stands (i + 1, piece) List.mem_cons_self).2
          simpa using hfront
        · exact hrest.cons.stands p (List.mem_cons_of_mem _ hp)
      · have hlt := hhead q hq
        simp only [List.length_cons] at hlt ⊢
        omega

/-- **The pieces of a split stand in the text, one behind the other.** -/
theorem placed_placed (r : Regex) (t : Text) : Placed 0 t (r.placed t) := placedFrom_placed r 0 0 none t

end Regex

/-! ## The words of a text -/

/-- The text ends inside a word, when the place before it does or not. -/
def endsInWord : Bool → Text → Bool
  | b, [] => b
  | _, c :: t => endsInWord (!isSpace c) t

/-- The number of words that start in the text. -/
def wordCount : Bool → Text → Nat
  | _, [] => 0
  | b, c :: t => (if isSpace c || b then 0 else 1) + wordCount (!isSpace c) t

/-- The place at which the word number `n` starts; the length of the text when there are too few. -/
def wordStart : Bool → Nat → Text → Nat
  | _, _, [] => 0
  | b, n, c :: t =>
    if isSpace c || b then wordStart (!isSpace c) n t + 1
    else if n = 0 then 0
    else wordStart (!isSpace c) (n - 1) t + 1

theorem wordStart_le (b : Bool) (n : Nat) (t : Text) : wordStart b n t ≤ t.length := by
  induction t generalizing b n with
  | nil => exact Nat.le_refl 0
  | cons c t ih =>
    rw [wordStart, List.length_cons]
    split
    · exact Nat.succ_le_succ (ih _ n)
    · split
      · exact Nat.zero_le _
      · exact Nat.succ_le_succ (ih _ (n - 1))

/-- A word that starts in the first part of a text. -/
theorem wordStart_append_of_lt {b : Bool} {n : Nat} {s : Text} (h : n < wordCount b s) (t : Text) :
    wordStart b n (s ++ t) < s.length := by
  induction s generalizing b n with
  | nil => exact absurd h (Nat.not_lt_zero n)
  | cons c s ih =>
    rw [wordCount] at h
    rw [List.cons_append, wordStart, List.length_cons]
    split
    · rename_i hinside
      rw [if_pos hinside, Nat.zero_add] at h
      exact Nat.succ_lt_succ (ih h)
    · rename_i hstart
      rw [if_neg hstart] at h
      split
      · exact Nat.succ_pos _
      · exact Nat.succ_lt_succ (ih (by omega))

/-- A word that starts in the second part. -/
theorem wordStart_append_of_le {b : Bool} {n : Nat} {s : Text} (h : wordCount b s ≤ n) (t : Text) :
    wordStart b n (s ++ t) = s.length + wordStart (endsInWord b s) (n - wordCount b s) t := by
  induction s generalizing b n with
  | nil => rw [List.nil_append, List.length_nil, Nat.zero_add, endsInWord, wordCount, Nat.sub_zero]
  | cons c s ih =>
    rw [wordCount] at h
    rw [List.cons_append, wordStart, List.length_cons, endsInWord, wordCount]
    split
    · rename_i hinside
      rw [if_pos hinside, Nat.zero_add] at h
      rw [ih h, Nat.zero_add, Nat.add_right_comm]
    · rename_i hstart
      rw [if_neg hstart] at h
      rw [if_neg (by omega), ih (by omega), Nat.sub_sub, Nat.add_right_comm]

/-- What stands before the start of a word. -/
theorem take_wordStart {b : Bool} {n : Nat} {t : Text} (h : wordStart b n t < t.length) :
    wordCount b (t.take (wordStart b n t)) = n ∧ endsInWord b (t.take (wordStart b n t)) = false := by
  induction t generalizing b n with
  | nil => exact absurd h (Nat.lt_irrefl 0)
  | cons c t ih =>
    rw [wordStart, List.length_cons] at h
    rw [wordStart]
    by_cases hinside : (isSpace c || b) = true
    · rw [if_pos hinside] at h ⊢
      obtain ⟨hcount, hends⟩ := ih (Nat.lt_of_succ_lt_succ h)
      rw [List.take_succ_cons, wordCount, endsInWord, if_pos hinside, Nat.zero_add]
      exact ⟨hcount, hends⟩
    · rw [if_neg hinside] at h ⊢
      by_cases hn : n = 0
      · rw [if_pos hn, List.take_zero]
        simp only [Bool.or_eq_true, not_or, Bool.not_eq_true] at hinside
        exact ⟨hn.symm, hinside.2⟩
      · rw [if_neg hn] at h ⊢
        obtain ⟨hcount, hends⟩ := ih (Nat.lt_of_succ_lt_succ h)
        rw [List.take_succ_cons, wordCount, endsInWord, if_neg hinside, hcount]
        exact ⟨by omega, hends⟩

/-- The next words start behind a text that stands at the start of a word, with its words. -/
theorem wordStart_behind {n m : Nat} {s t : Text} (hs : s ≠ []) (h : s <+: t.drop (wordStart false n t))
    (hm : n + wordCount false s ≤ m) : wordStart false n t + s.length ≤ wordStart false m t := by
  have hlt : wordStart false n t < t.length := by
    by_contra hge
    rw [List.drop_eq_nil_of_le (Nat.not_lt.mp hge), List.prefix_nil] at h
    exact hs h
  obtain ⟨hcount, hends⟩ := take_wordStart hlt
  obtain ⟨rest, hrest⟩ := h
  have hfirst : wordStart false m (t.take (wordStart false n t) ++ (s ++ rest)) =
      wordStart false n t + wordStart false (m - n) (s ++ rest) := by
    rw [wordStart_append_of_le (by omega), hcount, hends, List.length_take, Nat.min_eq_left (Nat.le_of_lt hlt)]
  rw [hrest, List.take_append_drop, ← hrest, wordStart_append_of_le (by omega), ← Nat.add_assoc] at hfirst
  omega

/-- The words start one behind the other. -/
theorem wordStart_lt {b : Bool} {n m : Nat} {t : Text} (hnm : n < m) (h : wordStart b m t < t.length) :
    wordStart b n t < wordStart b m t := by
  have hcount := (take_wordStart h).1
  have hlt := wordStart_append_of_lt (hnm.trans_eq hcount.symm) (t.drop (wordStart b m t))
  rwa [List.take_append_drop, List.length_take, Nat.min_eq_left (Nat.le_of_lt h)] at hlt

theorem wordCount_pos {c : Char} {t : Text} (h : isSpace c = false) : 0 < wordCount false (c :: t) := by
  rw [wordCount, h]
  exact Nat.add_pos_left Nat.one_pos _

end PyLib
