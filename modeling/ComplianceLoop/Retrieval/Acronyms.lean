import ComplianceLoop.Retrieval.Preprocessor

/-!
# Which acronyms are expanded

`_expand_acronyms` searches for one acronym after another in a text that the earlier expansions have changed. On the
tokens of the text this is a table of first occurrences (`tokens_expandWith`), and no acronym can touch another one or
its expansion (`separate_tokenTable`): so the acronyms that are expanded are those that stand in the text as it was, in
whatever order they are tried (`expandAcronyms_exact`). An expansion has its acronym, which is expanded once more the
next time (`expandAcronyms_iterate`).
-/

set_option autoImplicit false

namespace ComplianceLoop

open PyLib

/-! ## The table -/

/-- `\w` for ASCII characters. -/
def asciiWord (c : Char) : Bool := c.isAlphanum || c = '_'

/-- The words of a text that are in capitals. -/
def capitals (t : Text) : List Text := (tokens asciiWord t).filter (·.all Char.isUpper)

/-- What a row of the table has to be: the acronym begins and ends in a word, its last token is in capitals and none is
a bracket; the expansion has the acronym in it, no other word in capitals, and a bracket at its end. -/
structure RowOk (row : Text × Text) : Prop where
  ends : row.1.head?.any asciiWord = true ∧ row.1.getLast?.any asciiWord = true
  last : (tokens asciiWord row.1).getLast?.any (·.all Char.isUpper) = true
  noBracket : [')'] ∉ tokens asciiWord row.1
  bracket : (tokens asciiWord row.2).getLast? = some [')']
  sameCapitals : capitals row.2 = capitals row.1
  inside : tokens asciiWord row.1 <:+ (tokens asciiWord row.2).dropLast
  ascii : (row.1 ++ row.2).all (·.toNat < 128) = true

instance (row : Text × Text) : Decidable (RowOk row) :=
  decidable_of_iff
    ((row.1.head?.any asciiWord = true ∧ row.1.getLast?.any asciiWord = true) ∧
      (tokens asciiWord row.1).getLast?.any (·.all Char.isUpper) = true ∧ [')'] ∉ tokens asciiWord row.1 ∧
        (tokens asciiWord row.2).getLast? = some [')'] ∧ capitals row.2 = capitals row.1 ∧
          tokens asciiWord row.1 <:+ (tokens asciiWord row.2).dropLast ∧ (row.1 ++ row.2).all (·.toNat < 128) = true)
    ⟨fun ⟨h1, h2, h3, h4, h5, h6, h7⟩ => ⟨h1, h2, h3, h4, h5, h6, h7⟩,
      fun ⟨h1, h2, h3, h4, h5, h6, h7⟩ => ⟨h1, h2, h3, h4, h5, h6, h7⟩⟩

theorem rowOk : ∀ row ∈ acronymExpansions, RowOk row := by decide

theorem nodup_capitals : (acronymExpansions.flatMap fun row => capitals row.1).Nodup := by decide

/-- The words of ASCII text do not depend on what else is `\w`. -/
theorem tokens_congr {f g : Char → Bool} {t : Text} (h : ∀ c ∈ t, f c = g c) : tokens f t = tokens g t := by
  have hloop : ∀ (l : Text) (a : Char) (u : Text) (us : List Text), (∀ c ∈ a :: l, f c = g c) →
      List.splitBy.loop (fun c d => f c && f d) l a u us = List.splitBy.loop (fun c d => g c && g d) l a u us := by
    intro l
    induction l with
    | nil => exact fun _ _ _ _ => rfl
    | cons b l ih =>
      intro a u us h
      have hab := List.forall_mem_cons.mp h
      have hb := List.forall_mem_cons.mp hab.2
      rw [List.splitBy.loop, List.splitBy.loop, hab.1, hb.1]
      split
      · exact ih b _ _ hab.2
      · exact ih b _ _ hab.2
  cases t with
  | nil => rfl
  | cons a t => exact hloop t a [] [] h

section

variable {W : WordChars} {row row' : Text × Text}

theorem asciiWord_eq (W : WordChars) {t : Text} (h : t.all (·.toNat < 128) = true) :
    ∀ c ∈ t, W.isWord c = asciiWord c := fun c hc => W.ascii c (of_decide_eq_true (List.all_eq_true.mp h c hc))

theorem RowOk.tokens_fst (h : RowOk row) (W : WordChars) : tokens W.isWord row.1 = tokens asciiWord row.1 :=
  tokens_congr fun c hc => asciiWord_eq W h.ascii c (List.mem_append_left _ hc)

theorem RowOk.tokens_snd (h : RowOk row) (W : WordChars) : tokens W.isWord row.2 = tokens asciiWord row.2 :=
  tokens_congr fun c hc => asciiWord_eq W h.ascii c (List.mem_append_right _ hc)

theorem RowOk.wordEnds (h : RowOk row) (W : WordChars) : WordEnds W.isWord row.1 := by
  have hany : ∀ {o : Option Char}, (∀ c ∈ o, c ∈ row.1) → o.any asciiWord = true → o.any W.isWord = true := by
    intro o ho hany
    cases o with
    | none => cases hany
    | some c =>
      rw [Option.any_some] at hany ⊢
      rw [asciiWord_eq W h.ascii c (List.mem_append_left _ (ho c rfl)), hany]
  exact ⟨hany (fun c hc => List.mem_of_mem_head? hc) h.ends.1,
    hany (fun c hc => List.mem_of_mem_getLast? hc) h.ends.2⟩

theorem RowOk.isInside_tokens (h : RowOk row) (W : WordChars) : tokens W.isWord row.1 <:+: tokens W.isWord row.2 := by
  rw [h.tokens_fst, h.tokens_snd]
  exact h.inside.isInfix.trans (List.dropLast_prefix _).isInfix

theorem RowOk.isInside (h : RowOk row) : row.1 <:+: row.2 := by
  obtain ⟨x, y, hxy⟩ := h.inside.isInfix.trans (List.dropLast_prefix _).isInfix
  refine ⟨x.flatten, y.flatten, ?_⟩
  rw [← flatten_tokens asciiWord row.2, ← hxy, List.flatten_append, List.flatten_append, flatten_tokens]

/-- The last token of an acronym is one of its words in capitals. -/
theorem RowOk.exists_last (h : RowOk row) :
    ∃ w, (tokens asciiWord row.1).getLast? = some w ∧ w ∈ capitals row.1 := by
  have hlast := h.last
  cases hw : (tokens asciiWord row.1).getLast? with
  | none =>
    rw [hw] at hlast
    cases hlast
  | some w =>
    rw [hw] at hlast
    exact ⟨w, rfl, List.mem_filter.mpr ⟨List.mem_of_getLast? hw, hlast⟩⟩

theorem mem_capitals_of_mem {w : Text} {t u : Text} (hw : w ∈ capitals t) (h : w ∈ tokens asciiWord u) :
    w ∈ capitals u := List.mem_filter.mpr ⟨h, (List.mem_filter.mp hw).2⟩

/-- Two rows have no word in capitals in common. -/
theorem disjoint_capitals (h : row ∈ acronymExpansions) (h' : row' ∈ acronymExpansions) (hne : row ≠ row') {w : Text}
    (hw : w ∈ capitals row.1) : w ∉ capitals row'.1 := by
  have hsymm : Std.Symm (Function.onFun List.Disjoint fun r : Text × Text => capitals r.1) :=
    ⟨fun _ _ hd _ hl hr => hd hr hl⟩
  exact (List.nodup_flatMap.mp nodup_capitals).2.forall h h' hne hw

/-- **An acronym touches neither another one nor its expansion.** -/
theorem independent_rows (h : row ∈ acronymExpansions) (h' : row' ∈ acronymExpansions) (hne : row ≠ row') :
    Independent (tokens asciiWord row.1, tokens asciiWord row.2)
      (tokens asciiWord row'.1, tokens asciiWord row'.2) := by
  obtain ⟨w, hw, hcap⟩ := (rowOk row h).exists_last
  obtain ⟨w', hw', hcap'⟩ := (rowOk row' h').exists_last
  -- the last word of an acronym is not in another acronym, nor in its expansion
  have hout : ∀ {r r' : Text × Text} {v : Text}, r ∈ acronymExpansions → r' ∈ acronymExpansions → r ≠ r' →
      v ∈ capitals r.1 → v ∉ tokens asciiWord r'.1 ∧ v ∉ tokens asciiWord r'.2 := by
    intro r r' v hr hr' hrr hv
    refine ⟨fun hm => ?_, fun hm => ?_⟩
    · exact disjoint_capitals hr hr' hrr hv (mem_capitals_of_mem hv hm)
    · exact disjoint_capitals hr hr' hrr hv ((rowOk r' hr').sameCapitals ▸ mem_capitals_of_mem hv hm)
  have hfront := hout h h' hne hcap
  have hback := hout h' h (Ne.symm hne) hcap'
  exact ⟨apart_of_getLast hw hfront.1 hw' hback.1,
    apart_of_getLast hw hfront.2 (rowOk row' h').bracket (rowOk row h).noBracket,
    apart_of_getLast hw' hback.2 (rowOk row h).bracket (rowOk row' h').noBracket⟩

/-- The tokens of the rows of a table. -/
def tokenTable (W : WordChars) (table : List (Text × Text)) : List (List Text × List Text) :=
  table.map fun row => (tokens W.isWord row.1, tokens W.isWord row.2)

theorem tokens_injective (isWord : Char → Bool) {s t : Text} (h : tokens isWord s = tokens isWord t) : s = t := by
  rw [← flatten_tokens isWord s, h, flatten_tokens]

theorem nodup_acronymExpansions : acronymExpansions.Nodup := by decide

/-- **The table is separate, as a table of tokens.** -/
theorem separate_tokenTable (W : WordChars) {table : List (Text × Text)} (hp : acronymExpansions.Perm table) :
    Separate (tokenTable W table) where
  nonempty a ha := by
    obtain ⟨row, hrow, rfl⟩ := List.mem_map.mp ha
    exact tokens_ne_nil ((rowOk row (hp.mem_iff.mpr hrow)).wordEnds W).ne_nil
  nodup := by
    refine (hp.nodup_iff.mp nodup_acronymExpansions).map fun a b hab => ?_
    obtain ⟨h1, h2⟩ := Prod.mk.inj hab
    exact Prod.ext (tokens_injective _ h1) (tokens_injective _ h2)
  independent a ha b hb hne := by
    obtain ⟨row, hrow, rfl⟩ := List.mem_map.mp ha
    obtain ⟨row', hrow', rfl⟩ := List.mem_map.mp hb
    have h := hp.mem_iff.mpr hrow
    have h' := hp.mem_iff.mpr hrow'
    rw [(rowOk row h).tokens_fst W, (rowOk row h).tokens_snd W, (rowOk row' h').tokens_fst W,
      (rowOk row' h').tokens_snd W]
    refine independent_rows h h' ?_
    rintro rfl
    exact hne rfl

/-! ## The loop -/

/-- One acronym: the tokens of the text afterwards, and whether it is expanded. -/
theorem expandAcronym_eq (h : RowOk row) (s : Text × List Text) :
    tokens W.isWord (expandAcronym W s row).1 =
        substFirst (tokens W.isWord row.1) (tokens W.isWord row.2) (tokens W.isWord s.1) ∧
      (expandAcronym W s row).2 = s.2 ++ if tokens W.isWord row.1 <:+: tokens W.isWord s.1 then [row.1] else [] := by
  have hends := h.wordEnds W
  rw [expandAcronym, acronymPattern]
  cases hs : (Regex.delimited W.isWord (Regex.literal row.1)).search s.1 with
  | none =>
    have hnot : ¬ tokens W.isWord row.1 <:+: tokens W.isWord s.1 := by
      rw [infix_tokens_iff hends, ← occurs_delimited_literal hends]
      exact (Regex.search_eq_none (proper_delimited_literal hends)).mp hs
    rw [if_neg hnot, List.append_nil]
    exact ⟨(substFirst_of_absent hnot).symm, rfl⟩
  | some found =>
    have hin : tokens W.isWord row.1 <:+: tokens W.isWord s.1 := by
      by_contra hnot
      rw [infix_tokens_iff hends, ← occurs_delimited_literal hends,
        ← Regex.search_eq_none (proper_delimited_literal hends), hs] at hnot
      cases hnot
    rw [if_pos hin]
    exact ⟨tokens_splice hends row.2 hs, rfl⟩

/-- **The loop over the acronyms is a table of first occurrences on the tokens.** -/
theorem tokens_expandWith {table : List (Text × Text)} (h : ∀ row ∈ table, RowOk row) (text : Text) :
    (tokens W.isWord (expandWith W table text).1, (expandWith W table text).2.map (tokens W.isWord)) =
      substTable (tokenTable W table) (tokens W.isWord text) := by
  have hfold : ∀ (rows : List (Text × Text)) (s : Text × List Text), (∀ row ∈ rows, RowOk row) →
      (tokens W.isWord (rows.foldl (expandAcronym W) s).1,
          (rows.foldl (expandAcronym W) s).2.map (tokens W.isWord)) =
        (tokenTable W rows).foldl substRow (tokens W.isWord s.1, s.2.map (tokens W.isWord)) := by
    intro rows
    induction rows with
    | nil => exact fun _ _ => rfl
    | cons row rows ih =>
      intro s hrows
      obtain ⟨hrow, hrows⟩ := List.forall_mem_cons.mp hrows
      obtain ⟨htext, hfound⟩ := expandAcronym_eq (W := W) hrow s
      rw [List.foldl_cons, ih _ hrows, htext, hfound, tokenTable, tokenTable, List.map_cons, List.foldl_cons, substRow]
      split
      · rw [List.map_append, List.map_singleton]
      · rename_i hnot
        rw [substFirst_of_absent hnot, List.append_nil]
  exact hfold table (text, []) h

theorem rowOk_of_perm {table : List (Text × Text)} (hp : acronymExpansions.Perm table) : ∀ row ∈ table, RowOk row :=
  fun row hrow => rowOk row (hp.mem_iff.mpr hrow)

/-- The rows whose acronym stands in the text. -/
def standing (W : WordChars) (table : List (Text × Text)) (text : Text) : List (Text × Text) :=
  table.filter fun row => tokens W.isWord row.1 <:+: tokens W.isWord text

/-- What the expansions add to the length of a text. -/
def growth (W : WordChars) (table : List (Text × Text)) (text : Text) : Nat :=
  ((standing W table text).map fun row => row.2.length - row.1.length).sum

theorem length_eq_weigh (isWord : Char → Bool) (t : Text) : t.length = weigh List.length (tokens isWord t) := by
  nth_rewrite 1 [← flatten_tokens isWord t]
  rw [List.length_flatten, weigh]

section

variable {table : List (Text × Text)} (hp : acronymExpansions.Perm table)
include hp

/-- The acronyms that are expanded are those of the rows that stand in the text as it was. -/
theorem expandWith_snd (text : Text) : (expandWith W table text).2 = (standing W table text).map Prod.fst := by
  have hsnd := congrArg Prod.snd (tokens_expandWith (W := W) (rowOk_of_perm hp) text)
  rw [substTable_snd (separate_tokenTable W hp), tokenTable, List.map_map, List.filter_map] at hsnd
  refine (List.map_injective_iff.mpr fun _ _ h => tokens_injective W.isWord h) (hsnd.trans ?_)
  rw [standing, List.map_map]
  rfl

/-- The tokens of an expanded text. -/
theorem expandWith_fst (text : Text) :
    tokens W.isWord (expandWith W table text).1 = (substTable (tokenTable W table) (tokens W.isWord text)).1 :=
  congrArg Prod.fst (tokens_expandWith (rowOk_of_perm hp) text)

theorem length_expandWith (text : Text) :
    (expandWith W table text).1.length = text.length + growth W table text := by
  have hweigh := weigh_substTable (separate_tokenTable W hp) List.length (tokens W.isWord text)
  rw [← expandWith_fst hp, ← length_eq_weigh, ← length_eq_weigh, tokenTable, List.filter_map, List.map_map,
    List.map_map] at hweigh
  have hsum : ∀ rows : List (Text × Text), (∀ row ∈ rows, RowOk row) →
      (rows.map fun row => row.2.length).sum =
        (rows.map fun row => row.1.length).sum + (rows.map fun row => row.2.length - row.1.length).sum := by
    intro rows
    induction rows with
    | nil => exact fun _ => rfl
    | cons row rows ih =>
      intro hrows
      obtain ⟨hrow, hrows⟩ := List.forall_mem_cons.mp hrows
      have hle := hrow.isInside.length_le
      simp only [List.map_cons, List.sum_cons, ih hrows]
      omega
  have hrows := hsum (standing W table text) fun row hrow => rowOk_of_perm hp row (List.mem_of_mem_filter hrow)
  have hleft : (fun a : List Text × List Text => weigh List.length a.1) ∘
      (fun row : Text × Text => (tokens W.isWord row.1, tokens W.isWord row.2)) = fun row => row.1.length :=
    funext fun row => (length_eq_weigh W.isWord row.1).symm
  have hright : (fun a : List Text × List Text => weigh List.length a.2) ∘
      (fun row : Text × Text => (tokens W.isWord row.1, tokens W.isWord row.2)) = fun row => row.2.length :=
    funext fun row => (length_eq_weigh W.isWord row.2).symm
  rw [hleft, hright] at hweigh
  simp only [standing, growth, Function.comp_def] at hrows hweigh ⊢
  omega

/-- No character of the text is lost, and they stay in their order. -/
theorem sublist_expandWith (text : Text) : text.Sublist (expandWith W table text).1 := by
  have hfold : ∀ (rows : List (Text × Text)) (s : Text × List Text), (∀ row ∈ rows, RowOk row) →
      s.1.Sublist (rows.foldl (expandAcronym W) s).1 := by
    intro rows
    induction rows with
    | nil => exact fun s _ => List.Sublist.refl s.1
    | cons row rows ih =>
      intro s hrows
      obtain ⟨hrow, hrows⟩ := List.forall_mem_cons.mp hrows
      refine List.Sublist.trans ?_ (ih _ hrows)
      rw [expandAcronym, acronymPattern]
      split
      · rename_i n m hs
        have hends := hrow.wordEnds W
        obtain ⟨a, u, b, ⟨hsplit, hm, -⟩, rfl, rfl⟩ := Regex.search_eq_some (proper_delimited_literal hends) hs
        rw [matches_delimited_literal hends] at hm
        rw [hsplit, hm.1, List.take_left, ← List.drop_drop, List.drop_left, List.drop_left, List.append_assoc]
        exact (List.Sublist.refl a).append (hrow.isInside.sublist.append (List.Sublist.refl b))
      · exact List.Sublist.refl s.1
  exact hfold table (text, []) (rowOk_of_perm hp)

theorem mem_expandWith_iff {a text : Text} :
    a ∈ (expandWith W table text).2 ↔ a ∈ table.map Prod.fst ∧ Stands W.isWord a text := by
  rw [expandWith_snd hp, standing]
  simp only [List.mem_map, List.mem_filter, decide_eq_true_eq]
  constructor
  · rintro ⟨row, ⟨hrow, hin⟩, rfl⟩
    exact ⟨⟨row, hrow, rfl⟩, (infix_tokens_iff ((rowOk_of_perm hp row hrow).wordEnds W)).mp hin⟩
  · rintro ⟨⟨row, hrow, rfl⟩, hs⟩
    exact ⟨row, ⟨hrow, (infix_tokens_iff ((rowOk_of_perm hp row hrow).wordEnds W)).mpr hs⟩, rfl⟩

/-- An expanded text has the acronyms of the text. -/
theorem standing_expandWith (text : Text) :
    standing W table (expandWith W table text).1 = standing W table text := by
  have hself : ∀ a ∈ tokenTable W table, a.1 <:+: a.2 := by
    intro a ha
    obtain ⟨r, hr, rfl⟩ := List.mem_map.mp ha
    exact (rowOk_of_perm hp r hr).isInside_tokens W
  refine List.filter_congr fun row hrow => decide_eq_decide.mpr ?_
  rw [expandWith_fst hp]
  exact infix_substTable_iff (separate_tokenTable W hp) hself (List.mem_map_of_mem hrow) (tokens W.isWord text)

end

/-! ## The expansions of a document -/

/-- **An acronym is expanded exactly when it stands as a word in the text as it was; the order of the table does not
matter; and no character of the text is lost.** -/
theorem expandAcronyms_exact (W : WordChars) (text : Text) :
    (∀ a, a ∈ (expandAcronyms W text).2 ↔ a ∈ acronymExpansions.map Prod.fst ∧ Stands W.isWord a text) ∧
      (expandAcronyms W text).2.Sublist (acronymExpansions.map Prod.fst) ∧
        (∀ table, acronymExpansions.Perm table → (expandWith W table text).1 = (expandAcronyms W text).1) ∧
          text.Sublist (expandAcronyms W text).1 := by
  have hp : acronymExpansions.Perm acronymExpansions := List.Perm.refl acronymExpansions
  refine ⟨fun a => mem_expandWith_iff hp, ?_, fun table htable => ?_, sublist_expandWith hp text⟩
  · rw [expandAcronyms, expandWith_snd hp]
    exact List.filter_sublist.map Prod.fst
  · refine tokens_injective W.isWord ?_
    rw [expandAcronyms, expandWith_fst htable, expandWith_fst hp]
    exact (substTable_perm (separate_tokenTable W hp) (htable.map _) _).symm

/-- **Every further pass expands the same acronyms once more, and the text grows by the same length.** -/
theorem expandAcronyms_iterate (W : WordChars) (text : Text) (n : Nat) :
    (expandAcronyms W ((fun t => (expandAcronyms W t).1)^[n] text)).2 = (expandAcronyms W text).2 ∧
      ((fun t => (expandAcronyms W t).1)^[n] text).length = text.length + n * growth W acronymExpansions text := by
  have hp : acronymExpansions.Perm acronymExpansions := List.Perm.refl acronymExpansions
  have hstanding : ∀ n, standing W acronymExpansions ((fun t => (expandAcronyms W t).1)^[n] text) =
      standing W acronymExpansions text := by
    intro n
    induction n with
    | zero => rw [Function.iterate_zero, id_eq]
    | succ n ih =>
      rw [Function.iterate_succ_apply', expandAcronyms, standing_expandWith hp]
      exact ih
  refine ⟨?_, ?_⟩
  · rw [expandAcronyms, expandWith_snd hp, hstanding, expandAcronyms, expandWith_snd hp]
  · induction n with
    | zero => rw [Function.iterate_zero, id_eq, Nat.zero_mul, Nat.add_zero]
    | succ n ih =>
      have hgrowth := congrArg (fun rows => (rows.map fun row => row.2.length - row.1.length).sum) (hstanding n)
      rw [Function.iterate_succ_apply', Nat.succ_mul, ← Nat.add_assoc, ← ih]
      exact (length_expandWith hp _).trans (congrArg _ hgrowth)

end

end ComplianceLoop
