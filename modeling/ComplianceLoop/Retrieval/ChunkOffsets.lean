import ComplianceLoop.PyLib.Places
import ComplianceLoop.Retrieval.ChunkUnits

/-!
# The character offsets of a chunk

`char_start` and `char_end` are found by searching for the text of the first and the last unit of a chunk, or for the
first sentence, to whose place the length of the chunk is added. A search finds the first occurrence of a text. So the
offsets point at the chunk exactly when its units stand unaltered at their places, the first one and the last one occur
at no earlier place, and sentences stand as far apart as they are joined (`pointsAt_iff`).
-/

set_option autoImplicit false

namespace ComplianceLoop

open PyLib

/-! ## The places of the units -/

/-- `_split_into_paragraphs`, with the places of the paragraphs in the normalised text. -/
def paragraphPlaces (text : Text) : List (Nat × Text) :=
  (((Regex.cat (.char (· = '\n')) (.some (· = '\n'))).placed text).map fun p =>
    (p.1 + (p.2.takeWhile isSpace).length, strip p.2)).filter (20 < ·.2.length)

/-- The number of words of the sentences before the sentence number `k`. -/
def wordsBefore (sents : List Text) (k : Nat) : Nat := ((sents.take k).map (wordCount false)).sum

/-- The place of a sentence in its paragraph: its words follow those of the sentences before it. -/
def sentenceStart (para : Text) (k : Nat) : Nat := wordStart false (wordsBefore (splitIntoSentences para) k) para

/-- The place of a unit in the normalised text. -/
def place (text : Text) (u : ChunkUnit) : Nat :=
  match (paragraphPlaces text)[u.para]? with
  | some (start, para) => start + u.sent.elim 0 (sentenceStart para)
  | none => 0

/-- The unit stands at its place in its paragraph. -/
def Stands (text : Text) (u : ChunkUnit) : Prop :=
  ∃ start para, (paragraphPlaces text)[u.para]? = some (start, para) ∧
    u.text <+: para.drop (u.sent.elim 0 (sentenceStart para))

/-- The places of the paragraphs are those of `_split_into_paragraphs`. -/
theorem map_snd_paragraphPlaces (text : Text) : (paragraphPlaces text).map Prod.snd = splitIntoParagraphs text := by
  rw [paragraphPlaces, splitIntoParagraphs, ← Regex.map_snd_placed, List.map_map, List.filter_map, List.filter_map,
    List.map_map]
  rfl

/-- The paragraphs stand in the text, one behind the other. -/
theorem paragraphPlaces_placed (text : Text) : Regex.Placed 0 text (paragraphPlaces text) := by
  have hpieces := Regex.placed_placed (Regex.cat (.char (· = '\n')) (.some (· = '\n'))) text
  have hinner : ∀ piece : Text, (piece.takeWhile isSpace).length + (strip piece).length ≤ piece.length := by
    intro piece
    have hle := (strip_stands piece).length_le
    rw [List.length_drop] at hle
    have hspaces := (List.takeWhile_prefix (p := isSpace) (l := piece)).length_le
    omega
  refine ⟨fun p hp => ?_, ?_⟩
  · obtain ⟨q, hq, rfl⟩ := List.mem_map.mp (List.mem_filter.mp hp).1
    refine ⟨Nat.zero_le _, (strip_stands q.2).trans ?_⟩
    have hfront := ((hpieces.stands q hq).2).drop (q.2.takeWhile isSpace).length
    rwa [List.drop_drop] at hfront
  · refine (List.pairwise_map.mpr (hpieces.ordered.imp fun {p q} hlt => ?_)).filter _
    have hfirst := hinner p.2
    show p.1 + (p.2.takeWhile isSpace).length + (strip p.2).length < q.1 + (q.2.takeWhile isSpace).length
    omega

/-- The text is not empty, and starts with a word. -/
def StartsWord (t : Text) : Prop := t ≠ [] ∧ 0 < wordCount false t

theorem startsWord_strip {t : Text} (h : strip t ≠ []) : StartsWord (strip t) := by
  obtain ⟨c, r, hstrip⟩ := List.exists_cons_of_ne_nil h
  refine ⟨h, ?_⟩
  rw [hstrip]
  exact wordCount_pos (isSpace_head_strip hstrip)

theorem startsWord_paragraph {text para : Text} (h : para ∈ splitIntoParagraphs text) : StartsWord para := by
  obtain ⟨hpiece, hlong⟩ := List.mem_filter.mp h
  obtain ⟨piece, -, rfl⟩ := List.mem_map.mp hpiece
  exact startsWord_strip (List.ne_nil_of_length_pos (Nat.zero_lt_of_lt (of_decide_eq_true hlong)))

theorem startsWord_sentence {para s : Text} (hpara : StartsWord para) (h : s ∈ splitIntoSentences para) :
    StartsWord s := by
  unfold splitIntoSentences at h
  dsimp only at h
  split at h
  · rw [List.mem_singleton.mp h]
    exact hpara
  · obtain ⟨hsent, hne⟩ := List.mem_filter.mp h
    obtain ⟨sent, -, rfl⟩ := List.mem_map.mp hsent
    exact startsWord_strip (by simpa using hne)

/-! ## Places in the text -/

section

variable {text para : Text} {u : ChunkUnit} {start : Nat}

theorem place_eq (h : (paragraphPlaces text)[u.para]? = some (start, para)) :
    place text u = start + u.sent.elim 0 (sentenceStart para) := by
  rw [place, h]

theorem stands_iff (h : (paragraphPlaces text)[u.para]? = some (start, para)) :
    Stands text u ↔ u.text <+: para.drop (u.sent.elim 0 (sentenceStart para)) := by
  constructor
  · rintro ⟨start', para', h', hfront⟩
    obtain ⟨rfl, rfl⟩ := Prod.mk.inj (Option.some.inj (h.symm.trans h'))
    exact hfront
  · exact fun hfront => ⟨start, para, h, hfront⟩

/-- A unit that stands at its place in its paragraph stands there in the text. -/
theorem Stands.isPrefix (h : Stands text u) : u.text <+: text.drop (place text u) := by
  obtain ⟨start, para, hplace, hfront⟩ := h
  have hpara := ((paragraphPlaces_placed text).stands _ (List.mem_of_getElem? hplace)).2
  rw [place_eq hplace, ← List.drop_drop]
  exact hfront.trans (hpara.drop _)

/-- The place of a unit is in its paragraph, and so is its text if it stands there. -/
theorem place_inside (h : (paragraphPlaces text)[u.para]? = some (start, para)) :
    start ≤ place text u ∧ place text u ≤ start + para.length ∧
      (Stands text u → place text u + u.text.length ≤ start + para.length) := by
  have hle : u.sent.elim 0 (sentenceStart para) ≤ para.length := by
    cases u.sent with
    | none => exact Nat.zero_le _
    | some k => exact wordStart_le _ _ _
  rw [stands_iff h, place_eq h]
  refine ⟨Nat.le_add_right _ _, by omega, fun hfront => ?_⟩
  have hlength := hfront.length_le
  rw [List.length_drop] at hlength
  omega

end

/-! ## The order of the units -/

/-- The second unit is behind the first one. -/
structure Before (text : Text) (u u' : ChunkUnit) : Prop where
  behind : Stands text u → place text u + u.text.length ≤ place text u'
  lt : Stands text u' → place text u < place text u'

theorem sum_take_le (ns : List Nat) {j k : Nat} (h : j ≤ k) : (ns.take j).sum ≤ (ns.take k).sum := by
  rw [← List.take_append_drop j (ns.take k), List.take_take, Nat.min_eq_left h, List.sum_append]
  exact Nat.le_add_right _ _

section

variable {sents : List Text} {para s : Text} {j k : Nat}

/-- The words before a sentence are those before an earlier sentence, its own, and those between them. -/
theorem wordsBefore_le (hjk : j < k) (hj : sents[j]? = some s) :
    wordsBefore sents j + wordCount false s ≤ wordsBefore sents k := by
  have hnext := sum_take_le (sents.map (wordCount false)) (Nat.succ_le_of_lt hjk)
  rw [← List.map_take, ← List.map_take, List.take_add_one, hj, List.map_append, List.sum_append] at hnext
  exact hnext

/-- A sentence at its place ends before the place of a later one. -/
theorem sentence_behind (hjk : j < k) (hj : sents[j]? = some s) (hs : s ≠ [])
    (h : s <+: para.drop (wordStart false (wordsBefore sents j) para)) :
    wordStart false (wordsBefore sents j) para + s.length ≤ wordStart false (wordsBefore sents k) para :=
  wordStart_behind hs h (wordsBefore_le hjk hj)

/-- A sentence at its place starts behind the place of an earlier one. -/
theorem sentence_lt {s' : Text} (hjk : j < k) (hj : sents[j]? = some s) (hs : 0 < wordCount false s) (hs' : s' ≠ [])
    (h : s' <+: para.drop (wordStart false (wordsBefore sents k) para)) :
    wordStart false (wordsBefore sents j) para < wordStart false (wordsBefore sents k) para := by
  have hwords := wordsBefore_le hjk hj
  refine wordStart_lt (by omega) ?_
  by_contra hge
  rw [List.drop_eq_nil_of_le (Nat.not_lt.mp hge), List.prefix_nil] at h
  exact hs' h

end

section

variable {text para : Text} {i start : Nat}

theorem place_sentence (h : (paragraphPlaces text)[i]? = some (start, para)) (k : Nat) (s : Text) :
    place text ⟨i, some k, s⟩ = start + sentenceStart para k :=
  place_eq (u := ⟨i, some k, s⟩) h

theorem stands_sentence (h : (paragraphPlaces text)[i]? = some (start, para)) (k : Nat) (s : Text) :
    Stands text ⟨i, some k, s⟩ ↔ s <+: para.drop (sentenceStart para k) :=
  stands_iff (u := ⟨i, some k, s⟩) h

/-- A sentence is before a later one of its paragraph. -/
theorem before_sentence {sents : List Text} {j k : Nat} {s s' : Text}
    (hplace : (paragraphPlaces text)[i]? = some (start, para))
    (hsents : splitIntoSentences para = sents) (hwords : ∀ s ∈ sents, StartsWord s) (hjk : j < k)
    (hj : sents[j]? = some s) (hk : sents[k]? = some s') : Before text ⟨i, some j, s⟩ ⟨i, some k, s'⟩ := by
  obtain ⟨hs, hcount⟩ := hwords s (List.mem_of_getElem? hj)
  have hs' := (hwords s' (List.mem_of_getElem? hk)).1
  constructor
  · intro hstands
    rw [stands_sentence hplace, sentenceStart, hsents] at hstands
    rw [place_sentence hplace, place_sentence hplace, sentenceStart, sentenceStart, hsents, Nat.add_assoc]
    exact Nat.add_le_add_left (sentence_behind hjk hj hs hstands) start
  · intro hstands
    rw [stands_sentence hplace, sentenceStart, hsents] at hstands
    rw [place_sentence hplace, place_sentence hplace, sentenceStart, sentenceStart, hsents]
    exact Nat.add_lt_add_left (sentence_lt hjk hj hcount hs' hstands) start

/-- The sentences of a paragraph follow each other. -/
theorem before_sentences {p : Nat × Text} (hp : p.2 ∈ splitIntoParagraphs text)
    (hplace : (paragraphPlaces text)[p.1]? = some (start, p.2)) : (sentenceUnits p).Pairwise (Before text) := by
  have hwords : ∀ s ∈ splitIntoSentences p.2, StartsWord s :=
    fun _ hs => startsWord_sentence (startsWord_paragraph hp) hs
  unfold sentenceUnits
  generalize hsents : splitIntoSentences p.2 = sents at hwords ⊢
  rw [List.pairwise_map, List.pairwise_iff_getElem]
  simp only [List.getElem_zipIdx, List.length_zipIdx, Nat.zero_add]
  intro j k hj hk hjk
  exact before_sentence hplace hsents hwords hjk (List.getElem?_eq_getElem hj) (List.getElem?_eq_getElem hk)

/-- The paragraphs have places. -/
theorem place_of_mem_paragraphsOf {p : Nat × Text} (hp : p ∈ Chunker.paragraphsOf text) :
    p.2 ∈ splitIntoParagraphs (normaliseWhitespace text) ∧
      ∃ start, (paragraphPlaces (normaliseWhitespace text))[p.1]? = some (start, p.2) := by
  obtain ⟨q, hq, rfl⟩ := List.mem_map.mp hp
  have hat : (splitIntoParagraphs (normaliseWhitespace text))[q.2]? = some q.1 := List.mk_mem_zipIdx_iff_getElem?.mp hq
  refine ⟨List.mem_of_getElem? hat, ?_⟩
  rw [← map_snd_paragraphPlaces, List.getElem?_map, Option.map_eq_some_iff] at hat
  obtain ⟨⟨start, para⟩, hplace, rfl⟩ := hat
  exact ⟨start, hplace⟩

/-- The units follow each other. -/
theorem pairwise_units (chunker : Chunker) (size : Int) (text : Text) :
    (chunker.unitRuns text size).flatten.Pairwise (Before (normaliseWhitespace text)) := by
  have hindices : (Chunker.paragraphsOf text).Pairwise fun p q => p.1 < q.1 := by
    have hmap : (Chunker.paragraphsOf text).map Prod.fst =
        (splitIntoParagraphs (normaliseWhitespace text)).zipIdx.map Prod.snd := by
      rw [Chunker.paragraphsOf, List.map_map]
      rfl
    rw [← List.pairwise_map, hmap, List.zipIdx_map_snd]
    exact List.pairwise_lt_range'
  rw [Chunker.flatten_unitRuns, List.pairwise_flatMap]
  refine ⟨fun p hp => ?_, hindices.imp_of_mem fun {p q} hp hq hlt u hu u' hu' => ?_⟩
  · obtain ⟨hmem, start, hplace⟩ := place_of_mem_paragraphsOf hp
    unfold Chunker.paragraphUnits
    split
    · exact before_sentences hmem hplace
    · exact List.pairwise_singleton _ _
  · -- the first paragraph ends before the second one starts
    obtain ⟨-, start, hplace⟩ := place_of_mem_paragraphsOf hp
    obtain ⟨-, start', hplace'⟩ := place_of_mem_paragraphsOf hq
    have hbefore : start + p.2.length < start' := by
      obtain ⟨hlength, hat⟩ := List.getElem?_eq_some_iff.mp hplace
      obtain ⟨hlength', hat'⟩ := List.getElem?_eq_some_iff.mp hplace'
      have hordered := List.pairwise_iff_getElem.mp (paragraphPlaces_placed (normaliseWhitespace text)).ordered
        p.1 q.1 hlength hlength' hlt
      rwa [hat, hat'] at hordered
    rw [← Chunker.para_of_mem_paragraphUnits chunker size hu] at hplace
    rw [← Chunker.para_of_mem_paragraphUnits chunker size hu'] at hplace'
    obtain ⟨-, hle, hends⟩ := place_inside hplace
    obtain ⟨hge, -, -⟩ := place_inside hplace'
    exact ⟨fun hstands => by have := hends hstands; omega, fun _ => by omega⟩

end

/-! ## The units of a chunk among the others -/

section

variable {text : Text} {units before after w : List ChunkUnit} {f l : ChunkUnit}

/-- The stretch from the first unit of a window to the last one has no other units. -/
theorem within_iff (hunits : (before ++ w ++ after).Pairwise (Before text))
    (hne : ∀ u ∈ before ++ w ++ after, u.text ≠ []) (hf : w.head? = some f) (hl : w.getLast? = some l)
    (hstands : ∀ u ∈ w, Stands text u) {u : ChunkUnit}
    (hu : u ∈ before ++ w ++ after) :
    (place text f ≤ place text u ∧ place text u + u.text.length ≤ place text l + l.text.length) ↔ u ∈ w := by
  have hfw : f ∈ w := List.mem_of_head? hf
  have hlw : l ∈ w := List.mem_of_getLast? hl
  obtain ⟨hunits, -, hafter⟩ := List.pairwise_append.mp hunits
  obtain ⟨-, hwindow, hbefore⟩ := List.pairwise_append.mp hunits
  constructor
  · rintro ⟨hge, hle⟩
    obtain hu | hu := List.mem_append.mp hu
    · refine (List.mem_append.mp hu).resolve_left fun hu => ?_
      have hlt := (hbefore u hu f hfw).lt (hstands f hfw)
      omega
    · have hbehind := (hafter l (List.mem_append_right _ hlw) u hu).behind (hstands l hlw)
      have hpos := List.length_pos_iff.mpr (hne u (List.mem_append_right _ hu))
      omega
  · intro hu
    constructor
    · obtain ⟨rest, rfl⟩ := List.head?_eq_some_iff.mp hf
      obtain rfl | hrest := List.mem_cons.mp hu
      · exact Nat.le_refl _
      · exact Nat.le_of_lt (((List.pairwise_cons.mp hwindow).1 u hrest).lt (hstands u hu))
    · obtain ⟨init, rfl⟩ := List.getLast?_eq_some_iff.mp hl
      obtain hinit | hlast := List.mem_append.mp hu
      · have hlast := (List.pairwise_append.mp hwindow).2.2 u hinit l (List.mem_singleton_self l)
        have hbehind := hlast.behind (hstands u hu)
        exact hbehind.trans (Nat.le_add_right _ _)
      · rw [List.mem_singleton.mp hlast]

end

/-! ## The offsets -/

/-- The offsets point at the window among the units of the text. -/
structure PointsAt (text : Text) (units w : List ChunkUnit) (c : TextChunk) : Prop where
  bounds : 0 ≤ c.charStart ∧ c.charStart ≤ c.charEnd ∧ c.charEnd ≤ text.length
  starts : ∃ f ∈ w.head?, c.charStart = place text f ∧
    f.text <+: (text.take c.charEnd.toNat).drop c.charStart.toNat
  ends : ∃ l ∈ w.getLast?, c.charEnd = place text l + l.text.length ∧
    l.text <:+ (text.take c.charEnd.toNat).drop c.charStart.toNat
  stands : ∀ u ∈ w, Stands text u
  within : ∀ u ∈ units, (c.charStart ≤ place text u ∧ place text u + u.text.length ≤ c.charEnd) ↔ u ∈ w

/-- The searches for the first and the last unit find their places. -/
structure FindsPlaces (text : Text) (w : List ChunkUnit) : Prop where
  stands : ∀ u ∈ w, Stands text u
  first : ∀ f ∈ w.head?, ∀ j < place text f, ¬ f.text <+: text.drop j
  last : ∀ f ∈ w.head?, ∀ l ∈ w.getLast?,
    if f.sent.isSome then place text f + (joined w).length = place text l + l.text.length
    else ∀ j < place text l, ¬ l.text <+: text.drop j

section

variable {text : Text} {units before after w : List ChunkUnit} {f l : ChunkUnit} {c : TextChunk}

/-- Offsets that are the places of the first and the last unit point at the window. -/
theorem PointsAt.of_places (hunits : (before ++ w ++ after).Pairwise (Before text))
    (hne : ∀ u ∈ before ++ w ++ after, u.text ≠ []) (hf : w.head? = some f) (hl : w.getLast? = some l)
    (hstands : ∀ u ∈ w, Stands text u) (hstart : c.charStart = place text f)
    (hend : c.charEnd = place text l + l.text.length) : PointsAt text (before ++ w ++ after) w c := by
  have hwithin : ∀ u ∈ before ++ w ++ after,
      (place text f ≤ place text u ∧ place text u + u.text.length ≤ place text l + l.text.length) ↔ u ∈ w :=
    fun u hu => within_iff hunits hne hf hl hstands hu
  have hmem : ∀ u ∈ w, u ∈ before ++ w ++ after := fun u hu => List.mem_append_left _ (List.mem_append_right _ hu)
  have hfw : f ∈ w := List.mem_of_head? hf
  have hlw : l ∈ w := List.mem_of_getLast? hl
  have hfirst := ((hwithin f (hmem f hfw)).mpr hfw).2
  have hlast := ((hwithin l (hmem l hlw)).mpr hlw).1
  have hends : (place text l : Int) + l.text.length ≤ text.length := by
    have hle := (hstands l hlw).isPrefix.length_le
    have hpos := List.length_pos_iff.mpr (hne l (hmem l hlw))
    rw [List.length_drop] at hle
    omega
  have hslice : (text.take c.charEnd.toNat).drop c.charStart.toNat =
      (text.take (place text l + l.text.length)).drop (place text f) := by
    rw [hstart, hend, ← Int.natCast_add, Int.toNat_natCast, Int.toNat_natCast]
  refine ⟨?_, ⟨f, hf, hstart, ?_⟩, ⟨l, hl, hend, ?_⟩, hstands, fun u hu => ?_⟩
  · omega
  · rw [hslice]
    exact prefix_slice (hstands f hfw).isPrefix hfirst
  · rw [hslice]
    exact suffix_slice (hstands l hlw).isPrefix hlast
  · rw [← hwithin u hu]
    omega

/-- The search for the first unit finds its place. -/
theorem charStart_eq_iff (hne : f.text ≠ []) (hstands : Stands text f)
    (hstart : c.charStart = max 0 (find f.text text)) :
    c.charStart = place text f ↔ ∀ j < place text f, ¬ f.text <+: text.drop j := by
  rw [hstart, max_eq_right (find_nonneg hne hstands.isPrefix)]
  exact find_eq_iff hne hstands.isPrefix

/-- The search for the last unit finds its place, or the length of the chunk leads to it. -/
theorem charEnd_eq_iff (hne : l.text ≠ []) (hstands : Stands text l) (hstart : c.charStart = place text f)
    (hend : c.charEnd =
      if f.sent.isSome then c.charStart + (joined w).length
      else if 0 ≤ find l.text text then find l.text text + l.text.length
      else find f.text text + (joined w).length) :
    c.charEnd = place text l + l.text.length ↔
      if f.sent.isSome then place text f + (joined w).length = place text l + l.text.length
      else ∀ j < place text l, ¬ l.text <+: text.drop j := by
  rw [hend]
  by_cases hsent : f.sent.isSome = true
  · rw [if_pos hsent, if_pos hsent, hstart]
    omega
  · rw [if_neg hsent, if_neg hsent, if_pos (find_nonneg hne hstands.isPrefix), ← find_eq_iff hne hstands.isPrefix]
    omega

end

namespace Chunker

section

variable {chunker : Chunker} {text sourceDocumentId sourceUrl : Text} {size overlap : Int} {w : List ChunkUnit}
  {f l : ChunkUnit} {i : Nat} {c : TextChunk}

/-- The offsets that the chunk of a window has. -/
theorem offsets_of_makeUnits (hf : w.head? = some f) (hl : w.getLast? = some l)
    (h : chunker.makeUnits text sourceDocumentId sourceUrl w i = some c) :
    c.charStart = max 0 (find f.text text) ∧
      c.charEnd =
        if f.sent.isSome then c.charStart + (joined w).length
        else if 0 ≤ find l.text text then find l.text text + l.text.length
        else find f.text text + (joined w).length := by
  have htext := chunker.text_of_makeUnits text sourceDocumentId sourceUrl h
  obtain ⟨rest, rfl⟩ := List.head?_eq_some_iff.mp hf
  rw [← htext]
  unfold makeUnits at h
  dsimp only at h
  split at h
  · rename_i hsent
    unfold makeSentenceChunk at h
    dsimp only at h
    split at h
    · obtain rfl := Option.some.inj h
      rw [if_pos hsent]
      exact ⟨rfl, rfl⟩
    · cases h
  · rename_i hsent
    have hlast : (rest.map fun u => (u.para, u.text)).getLastD (f.para, f.text) = (l.para, l.text) := by
      have hmap : ((f :: rest).map fun u => (u.para, u.text)).getLast? = some (l.para, l.text) := by
        rw [List.getLast?_map, hl]
        rfl
      rw [List.map_cons, List.getLast?_cons] at hmap
      rw [List.getLastD_eq_getLast?]
      exact Option.some.inj hmap
    unfold makeChunk at h
    rw [List.map_cons] at h
    dsimp only at h
    rw [hlast] at h
    split at h
    · cases h
    · obtain rfl := Option.some.inj h
      rw [if_neg hsent]
      exact ⟨rfl, rfl⟩

theorem text_ne_nil {u : ChunkUnit} (hu : u ∈ (chunker.unitRuns text size).flatten) : u.text ≠ [] := by
  rw [flatten_unitRuns] at hu
  obtain ⟨p, hp, hu⟩ := List.mem_flatMap.mp hu
  have hpara := startsWord_paragraph (place_of_mem_paragraphsOf hp).1
  unfold paragraphUnits at hu
  split at hu
  · have hsent : u.text ∈ splitIntoSentences p.2 := by
      rw [← map_text_sentenceUnits]
      exact List.mem_map_of_mem hu
    exact (startsWord_sentence hpara hsent).1
  · rw [List.mem_singleton.mp hu]
    exact hpara.1

/-- The offsets of the chunk of a window point at it if and only if the searches find the places. -/
theorem pointsAt_window (hw : w ∈ chunker.chunkUnits text size overlap)
    (h : chunker.makeUnits (normaliseWhitespace text) sourceDocumentId sourceUrl w i = some c) :
    PointsAt (normaliseWhitespace text) (chunker.unitRuns text size).flatten w c ↔
      FindsPlaces (normaliseWhitespace text) w := by
  obtain ⟨run, hrun, hwindow, -⟩ := mem_chunkUnits.mp hw
  have hw : w ≠ [] := Sliding.ne_nil_of_mem_all hwindow
  obtain ⟨f, hf⟩ : ∃ f, w.head? = some f := ⟨w.head hw, List.head?_eq_some_head hw⟩
  obtain ⟨l, hl⟩ : ∃ l, w.getLast? = some l := ⟨w.getLast hw, List.getLast?_eq_some_getLast hw⟩
  obtain ⟨hstart, hend⟩ := offsets_of_makeUnits hf hl h
  have hstretch : w <:+: (chunker.unitRuns text size).flatten :=
    (Sliding.infix_of_mem_all hwindow).trans (List.infix_of_mem_flatten hrun)
  have hne : ∀ u ∈ (chunker.unitRuns text size).flatten, u.text ≠ [] := fun u hu => text_ne_nil hu
  have hfne := hne f (hstretch.subset (List.mem_of_head? hf))
  have hlne := hne l (hstretch.subset (List.mem_of_getLast? hl))
  constructor
  · intro hpoints
    obtain ⟨f', hf', hplace, -⟩ := hpoints.starts
    obtain ⟨l', hl', hplace', -⟩ := hpoints.ends
    obtain rfl := Option.some.inj (hf.symm.trans hf')
    obtain rfl := Option.some.inj (hl.symm.trans hl')
    refine ⟨hpoints.stands, fun g hg => ?_, fun g hg m hm => ?_⟩
    · obtain rfl := Option.some.inj (hf.symm.trans hg)
      exact (charStart_eq_iff hfne (hpoints.stands f (List.mem_of_head? hf)) hstart).mp hplace
    · obtain rfl := Option.some.inj (hf.symm.trans hg)
      obtain rfl := Option.some.inj (hl.symm.trans hm)
      exact (charEnd_eq_iff hlne (hpoints.stands l (List.mem_of_getLast? hl)) hplace hend).mp hplace'
  · intro hfinds
    have hplace := (charStart_eq_iff hfne (hfinds.stands f (List.mem_of_head? hf)) hstart).mpr (hfinds.first f hf)
    have hplace' := (charEnd_eq_iff hlne (hfinds.stands l (List.mem_of_getLast? hl)) hplace hend).mpr
      (hfinds.last f hf l hl)
    have hpairwise := pairwise_units chunker size text
    obtain ⟨before, after, hunits⟩ := hstretch
    rw [← hunits] at hpairwise hne ⊢
    exact .of_places hpairwise hne hf hl hfinds.stands hplace hplace'

variable (chunker text sourceDocumentId sourceUrl size overlap) in
/-- **The offsets of a chunk point at it if and only if the searches for its first and its last unit find their
places.** -/
theorem pointsAt_iff (i : Nat) :
    (∀ c, (chunker.chunkText text sourceDocumentId sourceUrl size overlap)[i]? = some c →
      ∃ w, (chunker.chunkUnits text size overlap)[i]? = some w ∧
        PointsAt (normaliseWhitespace text) (chunker.unitRuns text size).flatten w c) ↔
      ∀ w, (chunker.chunkUnits text size overlap)[i]? = some w → FindsPlaces (normaliseWhitespace text) w := by
  constructor
  · intro h w hw
    obtain ⟨c, hc, hmake⟩ := chunkAt sourceDocumentId sourceUrl hw
    obtain ⟨w', hw', hpoints⟩ := h c hc
    obtain rfl := Option.some.inj (hw.symm.trans hw')
    exact (pointsAt_window (List.mem_of_getElem? hw) hmake).mp hpoints
  · intro h c hc
    obtain ⟨w, hw, hmake⟩ := chunker.unitsAt text sourceDocumentId sourceUrl size overlap hc
    exact ⟨w, hw, (pointsAt_window (List.mem_of_getElem? hw) hmake).mpr (h w hw)⟩

end

namespace Sample

/-- The same paragraph twice. -/
def sameParagraphs : Text := List.replicate 200 'a' ++ "\n\n".toList ++ List.replicate 200 'a'

end Sample

/-- Both chunks have the offsets of the first one. -/
theorem not_pointsAt :
    ¬ ∀ (chunker : Chunker) (text sourceDocumentId sourceUrl : Text) (size overlap : Int) (i : Nat) (c : TextChunk),
      (chunker.chunkText text sourceDocumentId sourceUrl size overlap)[i]? = some c →
        ∃ w, (chunker.chunkUnits text size overlap)[i]? = some w ∧
          PointsAt (normaliseWhitespace text) (chunker.unitRuns text size).flatten w c := by
  intro h
  have hstarts : (Sample.fallback.chunkText Sample.sameParagraphs [] [] 50 0).map TextChunk.charStart = [0, 0] := by
    decide +kernel
  have hplaces : (Sample.fallback.chunkUnits Sample.sameParagraphs 50 0).map
      (fun w => w.head?.map (place (normaliseWhitespace Sample.sameParagraphs))) = [some 0, some 202] := by
    decide +kernel
  obtain ⟨c, hc, hstart⟩ : ∃ c, (Sample.fallback.chunkText Sample.sameParagraphs [] [] 50 0)[1]? = some c ∧
      c.charStart = 0 := by
    refine Option.map_eq_some_iff.mp ?_
    rw [← List.getElem?_map, hstarts]
    rfl
  obtain ⟨w, hw, hpoints⟩ := h Sample.fallback Sample.sameParagraphs [] [] 50 0 1 c hc
  obtain ⟨f, hf, hplace, -⟩ := hpoints.starts
  have h202 := congrArg (·[1]?) hplaces
  simp only [List.getElem?_map, hw, Option.map_some, Option.mem_def.mp hf] at h202
  have hsecond : place (normaliseWhitespace Sample.sameParagraphs) f = 202 := by simpa using h202
  rw [hstart, hsecond] at hplace
  exact absurd hplace (by decide)

end Chunker

end ComplianceLoop
