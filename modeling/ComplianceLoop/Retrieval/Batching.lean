import ComplianceLoop.Retrieval.IndexManager

/-!
# The batches of a build

`build` embeds 256 texts at a time, and `batch_embed` raises when all its texts are blank. So a build has the rows that
one call of `batch_embed` on all texts would have exactly when each batch has a text that is not blank
(`sameAsOneBatch_iff`); the size of the encoding batches, `EMBEDDING_BATCH_SIZE`, makes no difference.
-/

set_option autoImplicit false

namespace ComplianceLoop

open PyLib

section

variable {V : Type}

/-! ## `EMBEDDING_BATCH_SIZE` -/

/-- `int(os.environ.get("EMBEDDING_BATCH_SIZE", "32"))`. -/
def effectiveBatchSize (env : Option Text) : Except PyExc Int :=
  match intOfDecimal (env.getD "32".toList) with
  | some size => .ok size
  | none => raise .valueError "invalid literal for int() with base 10".toList

/-- `batch_embed`, where `transformer` says what `encode` does with a batch size: it raises for all texts, or it embeds
them. -/
def batchEmbedSized (transformer : Int → Except PyExc (EmbeddingModel V)) (env : Option Text) (texts : List Text) :
    Except PyExc (List V) :=
  if texts.isEmpty then raise .valueError "Cannot embed empty text list.".toList
  else
    (effectiveBatchSize env).bind fun size =>
      let nonEmpty := texts.filter (!isBlank ·)
      if nonEmpty.isEmpty then raise .valueError "All texts in the list are empty.".toList
      else
        (transformer size).bind fun model =>
          let vectors := model.encode nonEmpty
          .ok (if nonEmpty.length < texts.length then spreadRows model texts vectors else vectors)

/-! ## A build with any `batch_embed` -/

section

variable (embedTexts : List Text → Except PyExc (List V))

/-- The body of the loop of `build`. -/
def buildBatchBy (chunks : List TextChunk) (s : BuildState V) (batchStart : Nat) : Except PyExc (BuildState V) :=
  let batchTexts := ((chunks.map TextChunk.text).drop batchStart).take buildBatchSize
  let batchChunks := (chunks.drop batchStart).take buildBatchSize
  (embedTexts batchTexts).map fun vectors =>
    { vectors := s.vectors ++ vectors
      idMap := batchChunks.zipIdx.foldl (fun m p => setItem ((batchStart + p.2 : Nat) : Int) p.1.toMetadataDict m)
        s.idMap }

/-- The index and the ID map of `build`. -/
def buildIndexBy (chunks : List TextChunk) : Except PyExc (BuildState V) :=
  (batchStarts chunks.length).foldlM (buildBatchBy embedTexts chunks) ⟨[], []⟩

/-- `build`. -/
def buildBy (chunks : List TextChunk) (target : IndexFiles (List V) IdMapFile) :
    Except PyExc Nat × IndexFiles (List V) IdMapFile :=
  if chunks.isEmpty then (raise .valueError "Cannot build index from empty chunk list.".toList, target)
  else
    match buildIndexBy embedTexts chunks with
    | .error e => (.error e, target)
    | .ok s => (.ok s.vectors.length, ⟨some s.vectors, some s.idMapFile⟩)

end

/-- With `batch_embed` it is the build of the index manager. -/
theorem buildBy_batchEmbed (model : EmbeddingModel V) : buildBy (batchEmbed model) = build model := rfl

/-- With a batch size that can be used, the transformer embeds. -/
theorem batchEmbedSized_ok {transformer : Int → Except PyExc (EmbeddingModel V)} {env : Option Text} {size : Int}
    {model : EmbeddingModel V} (hsize : effectiveBatchSize env = .ok size) (hmodel : transformer size = .ok model) :
    batchEmbedSized transformer env = batchEmbed model := by
  funext texts
  unfold batchEmbedSized batchEmbed
  rw [hsize]
  simp only [ok_bind, hmodel]

/-! ## Rows -/

/-- Each text is embedded independently of its batch. -/
def EmbeddingModel.Independent (model : EmbeddingModel V) : Prop :=
  ∀ texts, model.encode texts = texts.map model.encodeOne

/-- The row of a text: its embedding, or the zero row when it is blank. -/
def EmbeddingModel.rowOf (model : EmbeddingModel V) (t : Text) : V :=
  if isBlank t then model.zero else model.encodeOne t

/-- Some text is not blank. -/
def HasText (texts : List Text) : Prop := ∃ t ∈ texts, isBlank t = false

theorem HasText.ne_nil {chunks : List TextChunk} (h : HasText (chunks.map TextChunk.text)) : chunks ≠ [] := by
  rintro rfl
  obtain ⟨t, ht, -⟩ := h
  cases ht

/-- Each batch has a text that is not blank. -/
def EveryBatchHasText (chunks : List TextChunk) : Prop :=
  ∀ k, k * buildBatchSize < chunks.length →
    HasText (((chunks.map TextChunk.text).drop (k * buildBatchSize)).take buildBatchSize)

theorem rowOf_of_not_blank (model : EmbeddingModel V) {t : Text} (h : isBlank t = false) :
    model.rowOf t = model.encodeOne t := by
  rw [EmbeddingModel.rowOf, h, if_neg Bool.false_ne_true]

/-- The rows of the texts that are not blank, and zero rows between them. -/
theorem spreadRows_encodeOne (model : EmbeddingModel V) (texts : List Text) :
    spreadRows model texts ((texts.filter (!isBlank ·)).map model.encodeOne) = texts.map model.rowOf := by
  induction texts with
  | nil => rfl
  | cons t texts ih =>
    unfold spreadRows
    cases h : isBlank t with
    | true =>
      rw [if_pos rfl, List.filter_cons_of_neg (by simp [h]), ih, List.map_cons, EmbeddingModel.rowOf, h, if_pos rfl]
    | false =>
      rw [if_neg Bool.false_ne_true, List.filter_cons_of_pos (by simp [h]), List.map_cons]
      dsimp only
      rw [ih, List.map_cons, rowOf_of_not_blank model h]

theorem filter_isEmpty_of_hasText {texts : List Text} (h : HasText texts) :
    (texts.filter (!isBlank ·)).isEmpty = false := by
  obtain ⟨t, ht, hb⟩ := h
  refine List.isEmpty_eq_false_iff_exists_mem.mpr ⟨t, List.mem_filter.mpr ⟨ht, ?_⟩⟩
  rw [hb]
  rfl

/-- One call of `batch_embed` has the row of each text. -/
theorem batchEmbed_of_hasText {model : EmbeddingModel V} (hind : model.Independent) {texts : List Text}
    (h : HasText texts) : batchEmbed model texts = .ok (texts.map model.rowOf) := by
  have hempty : texts.isEmpty = false := by
    obtain ⟨t, ht, -⟩ := h
    exact List.isEmpty_eq_false_iff_exists_mem.mpr ⟨t, ht⟩
  unfold batchEmbed
  rw [hempty, if_neg Bool.false_ne_true]
  dsimp only
  rw [filter_isEmpty_of_hasText h, if_neg Bool.false_ne_true, hind]
  split
  · rw [spreadRows_encodeOne]
  · rename_i hlength
    -- no text is blank
    have hself : texts.filter (!isBlank ·) = texts :=
      List.filter_sublist.eq_of_length (Nat.le_antisymm (List.length_filter_le _ _) (not_lt.mp hlength))
    rw [hself]
    refine congrArg Except.ok (List.map_congr_left fun t ht => (rowOf_of_not_blank model ?_).symm)
    simpa using List.filter_eq_self.mp hself t ht

/-- With blank texts only it raises. -/
theorem batchEmbed_eq_ok {model : EmbeddingModel V} {texts : List Text} {rows : List V}
    (h : batchEmbed model texts = .ok rows) : HasText texts := by
  unfold batchEmbed at h
  split at h
  · cases h
  · dsimp only at h
    split at h
    · cases h
    · rename_i hempty
      obtain ⟨t, ht⟩ := List.isEmpty_eq_false_iff_exists_mem.mp (Bool.eq_false_iff.mpr hempty)
      obtain ⟨ht, hb⟩ := List.mem_filter.mp ht
      exact ⟨t, ht, by simpa using hb⟩

/-! ## The loop over the batches -/

/-- One batch more. -/
theorem foldlM_batches {σ : Type} (f : σ → Nat → Except PyExc σ) (s : σ) (m : Nat) :
    ((List.range (m + 1)).map (· * buildBatchSize)).foldlM f s =
      (((List.range m).map (· * buildBatchSize)).foldlM f s).bind fun t => f t (m * buildBatchSize) := by
  rw [List.range_succ, List.map_append, List.foldlM_append, List.map_singleton]
  simp only [List.foldlM_cons, List.foldlM_nil, bind_pure]
  rfl

/-- After the first batches, when each of them has a text, the index has the rows of their texts. -/
theorem buildLoop_of_hasText {model : EmbeddingModel V} (hind : model.Independent) {chunks : List TextChunk} (m : Nat)
    (hm : m ≤ (chunks.length + buildBatchSize - 1) / buildBatchSize)
    (h : ∀ k < m, HasText (((chunks.map TextChunk.text).drop (k * buildBatchSize)).take buildBatchSize)) :
    ((List.range m).map (· * buildBatchSize)).foldlM (buildBatch model chunks) ⟨[], []⟩ =
      .ok ⟨((chunks.map TextChunk.text).take (m * buildBatchSize)).map model.rowOf,
        idEntries (chunks.take (m * buildBatchSize))⟩ := by
  induction m with
  | zero =>
    rw [Nat.zero_mul, List.take_zero, List.take_zero]
    rfl
  | succ m ih =>
    have hbatch := batchEmbed_of_hasText hind (h m (Nat.lt_succ_self m))
    rw [foldlM_batches, ih (by omega) fun k hk => h k (by omega), ok_bind, buildBatch_of_embed (batch_lt hm) hbatch,
      take_next_batch (chunks.map TextChunk.text), List.map_append]

/-- A loop that returns has embedded a text in each batch. -/
theorem hasText_of_buildLoop {model : EmbeddingModel V} {chunks : List TextChunk} {m : Nat} {s : BuildState V}
    (h : ((List.range m).map (· * buildBatchSize)).foldlM (buildBatch model chunks) ⟨[], []⟩ = .ok s) :
    ∀ k < m, HasText (((chunks.map TextChunk.text).drop (k * buildBatchSize)).take buildBatchSize) := by
  induction m generalizing s with
  | zero => exact fun k hk => absurd hk (Nat.not_lt_zero k)
  | succ m ih =>
    rw [foldlM_batches] at h
    obtain ⟨t, hloop, hlast⟩ := bind_eq_ok.mp h
    intro k hk
    obtain hk | rfl := Nat.lt_succ_iff_lt_or_eq.mp hk
    · exact ih hloop k hk
    · obtain ⟨rows, hrows, -⟩ := map_eq_ok.mp hlast
      exact batchEmbed_eq_ok hrows

/-- The index of a build. -/
theorem buildIndex_eq_ok {model : EmbeddingModel V} (hind : model.Independent) {chunks : List TextChunk}
    {s : BuildState V} : buildIndex model chunks = .ok s ↔
      EveryBatchHasText chunks ∧ s = ⟨(chunks.map TextChunk.text).map model.rowOf, idEntries chunks⟩ := by
  have hstarts : ∀ k, k * buildBatchSize < chunks.length ↔
      k < (chunks.length + buildBatchSize - 1) / buildBatchSize := by
    refine fun k => ⟨fun hk => ?_, batch_lt⟩
    rw [Nat.lt_iff_add_one_le, Nat.le_div_iff_mul_le (by decide), Nat.succ_mul]
    omega
  have htexts := take_batches (chunks.map TextChunk.text)
  rw [List.length_map] at htexts
  unfold EveryBatchHasText
  simp only [hstarts]
  constructor
  · intro h
    have hall := hasText_of_buildLoop h
    have hloop := buildLoop_of_hasText hind _ (Nat.le_refl _) hall
    rw [take_batches, htexts] at hloop
    exact ⟨hall, Except.ok.inj (h.symm.trans hloop)⟩
  · rintro ⟨hall, rfl⟩
    have hloop := buildLoop_of_hasText hind _ (Nat.le_refl _) hall
    rwa [take_batches, htexts] at hloop

/-! ## One batch or many -/

/-- The build returns, and its index has these rows. -/
def Builds (embedTexts : List Text → Except PyExc (List V)) (chunks : List TextChunk)
    (target : IndexFiles (List V) IdMapFile) (rows : List V) : Prop :=
  (buildBy embedTexts chunks target).1 = .ok rows.length ∧ (buildBy embedTexts chunks target).2.index = some rows

theorem builds_iff {embedTexts : List Text → Except PyExc (List V)} {chunks : List TextChunk} (hne : chunks ≠ [])
    {target : IndexFiles (List V) IdMapFile} {rows : List V} :
    Builds embedTexts chunks target rows ↔ ∃ s, buildIndexBy embedTexts chunks = .ok s ∧ s.vectors = rows := by
  have hempty : chunks.isEmpty = false := by simpa using hne
  unfold Builds buildBy
  rw [hempty, if_neg Bool.false_ne_true]
  cases hindex : buildIndexBy embedTexts chunks with
  | error e =>
    refine iff_of_false (fun h => ?_) (fun h => ?_)
    · cases h.1
    · obtain ⟨s, hs, -⟩ := h
      cases hs
  | ok s =>
    constructor
    · exact fun h => ⟨s, rfl, Option.some.inj h.2⟩
    · rintro ⟨_, hs, rfl⟩
      obtain rfl := Except.ok.inj hs
      exact ⟨rfl, rfl⟩

/-- A batch size that can be read and used. -/
def UsableBatchSize (transformer : Int → Except PyExc (EmbeddingModel V)) (env : Option Text) : Prop :=
  ∃ size model, effectiveBatchSize env = .ok size ∧ transformer size = .ok model

/-- The build has the index that one call of `batch_embed` on all texts would give it, row by row. -/
structure SameAsOneBatch (transformer : Int → Except PyExc (EmbeddingModel V)) (env : Option Text)
    (chunks : List TextChunk) (target : IndexFiles (List V) IdMapFile) : Prop where
  same : ∀ rows, Builds (batchEmbedSized transformer env) chunks target rows ↔
    batchEmbedSized transformer env (chunks.map TextChunk.text) = .ok rows
  rows : ∀ rows, Builds (batchEmbedSized transformer env) chunks target rows →
    ∃ size model, effectiveBatchSize env = .ok size ∧ transformer size = .ok model ∧
      rows = (chunks.map TextChunk.text).map model.rowOf

/-- The rows of a build with a batch size that can be used. -/
theorem builds_usable_iff {transformer : Int → Except PyExc (EmbeddingModel V)} {env : Option Text} {size : Int}
    {model : EmbeddingModel V} (hsize : effectiveBatchSize env = .ok size) (hmodel : transformer size = .ok model)
    (hind : model.Independent) {chunks : List TextChunk} (hne : chunks ≠ []) {target : IndexFiles (List V) IdMapFile}
    {rows : List V} :
    Builds (batchEmbedSized transformer env) chunks target rows ↔
      EveryBatchHasText chunks ∧ rows = (chunks.map TextChunk.text).map model.rowOf := by
  rw [batchEmbedSized_ok hsize hmodel, builds_iff hne]
  constructor
  · rintro ⟨s, hs, rfl⟩
    obtain ⟨hall, rfl⟩ := (buildIndex_eq_ok hind).mp hs
    exact ⟨hall, rfl⟩
  · rintro ⟨hall, rfl⟩
    exact ⟨_, (buildIndex_eq_ok hind).mpr ⟨hall, rfl⟩, rfl⟩

/-- With a batch size that can be used, a build is the same as one batch if and only if each batch has a text. -/
theorem sameAsOneBatch_of_usable {transformer : Int → Except PyExc (EmbeddingModel V)} {env : Option Text} {size : Int}
    {model : EmbeddingModel V} (hsize : effectiveBatchSize env = .ok size) (hmodel : transformer size = .ok model)
    (hind : model.Independent) {chunks : List TextChunk} (hsome : HasText (chunks.map TextChunk.text))
    (target : IndexFiles (List V) IdMapFile) :
    SameAsOneBatch transformer env chunks target ↔ EveryBatchHasText chunks := by
  have hone : batchEmbedSized transformer env (chunks.map TextChunk.text) =
      .ok ((chunks.map TextChunk.text).map model.rowOf) := by
    rw [batchEmbedSized_ok hsize hmodel, batchEmbed_of_hasText hind hsome]
  constructor
  · intro h
    exact ((builds_usable_iff hsize hmodel hind hsome.ne_nil).mp ((h.same _).mpr hone)).1
  · intro hall
    refine ⟨fun rows => ?_, fun rows hrows => ?_⟩
    · rw [builds_usable_iff hsize hmodel hind hsome.ne_nil, hone, and_iff_right hall]
      exact ⟨fun h => congrArg Except.ok h.symm, fun h => (Except.ok.inj h).symm⟩
    · exact ⟨size, model, hsize, hmodel, ((builds_usable_iff hsize hmodel hind hsome.ne_nil).mp hrows).2⟩

/-- With a batch size that cannot be used, `batch_embed` raises. -/
theorem usable_of_batchEmbedSized {transformer : Int → Except PyExc (EmbeddingModel V)} {env : Option Text}
    {texts : List Text} {rows : List V} (h : batchEmbedSized transformer env texts = .ok rows) :
    UsableBatchSize transformer env := by
  unfold batchEmbedSized at h
  split at h
  · cases h
  · obtain ⟨size, hsize, h⟩ := bind_eq_ok.mp h
    dsimp only at h
    split at h
    · cases h
    · obtain ⟨model, hmodel, -⟩ := bind_eq_ok.mp h
      exact ⟨size, model, hsize, hmodel⟩

/-- A build of some chunks that returns has embedded a batch. -/
theorem usable_of_builds {transformer : Int → Except PyExc (EmbeddingModel V)} {env : Option Text}
    {chunks : List TextChunk} (hne : chunks ≠ []) {target : IndexFiles (List V) IdMapFile} {rows : List V}
    (h : Builds (batchEmbedSized transformer env) chunks target rows) : UsableBatchSize transformer env := by
  obtain ⟨s, hs, -⟩ := (builds_iff hne).mp h
  have hpos := List.length_pos_iff.mpr hne
  obtain ⟨m, hm⟩ : ∃ m, (chunks.length + buildBatchSize - 1) / buildBatchSize = m + 1 :=
    Nat.exists_eq_succ_of_ne_zero (Nat.div_pos (by omega) (by decide)).ne'
  rw [buildIndexBy, batchStarts, hm, foldlM_batches] at hs
  obtain ⟨t, -, hlast⟩ := bind_eq_ok.mp hs
  obtain ⟨vectors, hvectors, -⟩ := map_eq_ok.mp hlast
  exact usable_of_batchEmbedSized hvectors

/-- **For chunks of which one has a text, a build gives the same index as one batch if and only if the batch size cannot
be used or each batch of 256 has a text.** -/
theorem sameAsOneBatch_iff {transformer : Int → Except PyExc (EmbeddingModel V)}
    (hind : ∀ size model, transformer size = .ok model → model.Independent) (env : Option Text)
    {chunks : List TextChunk} (hsome : HasText (chunks.map TextChunk.text)) (target : IndexFiles (List V) IdMapFile) :
    SameAsOneBatch transformer env chunks target ↔ (UsableBatchSize transformer env → EveryBatchHasText chunks) := by
  by_cases husable : UsableBatchSize transformer env
  · rw [forall_prop_of_true husable]
    obtain ⟨size, model, hsize, hmodel⟩ := husable
    exact sameAsOneBatch_of_usable hsize hmodel (hind size model hmodel) hsome target
  · refine iff_of_true ⟨fun rows => ?_, fun rows hrows => ?_⟩ fun h => absurd h husable
    · exact iff_of_false (fun h => husable (usable_of_builds hsome.ne_nil h))
        fun h => husable (usable_of_batchEmbedSized h)
    · exact absurd (usable_of_builds hsome.ne_nil hrows) husable

end

namespace BatchSample

/-- A text has its length as its vector. -/
def model : EmbeddingModel Nat where
  encodeOne := List.length
  encode := List.map List.length
  length_encode := fun _ => List.length_map _
  zero := 0

/-- `encode` refuses a batch size that is not positive. -/
def transformer (size : Int) : Except PyExc (EmbeddingModel Nat) :=
  if size ≤ 0 then raise .valueError "range() arg 3 must not be zero".toList else .ok model

theorem independent (size : Int) (m : EmbeddingModel Nat) (h : transformer size = .ok m) : m.Independent := by
  unfold transformer at h
  split at h
  · cases h
  · rw [← Except.ok.inj h]
    exact fun _ => rfl

/-- A chunk with this text. -/
def chunk (t : Text) : TextChunk := ⟨t, 0, ['d'], ['u'], ['s'], 0, 1, 1⟩

/-- A batch of texts, and one blank text. -/
def blankAtEnd : List TextChunk := List.replicate buildBatchSize (chunk ['a']) ++ [chunk [' ']]

end BatchSample

/-- A text and a blank text in one batch. -/
theorem sameAsOneBatch_iff_blank :
    SameAsOneBatch BatchSample.transformer none [BatchSample.chunk ['a'], BatchSample.chunk [' ']] ⟨none, none⟩ ↔
      (UsableBatchSize BatchSample.transformer none →
        EveryBatchHasText [BatchSample.chunk ['a'], BatchSample.chunk [' ']]) :=
  sameAsOneBatch_iff BatchSample.independent none ⟨['a'], List.mem_cons_self, by decide⟩ ⟨none, none⟩

/-- 256 texts and one blank text: the second batch raises. -/
theorem blank_batch :
    ¬ ∀ (env : Option Text) (chunks : List TextChunk) (target : IndexFiles (List Nat) IdMapFile),
      HasText (chunks.map TextChunk.text) → SameAsOneBatch BatchSample.transformer env chunks target := by
  intro h
  have hsome : HasText (BatchSample.blankAtEnd.map TextChunk.text) :=
    ⟨['a'], List.mem_map.mpr ⟨BatchSample.chunk ['a'], List.mem_append_left _
      (List.mem_replicate.mpr ⟨by decide, rfl⟩), rfl⟩, by decide⟩
  have hsize : effectiveBatchSize none = .ok 32 := by decide
  have hall := (sameAsOneBatch_of_usable hsize rfl (BatchSample.independent 32 _ rfl) hsome ⟨none, none⟩).mp
    (h none BatchSample.blankAtEnd ⟨none, none⟩ hsome)
  have hlength : BatchSample.blankAtEnd.length = buildBatchSize + 1 := by
    rw [BatchSample.blankAtEnd, List.length_append, List.length_replicate, List.length_singleton]
  obtain ⟨t, ht, hb⟩ := hall 1 (by omega)
  have hlast : BatchSample.blankAtEnd.drop (1 * buildBatchSize) = [BatchSample.chunk [' ']] :=
    List.drop_left' (by rw [List.length_replicate, Nat.one_mul])
  rw [← List.map_drop, hlast] at ht
  have hblank : t = [' '] := List.mem_singleton.mp (List.mem_of_mem_take ht)
  rw [hblank] at hb
  exact absurd hb (by decide)

end ComplianceLoop
