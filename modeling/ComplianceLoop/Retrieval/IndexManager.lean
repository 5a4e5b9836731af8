import ComplianceLoop.PyLib.Strings

/-!
# The index of the regulatory texts (`retrieval/chunker.py`, `embedder.py`, `index_manager.py`)

Chunks and their metadata, `batch_embed`, and the two halves of an index: `build` embeds the chunks in batches of 256
and writes the vectors and the ID map, `load` reads them back. The sentence transformer is a parameter. A written index
is the list of its vectors in the order in which they were added; a written ID map is the dict that `json.dump` has
written, with the ids as strings.

`build_ok` and `load_ok` say what a build leaves in its directory, and what a load makes of it.
-/

set_option autoImplicit false

namespace ComplianceLoop

open PyLib

/-- `TextChunk`. -/
structure TextChunk where
  text : Text
  chunkIndex : Int
  sourceDocumentId : Text
  sourceUrl : Text
  sectionHint : Text
  charStart : Int
  charEnd : Int
  tokenCount : Int
  deriving DecidableEq

/-- A value of a metadata dict. -/
inductive MetadataValue where
  | str (t : Text)
  | int (n : Int)
  deriving DecidableEq

/-- A metadata dict. -/
abbrev Metadata := List (Text × MetadataValue)

/-- `to_metadata_dict`. -/
def TextChunk.toMetadataDict (c : TextChunk) : Metadata :=
  [("chunk_index".toList, .int c.chunkIndex), ("source_document_id".toList, .str c.sourceDocumentId),
    ("source_url".toList, .str c.sourceUrl), ("section_hint".toList, .str c.sectionHint),
    ("char_start".toList, .int c.charStart), ("char_end".toList, .int c.charEnd),
    ("token_count".toList, .int c.tokenCount)]

/-! ## Embeddings -/

/-- The sentence transformer: `encode` of one text, and of a list of texts, which gives one row for each of them. -/
structure EmbeddingModel (V : Type) where
  encodeOne : Text → V
  encode : List Text → List V
  length_encode : ∀ texts, (encode texts).length = texts.length
  /-- A row of `np.zeros`. -/
  zero : V

/-- `not t or not t.strip()`. -/
def isBlank (t : Text) : Bool := (strip t).isEmpty

section

variable {V : Type} (model : EmbeddingModel V)

/-- `embed`. -/
def embed (text : Text) : Except PyExc V :=
  if isBlank text then raise .valueError "Cannot embed empty text.".toList else .ok (model.encodeOne text)

/-- The rows at the positions of their texts, with zero rows for the blank ones. -/
def spreadRows : List Text → List V → List V
  | [], _ => []
  | t :: texts, rows =>
    if isBlank t then model.zero :: spreadRows texts rows
    else
      match rows with
      | [] => model.zero :: spreadRows texts []
      | row :: rows => row :: spreadRows texts rows

/-- `batch_embed`. -/
def batchEmbed (texts : List Text) : Except PyExc (List V) :=
  if texts.isEmpty then raise .valueError "Cannot embed empty text list.".toList
  else
    let nonEmpty := texts.filter (!isBlank ·)
    if nonEmpty.isEmpty then raise .valueError "All texts in the list are empty.".toList
    else
      let vectors := model.encode nonEmpty
      .ok (if nonEmpty.length < texts.length then spreadRows model texts vectors else vectors)

end

/-! ## `build` -/

/-- The two files of an index directory. -/
structure IndexFiles (ι κ : Type) where
  index : Option ι
  idMap : Option κ
  deriving DecidableEq

/-- `id_map.json`. -/
abbrev IdMapFile := List (Text × Metadata)

/-- The index and the ID map of a build so far. -/
structure BuildState (V : Type) where
  vectors : List V
  idMap : List (Int × Metadata)

/-- `batch_size` of `build`. -/
def buildBatchSize : Nat := 256

/-- `range(0, n, 256)`. -/
def batchStarts (n : Nat) : List Nat :=
  (List.range ((n + buildBatchSize - 1) / buildBatchSize)).map (· * buildBatchSize)

section

variable {V : Type} (model : EmbeddingModel V)

/-- The body of the loop of `build`. -/
def buildBatch (chunks : List TextChunk) (s : BuildState V) (batchStart : Nat) : Except PyExc (BuildState V) :=
  let batchTexts := ((chunks.map TextChunk.text).drop batchStart).take buildBatchSize
  let batchChunks := (chunks.drop batchStart).take buildBatchSize
  (batchEmbed model batchTexts).map fun vectors =>
    { vectors := s.vectors ++ vectors
      idMap := batchChunks.zipIdx.foldl (fun m p => setItem ((batchStart + p.2 : Nat) : Int) p.1.toMetadataDict m)
        s.idMap }

/-- `str(k)` of an id. -/
def idText (k : Int) : Text := if k < 0 then '-' :: Nat.toDigits 10 k.natAbs else Nat.toDigits 10 k.natAbs

/-- The index and the ID map of `build`. -/
def buildIndex (chunks : List TextChunk) : Except PyExc (BuildState V) :=
  (batchStarts chunks.length).foldlM (buildBatch model chunks) ⟨[], []⟩

/-- What `json.dump` writes. -/
def BuildState.idMapFile (s : BuildState V) : IdMapFile := buildDict (s.idMap.map fun p => (idText p.1, p.2))

/-- `build`: the number of vectors, and the files of the target directory afterwards. -/
def build (chunks : List TextChunk) (target : IndexFiles (List V) IdMapFile) :
    Except PyExc Nat × IndexFiles (List V) IdMapFile :=
  if chunks.isEmpty then (raise .valueError "Cannot build index from empty chunk list.".toList, target)
  else
    match buildIndex model chunks with
    | .error e => (.error e, target)
    | .ok s => (.ok s.vectors.length, ⟨some s.vectors, some s.idMapFile⟩)

/-! ## `load` -/

/-- `IndexManager`, with the path that it has loaded from. -/
structure IndexManager (V : Type) where
  index : Option (List V)
  idMap : List (Int × Metadata)
  loadedFrom : Option Text

/-- A manager that has not loaded anything. -/
def IndexManager.empty (V : Type) : IndexManager V := ⟨none, [], none⟩

/-- An entry of the ID map with its id as an integer. -/
def readEntry (p : Text × Metadata) : Except PyExc (Int × Metadata) :=
  match intOfDecimal p.1 with
  | some k => .ok (k, p.2)
  | none => raise .valueError "invalid literal for int() with base 10".toList

/-- `{int(k): v for k, v in raw_map.items()}`. -/
def readIdMap (raw : IdMapFile) : Except PyExc (List (Int × Metadata)) := (raw.mapM readEntry).map buildDict

/-- `load`: what it returns or raises, and the manager afterwards. -/
def IndexManager.load (loadDir : Text) (files : IndexFiles (List V) IdMapFile) (m : IndexManager V) :
    Except PyExc Unit × IndexManager V :=
  match files.index, files.idMap with
  | none, _ => (raise .osError ("FAISS index not found at ".toList ++ loadDir ++ "/compliance.index. ".toList ++
      "Run 'make build-index' to build the initial index.".toList), m)
  | some _, none => (raise .osError ("ID map not found at ".toList ++ loadDir ++ "/id_map.json.".toList), m)
  | some index, some raw =>
    match readIdMap raw with
    | .error e => (.error e, m)
    | .ok idMap => (.ok (), ⟨some index, idMap, some loadDir⟩)

end

/-! ## The ID map -/

/-- The entries of the ID map of these chunks. -/
def idEntries (chunks : List TextChunk) : List (Int × Metadata) :=
  chunks.zipIdx.map fun p => ((p.2 : Int), p.1.toMetadataDict)

theorem mem_idEntries {chunks : List TextChunk} {i : Nat} {c : TextChunk} (h : chunks[i]? = some c) :
    ((i : Int), c.toMetadataDict) ∈ idEntries chunks :=
  List.mem_map.mpr ⟨(c, i), List.mem_zipIdx_iff_getElem?.mpr h, rfl⟩

theorem keys_idEntries (chunks : List TextChunk) :
    (idEntries chunks).map Prod.fst = (List.range chunks.length).map fun i : Nat => (i : Int) := by
  rw [idEntries, List.map_map, List.range_eq_range', ← List.zipIdx_map_snd 0 chunks, List.map_map]
  rfl

theorem nodup_idEntries (chunks : List TextChunk) : ((idEntries chunks).map Prod.fst).Nodup := by
  rw [keys_idEntries]
  exact List.nodup_range.map fun _ _ h => Int.ofNat_inj.mp h

theorem getItem_idEntries {chunks : List TextChunk} {i : Nat} {c : TextChunk} (h : chunks[i]? = some c) :
    getItem (i : Int) (idEntries chunks) = some c.toMetadataDict :=
  getItem_of_mem (nodup_idEntries chunks) (mem_idEntries h)

/-- The entries of one batch behind those of the chunks before it. -/
theorem foldl_idEntries (before batch : List TextChunk) :
    batch.zipIdx.foldl (fun m p => setItem ((before.length + p.2 : Nat) : Int) p.1.toMetadataDict m)
      (idEntries before) = idEntries (before ++ batch) := by
  have hsplit : idEntries (before ++ batch) =
      idEntries before ++ batch.zipIdx.map fun p => (((before.length + p.2 : Nat) : Int), p.1.toMetadataDict) := by
    rw [idEntries, idEntries, List.zipIdx_append, List.map_append, Nat.zero_add,
      List.zipIdx_eq_map_add (l := batch) (i := before.length), List.map_map]
    rfl
  have hnodup := nodup_idEntries (before ++ batch)
  rw [hsplit] at hnodup ⊢
  rw [← foldl_setItem_of_nodup hnodup, List.foldl_map]

@[simp] theorem idText_natCast (i : Nat) : idText (i : Int) = Nat.toDigits 10 i := by
  rw [idText, if_neg (by omega), Int.natAbs_natCast]

/-- The ID map that a build of these chunks writes. -/
def idMapFile (chunks : List TextChunk) : IdMapFile := (idEntries chunks).map fun p => (idText p.1, p.2)

/-- Different ids have different texts. -/
theorem buildDict_idMapFile (chunks : List TextChunk) : buildDict (idMapFile chunks) = idMapFile chunks := by
  refine buildDict_of_nodup ?_
  have hkeys : (idMapFile chunks).map Prod.fst = ((idEntries chunks).map Prod.fst).map idText := by
    simp only [idMapFile, List.map_map, Function.comp_def]
  rw [hkeys, keys_idEntries, List.map_map]
  refine List.nodup_range.map fun i j h => ?_
  simp only [Function.comp_apply, idText_natCast] at h
  simpa [Nat.ofDigitChars_ten_toDigits] using congrArg (Nat.ofDigitChars 10 · 0) h

/-- Reading the ids back gives the entries. -/
theorem readIdMap_idMapFile (chunks : List TextChunk) : readIdMap (idMapFile chunks) = .ok (idEntries chunks) := by
  have hentries : ∀ ps : List (TextChunk × Nat),
      ((ps.map fun p => ((p.2 : Int), p.1.toMetadataDict)).map fun p => (idText p.1, p.2)).mapM readEntry =
        .ok (ps.map fun p => ((p.2 : Int), p.1.toMetadataDict)) := by
    intro ps
    induction ps with
    | nil => rfl
    | cons p ps ih =>
      have hentry : readEntry (idText p.2, p.1.toMetadataDict) = .ok ((p.2 : Int), p.1.toMetadataDict) := by
        rw [readEntry, idText_natCast, intOfDecimal_toDigits]
      rw [List.map_cons, List.map_cons, List.mapM_cons, hentry, ih]
      rfl
  rw [readIdMap, idMapFile, idEntries, hentries]
  exact congrArg Except.ok (buildDict_of_nodup (nodup_idEntries chunks))

/-! ## A build and a load that succeed -/

section

variable {V : Type} {model : EmbeddingModel V} {chunks : List TextChunk}

/-- Texts that are not blank have one vector each. -/
theorem batchEmbed_ok (model : EmbeddingModel V) {texts : List Text} (hne : texts ≠ [])
    (hb : ∀ t ∈ texts, isBlank t = false) :
    ∃ vectors, batchEmbed model texts = .ok vectors ∧ vectors.length = texts.length := by
  have hfilter : texts.filter (!isBlank ·) = texts := List.filter_eq_self.mpr fun t ht => by rw [hb t ht]; rfl
  have hempty : texts.isEmpty = false := by simpa using hne
  refine ⟨model.encode texts, ?_, model.length_encode texts⟩
  unfold batchEmbed
  rw [hempty, if_neg Bool.false_ne_true]
  dsimp only
  rw [hfilter, hempty, if_neg Bool.false_ne_true, if_neg (Nat.lt_irrefl _)]

/-- A batch starts before the end. -/
theorem batch_lt {n k : Nat} (h : k < (n + buildBatchSize - 1) / buildBatchSize) : k * buildBatchSize < n := by
  have hpos : 0 < buildBatchSize := by decide
  have hle := (Nat.le_div_iff_mul_le hpos).mp (Nat.succ_le_of_lt h)
  rw [Nat.succ_mul] at hle
  omega

/-- The batches cover all chunks. -/
theorem take_batches {α : Type} (l : List α) :
    l.take ((l.length + buildBatchSize - 1) / buildBatchSize * buildBatchSize) = l := by
  refine List.take_of_length_le ?_
  have hdiv := Nat.div_add_mod (l.length + buildBatchSize - 1) buildBatchSize
  have hmod := Nat.mod_lt (l.length + buildBatchSize - 1) (show 0 < buildBatchSize by decide)
  rw [Nat.mul_comm] at hdiv
  omega

/-- The next batch. -/
theorem take_next_batch {α : Type} (l : List α) (k : Nat) :
    l.take ((k + 1) * buildBatchSize) =
      l.take (k * buildBatchSize) ++ (l.drop (k * buildBatchSize)).take buildBatchSize := by
  rw [Nat.succ_mul, List.take_add]

/-- One batch that is embedded: the ID map goes on to be that of the chunks so far. -/
theorem buildBatch_of_embed {k : Nat} {vectors rows : List V} (hk : k * buildBatchSize < chunks.length)
    (hrows : batchEmbed model (((chunks.map TextChunk.text).drop (k * buildBatchSize)).take buildBatchSize) =
      .ok rows) :
    buildBatch model chunks ⟨vectors, idEntries (chunks.take (k * buildBatchSize))⟩ (k * buildBatchSize) =
      .ok ⟨vectors ++ rows, idEntries (chunks.take ((k + 1) * buildBatchSize))⟩ := by
  have hmap := foldl_idEntries (chunks.take (k * buildBatchSize))
    ((chunks.drop (k * buildBatchSize)).take buildBatchSize)
  rw [List.length_take, Nat.min_eq_left (Nat.le_of_lt hk)] at hmap
  rw [buildBatch, hrows, take_next_batch, ← hmap]
  rfl

/-- The texts of a batch. -/
theorem map_text_batch (chunks : List TextChunk) (k : Nat) :
    ((chunks.map TextChunk.text).drop (k * buildBatchSize)).take buildBatchSize =
      ((chunks.drop (k * buildBatchSize)).take buildBatchSize).map TextChunk.text := by
  rw [← List.map_drop, ← List.map_take]

/-- One batch: the vectors and the ID map go on to be those of the chunks so far. -/
theorem buildBatch_ok {k : Nat} {vectors : List V} (hk : k * buildBatchSize < chunks.length)
    (hb : ∀ c ∈ chunks, isBlank c.text = false) (hlen : vectors.length = (chunks.take (k * buildBatchSize)).length) :
    ∃ vectors', buildBatch model chunks ⟨vectors, idEntries (chunks.take (k * buildBatchSize))⟩ (k * buildBatchSize) =
        .ok ⟨vectors', idEntries (chunks.take ((k + 1) * buildBatchSize))⟩ ∧
      vectors'.length = (chunks.take ((k + 1) * buildBatchSize)).length := by
  have hpos : 0 < buildBatchSize := by decide
  have htexts := map_text_batch chunks k
  have hbatch : ((chunks.map TextChunk.text).drop (k * buildBatchSize)).take buildBatchSize ≠ [] := by
    intro h
    have hzero := congrArg List.length h
    simp only [List.length_map, List.length_take, List.length_drop, List.length_nil] at hzero
    omega
  have hblank : ∀ t ∈ ((chunks.map TextChunk.text).drop (k * buildBatchSize)).take buildBatchSize,
      isBlank t = false := by
    intro t ht
    rw [htexts] at ht
    obtain ⟨c, hc, rfl⟩ := List.mem_map.mp ht
    exact hb c (List.mem_of_mem_drop (List.mem_of_mem_take hc))
  obtain ⟨new, hnew, hlength⟩ := batchEmbed_ok model hbatch hblank
  refine ⟨vectors ++ new, buildBatch_of_embed hk hnew, ?_⟩
  rw [take_next_batch, List.length_append, List.length_append, hlen, hlength, htexts, List.length_map]

/-- The loop over the first batches. -/
theorem buildLoop_ok (model : EmbeddingModel V) (hb : ∀ c ∈ chunks, isBlank c.text = false) (m : Nat)
    (hm : m ≤ (chunks.length + buildBatchSize - 1) / buildBatchSize) :
    ∃ vectors, ((List.range m).map (· * buildBatchSize)).foldlM (buildBatch model chunks) ⟨[], []⟩ =
        .ok ⟨vectors, idEntries (chunks.take (m * buildBatchSize))⟩ ∧
      vectors.length = (chunks.take (m * buildBatchSize)).length := by
  induction m with
  | zero => exact ⟨[], by simp [idEntries]; rfl, by simp⟩
  | succ m ih =>
    obtain ⟨vectors, hloop, hlen⟩ := ih (by omega)
    obtain ⟨vectors', hbatch, hlen'⟩ := buildBatch_ok (batch_lt hm) hb hlen
    refine ⟨vectors', ?_, hlen'⟩
    rw [List.range_succ, List.map_append, List.foldlM_append, hloop]
    show ((List.map (· * buildBatchSize) [m]).foldlM (buildBatch model chunks) _) = _
    rw [List.map_singleton, List.foldlM_cons, hbatch]
    rfl

/-- **A build writes one vector for each chunk, and the ID map of all chunks.** -/
theorem build_ok (model : EmbeddingModel V) (hne : chunks ≠ []) (hb : ∀ c ∈ chunks, isBlank c.text = false)
    (target : IndexFiles (List V) IdMapFile) :
    ∃ vectors : List V, vectors.length = chunks.length ∧
      build model chunks target = (.ok chunks.length, ⟨some vectors, some (idMapFile chunks)⟩) := by
  obtain ⟨vectors, hloop, hlen⟩ := buildLoop_ok model hb _ (Nat.le_refl _)
  rw [take_batches] at hloop hlen
  have hempty : chunks.isEmpty = false := by simpa using hne
  refine ⟨vectors, hlen, ?_⟩
  rw [build, hempty, if_neg Bool.false_ne_true, buildIndex, batchStarts, hloop]
  simp only [hlen, BuildState.idMapFile]
  rw [← buildDict_idMapFile]
  rfl

/-- **A load of these files has the vectors and the entries of all chunks.** -/
theorem load_ok (loadDir : Text) (vectors : List V) (m : IndexManager V) :
    m.load loadDir ⟨some vectors, some (idMapFile chunks)⟩ =
      (.ok (), ⟨some vectors, idEntries chunks, some loadDir⟩) := by
  unfold IndexManager.load
  simp only [readIdMap_idMapFile]

/-- A load that returns has read both files. -/
theorem load_eq_ok {loadDir : Text} {files : IndexFiles (List V) IdMapFile} {m m' : IndexManager V}
    (h : m.load loadDir files = (.ok (), m')) :
    ∃ index raw idMap, files = ⟨some index, some raw⟩ ∧ readIdMap raw = .ok idMap ∧
      m' = ⟨some index, idMap, some loadDir⟩ := by
  obtain ⟨index, raw⟩ := files
  cases index with
  | none => cases (Prod.mk.inj h).1
  | some index =>
    cases raw with
    | none => cases (Prod.mk.inj h).1
    | some raw =>
      unfold IndexManager.load at h
      cases hread : readIdMap raw with
      | error e =>
        simp only [hread] at h
        cases (Prod.mk.inj h).1
      | ok idMap =>
        simp only [hread] at h
        exact ⟨index, raw, idMap, rfl, hread, (Prod.mk.inj h).2.symm⟩

end

end ComplianceLoop
