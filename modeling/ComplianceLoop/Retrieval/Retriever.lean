import Mathlib.Data.List.Forall2
import ComplianceLoop.Retrieval.IndexManager

/-!
# Queries of the index (`retrieval/retriever.py`)

`FAISSRetriever.query` looks the metadata of every hit up in the ID map, with a default for each field that is missing.
After a build and a load every hit has the metadata of its chunk (`query_ok`). But `to_metadata_dict` leaves the text
out, so that the text of every result is the default: a query gives back what was indexed exactly when it gives back
nothing (`givesBack_iff`).
-/

set_option autoImplicit false

namespace ComplianceLoop

open PyLib

/-- `RetrievedChunk`. -/
structure RetrievedChunk (S : Type) where
  text : MetadataValue
  score : S
  sourceDocumentId : MetadataValue
  sourceUrl : MetadataValue
  sectionHint : MetadataValue
  chunkIndex : Int
  tokenCount : Int
  faissId : Int
  deriving DecidableEq

/-- `search` of the FAISS index: the scores and the ids of the hits, where the id is -1 for padding and the position of
a vector otherwise. -/
structure Faiss (V S : Type) where
  search : List V → V → Int → Except PyExc (List (S × Int))
  mem_search : ∀ {vectors q k found}, search vectors q k = .ok found → ∀ p ∈ found,
    p.2 = -1 ∨ ∃ i : Nat, p.2 = i ∧ i < vectors.length

/-- `int(value)`. -/
def MetadataValue.toInt : MetadataValue → Except PyExc Int
  | .int n => .ok n
  | .str t =>
    match intOfDecimal t with
    | some n => .ok n
    | none => raise .valueError "invalid literal for int() with base 10".toList

section

variable {V S : Type}

/-- `metadata.get(key, default)`. -/
def Metadata.get (metadata : Metadata) (key : Text) (default : MetadataValue) : MetadataValue :=
  (getItem key metadata).getD default

/-- The result for one hit. -/
def retrievedChunk (idMap : List (Int × Metadata)) (hit : S × Int) : Except PyExc (RetrievedChunk S) :=
  let metadata := (getItem hit.2 idMap).getD []
  (metadata.get "chunk_index".toList (.int 0)).toInt.bind fun chunkIndex =>
    (metadata.get "token_count".toList (.int 0)).toInt.map fun tokenCount =>
      { text := metadata.get "text".toList (.str [])
        score := hit.1
        sourceDocumentId := metadata.get "source_document_id".toList (.str "unknown".toList)
        sourceUrl := metadata.get "source_url".toList (.str [])
        sectionHint := metadata.get "section_hint".toList (.str [])
        chunkIndex := chunkIndex
        tokenCount := tokenCount
        faissId := hit.2 }

/-- `FAISSRetriever`, with the comparison of a score with `min_score_threshold`. -/
structure FAISSRetriever (V S : Type) where
  model : EmbeddingModel V
  faiss : Faiss V S
  manager : IndexManager V
  belowThreshold : S → Bool

/-- The hits for which there is a result. -/
def FAISSRetriever.kept (retriever : FAISSRetriever V S) (found : List (S × Int)) : List (S × Int) :=
  found.filter fun hit => hit.2 ≠ -1 && !retriever.belowThreshold hit.1

/-- `query`. -/
def FAISSRetriever.query (retriever : FAISSRetriever V S) (queryText : Text) (topK : Int) :
    Except PyExc (List (RetrievedChunk S)) :=
  if isBlank queryText then raise .valueError "Query text cannot be empty.".toList
  else
    match retriever.manager.index with
    | none => raise .runtimeError
        "FAISS index is not loaded. Call IndexManager.load() before querying.".toList
    | some index =>
      (embed retriever.model queryText).bind fun queryVector =>
        (retriever.faiss.search index queryVector topK).bind fun found =>
          (retriever.kept found).mapM (retrievedChunk retriever.manager.idMap)

/-- The result carries the fields of the chunk. -/
structure Carries (c : TextChunk) (r : RetrievedChunk S) : Prop where
  text : r.text = .str c.text
  sourceDocumentId : r.sourceDocumentId = .str c.sourceDocumentId
  sourceUrl : r.sourceUrl = .str c.sourceUrl
  sectionHint : r.sectionHint = .str c.sectionHint
  chunkIndex : r.chunkIndex = c.chunkIndex
  tokenCount : r.tokenCount = c.tokenCount

/-- Every returned result carries the fields of the chunk with its id. -/
def GivesBack (chunks : List TextChunk) (result : Except PyExc (List (RetrievedChunk S))) : Prop :=
  ∀ results, result = .ok results → ∀ r ∈ results, ∃ (i : Nat) (c : TextChunk), r.faissId = i ∧ chunks[i]? = some c ∧
    Carries c r

/-! ## A query after a build and a load -/

/-- The result for a chunk: all its fields but the text. -/
def resultOf (c : TextChunk) (hit : S × Int) : RetrievedChunk S where
  text := .str []
  score := hit.1
  sourceDocumentId := .str c.sourceDocumentId
  sourceUrl := .str c.sourceUrl
  sectionHint := .str c.sectionHint
  chunkIndex := c.chunkIndex
  tokenCount := c.tokenCount
  faissId := hit.2

/-- The metadata of a chunk has every field of the result but the text. -/
theorem retrievedChunk_idEntries {chunks : List TextChunk} {i : Nat} {c : TextChunk} (h : chunks[i]? = some c)
    (score : S) : retrievedChunk (idEntries chunks) (score, (i : Int)) = .ok (resultOf c (score, (i : Int))) := by
  unfold retrievedChunk
  rw [getItem_idEntries h]
  rfl

/-- **The results of a query**: for every kept hit the fields of its chunk, but the empty text. -/
theorem query_ok {retriever : FAISSRetriever V S} {chunks : List TextChunk} {vectors : List V} {queryText : Text}
    {topK : Int} {found : List (S × Int)} (hlen : vectors.length = chunks.length)
    (hindex : retriever.manager.index = some vectors) (hmap : retriever.manager.idMap = idEntries chunks)
    (hq : isBlank queryText = false)
    (hfound : retriever.faiss.search vectors (retriever.model.encodeOne queryText) topK = .ok found) :
    ∃ results, retriever.query queryText topK = .ok results ∧
      List.Forall₂ (fun (hit : S × Int) r => ∃ (i : Nat) (c : TextChunk), hit.2 = i ∧ chunks[i]? = some c ∧
        r = resultOf c hit) (retriever.kept found) results := by
  have hquery : retriever.query queryText topK = (retriever.kept found).mapM (retrievedChunk (idEntries chunks)) := by
    unfold FAISSRetriever.query
    rw [hq, hindex, if_neg Bool.false_ne_true]
    dsimp only
    rw [embed, hq, if_neg Bool.false_ne_true, ok_bind, hfound, ok_bind, hmap]
  have hids : ∀ hit ∈ retriever.kept found, ∃ (i : Nat) (c : TextChunk), hit.2 = i ∧ chunks[i]? = some c := by
    intro hit hhit
    obtain ⟨hhit, hkept⟩ := List.mem_filter.mp hhit
    rcases retriever.faiss.mem_search hfound hit hhit with h | ⟨i, hi, hlt⟩
    · simp [h] at hkept
    · have hchunk : i < chunks.length := hlen ▸ hlt
      exact ⟨i, chunks[i], hi, List.getElem?_eq_getElem hchunk⟩
  rw [hquery]
  generalize retriever.kept found = hits at hids ⊢
  -- by induction on the hits
  induction hits with
  | nil => exact ⟨[], rfl, .nil⟩
  | cons hit hits ih =>
    obtain ⟨results, hrest, hall⟩ := ih fun p hp => hids p (List.mem_cons_of_mem hit hp)
    obtain ⟨i, c, hi, hc⟩ := hids hit List.mem_cons_self
    have hone : retrievedChunk (idEntries chunks) hit = .ok (resultOf c hit) := by
      have hchunk := retrievedChunk_idEntries hc hit.1
      rwa [← hi] at hchunk
    refine ⟨resultOf c hit :: results, ?_, .cons ⟨i, c, hi, hc, rfl⟩ hall⟩
    rw [List.mapM_cons, hone, hrest]
    rfl

/-- A query that returns has searched the index. -/
theorem search_of_query_ok {retriever : FAISSRetriever V S} {vectors : List V} {queryText : Text} {topK : Int}
    {results : List (RetrievedChunk S)} (hindex : retriever.manager.index = some vectors)
    (h : retriever.query queryText topK = .ok results) :
    isBlank queryText = false ∧
      ∃ found, retriever.faiss.search vectors (retriever.model.encodeOne queryText) topK = .ok found := by
  unfold FAISSRetriever.query at h
  cases hq : isBlank queryText with
  | true =>
    rw [hq, if_pos rfl] at h
    cases h
  | false =>
    rw [hq, if_neg Bool.false_ne_true, hindex] at h
    dsimp only at h
    rw [embed, hq, if_neg Bool.false_ne_true, ok_bind] at h
    obtain ⟨found, hfound, -⟩ := bind_eq_ok.mp h
    exact ⟨rfl, found, hfound⟩

/-- The text of a chunk is not the default. -/
theorem not_carries_resultOf {c : TextChunk} (h : isBlank c.text = false) (hit : S × Int) :
    ¬ Carries c (resultOf c hit) := by
  intro hcarries
  have htext : c.text = [] := (MetadataValue.str.inj hcarries.text).symm
  rw [htext] at h
  cases h

/-- A query of the index of these chunks gives them back if and only if no hit is kept. -/
theorem givesBack_query_iff (retriever : FAISSRetriever V S) (queryText : Text) (topK : Int)
    {chunks : List TextChunk} {vectors : List V} (hb : ∀ c ∈ chunks, isBlank c.text = false)
    (hlen : vectors.length = chunks.length) (hindex : retriever.manager.index = some vectors)
    (hmap : retriever.manager.idMap = idEntries chunks) :
    GivesBack chunks (retriever.query queryText topK) ↔ isBlank queryText = true ∨
      ∀ found, retriever.faiss.search vectors (retriever.model.encodeOne queryText) topK = .ok found →
        retriever.kept found = [] := by
  constructor
  · intro hgives
    rw [or_iff_not_imp_left, Bool.not_eq_true]
    intro hq found hfound
    obtain ⟨results, hquery, hall⟩ := query_ok hlen hindex hmap hq hfound
    cases hkept : retriever.kept found with
    | nil => rfl
    | cons hit hits =>
      -- the first hit has a result, which does not carry the text
      rw [hkept] at hall
      obtain ⟨r, rest, ⟨i, c, hi, hc, rfl⟩, -, rfl⟩ := List.forall₂_cons_left_iff.mp hall
      obtain ⟨j, c', hj, hc', hcarries⟩ := hgives _ hquery _ List.mem_cons_self
      have hij : j = i := Int.ofNat_inj.mp (hj.symm.trans hi)
      obtain rfl : c = c' := Option.some.inj (hc.symm.trans (hij ▸ hc'))
      exact absurd hcarries (not_carries_resultOf (hb c (List.mem_of_getElem? hc)) hit)
  · intro hcond results hquery r hr
    obtain ⟨hq, found, hfound⟩ := search_of_query_ok hindex hquery
    obtain ⟨results', hquery', hall⟩ := query_ok hlen hindex hmap hq hfound
    obtain rfl := Except.ok.inj (hquery.symm.trans hquery')
    have hnone : retriever.kept found = [] := hcond.resolve_left (by simp [hq]) found hfound
    rw [hnone, List.forall₂_nil_left_iff] at hall
    rw [hall] at hr
    exact absurd hr List.not_mem_nil

/-- **After a build and a load, a query gives back what was indexed if and only if it is refused or no hit passes the
threshold.** -/
theorem givesBack_iff {model : EmbeddingModel V} {chunks : List TextChunk} (hne : chunks ≠ [])
    (hb : ∀ c ∈ chunks, isBlank c.text = false) (target : IndexFiles (List V) IdMapFile) (loadDir : Text)
    (retriever : FAISSRetriever V S) (queryText : Text) (topK : Int) :
    let built := build model chunks target
    let loaded := retriever.manager.load loadDir built.2
    (built.1 = .ok chunks.length ∧ loaded.1 = .ok () ∧
        GivesBack chunks (FAISSRetriever.query { retriever with manager := loaded.2 } queryText topK)) ↔
      isBlank queryText = true ∨ ∀ index found, built.2.index = some index →
        retriever.faiss.search index (retriever.model.encodeOne queryText) topK = .ok found →
          ∀ hit ∈ found, hit.2 = -1 ∨ retriever.belowThreshold hit.1 = true := by
  intro built loaded
  obtain ⟨vectors, hlen, hbuild⟩ := build_ok model hne hb target
  have hbuilt : built = (.ok chunks.length, ⟨some vectors, some (idMapFile chunks)⟩) := hbuild
  have hloaded : loaded = (.ok (), ⟨some vectors, idEntries chunks, some loadDir⟩) := by
    show retriever.manager.load loadDir built.2 = _
    rw [hbuilt]
    exact load_ok loadDir vectors retriever.manager
  have hquery := givesBack_query_iff { retriever with manager := loaded.2 } queryText topK hb hlen (by rw [hloaded])
    (by rw [hloaded])
  have hkept : ∀ found : List (S × Int), FAISSRetriever.kept { retriever with manager := loaded.2 } found = [] ↔
      ∀ hit ∈ found, hit.2 = -1 ∨ retriever.belowThreshold hit.1 = true := by
    intro found
    rw [FAISSRetriever.kept, List.filter_eq_nil_iff]
    refine forall₂_congr fun hit _ => ?_
    rw [Bool.and_eq_true, not_and_or, decide_eq_true_eq, not_not, Bool.not_eq_true', Bool.not_eq_false]
  simp only [hkept] at hquery
  rw [hquery, hbuilt, hloaded]
  constructor
  · rintro ⟨-, -, hcond⟩
    refine hcond.imp_right fun hall index found hindex hfound => ?_
    obtain rfl := Option.some.inj hindex
    exact hall found hfound
  · exact fun hcond => ⟨rfl, rfl, hcond.imp_right fun hall found hfound => hall vectors found rfl hfound⟩

end

namespace RetrievalSample

/-- One chunk, whose text is one letter. -/
def chunk : TextChunk := ⟨['a'], 0, ['d'], ['u'], ['s'], 0, 1, 1⟩

/-- A retriever with a single vector for all texts; its search finds every vector with the same score. -/
def retriever : FAISSRetriever Unit Nat where
  model :=
    { encodeOne := fun _ => ()
      encode := fun texts => texts.map fun _ => ()
      length_encode := fun texts => List.length_map _
      zero := () }
  faiss :=
    { search := fun vectors _ k => .ok (((List.range vectors.length).take k.toNat).map fun i : Nat => (1, (i : Int)))
      mem_search := by
        intro vectors q k found h p hp
        rw [← Except.ok.inj h] at hp
        obtain ⟨i, hi, rfl⟩ := List.mem_map.mp hp
        exact .inr ⟨i, rfl, List.mem_range.mp (List.mem_of_mem_take hi)⟩ }
  manager := .empty Unit
  belowThreshold := fun score => score < 1

theorem not_blank : ∀ c ∈ [chunk], isBlank c.text = false := by decide

end RetrievalSample

/-- The query for the one chunk. -/
theorem givesBack_iff_chunk :
    ((build RetrievalSample.retriever.model [RetrievalSample.chunk] ⟨none, none⟩).1 = .ok 1 ∧
        (RetrievalSample.retriever.manager.load ['a']
          (build RetrievalSample.retriever.model [RetrievalSample.chunk] ⟨none, none⟩).2).1 = .ok () ∧
        GivesBack [RetrievalSample.chunk] (FAISSRetriever.query
          { RetrievalSample.retriever with
            manager := (RetrievalSample.retriever.manager.load ['a']
              (build RetrievalSample.retriever.model [RetrievalSample.chunk] ⟨none, none⟩).2).2 } ['a'] 5)) ↔
      isBlank ['a'] = true ∨ ∀ index found,
        (build RetrievalSample.retriever.model [RetrievalSample.chunk] ⟨none, none⟩).2.index = some index →
          RetrievalSample.retriever.faiss.search index () 5 = .ok found →
            ∀ hit ∈ found, hit.2 = -1 ∨ RetrievalSample.retriever.belowThreshold hit.1 = true :=
  givesBack_iff (List.cons_ne_nil _ _) RetrievalSample.not_blank ⟨none, none⟩ ['a'] RetrievalSample.retriever ['a'] 5

/-- The query finds the chunk, without its text. -/
theorem chunk_without_text :
    ¬ ∀ (chunks : List TextChunk), chunks ≠ [] → (∀ c ∈ chunks, isBlank c.text = false) →
      ∀ (queryText : Text) (topK : Int), GivesBack chunks (FAISSRetriever.query
        { RetrievalSample.retriever with
          manager := (RetrievalSample.retriever.manager.load ['a']
            (build RetrievalSample.retriever.model chunks ⟨none, none⟩).2).2 } queryText topK) := by
  intro h
  have hgives := h [RetrievalSample.chunk] (List.cons_ne_nil _ _) RetrievalSample.not_blank ['a'] 5
  obtain ⟨vectors, hlen, hbuild⟩ := build_ok RetrievalSample.retriever.model
    (List.cons_ne_nil RetrievalSample.chunk []) RetrievalSample.not_blank ⟨none, none⟩
  rw [hbuild, load_ok] at hgives
  rcases (givesBack_query_iff _ _ _ RetrievalSample.not_blank hlen rfl rfl).mp hgives with hblank | hnone
  · exact absurd hblank (by decide)
  · have hkept := hnone [(1, 0)] (by simp [RetrievalSample.retriever, hlen])
    exact List.cons_ne_nil _ _ hkept

end ComplianceLoop
