import Mathlib.Data.List.Sort
import ComplianceLoop.Retrieval.Retriever

/-!
# Queries with the default threshold

`min_score_threshold` is 0.0 by default, documented as "return all top-k". But `query` leaves every hit out whose score
is below it, and an inner product can be negative. So a default query gives the whole top-k back exactly when enough of
the vectors have a score that is not negative (`wholeTopK_iff`).
-/

set_option autoImplicit false

namespace ComplianceLoop

open PyLib

section

variable {V S : Type} {inner : V → V → S} {vectors : List V} {q : V}

/-! ## An exact search -/

/-- The scores of the vectors for a query, with their ids. -/
def scored (inner : V → V → S) (vectors : List V) (q : V) : List (S × Int) :=
  vectors.zipIdx.map fun p => (inner q p.1, (p.2 : Int))

/-- The hits have the best scores, in descending order. -/
structure TopHits [LE S] (inner : V → V → S) (vectors : List V) (q : V) (k : Nat) (hits : List (S × Int)) : Prop where
  length : hits.length = min k vectors.length
  sorted : hits.Pairwise fun a b => b.1 ≤ a.1
  best : ∃ rest, (hits ++ rest).Perm (scored inner vectors q) ∧ ∀ hit ∈ hits, ∀ other ∈ rest, other.1 ≤ hit.1

/-- A search for `k` vectors returns the best hits, padded with the id -1. -/
def Faiss.Exact [LE S] (faiss : Faiss V S) (inner : V → V → S) : Prop :=
  ∀ (vectors : List V) (q : V) (k : Int), 1 ≤ k → ∃ hits padding, TopHits inner vectors q k.toNat hits ∧
    faiss.search vectors q k = .ok (hits ++ List.replicate (k.toNat - hits.length) (padding, -1))

/-- The hit is no padding. -/
theorem TopHits.id_nonneg [LE S] {k : Nat} {hits : List (S × Int)} (h : TopHits inner vectors q k hits) :
    ∀ hit ∈ hits, 0 ≤ hit.2 := by
  intro hit hhit
  obtain ⟨rest, hperm, -⟩ := h.best
  obtain ⟨p, -, rfl⟩ := List.mem_map.mp (hperm.mem_iff.mp (List.mem_append_left rest hhit))
  exact Int.natCast_nonneg _

theorem countP_scored (inner : V → V → S) (vectors : List V) (q : V) (p : S → Bool) :
    (scored inner vectors q).countP (p ·.1) = vectors.countP (p ∘ inner q) := by
  have hscores : (scored inner vectors q).map Prod.fst = vectors.map (inner q) := by
    rw [scored, List.map_map]
    show vectors.zipIdx.map (inner q ∘ Prod.fst) = _
    rw [← List.map_map, List.zipIdx_map_fst]
  have hcount := List.countP_map (p := p) (f := Prod.fst) (l := scored inner vectors q)
  rw [hscores, List.countP_map] at hcount
  exact hcount.symm

/-- No one of the best hits has a negative score if and only if there are enough vectors whose score is not negative. -/
theorem TopHits.nonneg_iff [LinearOrder S] [Zero S] {k : Nat} {hits : List (S × Int)}
    (h : TopHits inner vectors q k hits) :
    (∀ hit ∈ hits, 0 ≤ hit.1) ↔ min k vectors.length ≤ vectors.countP fun v => 0 ≤ inner q v := by
  obtain ⟨rest, hperm, hbest⟩ := h.best
  have hsum : vectors.countP (fun v => 0 ≤ inner q v) =
      hits.countP (fun hit => 0 ≤ hit.1) + rest.countP (fun hit => 0 ≤ hit.1) := by
    have hcount := countP_scored inner vectors q fun s => decide (0 ≤ s)
    rw [← hperm.countP_eq, List.countP_append] at hcount
    exact hcount.symm
  rw [← h.length, hsum]
  constructor
  · intro hall
    rw [List.countP_eq_length.mpr fun hit hhit => decide_eq_true (hall hit hhit)]
    exact Nat.le_add_right _ _
  · intro hcount hit hhit
    by_contra hneg
    -- a negative hit is at least as good as all vectors that are not among the hits
    have hrest : rest.countP (fun hit => 0 ≤ hit.1) = 0 :=
      List.countP_eq_zero.mpr fun other hother => by
        simpa using lt_of_le_of_lt (hbest hit hhit other hother) (not_le.mp hneg)
    have hfull : hits.countP (fun hit => 0 ≤ hit.1) = hits.length :=
      Nat.le_antisymm List.countP_le_length (by omega)
    exact hneg (of_decide_eq_true (List.countP_eq_length.mp hfull hit hhit))

/-! ## The results -/

/-- `int(value)` succeeds for the two fields that `query` converts. -/
def Metadata.NumbersRead (metadata : Metadata) : Prop :=
  returned (metadata.get "chunk_index".toList (.int 0)).toInt = true ∧
    returned (metadata.get "token_count".toList (.int 0)).toInt = true

/-- A retriever with the default of `min_score_threshold`. -/
def FAISSRetriever.init [LT S] [Zero S] [DecidableLT S] (model : EmbeddingModel V) (faiss : Faiss V S)
    (manager : IndexManager V) : FAISSRetriever V S where
  model := model
  faiss := faiss
  manager := manager
  belowThreshold := fun score => score < 0

/-- The query returns as many results as it can, those of the search in their order. -/
def FAISSRetriever.WholeTopK (retriever : FAISSRetriever V S) (vectors : List V) (queryText : Text) (topK : Int) :
    Prop :=
  ∃ found results, retriever.faiss.search vectors (retriever.model.encodeOne queryText) topK = .ok found ∧
    retriever.query queryText topK = .ok results ∧ results.length = min topK.toNat vectors.length ∧
    results.map RetrievedChunk.faissId = (found.map Prod.snd).filter (· ≠ -1)

/-- A hit has a result if and only if the numbers of its metadata can be read. -/
theorem returned_retrievedChunk (idMap : List (Int × Metadata)) (hit : S × Int) :
    returned (retrievedChunk idMap hit) = true ↔ Metadata.NumbersRead ((getItem hit.2 idMap).getD []) := by
  unfold retrievedChunk Metadata.NumbersRead
  dsimp only
  rw [returned_bind]
  constructor
  · rintro ⟨n, hn, htokens⟩
    rw [returned_map] at htokens
    exact ⟨returned_iff.mpr ⟨n, hn⟩, htokens⟩
  · rintro ⟨hindex, htokens⟩
    obtain ⟨n, hn⟩ := returned_iff.mp hindex
    exact ⟨n, hn, by rwa [returned_map]⟩

theorem faissId_retrievedChunk {idMap : List (Int × Metadata)} {hit : S × Int} {r : RetrievedChunk S}
    (h : retrievedChunk idMap hit = .ok r) : r.faissId = hit.2 := by
  unfold retrievedChunk at h
  obtain ⟨chunkIndex, -, h⟩ := bind_eq_ok.mp h
  obtain ⟨tokenCount, -, rfl⟩ := map_eq_ok.mp h
  rfl

/-- The query has a result for every hit that it keeps. -/
theorem query_of_search {retriever : FAISSRetriever V S} {queryText : Text} {topK : Int} {found : List (S × Int)}
    (hindex : retriever.manager.index = some vectors) (hq : isBlank queryText = false)
    (hfound : retriever.faiss.search vectors (retriever.model.encodeOne queryText) topK = .ok found) :
    retriever.query queryText topK = (retriever.kept found).mapM (retrievedChunk retriever.manager.idMap) := by
  unfold FAISSRetriever.query
  rw [hq, hindex, if_neg Bool.false_ne_true]
  dsimp only
  rw [embed, hq, if_neg Bool.false_ne_true, ok_bind, hfound, ok_bind]

/-- The hits without the padding. -/
theorem filter_padded {hits : List (S × Int)} (hids : ∀ hit ∈ hits, 0 ≤ hit.2) (n : Nat) (padding : S) :
    (hits ++ List.replicate n (padding, -1)).filter (fun hit => hit.2 ≠ -1) = hits := by
  have hpadding : (List.replicate n (padding, (-1 : Int))).filter (fun hit => hit.2 ≠ -1) = [] :=
    List.filter_eq_nil_iff.mpr fun hit hhit => by simp [List.eq_of_mem_replicate hhit]
  have hreal : hits.filter (fun hit => hit.2 ≠ -1) = hits := List.filter_eq_self.mpr fun hit hhit => by
    have hnonneg := hids hit hhit
    exact decide_eq_true (by omega)
  rw [List.filter_append, hpadding, List.append_nil, hreal]

/-- The padding is left out, and the hits with a negative score. -/
theorem kept_init [LinearOrder S] [Zero S] (model : EmbeddingModel V) (faiss : Faiss V S) (manager : IndexManager V)
    {hits : List (S × Int)} (hids : ∀ hit ∈ hits, 0 ≤ hit.2) (n : Nat) (padding : S) :
    (FAISSRetriever.init model faiss manager).kept (hits ++ List.replicate n (padding, -1)) =
      hits.filter fun hit => 0 ≤ hit.1 := by
  have hboth : ∀ hit : S × Int, (hit.2 ≠ -1 && !decide (hit.1 < 0)) = (decide (0 ≤ hit.1) && decide (hit.2 ≠ -1)) := by
    intro hit
    rw [Bool.and_comm, ← decide_not]
    exact congrArg (· && _) (decide_eq_decide.mpr not_lt)
  show List.filter (fun hit : S × Int => hit.2 ≠ -1 && !decide (hit.1 < 0)) _ = _
  rw [List.filter_congr fun hit _ => hboth hit, ← List.filter_filter, filter_padded hids]

/-- The query has as many results as there are hits if and only if none of them has a negative score, and the numbers
of their metadata can be read. -/
theorem mapM_kept_iff [LinearOrder S] [Zero S] {idMap : List (Int × Metadata)} {hits : List (S × Int)} :
    (∃ results, (hits.filter fun hit => 0 ≤ hit.1).mapM (retrievedChunk idMap) = .ok results ∧
      results.length = hits.length ∧ results.map RetrievedChunk.faissId = hits.map Prod.snd) ↔
      (∀ hit ∈ hits, 0 ≤ hit.1) ∧ ∀ hit ∈ hits, Metadata.NumbersRead ((getItem hit.2 idMap).getD []) := by
  constructor
  · rintro ⟨results, hresults, hlength, -⟩
    -- there are as many results as hits, so all hits are kept
    have hkept : (hits.filter fun hit => 0 ≤ hit.1).length = hits.length := by
      have hids := congrArg List.length (map_of_mapM faissId_retrievedChunk hresults)
      rw [List.length_map, List.length_map] at hids
      rw [← hids, hlength]
    have hall := List.length_filter_eq_length_iff.mp hkept
    refine ⟨fun hit hhit => of_decide_eq_true (hall hit hhit), fun hit hhit => ?_⟩
    rw [← returned_retrievedChunk (S := S)]
    exact (returned_mapM _).mp (returned_iff.mpr ⟨results, hresults⟩) hit (List.mem_filter.mpr ⟨hhit, hall hit hhit⟩)
  · rintro ⟨hnonneg, hread⟩
    rw [List.filter_eq_self.mpr fun hit hhit => decide_eq_true (hnonneg hit hhit)]
    obtain ⟨results, hresults⟩ := returned_iff.mp ((returned_mapM hits).mpr fun hit hhit =>
      (returned_retrievedChunk idMap hit).mpr (hread hit hhit))
    have hids := map_of_mapM faissId_retrievedChunk hresults
    exact ⟨results, hresults, by rw [← List.length_map, hids, List.length_map], hids⟩

/-- A query that is not blank returns the whole top-k if and only if there are enough vectors whose score is not
negative, and the numbers of the metadata of the hits can be read. -/
theorem wholeTopK_of_text [LinearOrder S] [Zero S] {model : EmbeddingModel V} {faiss : Faiss V S}
    {manager : IndexManager V} (hfaiss : faiss.Exact inner) (hindex : manager.index = some vectors) {queryText : Text}
    (hq : isBlank queryText = false) {topK : Int} (htop : 1 ≤ topK) :
    (FAISSRetriever.init model faiss manager).WholeTopK vectors queryText topK ↔
      (min topK.toNat vectors.length ≤ vectors.countP fun v => 0 ≤ inner (model.encodeOne queryText) v) ∧
        ∀ found, faiss.search vectors (model.encodeOne queryText) topK = .ok found → ∀ hit ∈ found, hit.2 ≠ -1 →
          Metadata.NumbersRead ((getItem hit.2 manager.idMap).getD []) := by
  obtain ⟨hits, padding, htophits, hsearch⟩ := hfaiss vectors (model.encodeOne queryText) topK htop
  have hids := htophits.id_nonneg
  have hpadded := filter_padded hids (topK.toNat - hits.length) padding
  have hquery : FAISSRetriever.query (FAISSRetriever.init model faiss manager) queryText topK =
      (hits.filter fun hit => 0 ≤ hit.1).mapM (retrievedChunk manager.idMap) := by
    rw [← kept_init model faiss manager hids]
    exact query_of_search hindex hq hsearch
  have hnumbers : (∀ found, faiss.search vectors (model.encodeOne queryText) topK = .ok found → ∀ hit ∈ found,
      hit.2 ≠ -1 → Metadata.NumbersRead ((getItem hit.2 manager.idMap).getD [])) ↔
      ∀ hit ∈ hits, Metadata.NumbersRead ((getItem hit.2 manager.idMap).getD []) := by
    have hmem : ∀ hit, hit ∈ hits ↔
        hit ∈ hits ++ List.replicate (topK.toNat - hits.length) (padding, -1) ∧ hit.2 ≠ -1 := by
      intro hit
      conv_lhs => rw [← hpadded]
      rw [List.mem_filter, decide_eq_true_iff]
    rw [hsearch]
    constructor
    · exact fun hall hit hhit => hall _ rfl hit ((hmem hit).mp hhit).1 ((hmem hit).mp hhit).2
    · intro hall found hfound hit hhit hid
      obtain rfl := Except.ok.inj hfound
      exact hall hit ((hmem hit).mpr ⟨hhit, hid⟩)
  rw [← htophits.nonneg_iff, hnumbers, ← mapM_kept_iff, ← hquery]
  have hfound :
      ((hits ++ List.replicate (topK.toNat - hits.length) (padding, (-1 : Int))).map Prod.snd).filter (· ≠ -1) =
        hits.map Prod.snd := by
    rw [List.filter_map]
    exact congrArg (List.map Prod.snd) hpadded
  constructor
  · rintro ⟨found, results, hsearch', hresults, hlength, hmap⟩
    obtain rfl := Except.ok.inj (hsearch.symm.trans hsearch')
    exact ⟨results, hresults, hlength.trans htophits.length.symm, hmap.trans hfound⟩
  · rintro ⟨results, hresults, hlength, hmap⟩
    exact ⟨_, results, hsearch, hresults, hlength.trans htophits.length, hmap.trans hfound.symm⟩

/-- **A default query returns the whole top-k if and only if it is not blank, there are enough vectors whose score is
not negative, and the metadata of the hits are as they were written.** -/
theorem wholeTopK_iff [LinearOrder S] [Zero S] {model : EmbeddingModel V} {faiss : Faiss V S}
    {manager : IndexManager V} (hfaiss : faiss.Exact inner) (hindex : manager.index = some vectors) (queryText : Text)
    {topK : Int} (htop : 1 ≤ topK) :
    (FAISSRetriever.init model faiss manager).WholeTopK vectors queryText topK ↔
      isBlank queryText = false ∧
        (min topK.toNat vectors.length ≤ vectors.countP fun v => 0 ≤ inner (model.encodeOne queryText) v) ∧
        ∀ found, faiss.search vectors (model.encodeOne queryText) topK = .ok found → ∀ hit ∈ found, hit.2 ≠ -1 →
          Metadata.NumbersRead ((getItem hit.2 manager.idMap).getD []) := by
  cases hq : isBlank queryText with
  | false => rw [wholeTopK_of_text hfaiss hindex hq htop, and_iff_right rfl]
  | true =>
    refine iff_of_false ?_ fun h => Bool.noConfusion h.1
    rintro ⟨found, results, -, hresults, -⟩
    rw [FAISSRetriever.query, hq, if_pos rfl] at hresults
    exact raise_ne_ok _ _ _ hresults

end

namespace RetrievalSample

/-- One coordinate is the vector of a text: 1. -/
def unitModel : EmbeddingModel Int where
  encodeOne := fun _ => 1
  encode := fun texts => texts.map fun _ => 1
  length_encode := fun _ => List.length_map _
  zero := 0

/-- The scores of all vectors, the best one first. -/
def ranked (vectors : List Int) (q : Int) : List (Int × Int) :=
  (scored (· * ·) vectors q).insertionSort fun a b => b.1 ≤ a.1

theorem ranked_perm (vectors : List Int) (q : Int) : (ranked vectors q).Perm (scored (· * ·) vectors q) :=
  List.perm_insertionSort _ _

theorem ranked_sorted (vectors : List Int) (q : Int) : (ranked vectors q).Pairwise fun a b => b.1 ≤ a.1 := by
  have : Std.Total fun a b : Int × Int => b.1 ≤ a.1 := ⟨fun a b => Int.le_total b.1 a.1⟩
  have : IsTrans (Int × Int) fun a b => b.1 ≤ a.1 := ⟨fun _ _ _ hab hbc => Int.le_trans hbc hab⟩
  exact List.pairwise_insertionSort _ _

/-- A search that sorts all scores. -/
def sortingFaiss : Faiss Int Int where
  search := fun vectors q k =>
    let hits := (ranked vectors q).take k.toNat
    .ok (hits ++ List.replicate (k.toNat - hits.length) (-2, -1))
  mem_search := by
    intro vectors q k found h p hp
    rw [← Except.ok.inj h] at hp
    obtain hp | hp := List.mem_append.mp hp
    · obtain ⟨v, hv, rfl⟩ := List.mem_map.mp ((ranked_perm vectors q).mem_iff.mp (List.mem_of_mem_take hp))
      exact .inr ⟨v.2, rfl, by simpa using List.snd_lt_of_mem_zipIdx hv⟩
    · exact .inl (by rw [List.eq_of_mem_replicate hp])

theorem exact_sortingFaiss : sortingFaiss.Exact (· * ·) := by
  intro vectors q k _
  have hlength : (ranked vectors q).length = vectors.length := by
    rw [(ranked_perm vectors q).length_eq, scored, List.length_map, List.length_zipIdx]
  have hsorted := ranked_sorted vectors q
  rw [← List.take_append_drop k.toNat (ranked vectors q), List.pairwise_append] at hsorted
  refine ⟨(ranked vectors q).take k.toNat, -2, ⟨?_, hsorted.1, (ranked vectors q).drop k.toNat, ?_, hsorted.2.2⟩, rfl⟩
  · rw [List.length_take, hlength]
  · rw [List.take_append_drop]
    exact ranked_perm vectors q

/-- Two chunks, one with the vector of every query and one with its opposite. -/
def twoVectors : IndexManager Int := ⟨some [1, -1], idEntries [chunk, chunk], some ['d']⟩

end RetrievalSample

/-- The query for the best match. -/
theorem wholeTopK_iff_best :
    (FAISSRetriever.init RetrievalSample.unitModel RetrievalSample.sortingFaiss RetrievalSample.twoVectors).WholeTopK
        [1, -1] ['a'] 1 ↔
      isBlank ['a'] = false ∧ (min 1 2 ≤ [1, -1].countP fun v : Int => 0 ≤ 1 * v) ∧
        ∀ found, RetrievalSample.sortingFaiss.search [1, -1] 1 1 = .ok found → ∀ hit ∈ found, hit.2 ≠ -1 →
          Metadata.NumbersRead ((getItem hit.2 RetrievalSample.twoVectors.idMap).getD []) :=
  wholeTopK_iff RetrievalSample.exact_sortingFaiss rfl ['a'] (by decide)

/-- The top two of two vectors: the one with a negative score is left out. -/
theorem negative_score_left_out :
    RetrievalSample.sortingFaiss.Exact (· * ·) ∧
      ¬ ∀ (manager : IndexManager Int) (vectors : List Int) (queryText : Text) (topK : Int),
        manager.index = some vectors → isBlank queryText = false → 1 ≤ topK →
          (FAISSRetriever.init RetrievalSample.unitModel RetrievalSample.sortingFaiss manager).WholeTopK vectors
            queryText topK := by
  refine ⟨RetrievalSample.exact_sortingFaiss, fun h => ?_⟩
  obtain ⟨found, results, -, hresults, hlength, -⟩ :=
    h RetrievalSample.twoVectors [1, -1] ['a'] 2 rfl (by decide) (by decide)
  have hone : FAISSRetriever.query (FAISSRetriever.init RetrievalSample.unitModel RetrievalSample.sortingFaiss
      RetrievalSample.twoVectors) ['a'] 2 = .ok [resultOf RetrievalSample.chunk (1, 0)] := by decide
  rw [← Except.ok.inj (hone.symm.trans hresults)] at hlength
  exact absurd hlength (by decide)

end ComplianceLoop
