import ComplianceLoop.Retrieval.Reload

/-!
# Where the answer of a query comes from

The files of the staging and of the active directory, what the loads carry and what is in memory have all been made by
build calls (`ReloadMade`). So a query of a run in order gets the answer of an index that is built from the chunks of
one build call, loaded and asked, with nothing in between (`answered_run`): the two processes do what `build`, `load`
and `query` do one after the other.
-/

set_option autoImplicit false

namespace ComplianceLoop

open PyLib Transition IndexDir

/-- The chunks of a build call. -/
def SwapLabel.chunks : SwapLabel → List (List TextChunk)
  | .callBuild chunks => [chunks]
  | .callSafeSwap _ _ | .unlinkIndex | .unlinkIdMap | .next | .fail _ | .kill => []

def ReloadLabel.chunks : ReloadLabel → List (List TextChunk)
  | .disk l => l.chunks
  | .callLoad | .load _ | .callQuery | .query _ => []

section

variable {V S : Type}

/-- Every query that has read an index and an ID map gets the answer of an index that has been built from the chunks of
one of these calls, and loaded. -/
def ReloadState.Answered (retriever : FAISSRetriever V S) (baseDir : Text) (calls : List (List TextChunk))
    (s : ReloadState V) : Prop :=
  ∀ index idMap, .search index idMap ∈ s.queries → ∃ chunks ∈ calls,
    let built := build retriever.model chunks ⟨none, none⟩
    let loaded := retriever.manager.load (baseDir ++ "/index_active".toList) built.2
    returned built.1 = true ∧ returned loaded.1 = true ∧ ∀ queryText topK,
      retriever.queryWith queryText topK index idMap =
        FAISSRetriever.query { retriever with manager := loaded.2 } queryText topK

/-! ## What the build calls have made -/

section

variable (model : EmbeddingModel V) (calls : List (List TextChunk))

/-- The index and the ID map of the build call with this number. -/
def Made (n : Nat) (b : BuildState V) : Prop :=
  ∃ chunks, calls[n]? = some chunks ∧ chunks ≠ [] ∧ buildIndex model chunks = .ok b

def MadeIndex (f : BuiltFile (List V)) : Prop := ∃ b, Made model calls f.build b ∧ f.content = b.vectors

def MadeIdMap (g : BuiltFile IdMapFile) : Prop := ∃ b, Made model calls g.build b ∧ g.content = b.idMapFile

def MadeEntries (g : LoadedIdMap) : Prop := ∃ b, Made model calls g.build b ∧ readIdMap b.idMapFile = .ok g.content

structure MadeDir (d : Option (IndexDir V)) : Prop where
  index : ∀ f ∈ indexIn d, MadeIndex model calls f
  idMap : ∀ g ∈ idMapIn d, MadeIdMap model calls g

/-- What a build under way is about to write. -/
def OpMade : IndexOp V → Prop
  | .mkdir n chunks => calls[n]? = some chunks
  | .embed n chunks => calls[n]? = some chunks ∧ chunks ≠ []
  | .writeIndex n b | .writeIdMap n b => Made model calls n b
  | .buildReturn _ _ | .findStaging _ _ | .healthCheck _ | .rmtreeBackup | .renameActive | .renameStaging | .reload
  | .publish => True

/-- What a load carries. -/
def LoadMade : LoadOp V → Prop
  | .readIdMap f _ => MadeIndex model calls f
  | .assignIndex f g => MadeIndex model calls f ∧ MadeEntries model calls g
  | .assignIdMap g _ => MadeEntries model calls g
  | .findIndex | .findIdMap | .readIndex | .assignLoadedFrom | .ended => True

/-- What a query has read. -/
def QueryMade : QueryOp V → Prop
  | .readIdMap index _ => ∀ f ∈ index, MadeIndex model calls f
  | .search index idMap => (∀ f ∈ index, MadeIndex model calls f) ∧ ∀ g ∈ idMap, MadeEntries model calls g
  | .isLoaded | .readIndex | .notLoaded => True

structure FilesMade (s : SwapState V) : Prop where
  builds : s.builds = calls.length
  staging : MadeDir model calls s.staging
  active : MadeDir model calls s.active

structure DiskMade (s : SwapState V) : Prop extends FilesMade model calls s where
  op : ∀ op ∈ s.op, OpMade model calls op

/-- Whatever can be queried has been made by the build calls. -/
structure ReloadMade (s : ReloadState V) : Prop where
  disk : DiskMade model calls s.disk
  index : ∀ f ∈ s.index, MadeIndex model calls f
  idMap : ∀ g ∈ s.idMap, MadeEntries model calls g
  loads : ∀ op ∈ s.loads, LoadMade model calls op
  queries : ∀ op ∈ s.queries, QueryMade model calls op

end

variable {retriever : FAISSRetriever V S} {model : EmbeddingModel V} {baseDir : Text}
  {calls calls' : List (List TextChunk)}

theorem madeDir_none : MadeDir model calls (none : Option (IndexDir V)) :=
  ⟨fun _ hf => (nomatch hf), fun _ hg => (nomatch hg)⟩

theorem reloadMade_start : ReloadMade model [] (ReloadState.start V) where
  disk := ⟨⟨rfl, madeDir_none, madeDir_none⟩, fun _ h => (nomatch h)⟩
  index _ h := (nomatch h)
  idMap _ h := (nomatch h)
  loads _ h := absurd h List.not_mem_nil
  queries _ h := absurd h List.not_mem_nil

/-! ## Later calls -/

theorem Made.mono (h : calls <+: calls') {n : Nat} {b : BuildState V} : Made model calls n b → Made model calls' n b
  | ⟨chunks, hcall, hb⟩ => ⟨chunks, entry_of_prefixed h hcall, hb⟩

theorem MadeIndex.mono (h : calls <+: calls') {f : BuiltFile (List V)} :
    MadeIndex model calls f → MadeIndex model calls' f
  | ⟨b, hb, hf⟩ => ⟨b, hb.mono h, hf⟩

theorem MadeIdMap.mono (h : calls <+: calls') {g : BuiltFile IdMapFile} :
    MadeIdMap model calls g → MadeIdMap model calls' g
  | ⟨b, hb, hg⟩ => ⟨b, hb.mono h, hg⟩

theorem MadeEntries.mono (h : calls <+: calls') {g : LoadedIdMap} :
    MadeEntries model calls g → MadeEntries model calls' g
  | ⟨b, hb, hg⟩ => ⟨b, hb.mono h, hg⟩

theorem MadeDir.mono (h : calls <+: calls') {d : Option (IndexDir V)} (hd : MadeDir model calls d) :
    MadeDir model calls' d where
  index f hf := (hd.index f hf).mono h
  idMap g hg := (hd.idMap g hg).mono h

theorem LoadMade.mono (h : calls <+: calls') {op : LoadOp V} (hop : LoadMade model calls op) :
    LoadMade model calls' op := by
  cases op with
  | readIdMap f activations => exact MadeIndex.mono h hop
  | assignIndex f g => exact ⟨hop.1.mono h, hop.2.mono h⟩
  | assignIdMap g before => exact MadeEntries.mono h hop
  | findIndex | findIdMap | readIndex | assignLoadedFrom | ended => trivial

theorem QueryMade.mono (h : calls <+: calls') {op : QueryOp V} (hop : QueryMade model calls op) :
    QueryMade model calls' op := by
  cases op with
  | readIdMap index assigned => exact fun f hf => (hop f hf).mono h
  | search index idMap => exact ⟨fun f hf => (hop.1 f hf).mono h, fun g hg => (hop.2 g hg).mono h⟩
  | isLoaded | readIndex | notLoaded => trivial

/-! ## The other process -/

section

variable {s s' : SwapState V}

theorem FilesMade.goOn (h : FilesMade model calls s) {op : IndexOp V} (hop : OpMade model calls op) :
    DiskMade model calls (s.goOn op) where
  builds := h.builds
  staging := h.staging
  active := h.active
  op _ hop' := Option.some.inj hop' ▸ hop

theorem FilesMade.finish (h : FilesMade model calls s) (outcome : IndexOutcome) :
    DiskMade model calls (s.finish outcome) where
  builds := h.builds
  staging := h.staging
  active := h.active
  op _ hop := (nomatch hop)

/-- A build of no chunks does not go on. -/
theorem chunks_ne_nil_of_mkdir {n : Nat} {chunks : List TextChunk}
    (h : s.perform retriever baseDir (.mkdir n chunks) = some s') (hop : s'.op ≠ none) : chunks ≠ [] := by
  rintro rfl
  obtain rfl := Option.some.inj h
  exact hop rfl

/-- The next operation writes what has been made. -/
theorem DiskMade.perform (h : DiskMade retriever.model calls s) {op : IndexOp V} (hop : s.op = some op)
    (hs : s.perform retriever baseDir op = some s') : DiskMade retriever.model calls s' := by
  have hmade := h.op op hop
  have hfiles : FilesMade retriever.model calls s := h.toFilesMade
  cases SwapState.performed hs with
  | ended _ => exact hfiles.finish _
  | mkdir =>
    have hstaging : MadeDir retriever.model calls (some (s.staging.getD ⟨none, none⟩)) := by
      cases hd : s.staging with
      | none => exact ⟨fun _ hf => (nomatch hf), fun _ hg => (nomatch hg)⟩
      | some d => exact hd ▸ hfiles.staging
    have hmkdir : FilesMade retriever.model calls { s with staging := some (s.staging.getD ⟨none, none⟩) } :=
      ⟨hfiles.builds, hstaging, hfiles.active⟩
    exact hmkdir.goOn ⟨hmade, chunks_ne_nil_of_mkdir hs (Option.some_ne_none _)⟩
  | embed hb => exact hfiles.goOn ⟨_, hmade.1, hmade.2, hb⟩
  | @writeIndex n b d hd =>
    have hwritten : MadeDir retriever.model calls (some { d with index := some ⟨n, b.vectors⟩ }) := by
      refine ⟨fun f hf => ?_, fun g hg => hfiles.staging.idMap g (hd ▸ hg)⟩
      obtain rfl := Option.some.inj hf
      exact ⟨b, hmade, rfl⟩
    have hwrite : FilesMade retriever.model calls { s with staging := some { d with index := some ⟨n, b.vectors⟩ } } :=
      ⟨hfiles.builds, hwritten, hfiles.active⟩
    exact hwrite.goOn hmade
  | @writeIdMap n b d hd =>
    have hwritten : MadeDir retriever.model calls (some { d with idMap := some ⟨n, b.idMapFile⟩ }) := by
      refine ⟨fun f hf => hfiles.staging.index f (hd ▸ hf), fun g hg => ?_⟩
      obtain rfl := Option.some.inj hg
      exact ⟨b, hmade, rfl⟩
    have hwrite : FilesMade retriever.model calls
        { s with staging := some { d with idMap := some ⟨n, b.idMapFile⟩ } } :=
      ⟨hfiles.builds, hwritten, hfiles.active⟩
    exact hwrite.goOn trivial
  | @buildReturn n b =>
    have hdone : FilesMade retriever.model calls { s with completed := n :: s.completed } :=
      ⟨hfiles.builds, hfiles.staging, hfiles.active⟩
    exact hdone.finish _
  | findStaging => exact hfiles.goOn trivial
  | skipHealthCheck => exact hfiles.goOn trivial
  | healthCheck _ => exact hfiles.goOn trivial
  | noBackup _ => exact hfiles.goOn trivial
  | rmdirBackup _ _ =>
    have hremoved : FilesMade retriever.model calls { s with backup := none } :=
      ⟨hfiles.builds, hfiles.staging, hfiles.active⟩
    exact hremoved.goOn trivial
  | noActive _ => exact hfiles.goOn trivial
  | @renameActive d _ =>
    have hmoved : FilesMade retriever.model calls { s with active := none, backup := some d } :=
      ⟨hfiles.builds, hfiles.staging, madeDir_none⟩
    exact hmoved.goOn trivial
  | @renameStaging d hd =>
    have hmoved : FilesMade retriever.model calls { s with staging := none, active := some d } :=
      ⟨hfiles.builds, madeDir_none, hd ▸ hfiles.staging⟩
    exact hmoved.goOn trivial
  | @reload manager _ =>
    have hloaded : FilesMade retriever.model calls { s with manager := manager } :=
      ⟨hfiles.builds, hfiles.staging, hfiles.active⟩
    exact hloaded.goOn trivial
  | publish => exact hfiles.finish _

theorem DiskMade.step {l : SwapLabel} (h : DiskMade retriever.model calls s)
    (hs : s.step retriever baseDir l = some s') : DiskMade retriever.model (calls ++ l.chunks) s' := by
  cases l with
  | callBuild chunks =>
    simp only [SwapState.step] at hs
    split at hs <;> cases hs
    have hlater : calls <+: calls ++ [chunks] := List.prefix_append _ _
    have hcalled : FilesMade retriever.model (calls ++ [chunks])
        { s with outcome := none, builds := s.builds + 1 } :=
      ⟨by rw [h.builds, List.length_append, List.length_singleton], h.staging.mono hlater, h.active.mono hlater⟩
    refine hcalled.goOn ?_
    show (calls ++ [chunks])[s.builds]? = some chunks
    rw [h.builds, List.getElem?_concat_length]
  | callSafeSwap skipHealthCheck testSet =>
    rw [SwapLabel.chunks, List.append_nil]
    simp only [SwapState.step] at hs
    split at hs <;> cases hs
    have hcalled : FilesMade retriever.model calls { s with outcome := none } := ⟨h.builds, h.staging, h.active⟩
    exact hcalled.goOn trivial
  | unlinkIndex | unlinkIdMap =>
    rw [SwapLabel.chunks, List.append_nil]
    obtain ⟨d, -, -, rfl⟩ := SwapState.unlink_eq_some hs
    exact ⟨⟨h.builds, h.staging, h.active⟩, h.op⟩
  | next =>
    rw [SwapLabel.chunks, List.append_nil]
    obtain ⟨op, hop, hs⟩ := Option.bind_eq_some_iff.mp hs
    exact h.perform hop hs
  | fail e =>
    rw [SwapLabel.chunks, List.append_nil]
    simp only [SwapState.step] at hs
    split at hs <;> cases hs
    exact h.toFilesMade.finish _
  | kill =>
    rw [SwapLabel.chunks, List.append_nil]
    obtain ⟨op, -, rfl⟩ := Option.map_eq_some_iff.mp hs
    exact ⟨⟨h.builds, h.staging, h.active⟩, fun op hop => absurd hop (Option.not_mem_none op)⟩

end

/-! ## Loads and queries -/

section

variable {s s' : ReloadState V}

/-- A load carries what it has read, and puts it in memory. -/
theorem ReloadMade.performLoad (h : ReloadMade model calls s) {op : LoadOp V} (hop : LoadMade model calls op) :
    ReloadMade model calls (s.performLoad baseDir op).1 ∧ LoadMade model calls (s.performLoad baseDir op).2 := by
  cases op with
  | findIndex =>
    refine ⟨h, ?_⟩
    unfold ReloadState.performLoad
    dsimp only
    split <;> trivial
  | findIdMap =>
    refine ⟨h, ?_⟩
    unfold ReloadState.performLoad
    dsimp only
    split <;> trivial
  | readIndex =>
    unfold ReloadState.performLoad
    cases hindex : indexIn s.disk.active with
    | none => exact ⟨h, trivial⟩
    | some f => exact ⟨h, h.disk.active.index f hindex⟩
  | readIdMap f activations =>
    unfold ReloadState.performLoad
    cases hidMap : idMapIn s.disk.active with
    | none => exact ⟨h, trivial⟩
    | some raw =>
      cases hread : readIdMap raw.content with
      | error e => simp only [hread]; exact ⟨h, trivial⟩
      | ok idMap =>
        obtain ⟨b, hb, hraw⟩ := h.disk.active.idMap raw hidMap
        simp only [hread]
        exact ⟨h, hop, b, hb, hraw ▸ hread⟩
  | assignIndex f g => exact ⟨{ h with index := fun _ hf => Option.some.inj hf ▸ hop.1 }, hop.2⟩
  | assignIdMap g before => exact ⟨{ h with idMap := fun _ hg => Option.some.inj hg ▸ hop }, trivial⟩
  | assignLoadedFrom => exact ⟨{ h with }, trivial⟩
  | ended => exact ⟨h, trivial⟩

/-- A query takes what is in memory. -/
theorem ReloadMade.performQuery (h : ReloadMade model calls s) {op : QueryOp V} (hop : QueryMade model calls op) :
    QueryMade model calls (s.performQuery op) := by
  cases op with
  | isLoaded =>
    unfold ReloadState.performQuery
    dsimp only
    split <;> trivial
  | readIndex => exact h.index
  | readIdMap index assigned => exact ⟨hop, h.idMap⟩
  | search index idMap => exact hop
  | notLoaded => trivial

/-- **Every step keeps that all has been made by the build calls so far.** -/
theorem ReloadMade.step {l : ReloadLabel} (h : ReloadMade retriever.model calls s)
    (hs : s.step retriever baseDir l = some s') : ReloadMade retriever.model (calls ++ l.chunks) s' := by
  cases l with
  | disk l =>
    obtain ⟨disk, hdisk, rfl⟩ := Option.map_eq_some_iff.mp hs
    have hlater : calls <+: calls ++ l.chunks := List.prefix_append _ _
    exact
      { disk := h.disk.step hdisk
        index := fun f hf => (h.index f hf).mono hlater
        idMap := fun g hg => (h.idMap g hg).mono hlater
        loads := fun op hop => (h.loads op hop).mono hlater
        queries := fun op hop => (h.queries op hop).mono hlater }
  | callLoad =>
    rw [ReloadLabel.chunks, List.append_nil]
    cases hs
    refine { h with loads := fun op hmem => ?_ }
    rcases List.mem_append.mp hmem with hmem | hmem
    · exact h.loads op hmem
    · obtain rfl := List.mem_singleton.mp hmem
      trivial
  | load i =>
    rw [ReloadLabel.chunks, List.append_nil]
    obtain ⟨op, hop, rfl⟩ := Option.map_eq_some_iff.mp hs
    obtain ⟨hmade, hnext⟩ : ReloadMade retriever.model calls (s.performLoad baseDir op).1 ∧
        LoadMade retriever.model calls (s.performLoad baseDir op).2 :=
      h.performLoad (h.loads op (List.mem_of_getElem? hop))
    refine { hmade with loads := fun op' hmem => ?_ }
    rcases List.mem_or_eq_of_mem_set hmem with hmem | rfl
    · exact h.loads op' hmem
    · exact hnext
  | callQuery =>
    rw [ReloadLabel.chunks, List.append_nil]
    cases hs
    refine { h with queries := fun op hmem => ?_ }
    rcases List.mem_append.mp hmem with hmem | hmem
    · exact h.queries op hmem
    · obtain rfl := List.mem_singleton.mp hmem
      trivial
  | query i =>
    rw [ReloadLabel.chunks, List.append_nil]
    obtain ⟨op, hop, rfl⟩ := Option.map_eq_some_iff.mp hs
    refine { h with queries := fun op' hmem => ?_ }
    rcases List.mem_or_eq_of_mem_set hmem with hmem | rfl
    · exact h.queries op' hmem
    · exact h.performQuery (h.queries op (List.mem_of_getElem? hop))

theorem ReloadMade.run {ls : List ReloadLabel} (h : ReloadMade retriever.model calls s)
    (hrun : (reloadSystem retriever baseDir).run s ls = some s') :
    ReloadMade retriever.model (calls ++ ls.flatMap ReloadLabel.chunks) s' := by
  induction ls generalizing s calls with
  | nil =>
    obtain rfl := Option.some.inj hrun
    rwa [List.flatMap_nil, List.append_nil]
  | cons l ls ih =>
    obtain ⟨m, hm, hrun⟩ := System.run_cons_eq_some.mp hrun
    rw [List.flatMap_cons, ← List.append_assoc]
    exact ih (h.step hm) hrun

/-! ## The answers -/

/-- A build of these chunks, loaded. -/
theorem load_build (m : IndexManager V) (loadDir : Text) {chunks : List TextChunk} (hne : chunks ≠ [])
    {b : BuildState V} (hb : buildIndex model chunks = .ok b) {idMap : List (Int × Metadata)}
    (hread : readIdMap b.idMapFile = .ok idMap) :
    returned (build model chunks ⟨none, none⟩).1 = true ∧
      m.load loadDir (build model chunks ⟨none, none⟩).2 = (.ok (), ⟨some b.vectors, idMap, some loadDir⟩) := by
  have hbuild : build model chunks ⟨none, none⟩ = (.ok b.vectors.length, ⟨some b.vectors, some b.idMapFile⟩) := by
    rw [build, List.isEmpty_eq_false_iff.mpr hne, if_neg Bool.false_ne_true, hb]
  rw [hbuild]
  refine ⟨rfl, ?_⟩
  unfold IndexManager.load
  simp only [hread]

/-- An index and an ID map of one build give the answers of that build. -/
theorem ReloadMade.answered (h : ReloadMade retriever.model calls s) (hsame : s.SameBuild) :
    s.Answered retriever baseDir calls := by
  intro index idMap hmem
  obtain ⟨f, g, rfl, rfl, hbuild⟩ := hsame index idMap hmem
  obtain ⟨hf, hg⟩ := h.queries _ hmem
  obtain ⟨b, ⟨chunks, hcall, hne, hb⟩, hvectors⟩ := hf f rfl
  obtain ⟨b', ⟨chunks', hcall', -, hb'⟩, hread⟩ := hg g rfl
  rw [hbuild] at hcall'
  obtain rfl := Option.some.inj (hcall.symm.trans hcall')
  obtain rfl := Except.ok.inj (hb.symm.trans hb')
  obtain ⟨hreturned, hload⟩ := load_build retriever.manager (baseDir ++ "/index_active".toList) hne hb hread
  refine ⟨chunks, List.mem_of_getElem? hcall, hreturned, by rw [hload]; rfl, fun queryText topK => ?_⟩
  rw [hload, ← hvectors]
  rfl

end

/-- **In a run in order every query gets the answer of an index that is built from the chunks of one build call, loaded
and asked.** -/
theorem answered_run (retriever : FAISSRetriever V S) (baseDir : Text) (ls : List ReloadLabel) {s : ReloadState V}
    (h : (reloadSystem retriever baseDir).Each ReloadState.InOrder (ReloadState.start V) ls)
    (hrun : (reloadSystem retriever baseDir).run (ReloadState.start V) ls = some s) :
    s.Answered retriever baseDir (ls.flatMap ReloadLabel.chunks) := by
  have hinv : ReloadInv s := (System.always_of_each reloadInv_step id reloadInv_start h).last hrun
  have hmade : ReloadMade retriever.model ([] ++ ls.flatMap ReloadLabel.chunks) s := reloadMade_start.run hrun
  rw [List.nil_append] at hmade
  exact hmade.answered hinv.sameBuild

end

/-- A build, a swap, a load and a query. -/
theorem answered_run_query :
    ∃ s, (reloadSystem RetrievalSample.retriever []).run (ReloadState.start Unit)
        (ReloadSample.buildAndSwap ++ ReloadSample.load 0 ++ ReloadSample.query 0) = some s ∧
      s.queries = [.search (some ⟨0, [()]⟩) (some ⟨0, [(0, RetrievalSample.chunk.toMetadataDict)]⟩)] ∧
      s.Answered RetrievalSample.retriever [] [[RetrievalSample.chunk]] := by
  have hend : ((reloadSystem RetrievalSample.retriever []).run (ReloadState.start Unit)
      (ReloadSample.buildAndSwap ++ ReloadSample.load 0 ++ ReloadSample.query 0)).map ReloadState.queries =
      some [.search (some ⟨0, [()]⟩) (some ⟨0, [(0, RetrievalSample.chunk.toMetadataDict)]⟩)] := by rfl
  obtain ⟨s, hrun, hqueries⟩ := Option.map_eq_some_iff.mp hend
  exact ⟨s, hrun, hqueries, answered_run RetrievalSample.retriever [] _ (by decide) hrun⟩

end ComplianceLoop
