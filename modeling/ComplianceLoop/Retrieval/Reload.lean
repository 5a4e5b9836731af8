import ComplianceLoop.Retrieval.ActiveBuild

/-!
# Reloads and queries (`retrieval/index_manager.py`, `retriever.py`)

Loads of the active directory and queries in one process, while another process builds and swaps. A load reads the two
files and assigns three attributes, a query reads two of them, and nothing makes these steps one: a swap can come
between the two reads of a load, a load between the two assignments of another, and a load between the two reads of a
query. Numbers kept with the steps say which of these has happened (`InOrder`); in a run without them every query uses
an index and an ID map of one build (`sameBuild_of_inOrder`).

`run_load` and `run_query` tie the steps to the functions.
-/

set_option autoImplicit false

namespace ComplianceLoop

open PyLib Transition IndexDir

/-- An ID map in memory. -/
abbrev LoadedIdMap := BuiltFile (List (Int × Metadata))

/-- The next step of a load. An index that has been read comes with the number of activations before the read, an ID map
to be assigned with the number of index assignments before that of its load. -/
inductive LoadOp (V : Type) where
  | findIndex
  | findIdMap
  | readIndex
  | readIdMap (index : BuiltFile (List V)) (activations : Nat)
  | assignIndex (index : BuiltFile (List V)) (idMap : LoadedIdMap)
  | assignIdMap (idMap : LoadedIdMap) (before : Nat)
  | assignLoadedFrom
  | ended

/-- The next step of a query, which ends with the search in the index that it has read. That index comes with the number
of index assignments before the read. -/
inductive QueryOp (V : Type) where
  | isLoaded
  | readIndex
  | readIdMap (index : Option (BuiltFile (List V))) (assigned : Nat)
  | search (index : Option (BuiltFile (List V))) (idMap : Option LoadedIdMap)
  | notLoaded

/-- The other process with the directories, the attributes of the manager, the loads and the queries, and the
activations and assignments so far, these with the number of the build. -/
structure ReloadState (V : Type) where
  disk : SwapState V
  index : Option (BuiltFile (List V))
  idMap : Option LoadedIdMap
  loadedFrom : Option Text
  loads : List (LoadOp V)
  queries : List (QueryOp V)
  activations : Nat
  indexAssigned : List Nat
  idMapAssigned : List Nat

/-- What happens next. -/
inductive ReloadLabel where
  | disk (l : SwapLabel)
  | callLoad
  | load (i : Nat)
  | callQuery
  | query (i : Nat)

namespace ReloadState

variable {V S : Type}

/-- Nothing has been built or loaded. -/
def start (V : Type) : ReloadState V := ⟨.start V, none, none, none, [], [], 0, [], []⟩

/-- The manager with its attributes. -/
def manager (s : ReloadState V) : IndexManager V where
  index := s.index.map BuiltFile.content
  idMap := (s.idMap.map BuiltFile.content).getD []
  loadedFrom := s.loadedFrom

/-- One step of `load`: the state, and the next step. A load that raises has ended. -/
def performLoad (baseDir : Text) (s : ReloadState V) : LoadOp V → ReloadState V × LoadOp V
  | .findIndex => (s, if (indexIn s.disk.active).isSome then .findIdMap else .ended)
  | .findIdMap => (s, if (idMapIn s.disk.active).isSome then .readIndex else .ended)
  | .readIndex =>
    match indexIn s.disk.active with
    | none => (s, .ended)
    | some index => (s, .readIdMap index s.activations)
  | .readIdMap index _ =>
    match idMapIn s.disk.active with
    | none => (s, .ended)
    | some raw =>
      match ComplianceLoop.readIdMap raw.content with
      | .error _ => (s, .ended)
      | .ok idMap => (s, .assignIndex index ⟨raw.build, idMap⟩)
  | .assignIndex index idMap =>
    ({ s with index := some index, indexAssigned := s.indexAssigned ++ [index.build] },
      .assignIdMap idMap s.indexAssigned.length)
  | .assignIdMap idMap _ =>
    ({ s with idMap := some idMap, idMapAssigned := s.idMapAssigned ++ [idMap.build] }, .assignLoadedFrom)
  | .assignLoadedFrom => ({ s with loadedFrom := some (baseDir ++ "/index_active".toList) }, .ended)
  | .ended => (s, .ended)

/-- One step of `query`. -/
def performQuery (s : ReloadState V) : QueryOp V → QueryOp V
  | .isLoaded => if s.index.isSome then .readIndex else .notLoaded
  | .readIndex => .readIdMap s.index s.indexAssigned.length
  | .readIdMap index _ => .search index s.idMap
  | .search index idMap => .search index idMap
  | .notLoaded => .notLoaded

/-- What happens next, if it can. -/
def step (retriever : FAISSRetriever V S) (baseDir : Text) (s : ReloadState V) : ReloadLabel → Option (ReloadState V)
  | .disk l =>
    (s.disk.step retriever baseDir l).map fun disk =>
      { s with disk := disk, activations := if s.disk.activates l then s.activations + 1 else s.activations }
  | .callLoad => some { s with loads := s.loads ++ [.findIndex] }
  | .load i =>
    s.loads[i]?.map fun op =>
      { (s.performLoad baseDir op).1 with loads := s.loads.set i (s.performLoad baseDir op).2 }
  | .callQuery => some { s with queries := s.queries ++ [.isLoaded] }
  | .query i => s.queries[i]?.map fun op => { s with queries := s.queries.set i (s.performQuery op) }

/-- The index and the ID map of every query that has read them are of one build. -/
def SameBuild (s : ReloadState V) : Prop :=
  ∀ index idMap, .search index idMap ∈ s.queries → ∃ f g, index = some f ∧ idMap = some g ∧ g.build = f.build

/-- No activation has come between the two reads of the load, and its ID map is assigned in the order of the indexes. -/
def loadInOrder (s : ReloadState V) : LoadOp V → Bool
  | .readIdMap _ activations => activations = s.activations
  | .assignIdMap _ before => before = s.idMapAssigned.length
  | _ => true

/-- The query reads the ID map of the assignment whose index it has read. -/
def queryInOrder (s : ReloadState V) : QueryOp V → Bool
  | .readIdMap _ assigned => assigned = s.idMapAssigned.length
  | _ => true

/-- No step comes between two that belong together. -/
def InOrder (s : ReloadState V) : ReloadLabel → Prop
  | .disk l => ActivatesCompleted s.disk l
  | .load i => ∀ op ∈ s.loads[i]?, s.loadInOrder op = true
  | .query i => ∀ op ∈ s.queries[i]?, s.queryInOrder op = true
  | .callLoad | .callQuery => True

instance (s : ReloadState V) : (l : ReloadLabel) → Decidable (s.InOrder l)
  | .disk l => inferInstanceAs (Decidable (ActivatesCompleted s.disk l))
  | .load i => inferInstanceAs (Decidable (∀ op ∈ s.loads[i]?, s.loadInOrder op = true))
  | .query i => inferInstanceAs (Decidable (∀ op ∈ s.queries[i]?, s.queryInOrder op = true))
  | .callLoad | .callQuery => inferInstanceAs (Decidable True)

end ReloadState

/-- The two processes as a system. -/
def reloadSystem {V S : Type} (retriever : FAISSRetriever V S) (baseDir : Text) :
    System (ReloadState V) ReloadLabel := ⟨ReloadState.step retriever baseDir⟩

section

variable {V S : Type} {retriever : FAISSRetriever V S} {baseDir : Text} {s s' : ReloadState V}

/-! ## The invariant -/

/-- What holds before a step of a load. -/
def LoadInv (s : ReloadState V) : LoadOp V → Prop
  | .readIdMap f activations => activations ≤ s.activations ∧
      (activations = s.activations → ∀ g, idMapIn s.disk.active = some g → g.build = f.build)
  | .assignIndex f g => g.build = f.build
  | .assignIdMap g before => s.indexAssigned[before]? = some g.build
  | .findIndex | .findIdMap | .readIndex | .assignLoadedFrom | .ended => True

/-- What holds before a step of a query. -/
def QueryInv (s : ReloadState V) : QueryOp V → Prop
  | .readIndex => s.indexAssigned ≠ []
  | .readIdMap index assigned => ∃ f n, index = some f ∧ assigned = n + 1 ∧ s.indexAssigned[n]? = some f.build
  | .search index idMap => ∃ f g, index = some f ∧ idMap = some g ∧ g.build = f.build
  | .isLoaded | .notLoaded => True

/-- The invariant of loads, queries and swaps. -/
structure ReloadInv (s : ReloadState V) : Prop where
  disk : SwapInv s.disk
  active : ∀ f g, indexIn s.disk.active = some f → idMapIn s.disk.active = some g → g.build = f.build
  index : s.index.map BuiltFile.build = s.indexAssigned.getLast?
  idMap : s.idMap.map BuiltFile.build = s.idMapAssigned.getLast?
  order : s.idMapAssigned <+: s.indexAssigned
  loads : ∀ op ∈ s.loads, LoadInv s op
  queries : ∀ op ∈ s.queries, QueryInv s op

theorem reloadInv_start : ReloadInv (ReloadState.start V) where
  disk := swapInv_start
  active _ _ hf := by cases hf
  index := rfl
  idMap := rfl
  order := List.nil_prefix
  loads _ hop := absurd hop List.not_mem_nil
  queries _ hop := absurd hop List.not_mem_nil

/-- An entry of a prefix is an entry of the list. -/
theorem entry_of_prefixed {α : Type} {xs ys : List α} (h : xs <+: ys) {n : Nat} {a : α} (hn : xs[n]? = some a) :
    ys[n]? = some a := by
  obtain ⟨zs, rfl⟩ := h
  rw [List.getElem?_append_left (List.getElem?_eq_some_iff.mp hn).1, hn]

/-- Later index assignments do not matter to a load. -/
theorem LoadInv.mono {op : LoadOp V} (h : LoadInv s op) (hactivations : s'.activations = s.activations)
    (hactive : s'.disk.active = s.disk.active) (hassigned : s.indexAssigned <+: s'.indexAssigned) : LoadInv s' op := by
  cases op with
  | readIdMap f activations =>
    rw [LoadInv, hactivations, hactive]
    exact h
  | assignIdMap g before => exact entry_of_prefixed hassigned h
  | assignIndex f g => exact h
  | findIndex | findIdMap | readIndex | assignLoadedFrom | ended => trivial

/-- Nor to a query. -/
theorem QueryInv.mono {op : QueryOp V} (h : QueryInv s op) (hassigned : s.indexAssigned <+: s'.indexAssigned) :
    QueryInv s' op := by
  cases op with
  | readIndex =>
    intro hnil
    rw [hnil, List.prefix_nil] at hassigned
    exact h hassigned
  | readIdMap index assigned =>
    obtain ⟨f, n, hindex, hn, hget⟩ := h
    exact ⟨f, n, hindex, hn, entry_of_prefixed hassigned hget⟩
  | search index idMap => exact h
  | isLoaded | notLoaded => trivial

/-- A prefix goes on with the next entry. -/
theorem concat_prefixed {α : Type} {xs ys : List α} (h : xs <+: ys) {a : α} (hnext : ys[xs.length]? = some a) :
    xs ++ [a] <+: ys := by
  obtain ⟨rest, rfl⟩ := h
  rw [List.getElem?_append_right (Nat.le_refl _), Nat.sub_self] at hnext
  cases rest with
  | nil => cases hnext
  | cons b rest =>
    obtain rfl := Option.some.inj hnext
    exact ⟨rest, by rw [List.append_assoc, List.singleton_append]⟩

/-- The last of the first entries of a list. -/
theorem last_of_prefixed {xs ys : List Nat} (h : xs <+: ys) {n : Nat} (hn : xs.length = n + 1) :
    xs.getLast? = ys[n]? := by
  obtain ⟨zs, rfl⟩ := h
  rw [List.getLast?_eq_getElem?, hn, List.getElem?_append_left (by omega)]
  rfl

/-! ## The steps -/

/-- One step of a load keeps the invariant, if it comes in order. -/
theorem performLoad_inv (baseDir : Text) {op : LoadOp V} (h : ReloadInv s) (hop : LoadInv s op)
    (hg : s.loadInOrder op = true) :
    ReloadInv (s.performLoad baseDir op).1 ∧ LoadInv (s.performLoad baseDir op).1 (s.performLoad baseDir op).2 := by
  cases op with
  | findIndex =>
    refine ⟨h, ?_⟩
    unfold ReloadState.performLoad
    dsimp only
    split <;> trivial
  | findIdMap =>
    refine ⟨h, ?_⟩
    unfold ReloadState.performLoad
    dsimp only
    split <;> trivial
  | readIndex =>
    unfold ReloadState.performLoad
    cases hindex : indexIn s.disk.active with
    | none => exact ⟨h, trivial⟩
    | some f => exact ⟨h, Nat.le_refl _, fun _ g hg => h.active f g hindex hg⟩
  | readIdMap f activations =>
    have hsame := hop.2 (of_decide_eq_true hg)
    unfold ReloadState.performLoad
    cases hidMap : idMapIn s.disk.active with
    | none => exact ⟨h, trivial⟩
    | some raw =>
      cases hread : readIdMap raw.content with
      | error e => simp only [hread]; exact ⟨h, trivial⟩
      | ok idMap => simp only [hread]; exact ⟨h, hsame raw hidMap⟩
  | assignIndex f g =>
    have hassigned : s.indexAssigned <+: s.indexAssigned ++ [f.build] := List.prefix_append _ _
    refine ⟨{ h with index := ?_, order := ?_, loads := ?_, queries := ?_ }, ?_⟩
    · exact (List.getLast?_concat ..).symm
    · exact h.order.trans hassigned
    · exact fun op hmem => (h.loads op hmem).mono rfl rfl hassigned
    · exact fun op hmem => (h.queries op hmem).mono hassigned
    · show (s.indexAssigned ++ [f.build])[s.indexAssigned.length]? = some g.build
      rw [List.getElem?_concat_length, show g.build = f.build from hop]
  | assignIdMap g before =>
    have hbefore : before = s.idMapAssigned.length := of_decide_eq_true hg
    refine ⟨{ h with idMap := ?_, order := ?_ }, trivial⟩
    · exact (List.getLast?_concat ..).symm
    · -- the next ID map is the one of the next index
      have hnext : s.indexAssigned[before]? = some g.build := hop
      exact concat_prefixed h.order (hbefore ▸ hnext)
  | assignLoadedFrom => exact ⟨{ h with }, trivial⟩
  | ended => exact ⟨h, trivial⟩

/-- One step of a query keeps its invariant, if it comes in order. -/
theorem performQuery_inv {op : QueryOp V} (h : ReloadInv s) (hop : QueryInv s op) (hg : s.queryInOrder op = true) :
    QueryInv s (s.performQuery op) := by
  cases op with
  | isLoaded =>
    unfold ReloadState.performQuery
    cases hindex : s.index with
    | none => trivial
    | some f =>
      intro hnil
      have hlast := h.index
      rw [hindex, hnil] at hlast
      cases hlast
  | readIndex =>
    -- the last assignment
    obtain ⟨n, hn⟩ := Nat.exists_eq_succ_of_ne_zero (List.length_pos_iff.mpr hop).ne'
    have hlast := h.index
    rw [List.getLast?_eq_getElem?, hn, Nat.succ_sub_one] at hlast
    obtain ⟨build, hbuild⟩ : ∃ build, s.indexAssigned[n]? = some build :=
      ⟨_, List.getElem?_eq_getElem (by omega)⟩
    rw [hbuild] at hlast
    obtain ⟨f, hf, hfbuild⟩ := Option.map_eq_some_iff.mp hlast
    exact ⟨f, n, hf, hn, by rw [hbuild, hfbuild]⟩
  | readIdMap index assigned =>
    obtain ⟨f, n, rfl, rfl, hget⟩ := hop
    have hlength : s.idMapAssigned.length = n + 1 := (of_decide_eq_true hg).symm
    have hlast := h.idMap
    rw [last_of_prefixed h.order hlength, hget] at hlast
    obtain ⟨g, hidMap, hsame⟩ := Option.map_eq_some_iff.mp hlast
    exact ⟨f, g, rfl, hidMap, hsame⟩
  | search index idMap => exact hop
  | notLoaded => trivial

/-- A step of a load neither reads nor changes the other loads. -/
theorem performLoad_withLoads (op : LoadOp V) (loads : List (LoadOp V)) :
    ReloadState.performLoad baseDir { s with loads := loads } op =
      ({ (s.performLoad baseDir op).1 with loads := loads }, (s.performLoad baseDir op).2) := by
  cases op <;> unfold ReloadState.performLoad <;> dsimp only <;> repeat' split
  all_goals rfl

theorem performLoad_loads (op : LoadOp V) : (s.performLoad baseDir op).1.loads = s.loads :=
  congrArg (fun p => p.1.loads) (performLoad_withLoads op s.loads)

/-- A step of the other process. -/
theorem ReloadInv.disk_step (h : ReloadInv s) {l : SwapLabel} {disk : SwapState V} (hg : ActivatesCompleted s.disk l)
    (hs : (swapSystem retriever baseDir).step s.disk l = some disk) : ReloadInv
      { s with disk := disk, activations := if s.disk.activates l then s.activations + 1 else s.activations } := by
  have hactive := swapStep_active hs
  refine { h with disk := swapInv_step h.disk hg hs, active := ?_, loads := ?_ }
  · intro f g hf hg'
    rcases hactive with hsame | hnone | ⟨hactivates, hstaged⟩
    · exact h.active f g (hsame ▸ hf) (hsame ▸ hg')
    · rw [show disk.active = none from hnone] at hf
      cases hf
    · have hf' : indexIn s.disk.staging = some f := hstaged ▸ hf
      have hg'' : idMapIn s.disk.staging = some g := hstaged ▸ hg'
      exact h.disk.staging f g hf' hg'' (hg hactivates f hf' g hg'')
  · intro op hmem
    have hop := h.loads op hmem
    cases op with
    | readIdMap f activations =>
      obtain ⟨hle, hsame⟩ := hop
      cases hactivates : s.disk.activates l with
      | true =>
        refine ⟨Nat.le_succ_of_le hle, fun heq => ?_⟩
        exact absurd heq (Nat.ne_of_lt (Nat.lt_succ_of_le hle))
      | false =>
        refine ⟨hle, fun heq g hg' => ?_⟩
        rcases hactive with hkept | hnone | ⟨htrue, -⟩
        · exact hsame heq g (hkept ▸ hg')
        · rw [show disk.active = none from hnone] at hg'
          cases hg'
        · cases hactivates.symm.trans htrue
    | assignIndex f g => exact hop
    | assignIdMap g before => exact hop
    | findIndex | findIdMap | readIndex | assignLoadedFrom | ended => trivial

theorem ReloadInv.sameBuild (h : ReloadInv s) : s.SameBuild := fun _ _ hmem => h.queries _ hmem

/-- **Every step that comes in order keeps the invariant.** -/
theorem reloadInv_step {l : ReloadLabel} (h : ReloadInv s) (hg : s.InOrder l)
    (hs : (reloadSystem retriever baseDir).step s l = some s') : ReloadInv s' := by
  have hs : s.step retriever baseDir l = some s' := hs
  cases l with
  | disk l =>
    obtain ⟨disk, hdisk, rfl⟩ := Option.map_eq_some_iff.mp hs
    exact h.disk_step hg hdisk
  | callLoad =>
    cases hs
    refine { h with loads := fun op hmem => ?_ }
    rcases List.mem_append.mp hmem with hmem | hmem
    · exact h.loads op hmem
    · obtain rfl := List.mem_singleton.mp hmem
      trivial
  | load i =>
    obtain ⟨op, hop, rfl⟩ := Option.map_eq_some_iff.mp hs
    obtain ⟨hinv, hnext⟩ := performLoad_inv baseDir h (h.loads op (List.mem_of_getElem? hop)) (hg op hop)
    refine { hinv with loads := fun op' hmem => ?_ }
    rcases List.mem_or_eq_of_mem_set hmem with hmem | rfl
    · exact hinv.loads op' (by rwa [performLoad_loads])
    · exact hnext
  | callQuery =>
    cases hs
    refine { h with queries := fun op hmem => ?_ }
    rcases List.mem_append.mp hmem with hmem | hmem
    · exact h.queries op hmem
    · obtain rfl := List.mem_singleton.mp hmem
      trivial
  | query i =>
    obtain ⟨op, hop, rfl⟩ := Option.map_eq_some_iff.mp hs
    refine { h with queries := fun op' hmem => ?_ }
    rcases List.mem_or_eq_of_mem_set hmem with hmem | rfl
    · exact h.queries op' hmem
    · have hnext := performQuery_inv h (h.queries op (List.mem_of_getElem? hop)) (hg op hop)
      exact hnext

/-- **In a run in order every query uses an index and an ID map of one build.** -/
theorem sameBuild_of_inOrder (retriever : FAISSRetriever V S) (baseDir : Text) (ls : List ReloadLabel)
    (h : (reloadSystem retriever baseDir).Each ReloadState.InOrder (ReloadState.start V) ls) :
    (reloadSystem retriever baseDir).Always ReloadState.SameBuild (ReloadState.start V) ls :=
  System.always_of_each reloadInv_step ReloadInv.sameBuild reloadInv_start h

/-! ## A load and a query that nothing interrupts -/

/-- A step of the load that was called last. -/
theorem run_loadStep {op op' : LoadOp V} (hop : s.performLoad baseDir op = (s', op')) (ls : List ReloadLabel) :
    (reloadSystem retriever baseDir).run { s with loads := s.loads ++ [op] } (.load s.loads.length :: ls) =
      (reloadSystem retriever baseDir).run { s' with loads := s.loads ++ [op'] } ls := by
  have hframe : ReloadState.performLoad baseDir { s with loads := s.loads ++ [op] } op =
      ({ s' with loads := s.loads ++ [op] }, op') := by
    rw [performLoad_withLoads, hop]
  have hstep : (reloadSystem retriever baseDir).step { s with loads := s.loads ++ [op] } (.load s.loads.length) =
      some { s' with loads := s.loads ++ [op'] } := by
    show Option.map _ ((s.loads ++ [op])[s.loads.length]?) = _
    rw [List.getElem?_concat_length, Option.map_some, hframe]
    simp
  rw [System.run, hstep, Option.bind_some]

/-- **A load that nothing interrupts does what `load` does.** -/
theorem run_load {m : IndexManager V}
    (h : s.manager.load (baseDir ++ "/index_active".toList) (contents s.disk.active) = (.ok (), m)) :
    ∃ t, (reloadSystem retriever baseDir).run s (.callLoad :: List.replicate 7 (.load s.loads.length)) = some t ∧
      t.manager = m := by
  obtain ⟨index, raw, idMap, hfiles, hread, rfl⟩ := load_eq_ok h
  obtain ⟨f, g, hf, hg, rfl, rfl⟩ := files_of_contents hfiles
  have hfindIndex : s.performLoad baseDir .findIndex = (s, .findIdMap) := by simp [ReloadState.performLoad, hf]
  have hfindIdMap : s.performLoad baseDir .findIdMap = (s, .readIndex) := by simp [ReloadState.performLoad, hg]
  have hindex : s.performLoad baseDir .readIndex = (s, .readIdMap f s.activations) := by
    simp only [ReloadState.performLoad, hf]
  have hidMap : s.performLoad baseDir (.readIdMap f s.activations) = (s, .assignIndex f ⟨g.build, idMap⟩) := by
    simp only [ReloadState.performLoad, hg, hread]
  let indexSet : ReloadState V := { s with index := some f, indexAssigned := s.indexAssigned ++ [f.build] }
  let idMapSet : ReloadState V :=
    { indexSet with idMap := some ⟨g.build, idMap⟩, idMapAssigned := s.idMapAssigned ++ [g.build] }
  let loaded : ReloadState V := { idMapSet with loadedFrom := some (baseDir ++ "/index_active".toList) }
  have hassignIndex : s.performLoad baseDir (.assignIndex f ⟨g.build, idMap⟩) =
      (indexSet, .assignIdMap ⟨g.build, idMap⟩ s.indexAssigned.length) := rfl
  have hassignIdMap : indexSet.performLoad baseDir (.assignIdMap ⟨g.build, idMap⟩ s.indexAssigned.length) =
      (idMapSet, .assignLoadedFrom) := rfl
  have hassignLoadedFrom : idMapSet.performLoad baseDir .assignLoadedFrom = (loaded, .ended) := rfl
  refine ⟨{ loaded with loads := s.loads ++ [.ended] }, ?_, rfl⟩
  calc
    _ = (reloadSystem retriever baseDir).run { s with loads := s.loads ++ [.findIndex] }
          (List.replicate 7 (.load s.loads.length)) := rfl
    _ = (reloadSystem retriever baseDir).run { s with loads := s.loads ++ [.assignIndex f ⟨g.build, idMap⟩] }
          (List.replicate 3 (.load s.loads.length)) := by
      simp only [List.replicate]
      rw [run_loadStep hfindIndex, run_loadStep hfindIdMap, run_loadStep hindex, run_loadStep hidMap]
    _ = _ := (run_loadStep hassignIndex _).trans
      ((run_loadStep hassignIdMap _).trans (run_loadStep hassignLoadedFrom _))

/-- What a query with this index and ID map returns. -/
def FAISSRetriever.queryWith (retriever : FAISSRetriever V S) (queryText : Text) (topK : Int)
    (index : Option (BuiltFile (List V))) (idMap : Option LoadedIdMap) : Except PyExc (List (RetrievedChunk S)) :=
  let manager : IndexManager V :=
    { index := index.map BuiltFile.content
      idMap := (idMap.map BuiltFile.content).getD []
      loadedFrom := none }
  FAISSRetriever.query { retriever with manager := manager } queryText topK

/-- A step of the query that was called last. -/
theorem run_queryStep (op : QueryOp V) (ls : List ReloadLabel) :
    (reloadSystem retriever baseDir).run { s with queries := s.queries ++ [op] } (.query s.queries.length :: ls) =
      (reloadSystem retriever baseDir).run { s with queries := s.queries ++ [s.performQuery op] } ls := by
  have hstep : (reloadSystem retriever baseDir).step { s with queries := s.queries ++ [op] } (.query s.queries.length) =
      some { s with queries := s.queries ++ [s.performQuery op] } := by
    show Option.map _ ((s.queries ++ [op])[s.queries.length]?) = _
    rw [List.getElem?_concat_length, Option.map_some]
    cases op <;> simp [ReloadState.performQuery]
  rw [System.run, hstep, Option.bind_some]

/-- **A query that nothing interrupts returns what `query` returns.** -/
theorem run_query (hloaded : s.index.isSome = true) (queryText : Text) (topK : Int) :
    ∃ t index idMap,
      (reloadSystem retriever baseDir).run s (.callQuery :: List.replicate 3 (.query s.queries.length)) = some t ∧
        .search index idMap ∈ t.queries ∧
        retriever.queryWith queryText topK index idMap =
          FAISSRetriever.query { retriever with manager := s.manager } queryText topK := by
  have hisLoaded : s.performQuery .isLoaded = .readIndex := if_pos hloaded
  refine ⟨{ s with queries := s.queries ++ [.search s.index s.idMap] }, s.index, s.idMap, ?_,
    List.mem_append_right _ List.mem_cons_self, rfl⟩
  calc
    _ = (reloadSystem retriever baseDir).run { s with queries := s.queries ++ [.isLoaded] }
          (List.replicate 3 (.query s.queries.length)) := rfl
    _ = (reloadSystem retriever baseDir).run { s with queries := s.queries ++ [.readIndex] }
          (List.replicate 2 (.query s.queries.length)) := by
      rw [List.replicate_succ, run_queryStep, hisLoaded]
    _ = _ := (run_queryStep .readIndex _).trans (run_queryStep (.readIdMap s.index s.indexAssigned.length) [])

end

namespace ReloadSample

/-- A load. -/
def load (i : Nat) : List ReloadLabel := .callLoad :: List.replicate 7 (.load i)

/-- A query. -/
def query (i : Nat) : List ReloadLabel := .callQuery :: List.replicate 3 (.query i)

/-- A build and a swap by the other process. -/
def buildAndSwap : List ReloadLabel := (SwapSample.build ++ SwapSample.swap).map .disk

end ReloadSample

/-- A build, a swap, a load and a query. -/
theorem sameBuild_of_inOrder_query :
    (reloadSystem RetrievalSample.retriever []).Always ReloadState.SameBuild (ReloadState.start Unit)
      (ReloadSample.buildAndSwap ++ ReloadSample.load 0 ++ ReloadSample.query 0) :=
  sameBuild_of_inOrder RetrievalSample.retriever [] _ (by decide)

/-- The query has read the index of the first build when a load puts those of the second build in the place of both. -/
theorem query_mixes_two_builds :
    ¬ ∀ ls, (reloadSystem RetrievalSample.retriever []).Always ReloadState.SameBuild (ReloadState.start Unit) ls := by
  intro h
  have hend : ((reloadSystem RetrievalSample.retriever []).run (ReloadState.start Unit)
      (ReloadSample.buildAndSwap ++ ReloadSample.load 0 ++ [.callQuery, .query 0, .query 0] ++
        ReloadSample.buildAndSwap ++ ReloadSample.load 1 ++ [.query 0])).map ReloadState.queries =
      some [.search (some ⟨0, [()]⟩) (some ⟨1, [(0, RetrievalSample.chunk.toMetadataDict)]⟩)] := by rfl
  obtain ⟨t, hrun, hqueries⟩ := Option.map_eq_some_iff.mp hend
  obtain ⟨f, g, hf, hg, hsame⟩ := (h _).last hrun _ _ (hqueries ▸ List.mem_cons_self)
  rw [← Option.some.inj hf, ← Option.some.inj hg] at hsame
  cases hsame

end ComplianceLoop
