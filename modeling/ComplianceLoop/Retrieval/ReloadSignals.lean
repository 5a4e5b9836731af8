import ComplianceLoop.Retrieval.Reload

/-!
# The reload signal (`_publish_reload_signal`, `subscribe_to_reload_signals`)

A swap publishes one message when its own reload has succeeded. Redis keeps it for the listeners that are subscribed
then; a listener takes its messages one after the other and loads the active directory for each, and its thread ends
when `listen` raises. Nothing else loads after the start of a worker, so a message is all that tells it of a swap.

`holdsActive_of_delivers` is what the protocol gives: while no signal is lost, a worker with nothing left to do has the
index and the ID map of the active directory. The invariant says for each load under way that it brings what the
directory holds, unless another message is still to come (`SignalInv`).
-/

set_option autoImplicit false

namespace ComplianceLoop

open PyLib Transition IndexDir

/-- The load has returned or raised. -/
def LoadOp.isEnded {V : Type} : LoadOp V → Bool
  | .ended => true
  | _ => false

/-- The two processes, and the listener of the worker: whether it is subscribed, how many messages wait for it, and
which load it has begun last. -/
structure ListenerState (V : Type) where
  processes : ReloadState V
  subscribed : Bool
  waiting : Nat
  listening : Option Nat

/-- What happens next. -/
inductive SignalLabel where
  /-- A step of the two processes; a step that publishes does so unless Redis cannot be reached. -/
  | step (l : ReloadLabel) (reached : Bool)
  | subscribe
  | receive
  /-- `listen` raises, and the thread ends. -/
  | disconnect

/-- The step is `_publish_reload_signal`. -/
def SwapState.publishes {V : Type} (s : SwapState V) : ReloadLabel → Bool
  | .disk .next =>
    match s.op with
    | some .publish => true
    | _ => false
  | _ => false

namespace ListenerState

variable {V S : Type}

/-- No load is under way. -/
def idle (s : ListenerState V) : Bool := s.processes.loads.all LoadOp.isEnded

/-- The listener has ended the load of its last message. -/
def listens (s : ListenerState V) : Bool :=
  match s.listening with
  | none => true
  | some i => (s.processes.loads[i]?.map LoadOp.isEnded).getD true

/-- What happens next, if it can. -/
def step (retriever : FAISSRetriever V S) (baseDir : Text) (s : ListenerState V) :
    SignalLabel → Option (ListenerState V)
  | .step l reached =>
    (s.processes.step retriever baseDir l).map fun processes =>
      { s with
        processes := processes
        waiting := if s.processes.disk.publishes l && reached && s.subscribed then s.waiting + 1 else s.waiting }
  | .subscribe => if s.subscribed then none else some { s with subscribed := true }
  | .receive =>
    if s.waiting = 0 || !s.listens then none
    else
      some
        { s with
          processes := { s.processes with loads := s.processes.loads ++ [.findIndex] }
          waiting := s.waiting - 1
          listening := some s.processes.loads.length }
  | .disconnect => if s.subscribed then some { s with subscribed := false, waiting := 0 } else none

/-- The swap has activated its directory and has not ended yet. -/
def announces (s : ListenerState V) : Bool :=
  match s.processes.disk.op with
  | some .reload | some .publish => true
  | _ => false

/-- The index and the ID map in memory are those of the active directory. -/
def HoldsActive (s : ReloadState V) : Prop :=
  ∀ index ∈ indexIn s.disk.active, ∀ raw ∈ idMapIn s.disk.active,
    s.index = some index ∧ ∃ idMap, readIdMap raw.content = .ok idMap ∧ s.idMap = some ⟨raw.build, idMap⟩

/-- No swap, no message and no load is on its way. -/
def AtRest (s : ListenerState V) : Prop := s.announces = false ∧ s.waiting = 0 ∧ s.idle = true

/-- A swap that has activated its directory loads it, goes on, and its signal reaches a listener. -/
def completes (baseDir : Text) (s : ListenerState V) (reached : Bool) : SwapLabel → Bool
  | .next =>
    match s.processes.disk.op with
    | some .reload =>
      returned (s.processes.disk.manager.load (baseDir ++ "/index_active".toList)
        (contents s.processes.disk.active)).1
    | some .publish => reached && s.subscribed
    | _ => true
  | .fail _ | .kill => !s.announces
  | _ => true

/-- No signal is lost: a swap that has activated its directory completes, the listener stays while messages wait, and a
load begins when no other one is under way. -/
def Delivers (baseDir : Text) (s : ListenerState V) : SignalLabel → Prop
  | .step (.disk l) reached => s.completes baseDir reached l = true
  | .step .callLoad _ | .receive => s.idle = true
  | .disconnect => s.waiting = 0
  | .step (.load _) _ | .step .callQuery _ | .step (.query _) _ | .subscribe => True

instance (baseDir : Text) (s : ListenerState V) : (l : SignalLabel) → Decidable (s.Delivers baseDir l)
  | .step (.disk l) reached => inferInstanceAs (Decidable (s.completes baseDir reached l = true))
  | .step .callLoad _ | .receive => inferInstanceAs (Decidable (s.idle = true))
  | .disconnect => inferInstanceAs (Decidable (s.waiting = 0))
  | .step (.load _) _ | .step .callQuery _ | .step (.query _) _ | .subscribe => inferInstanceAs (Decidable True)

end ListenerState

open ListenerState

/-- The processes and the listener as a system. -/
def signalSystem {V S : Type} (retriever : FAISSRetriever V S) (baseDir : Text) :
    System (ListenerState V) SignalLabel := ⟨ListenerState.step retriever baseDir⟩

section

variable {V S : Type} {retriever : FAISSRetriever V S} {baseDir : Text} {s s' : ListenerState V}

/-! ## The invariant -/

/-- A load of the directory would succeed, or there is no directory. -/
def Loadable (d : Option (IndexDir V)) : Prop :=
  d = none ∨ ∃ index raw idMap, indexIn d = some index ∧ idMapIn d = some raw ∧ readIdMap raw.content = .ok idMap

/-- What a load under way brings, if it goes on. -/
def Brings (s : ReloadState V) : LoadOp V → Prop
  | .findIndex | .findIdMap | .readIndex => True
  | .readIdMap f _ => ∀ index ∈ indexIn s.disk.active, f = index
  | .assignIndex f g => ∀ index ∈ indexIn s.disk.active, ∀ raw ∈ idMapIn s.disk.active,
      f = index ∧ ∃ idMap, readIdMap raw.content = .ok idMap ∧ g = ⟨raw.build, idMap⟩
  | .assignIdMap g _ => ∀ index ∈ indexIn s.disk.active, ∀ raw ∈ idMapIn s.disk.active,
      s.index = some index ∧ ∃ idMap, readIdMap raw.content = .ok idMap ∧ g = ⟨raw.build, idMap⟩
  | .assignLoadedFrom => HoldsActive s
  | .ended => True

/-- The loads that are under way bring what the active directory holds; if none is, it is in memory. -/
def Served (s : ReloadState V) : Prop :=
  (∀ op ∈ s.loads, Brings s op) ∧ (s.loads.all LoadOp.isEnded = true → HoldsActive s)

/-- The invariant: at most one load is under way, the active directory can be loaded once the swap has loaded it, and
unless a swap or a message is on its way, the worker is served. -/
structure SignalInv (s : ListenerState V) : Prop where
  alone : ∀ (i j : Nat) (op op' : LoadOp V), s.processes.loads[i]? = some op → s.processes.loads[j]? = some op' →
    op.isEnded = false → op'.isEnded = false → i = j
  loadable : s.processes.disk.op = some .reload ∨ Loadable s.processes.disk.active
  served : s.announces = true ∨ 0 < s.waiting ∨ Served s.processes

theorem all_isEnded_iff {loads : List (LoadOp V)} :
    loads.all LoadOp.isEnded = true ↔ ∀ (i : Nat) (op : LoadOp V), loads[i]? = some op → op.isEnded = true := by
  rw [List.all_eq_true]
  constructor
  · exact fun h i op hop => h op (List.mem_of_getElem? hop)
  · intro h op hmem
    obtain ⟨i, hi⟩ := List.mem_iff_getElem?.mp hmem
    exact h i op hi

theorem announces_eq_true_iff :
    s.announces = true ↔ s.processes.disk.op = some .reload ∨ s.processes.disk.op = some .publish := by
  unfold ListenerState.announces
  split <;> simp_all

/-! ## The swap -/

/-- What is read of the active directory stays the same while it does, and nothing is said of one that is missing. -/
theorem Brings.mono {p p' : ReloadState V} {op : LoadOp V} (h : Brings p op)
    (hactive : p'.disk.active = p.disk.active ∨ p'.disk.active = none) (hindex : p'.index = p.index)
    (hidMap : p'.idMap = p.idMap) : Brings p' op := by
  have hfiles : ∀ {P : BuiltFile (List V) → BuiltFile IdMapFile → Prop},
      (∀ index ∈ indexIn p.disk.active, ∀ raw ∈ idMapIn p.disk.active, P index raw) →
        ∀ index ∈ indexIn p'.disk.active, ∀ raw ∈ idMapIn p'.disk.active, P index raw := by
    intro P hall index hi raw hr
    rcases hactive with heq | hnone
    · exact hall index (heq ▸ hi) raw (heq ▸ hr)
    · rw [hnone] at hi
      cases hi
  cases op with
  | readIdMap f activations =>
    intro index hi
    rcases hactive with heq | hnone
    · exact h index (heq ▸ hi)
    · rw [hnone] at hi
      cases hi
  | assignIndex f g => exact hfiles h
  | assignIdMap g before =>
    unfold Brings
    rw [hindex]
    exact hfiles h
  | assignLoadedFrom =>
    unfold Brings ListenerState.HoldsActive
    rw [hindex, hidMap]
    exact hfiles h
  | findIndex | findIdMap | readIndex | ended => trivial

theorem Served.mono {p p' : ReloadState V} (h : Served p)
    (hactive : p'.disk.active = p.disk.active ∨ p'.disk.active = none) (hindex : p'.index = p.index)
    (hidMap : p'.idMap = p.idMap) (hloads : p'.loads = p.loads) : Served p' := by
  refine ⟨fun op hmem => (h.1 op (hloads ▸ hmem)).mono hactive hindex hidMap, fun hended => ?_⟩
  have hfresh : Brings p .assignLoadedFrom := h.2 (hloads ▸ hended)
  exact hfresh.mono hactive hindex hidMap

/-- Before it has activated its directory, a swap leaves the active one as it is, moves it away or activates its own. -/
theorem active_of_step {t t' : SwapState V} {l : SwapLabel} (h : t.step retriever baseDir l = some t') :
    t'.active = t.active ∨ t'.active = none ∨ t'.op = some .reload := by
  have hs : (swapSystem retriever baseDir).step t l = some t' := h
  rcases swapStep_active hs with hsame | hnone | ⟨hactivates, -⟩
  · exact .inl hsame
  · exact .inr (.inl hnone)
  · cases l with
    | next =>
      obtain ⟨op, hop, hperform⟩ := Option.bind_eq_some_iff.mp h
      cases op with
      | renameStaging =>
        cases SwapState.performed hperform with
        | ended _ => exact .inl rfl
        | renameStaging hd => exact .inr (.inr rfl)
      | _ => simp [SwapState.activates, hop] at hactivates
    | _ => cases hactivates

/-- A swap that has activated its directory and completes goes on to the signal, or sends it. -/
theorem SignalInv.announcing {l : SwapLabel} {reached : Bool} {disk : SwapState V} (h : SignalInv s)
    (hann : s.announces = true) (hg : s.completes baseDir reached l = true)
    (hs : s.processes.disk.step retriever baseDir l = some disk) :
    disk.active = s.processes.disk.active ∧ Loadable disk.active ∧
      (disk.op = some .publish ∨ (s.processes.disk.publishes (.disk l) && reached && s.subscribed) = true) := by
  have hnext : l = .next := by
    cases l with
    | next => rfl
    | fail e => simp [ListenerState.completes, hann] at hg
    | kill => simp [ListenerState.completes, hann] at hg
    | _ =>
      rcases announces_eq_true_iff.mp hann with hop | hop <;> simp [SwapState.step, SwapState.unlink, hop] at hs
  subst hnext
  rcases announces_eq_true_iff.mp hann with hop | hop
  · simp only [ListenerState.completes, hop] at hg
    simp only [SwapState.step, hop, Option.bind_some, SwapState.perform] at hs
    split at hs
    · rename_i e m hload
      rw [hload] at hg
      cases hg
    · rename_i m hload
      cases hs
      obtain ⟨index, raw, idMap, hfiles, hread, -⟩ := load_eq_ok hload
      obtain ⟨f, g, hf, hg', rfl, rfl⟩ := files_of_contents hfiles
      exact ⟨rfl, .inr ⟨f, g, idMap, hf, hg', hread⟩, .inl rfl⟩
  · have hloadable : Loadable s.processes.disk.active := by
      refine h.loadable.resolve_left ?_
      rw [hop]
      simp
    simp only [ListenerState.completes, hop] at hg
    simp only [SwapState.step, hop, Option.bind_some, SwapState.perform] at hs
    cases hs
    refine ⟨rfl, hloadable, .inr ?_⟩
    simpa [SwapState.publishes, hop] using hg

/-- A step of the swapping process keeps the invariant. -/
theorem SignalInv.disk {l : SwapLabel} {reached : Bool} (h : SignalInv s)
    (hg : s.completes baseDir reached l = true) (hs : s.step retriever baseDir (.step (.disk l) reached) = some s') :
    SignalInv s' := by
  obtain ⟨p, hp, rfl⟩ := Option.map_eq_some_iff.mp hs
  obtain ⟨disk, hdisk, rfl⟩ := Option.map_eq_some_iff.mp hp
  cases hann : s.announces with
  | true =>
    obtain ⟨hactive, hloadable, hsent⟩ := h.announcing hann hg hdisk
    refine ⟨h.alone, .inr hloadable, ?_⟩
    rcases hsent with hop | hsent
    · exact .inl (announces_eq_true_iff.mpr (.inr hop))
    · refine .inr (.inl ?_)
      dsimp only
      rw [if_pos hsent]
      omega
  | false =>
    have hop := announces_eq_true_iff.not.mp (Bool.eq_false_iff.mp hann)
    have hloadable := h.loadable.resolve_left (not_or.mp hop).1
    have hserved := h.served.resolve_left (Bool.eq_false_iff.mp hann)
    rcases or_assoc.mpr (active_of_step hdisk) with hactive | hreloads
    · refine ⟨h.alone, .inr ?_, .inr ?_⟩
      · rcases hactive with hsame | hnone
        · exact hsame ▸ hloadable
        · exact .inl hnone
      · rcases hserved with hwaiting | hserved
        · left
          dsimp only
          split <;> omega
        · exact .inr (hserved.mono hactive rfl rfl rfl)
    · exact ⟨h.alone, .inl hreloads, .inl (announces_eq_true_iff.mpr (.inl hreloads))⟩

/-! ## The loads -/

/-- The step of a load under way, with what it brings. -/
theorem Brings.perform {p p' : ReloadState V} {op op' : LoadOp V} (h : Brings p op) (hended : op.isEnded = false)
    (hloadable : Loadable p.disk.active) (hstep : p.performLoad baseDir op = (p', op')) :
    Brings p' op' ∧ (op'.isEnded = true → HoldsActive p') := by
  cases op with
  | findIndex =>
    cases hstep
    cases hindex : indexIn p.disk.active with
    | none => exact ⟨trivial, fun _ index hi => by cases hindex.symm.trans hi⟩
    | some f => exact ⟨trivial, fun he => by cases he⟩
  | findIdMap =>
    cases hstep
    cases hidMap : idMapIn p.disk.active with
    | none => exact ⟨trivial, fun _ index _ raw hr => by cases hidMap.symm.trans hr⟩
    | some g => exact ⟨trivial, fun he => by cases he⟩
  | readIndex =>
    unfold ReloadState.performLoad at hstep
    cases hindex : indexIn p.disk.active with
    | none =>
      rw [hindex] at hstep
      cases hstep
      exact ⟨trivial, fun _ index hi => by cases hindex.symm.trans hi⟩
    | some f =>
      rw [hindex] at hstep
      cases hstep
      exact ⟨fun index hi => Option.some.inj (hindex.symm.trans hi), fun he => by cases he⟩
  | readIdMap f activations =>
    unfold ReloadState.performLoad at hstep
    cases hidMap : idMapIn p.disk.active with
    | none =>
      rw [hidMap] at hstep
      cases hstep
      exact ⟨trivial, fun _ index _ raw hr => by cases hidMap.symm.trans hr⟩
    | some raw =>
      rcases hloadable with hnone | ⟨index, raw', idMap, -, hraw, hread⟩
      · rw [hnone] at hidMap
        cases hidMap
      · obtain rfl := Option.some.inj (hidMap.symm.trans hraw)
        rw [hidMap] at hstep
        simp only [hread] at hstep
        cases hstep
        refine ⟨fun index hi raw' hr => ⟨h index hi, ?_⟩, fun he => by cases he⟩
        obtain rfl := Option.some.inj (hidMap.symm.trans hr)
        exact ⟨idMap, hread, rfl⟩
  | assignIndex f g =>
    cases hstep
    exact ⟨fun index hi raw hr => ⟨congrArg some (h index hi raw hr).1, (h index hi raw hr).2⟩, fun he => by cases he⟩
  | assignIdMap g before =>
    cases hstep
    refine ⟨fun index hi raw hr => ?_, fun he => by cases he⟩
    obtain ⟨hindex, idMap, hread, hg⟩ := h index hi raw hr
    exact ⟨hindex, idMap, hread, congrArg some hg⟩
  | assignLoadedFrom =>
    cases hstep
    exact ⟨trivial, fun _ => h⟩
  | ended => cases hended

/-- A load does nothing to the directories. -/
theorem disk_performLoad (baseDir : Text) (p : ReloadState V) (op : LoadOp V) :
    (p.performLoad baseDir op).1.disk = p.disk := by
  cases op <;> unfold ReloadState.performLoad <;> dsimp only <;> repeat' split
  all_goals rfl

/-- A step of a load keeps the invariant. -/
theorem SignalInv.load {i : Nat} {reached : Bool} (h : SignalInv s)
    (hs : s.step retriever baseDir (.step (.load i) reached) = some s') : SignalInv s' := by
  obtain ⟨p, hp, rfl⟩ := Option.map_eq_some_iff.mp hs
  obtain ⟨op, hop, rfl⟩ := Option.map_eq_some_iff.mp hp
  obtain ⟨p, op', hstep⟩ : ∃ p op', s.processes.performLoad baseDir op = (p, op') := ⟨_, _, rfl⟩
  have hdisk : p.disk = s.processes.disk := by
    rw [← disk_performLoad baseDir s.processes op, hstep]
  have hi : i < s.processes.loads.length := (List.getElem?_eq_some_iff.mp hop).1
  rw [hstep]
  simp only [SwapState.publishes, Bool.false_and, if_neg Bool.false_ne_true]
  cases hended : op.isEnded with
  | true =>
    -- it has ended before, and nothing happens
    obtain rfl : op = .ended := by cases op <;> first | rfl | cases hended
    cases hstep
    have hsame : s.processes.loads.set i .ended = s.processes.loads := by
      rw [← (List.getElem?_eq_some_iff.mp hop).2, List.set_getElem_self hi]
    rw [hsame]
    exact h
  | false =>
    have hothers : ∀ j op₂, j ≠ i → (s.processes.loads.set i op')[j]? = some op₂ → op₂.isEnded = true := by
      intro j op₂ hne hget
      rw [List.getElem?_set_ne hne.symm] at hget
      by_contra hactive
      exact hne (h.alone j i op₂ op hget hop (Bool.not_eq_true _ ▸ hactive) hended)
    refine ⟨fun j k op₁ op₂ hj hk hj' hk' => ?_, ?_, ?_⟩
    · have hji : j = i := by
        by_contra hne
        exact Bool.false_ne_true (hj'.symm.trans (hothers j op₁ hne hj))
      have hki : k = i := by
        by_contra hne
        exact Bool.false_ne_true (hk'.symm.trans (hothers k op₂ hne hk))
      rw [hji, hki]
    · show p.disk.op = _ ∨ Loadable p.disk.active
      rw [hdisk]
      exact h.loadable
    · cases hann : s.announces with
      | true =>
        rw [announces_eq_true_iff] at hann
        refine .inl (announces_eq_true_iff.mpr ?_)
        show p.disk.op = _ ∨ p.disk.op = _
        rwa [hdisk]
      | false =>
        refine .inr ?_
        rcases h.served.resolve_left (Bool.eq_false_iff.mp hann) with hwaiting | ⟨hbrings, -⟩
        · exact .inl hwaiting
        · right
          have hreload : s.processes.disk.op ≠ some .reload := fun hr =>
            Bool.false_ne_true (hann.symm.trans (announces_eq_true_iff.mpr (.inl hr)))
          obtain ⟨hnext, hfresh⟩ := (hbrings op (List.mem_of_getElem? hop)).perform hended
            (h.loadable.resolve_left hreload) hstep
          refine ⟨fun op₂ hmem => ?_, fun hall => ?_⟩
          · obtain ⟨j, hj⟩ := List.mem_iff_getElem?.mp hmem
            by_cases hji : j = i
            · obtain rfl := hji
              rw [List.getElem?_set_self hi] at hj
              obtain rfl := Option.some.inj hj
              exact hnext.mono (.inl rfl) rfl rfl
            · have hended₂ := hothers j op₂ hji hj
              cases op₂ <;> trivial
          · exact hfresh (all_isEnded_iff.mp hall i op' (List.getElem?_set_self hi))

/-- A load that begins when no other one is under way keeps the invariant, and serves the worker. -/
theorem SignalInv.begin (h : SignalInv s) (hidle : s.idle = true) (waiting : Nat) (listening : Option Nat) :
    SignalInv
      { s with
        processes := { s.processes with loads := s.processes.loads ++ [.findIndex] }
        waiting := waiting
        listening := listening } := by
  have hended := all_isEnded_iff.mp hidle
  have hlast : ∀ j op, (s.processes.loads ++ [LoadOp.findIndex])[j]? = some op → op.isEnded = false →
      j = s.processes.loads.length := by
    intro j op hj hop
    by_contra hne
    have hlt : j < s.processes.loads.length := by
      have := (List.getElem?_eq_some_iff.mp hj).1
      simp only [List.length_append, List.length_singleton] at this
      omega
    rw [List.getElem?_append_left hlt] at hj
    exact Bool.false_ne_true (hop.symm.trans (hended j op hj))
  refine ⟨fun j k op op' hj hk hj' hk' => (hlast j op hj hj').trans (hlast k op' hk hk').symm, h.loadable,
    .inr (.inr ⟨fun op hmem => ?_, fun hall => ?_⟩)⟩
  · rcases List.mem_append.mp hmem with hmem | hmem
    · have hop := List.all_eq_true.mp hidle op hmem
      cases op <;> trivial
    · obtain rfl := List.mem_singleton.mp hmem
      trivial
  · simp [LoadOp.isEnded] at hall

/-! ## The protocol -/

/-- **Every step that loses no signal keeps the invariant.** -/
theorem signalInv_step {l : SignalLabel} (h : SignalInv s) (hg : s.Delivers baseDir l)
    (hs : (signalSystem retriever baseDir).step s l = some s') : SignalInv s' := by
  have hs : s.step retriever baseDir l = some s' := hs
  cases l with
  | step l reached =>
    cases l with
    | disk l => exact h.disk hg hs
    | callLoad =>
      cases hs
      exact h.begin hg _ s.listening
    | load i => exact h.load hs
    | callQuery =>
      cases hs
      exact ⟨h.alone, h.loadable, h.served⟩
    | query i =>
      obtain ⟨p, hp, rfl⟩ := Option.map_eq_some_iff.mp hs
      obtain ⟨op, -, rfl⟩ := Option.map_eq_some_iff.mp hp
      exact ⟨h.alone, h.loadable, h.served⟩
  | subscribe =>
    unfold ListenerState.step at hs
    dsimp only at hs
    split at hs
    · cases hs
    · cases hs
      exact ⟨h.alone, h.loadable, h.served⟩
  | receive =>
    unfold ListenerState.step at hs
    dsimp only at hs
    split at hs
    · cases hs
    · cases hs
      exact h.begin hg _ _
  | disconnect =>
    unfold ListenerState.step at hs
    dsimp only at hs
    split at hs
    · cases hs
      refine ⟨h.alone, h.loadable, ?_⟩
      rcases h.served with hann | hwaiting | hserved
      · exact .inl hann
      · have hnone : s.waiting = 0 := hg
        omega
      · exact .inr (.inr hserved)
    · cases hs

theorem SignalInv.holdsActive (h : SignalInv s) (hrest : s.AtRest) : HoldsActive s.processes := by
  obtain ⟨hann, hwaiting, hidle⟩ := hrest
  rcases h.served with hann' | hwaiting' | ⟨-, hfresh⟩
  · exact absurd hann' (Bool.eq_false_iff.mp hann)
  · omega
  · exact hfresh hidle

/-- A worker that has just called `load`, with an active directory that can be loaded. -/
structure Starting (s : ListenerState V) : Prop where
  loads : s.processes.loads = [.findIndex]
  loadable : Loadable s.processes.disk.active

theorem Starting.signalInv (h : Starting s) : SignalInv s where
  alone i j op op' hi hj _ _ := by
    rw [h.loads] at hi hj
    have hi := (List.getElem?_eq_some_iff.mp hi).1
    have hj := (List.getElem?_eq_some_iff.mp hj).1
    simp only [List.length_singleton] at hi hj
    omega
  loadable := .inr h.loadable
  served := by
    refine .inr (.inr ⟨fun op hmem => ?_, fun hall => ?_⟩)
    · rw [h.loads] at hmem
      obtain rfl := List.mem_singleton.mp hmem
      trivial
    · rw [h.loads] at hall
      cases hall

/-- A step that is neither a call of `load` nor a new subscription leaves a worker that nobody tells as it is. -/
theorem memory_of_deaf_step {l : SignalLabel} (h : s.subscribed = false ∧ s.waiting = 0 ∧ s.idle = true)
    (hl : l ≠ .subscribe ∧ ∀ reached, l ≠ .step .callLoad reached)
    (hs : (signalSystem retriever baseDir).step s l = some s') :
    (s'.subscribed = false ∧ s'.waiting = 0 ∧ s'.idle = true) ∧ s'.processes.index = s.processes.index ∧
      s'.processes.idMap = s.processes.idMap := by
  obtain ⟨hsubscribed, hwaiting, hidle⟩ := h
  have hs : s.step retriever baseDir l = some s' := hs
  cases l with
  | step l reached =>
    obtain ⟨p, hp, rfl⟩ := Option.map_eq_some_iff.mp hs
    rw [hsubscribed, Bool.and_false, if_neg Bool.false_ne_true]
    cases l with
    | disk l =>
      obtain ⟨disk, -, rfl⟩ := Option.map_eq_some_iff.mp hp
      exact ⟨⟨rfl, hwaiting, hidle⟩, rfl, rfl⟩
    | callLoad => exact absurd rfl (hl.2 reached)
    | load i =>
      obtain ⟨op, hop, rfl⟩ := Option.map_eq_some_iff.mp hp
      have hended := all_isEnded_iff.mp hidle i op hop
      obtain rfl : op = .ended := by cases op <;> first | rfl | cases hended
      refine ⟨⟨rfl, hwaiting, ?_⟩, rfl, rfl⟩
      refine List.all_eq_true.mpr fun op' hmem => ?_
      rcases List.mem_or_eq_of_mem_set hmem with hmem | rfl
      · exact List.all_eq_true.mp hidle op' hmem
      · rfl
    | callQuery =>
      cases hp
      exact ⟨⟨rfl, hwaiting, hidle⟩, rfl, rfl⟩
    | query i =>
      obtain ⟨op, -, rfl⟩ := Option.map_eq_some_iff.mp hp
      exact ⟨⟨rfl, hwaiting, hidle⟩, rfl, rfl⟩
  | subscribe => exact absurd rfl hl.1
  | receive => simp [ListenerState.step, hwaiting] at hs
  | disconnect => simp [ListenerState.step, hsubscribed] at hs

/-- **A worker whose listener has ended keeps the index that it has**, whatever is swapped and asked. -/
theorem memory_of_deaf {ls : List SignalLabel} {t : ListenerState V} (hsubscribed : s.subscribed = false)
    (hwaiting : s.waiting = 0) (hidle : s.idle = true)
    (hls : ∀ l ∈ ls, l ≠ .subscribe ∧ ∀ reached, l ≠ .step .callLoad reached)
    (hrun : (signalSystem retriever baseDir).run s ls = some t) :
    t.processes.index = s.processes.index ∧ t.processes.idMap = s.processes.idMap := by
  let I : ListenerState V → Prop := fun r =>
    (r.subscribed = false ∧ r.waiting = 0 ∧ r.idle = true) ∧ r.processes.index = s.processes.index ∧
      r.processes.idMap = s.processes.idMap
  have hstart : I s := ⟨⟨hsubscribed, hwaiting, hidle⟩, rfl, rfl⟩
  refine ((System.always_of_each (I := I) ?_ id hstart (System.each_of_forall hls)).last hrun).2
  rintro r l r' ⟨hdeaf, hindex, hidMap⟩ hl hstep
  obtain ⟨hdeaf', hindex', hidMap'⟩ := memory_of_deaf_step hdeaf hl hstep
  exact ⟨hdeaf', hindex'.trans hindex, hidMap'.trans hidMap⟩

/-- **While no signal is lost, a worker with nothing left to do has the active index**: in every run of builds, swaps,
loads, queries, messages and broken connections from the first load of a worker on, whenever no swap, no message and no
load is on its way, the index and the ID map in memory are those of the active directory. -/
theorem holdsActive_of_delivers (retriever : FAISSRetriever V S) (baseDir : Text) (hs : Starting s)
    (ls : List SignalLabel) (h : (signalSystem retriever baseDir).Each (ListenerState.Delivers baseDir) s ls) :
    (signalSystem retriever baseDir).Always (fun t => t.AtRest → HoldsActive t.processes) s ls :=
  System.always_of_each signalInv_step SignalInv.holdsActive hs.signalInv h

end

namespace SignalSample

/-- A worker that is subscribed and loads an index without vectors. -/
def worker : ListenerState Unit where
  processes :=
    { ReloadState.start Unit with
      disk := { SwapState.start Unit with active := some ⟨some ⟨0, []⟩, some ⟨0, []⟩⟩, builds := 1 }
      loads := [.findIndex] }
  subscribed := true
  waiting := 0
  listening := none

/-- It ends its load, the other process builds and swaps, and the worker takes the message and loads again. -/
def run : List SignalLabel :=
  List.replicate 7 (.step (.load 0) true) ++ ReloadSample.buildAndSwap.map (fun l => .step l true) ++
    .receive :: List.replicate 7 (.step (.load 1) true)

end SignalSample

theorem holdsActive_of_delivers_swap :
    (signalSystem RetrievalSample.retriever []).Always (fun t => t.AtRest → HoldsActive t.processes) SignalSample.worker
      SignalSample.run :=
  holdsActive_of_delivers RetrievalSample.retriever [] ⟨rfl, .inr ⟨⟨0, []⟩, ⟨0, []⟩, [], rfl, rfl, rfl⟩⟩ _
    (by decide)

end ComplianceLoop
