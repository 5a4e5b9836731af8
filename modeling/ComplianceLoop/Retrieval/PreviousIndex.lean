import ComplianceLoop.Retrieval.SafeSwap

/-!
# The previous index during a swap

The directory that was active is first renamed to the backup, when the old backup is gone, and only then replaced. So it
exists as `index_active` or as `index_backup` wherever a call of `safe_swap` stops: after an exception or a kill, and
half way through the removal of the old backup (`previous_kept`).
-/

set_option autoImplicit false

namespace ComplianceLoop

open PyLib Transition

/-- The label is the start of another call. -/
def SwapLabel.isCall : SwapLabel → Bool
  | .callBuild _ | .callSafeSwap _ _ => true
  | _ => false

/-- Where the directory is that was active at the start of the swap, by the next operation. -/
def PreviousAt {V : Type} (d : IndexDir V) (t : SwapState V) : Prop :=
  match t.op with
  | some (.findStaging _ _) | some (.healthCheck _) | some .rmtreeBackup | some .renameActive => t.active = some d
  | some .renameStaging => t.backup = some d
  | some .reload | some .publish | none => t.active = some d ∨ t.backup = some d
  | some (.mkdir _ _) | some (.embed _ _) | some (.writeIndex _ _) | some (.writeIdMap _ _)
  | some (.buildReturn _ _) => False

section

variable {V S : Type} {retriever : FAISSRetriever V S} {baseDir : Text} {s t : SwapState V} {d : IndexDir V}

theorem PreviousAt.active_or_backup (h : PreviousAt d t) : t.active = some d ∨ t.backup = some d := by
  unfold PreviousAt at h
  split at h
  · exact .inl h
  · exact .inl h
  · exact .inl h
  · exact .inl h
  · exact .inr h
  · exact h
  · exact h
  · exact h
  all_goals exact h.elim

/-- A call that ends leaves the directories as they are. -/
theorem PreviousAt.ended (h : PreviousAt d s) (hop : t.op = none) (ha : t.active = s.active)
    (hb : t.backup = s.backup) : PreviousAt d t := by
  have hkept := h.active_or_backup
  unfold PreviousAt
  rw [hop, ha, hb]
  exact hkept

/-- An operation of the swap. -/
theorem PreviousAt.perform {op : IndexOp V} (h : PreviousAt d s) (hop : s.op = some op)
    (hs : s.perform retriever baseDir op = some t) : PreviousAt d t := by
  have hat := h
  unfold PreviousAt at hat
  rw [hop] at hat
  cases SwapState.performed hs with
  | ended => exact h.ended rfl rfl rfl
  | mkdir => exact hat.elim
  | embed => exact hat.elim
  | writeIndex => exact hat.elim
  | writeIdMap => exact hat.elim
  | buildReturn => exact hat.elim
  | findStaging => exact hat
  | skipHealthCheck => exact hat
  | healthCheck => exact hat
  | noBackup => exact hat
  | rmdirBackup => exact hat
  | noActive hnone =>
    rw [hnone] at hat
    cases hat
  | renameActive hsome =>
    rw [hsome] at hat
    exact hat
  | renameStaging => exact .inr hat
  | reload => exact hat
  | publish => exact hat

/-- Every step of the call. -/
theorem PreviousAt.step {l : SwapLabel} (h : PreviousAt d s) (hl : l.isCall = false)
    (hs : (swapSystem retriever baseDir).step s l = some t) : PreviousAt d t := by
  have hunlink : ∀ {f : IndexDir V → IndexDir V}, s.unlink f = some t → PreviousAt d t := by
    intro f hu
    unfold SwapState.unlink at hu
    split at hu
    · rename_i hop hbackup
      obtain rfl := Option.some.inj hu
      unfold PreviousAt at h ⊢
      rw [hop] at h
      simp only [hop]
      exact h
    · cases hu
  cases l with
  | callBuild chunks => cases hl
  | callSafeSwap skipHealthCheck testSet => cases hl
  | unlinkIndex => exact hunlink hs
  | unlinkIdMap => exact hunlink hs
  | next =>
    obtain ⟨op, hop, hperform⟩ := Option.bind_eq_some_iff.mp hs
    exact h.perform hop hperform
  | fail e =>
    simp only [swapSystem, SwapState.step] at hs
    split at hs
    · cases hs
    · cases hs
    · obtain rfl := Option.some.inj hs
      exact h.ended rfl rfl rfl
  | kill =>
    obtain ⟨op, -, rfl⟩ := Option.map_eq_some_iff.mp hs
    exact h.ended rfl rfl rfl

end

/-- **From any directories with an active index, the directory that was active is `index_active` or `index_backup` in
every state of a call of `safe_swap`**, wherever it stops. -/
theorem previous_kept {V S : Type} (retriever : FAISSRetriever V S) (baseDir : Text) {s : SwapState V} {d : IndexDir V}
    (ha : s.active = some d) (skipHealthCheck : Bool) (testSet : Option (List GoldenItem)) {ls : List SwapLabel}
    (hls : ∀ l ∈ ls, l.isCall = false) :
    (swapSystem retriever baseDir).Always (fun t => t.active = some d ∨ t.backup = some d) s
      (.callSafeSwap skipHealthCheck testSet :: ls) := by
  refine ⟨.inl ha, fun t ht => ?_⟩
  have hstart : PreviousAt d t := by
    simp only [swapSystem, SwapState.step] at ht
    split at ht
    · cases ht
    · exact Option.some.inj ht ▸ ha
  exact System.always_of_each (fun h hc hs => h.step hc hs) PreviousAt.active_or_backup hstart
    (System.each_of_forall hls)

namespace RetrievalSample

/-- Three directories with both files. -/
def threeDirs : SwapState Unit :=
  { SwapState.start Unit with
    staging := some ⟨some ⟨2, []⟩, some ⟨2, []⟩⟩
    active := some ⟨some ⟨1, []⟩, some ⟨1, []⟩⟩
    backup := some ⟨some ⟨0, []⟩, some ⟨0, []⟩⟩ }

end RetrievalSample

/-- A kill half way through the removal of the old backup. -/
theorem previous_kept_killed :
    (swapSystem RetrievalSample.retriever []).Always
      (fun t => t.active = RetrievalSample.threeDirs.active ∨ t.backup = RetrievalSample.threeDirs.active)
      RetrievalSample.threeDirs [.callSafeSwap true none, .next, .unlinkIndex, .kill] :=
  previous_kept RetrievalSample.retriever [] rfl true none (by decide)

end ComplianceLoop
