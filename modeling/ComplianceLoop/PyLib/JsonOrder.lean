import Mathlib.Data.List.Sort
import Mathlib.Data.List.Lex
import ComplianceLoop.PyLib.JsonParse

/-!
# Dicts of members and sorted documents

`buildDict` is `dict(pairs)`: a repeated key keeps its first place and its last value. `Json.canon` is the document that
`json.dumps(sort_keys=True)` writes for a value that `json.loads` made: at every object the members become a dict and
are sorted by key. `canon_eq_iff`: a document is its own canonical form exactly when it is `Sorted`, that is when at
every object the keys are strictly increasing.
-/

set_option autoImplicit false

namespace PyLib

/-! ## `dict(pairs)` -/

section BuildDict

variable {α β γ : Type} [DecidableEq α]

/-- `d[k] = v` on the items of a dict. -/
def setItem (k : α) (v : β) : List (α × β) → List (α × β)
  | [] => [(k, v)]
  | m :: ms => if m.1 = k then (k, v) :: ms else m :: setItem k v ms

/-- `dict(pairs)`. -/
def buildDict (ps : List (α × β)) : List (α × β) := ps.foldl (fun d p => setItem p.1 p.2 d) []

/-- `d.get(k)`. -/
def getItem (k : α) : List (α × β) → Option β
  | [] => none
  | m :: ms => if m.1 = k then some m.2 else getItem k ms

theorem mem_setItem {k : α} {v : β} {x : α × β} {ms : List (α × β)} (h : x ∈ setItem k v ms) : x = (k, v) ∨ x ∈ ms := by
  induction ms with
  | nil => exact .inl (List.mem_singleton.mp h)
  | cons m ms ih =>
    rw [setItem] at h
    split at h
    · exact (List.mem_cons.mp h).imp id (List.mem_cons_of_mem _)
    · rcases List.mem_cons.mp h with rfl | h
      · exact .inr List.mem_cons_self
      · exact (ih h).imp id (List.mem_cons_of_mem _)

theorem setItem_of_notMem {k : α} {v : β} {ms : List (α × β)} (h : k ∉ ms.map Prod.fst) :
    setItem k v ms = ms ++ [(k, v)] := by
  induction ms with
  | nil => rfl
  | cons m ms ih =>
    rw [List.map_cons, List.mem_cons, not_or] at h
    rw [setItem, if_neg fun he => h.1 he.symm, ih h.2, List.cons_append]

theorem nodup_setItem {k : α} {v : β} {ms : List (α × β)} (h : (ms.map Prod.fst).Nodup) :
    ((setItem k v ms).map Prod.fst).Nodup := by
  induction ms with
  | nil => simp [setItem]
  | cons m ms ih =>
    rw [List.map_cons, List.nodup_cons] at h
    rw [setItem]
    split
    · rename_i hk
      rw [List.map_cons, List.nodup_cons]
      exact ⟨hk ▸ h.1, h.2⟩
    · rename_i hk
      rw [List.map_cons, List.nodup_cons]
      refine ⟨fun hm => ?_, ih h.2⟩
      obtain ⟨x, hx, hxm⟩ := List.mem_map.mp hm
      rcases mem_setItem hx with rfl | hx
      · exact hk hxm.symm
      · exact h.1 (List.mem_map.mpr ⟨x, hx, hxm⟩)

theorem map_setItem (f : β → γ) (k : α) (v : β) (ms : List (α × β)) :
    (setItem k v ms).map (fun p => (p.1, f p.2)) = setItem k (f v) (ms.map fun p => (p.1, f p.2)) := by
  induction ms with
  | nil => rfl
  | cons m ms ih =>
    rw [setItem, List.map_cons, setItem]
    split
    · rfl
    · rw [List.map_cons, ih]

/-- The pairs of the dict are pairs it was built from. -/
theorem mem_buildDict {ps : List (α × β)} {x : α × β} (h : x ∈ buildDict ps) : x ∈ ps := by
  have hg : ∀ (ps d : List (α × β)), x ∈ ps.foldl (fun d p => setItem p.1 p.2 d) d → x ∈ d ∨ x ∈ ps := by
    intro ps
    induction ps with
    | nil => exact fun d h => .inl h
    | cons p ps ih =>
      intro d h
      rcases ih _ h with h | h
      · rcases mem_setItem h with rfl | h
        · exact .inr List.mem_cons_self
        · exact .inl h
      · exact .inr (List.mem_cons_of_mem _ h)
  exact (hg ps [] h).resolve_left List.not_mem_nil

theorem nodup_buildDict (ps : List (α × β)) : ((buildDict ps).map Prod.fst).Nodup := by
  have hg : ∀ (ps d : List (α × β)), (d.map Prod.fst).Nodup →
      ((ps.foldl (fun d p => setItem p.1 p.2 d) d).map Prod.fst).Nodup := by
    intro ps
    induction ps with
    | nil => exact fun d h => h
    | cons p ps ih => exact fun d h => ih _ (nodup_setItem h)
  exact hg ps [] List.nodup_nil

/-- Pairs with new and different keys are added at the end of a dict. -/
theorem foldl_setItem_of_nodup {ps d : List (α × β)} (h : ((d ++ ps).map Prod.fst).Nodup) :
    ps.foldl (fun d p => setItem p.1 p.2 d) d = d ++ ps := by
  induction ps generalizing d with
  | nil => exact (List.append_nil d).symm
  | cons p ps ih =>
    have hp : p.1 ∉ d.map Prod.fst := by
      rw [List.map_append, List.nodup_append] at h
      exact fun hm => h.2.2 _ hm _ (List.mem_map_of_mem List.mem_cons_self) rfl
    rw [List.foldl_cons, setItem_of_notMem hp, ih (by simpa using h), List.append_assoc, List.singleton_append]

/-- Pairs with different keys are a dict already. -/
theorem buildDict_of_nodup {ps : List (α × β)} (h : (ps.map Prod.fst).Nodup) : buildDict ps = ps :=
  foldl_setItem_of_nodup h

theorem map_buildDict (f : β → γ) (ps : List (α × β)) :
    (buildDict ps).map (fun p => (p.1, f p.2)) = buildDict (ps.map fun p => (p.1, f p.2)) := by
  have hg : ∀ (ps d : List (α × β)), (ps.foldl (fun d p => setItem p.1 p.2 d) d).map (fun p => (p.1, f p.2)) =
      (ps.map fun p => (p.1, f p.2)).foldl (fun d p => setItem p.1 p.2 d) (d.map fun p => (p.1, f p.2)) := by
    intro ps
    induction ps with
    | nil => exact fun d => rfl
    | cons p ps ih => intro d; rw [List.foldl_cons, ih, map_setItem]; rfl
  exact hg ps []

/-- A dict of some pairs is not empty. -/
theorem buildDict_ne_nil {ps : List (α × β)} (h : ps ≠ []) : buildDict ps ≠ [] := by
  have hs : ∀ (k : α) (v : β) (d : List (α × β)), setItem k v d ≠ [] := by
    intro k v d
    cases d with
    | nil => simp [setItem]
    | cons m d =>
      rw [setItem]
      split <;> simp
  have hg : ∀ (ps d : List (α × β)), d ≠ [] → ps.foldl (fun d p => setItem p.1 p.2 d) d ≠ [] := by
    intro ps
    induction ps with
    | nil => exact fun d h => h
    | cons p ps ih => exact fun d _ => ih _ (hs _ _ _)
  obtain ⟨p, ps, rfl⟩ := List.exists_cons_of_ne_nil h
  exact hg ps _ (hs _ _ _)

theorem getItem_mem {k : α} {v : β} {ms : List (α × β)} (h : getItem k ms = some v) : (k, v) ∈ ms := by
  induction ms with
  | nil => cases h
  | cons m ms ih =>
    rw [getItem] at h
    split at h
    · rename_i hk
      cases h
      exact hk ▸ List.mem_cons_self
    · exact List.mem_cons_of_mem _ (ih h)

/-- A pair of a dict is found by its key. -/
theorem getItem_of_mem {k : α} {v : β} {ms : List (α × β)} (hn : (ms.map Prod.fst).Nodup) (hm : (k, v) ∈ ms) :
    getItem k ms = some v := by
  induction ms with
  | nil => exact absurd hm List.not_mem_nil
  | cons m ms ih =>
    rw [List.map_cons, List.nodup_cons] at hn
    rw [getItem]
    rcases List.mem_cons.mp hm with rfl | hm
    · rw [if_pos rfl]
    · rw [if_neg, ih hn.2 hm]
      rintro rfl
      exact hn.1 (List.mem_map.mpr ⟨_, hm, rfl⟩)

theorem getItem_setItem (k : α) (v : β) (ms : List (α × β)) : getItem k (setItem k v ms) = some v := by
  induction ms with
  | nil => simp [setItem, getItem]
  | cons m ms ih =>
    rw [setItem]
    by_cases hk : m.1 = k
    · rw [if_pos hk, getItem, if_pos rfl]
    · rw [if_neg hk, getItem, if_neg hk, ih]

end BuildDict

/-! ## Sorted documents -/

variable {D : Type}

/-- The members of an object in the order of their keys. -/
def sortMembers {β : Type} (ms : List (PyStr × β)) : List (PyStr × β) := ms.insertionSort fun a b => a.1 ≤ b.1

theorem perm_sortMembers {β : Type} (ms : List (PyStr × β)) : (sortMembers ms).Perm ms := List.perm_insertionSort _ ms

theorem map_sortMembers {β γ : Type} (f : β → γ) (ms : List (PyStr × β)) :
    (sortMembers ms).map (fun p => (p.1, f p.2)) = sortMembers (ms.map fun p => (p.1, f p.2)) :=
  List.map_insertionSort _ _ _ _ fun _ _ _ _ => Iff.rfl

/-- Different keys are strictly increasing once sorted. -/
theorem pairwise_sortMembers {β : Type} {ms : List (PyStr × β)} (h : (ms.map Prod.fst).Nodup) :
    ((sortMembers ms).map Prod.fst).Pairwise (· < ·) := by
  have hs : (sortMembers ms).Pairwise fun a b => a.1 ≤ b.1 := by
    have : Std.Total fun a b : PyStr × β => a.1 ≤ b.1 := ⟨fun a b => le_total a.1 b.1⟩
    have : IsTrans (PyStr × β) fun a b => a.1 ≤ b.1 := ⟨fun _ _ _ => le_trans⟩
    exact List.pairwise_insertionSort _ ms
  have hn : ((sortMembers ms).map Prod.fst).Nodup := ((perm_sortMembers ms).map _).nodup_iff.mpr h
  rw [List.Nodup, List.pairwise_map] at hn
  rw [List.pairwise_map]
  exact (hs.and hn).imp fun hab => lt_of_le_of_ne hab.1 hab.2

/-- The order of the members does not matter to what is sorted when the keys are different. -/
theorem sortMembers_eq_of_perm {β : Type} {ms ms' : List (PyStr × β)} (h : ms.Perm ms') (hn : (ms.map Prod.fst).Nodup) :
    sortMembers ms = sortMembers ms' := by
  have hp : (sortMembers ms).Perm (sortMembers ms') := (perm_sortMembers ms).trans (h.trans (perm_sortMembers ms').symm)
  have hs := List.pairwise_map.mp (pairwise_sortMembers hn)
  have hs' := List.pairwise_map.mp (pairwise_sortMembers ((h.map Prod.fst).nodup_iff.mp hn))
  exact hp.eq_of_pairwise (fun _ _ _ _ hab hba => absurd hba hab.not_gt) hs hs'

theorem sortMembers_of_pairwise {β : Type} {ms : List (PyStr × β)} (h : (ms.map Prod.fst).Pairwise (· < ·)) :
    sortMembers ms = ms :=
  List.Pairwise.insertionSort_eq ((List.pairwise_map.mp h).imp le_of_lt)

namespace Json

mutual

/-- At every object the keys are strictly increasing. -/
def Sorted : Json D → Prop
  | .arr xs => SortedElems xs
  | .obj ms => (ms.map Prod.fst).Pairwise (· < ·) ∧ SortedMembers ms
  | _ => True

def SortedElems : List (Json D) → Prop
  | [] => True
  | x :: xs => Sorted x ∧ SortedElems xs

def SortedMembers : List (PyStr × Json D) → Prop
  | [] => True
  | (_, v) :: ms => Sorted v ∧ SortedMembers ms

end

mutual

/-- The document written for what `json.loads` makes of a document. -/
def canon : Json D → Json D
  | .arr xs => .arr (canonElems xs)
  | .obj ms => .obj (sortMembers (buildDict (canonMembers ms)))
  | d => d

def canonElems : List (Json D) → List (Json D)
  | [] => []
  | x :: xs => canon x :: canonElems xs

def canonMembers : List (PyStr × Json D) → List (PyStr × Json D)
  | [] => []
  | (k, v) :: ms => (k, canon v) :: canonMembers ms

end

theorem sortedMembers_iff : ∀ {ms : List (PyStr × Json D)}, SortedMembers ms ↔ ∀ m ∈ ms, m.2.Sorted
  | [] => by simp [SortedMembers]
  | m :: ms => by rw [SortedMembers, sortedMembers_iff, List.forall_mem_cons]

theorem fitsElems_iff : ∀ {xs : List (Json D)}, FitsElems xs ↔ ∀ x ∈ xs, x.Fits
  | [] => by simp [FitsElems]
  | x :: xs => by rw [FitsElems, fitsElems_iff, List.forall_mem_cons]

theorem fitsMembers_iff : ∀ {ms : List (PyStr × Json D)}, FitsMembers ms ↔ ∀ m ∈ ms, m.2.Fits
  | [] => by simp [FitsMembers]
  | m :: ms => by rw [FitsMembers, fitsMembers_iff, List.forall_mem_cons]

theorem joinedMembers_eq_map : ∀ ms : List (PyStr × Json D),
    joinedMembers ms = ms.map fun m => (joinPairs m.1, m.2.joined)
  | [] => rfl
  | m :: ms => by rw [joinedMembers, joinedMembers_eq_map ms, List.map_cons]

theorem joinedElems_eq_iff : ∀ {xs : List (Json D)}, joinedElems xs = xs ↔ ∀ x ∈ xs, x.joined = x
  | [] => by simp [joinedElems]
  | x :: xs => by rw [joinedElems, List.cons.injEq, joinedElems_eq_iff, List.forall_mem_cons]

theorem joinedMembers_eq_iff : ∀ {ms : List (PyStr × Json D)},
    joinedMembers ms = ms ↔ ∀ m ∈ ms, joinPairs m.1 = m.1 ∧ m.2.joined = m.2
  | [] => by simp [joinedMembers]
  | m :: ms => by
    rw [joinedMembers, List.cons.injEq, joinedMembers_eq_iff, List.forall_mem_cons, Prod.mk.injEq]

theorem mem_sorted_dict {ms : List (PyStr × Json D)} {m : PyStr × Json D} (h : m ∈ sortMembers (buildDict ms)) :
    m ∈ ms :=
  mem_buildDict ((perm_sortMembers _).mem_iff.mp h)

mutual

theorem sorted_canon : ∀ d : Json D, (canon d).Sorted
  | .null | .bool _ | .int _ | .float _ | .str _ => trivial
  | .arr xs => sortedElems_canon xs
  | .obj ms => by
    refine ⟨pairwise_sortMembers (nodup_buildDict _), sortedMembers_iff.mpr fun m hm => ?_⟩
    exact sortedMembers_iff.mp (sortedMembers_canon ms) m (mem_sorted_dict hm)

theorem sortedElems_canon : ∀ xs : List (Json D), SortedElems (canonElems xs)
  | [] => trivial
  | x :: xs => ⟨sorted_canon x, sortedElems_canon xs⟩

theorem sortedMembers_canon : ∀ ms : List (PyStr × Json D), SortedMembers (canonMembers ms)
  | [] => trivial
  | (_, v) :: ms => ⟨sorted_canon v, sortedMembers_canon ms⟩

end

mutual

theorem canon_of_sorted : ∀ {d : Json D}, d.Sorted → canon d = d
  | .null, _ | .bool _, _ | .int _, _ | .float _, _ | .str _, _ => rfl
  | .arr xs, h => congrArg Json.arr (canonElems_of_sorted h)
  | .obj ms, h => by
    have hn : (ms.map Prod.fst).Nodup := h.1.imp ne_of_lt
    rw [canon, canonMembers_of_sorted h.2, buildDict_of_nodup hn, sortMembers_of_pairwise h.1]

theorem canonElems_of_sorted : ∀ {xs : List (Json D)}, SortedElems xs → canonElems xs = xs
  | [], _ => rfl
  | x :: xs, h => by rw [canonElems, canon_of_sorted h.1, canonElems_of_sorted h.2]

theorem canonMembers_of_sorted : ∀ {ms : List (PyStr × Json D)}, SortedMembers ms → canonMembers ms = ms
  | [], _ => rfl
  | (_, v) :: ms, h => by rw [canonMembers, canon_of_sorted h.1, canonMembers_of_sorted h.2]

end

/-- **A document is its own canonical form exactly when it is sorted.** -/
theorem canon_eq_iff {d : Json D} : canon d = d ↔ d.Sorted := ⟨fun h => h ▸ sorted_canon d, canon_of_sorted⟩

/-! ## What the canonical form keeps -/

mutual

theorem fits_canon : ∀ {d : Json D}, d.Fits → (canon d).Fits
  | .null, h | .bool _, h | .int _, h | .float _, h | .str _, h => h
  | .arr xs, h => fitsElems_canon (h : FitsElems xs)
  | .obj ms, h => fitsMembers_iff.mpr fun m hm =>
      fitsMembers_iff.mp (fitsMembers_canon (h : FitsMembers ms)) m (mem_sorted_dict hm)

theorem fitsElems_canon : ∀ {xs : List (Json D)}, FitsElems xs → FitsElems (canonElems xs)
  | [], _ => trivial
  | _ :: _, h => ⟨fits_canon h.1, fitsElems_canon h.2⟩

theorem fitsMembers_canon : ∀ {ms : List (PyStr × Json D)}, FitsMembers ms → FitsMembers (canonMembers ms)
  | [], _ => trivial
  | (_, _) :: _, h => ⟨fits_canon h.1, fitsMembers_canon h.2⟩

end

mutual

theorem fits_joined : ∀ {d : Json D}, d.Fits → d.joined.Fits
  | .null, h | .bool _, h | .int _, h | .float _, h => h
  | .str _, _ => trivial
  | .arr xs, h => fitsElems_joined (h : FitsElems xs)
  | .obj ms, h => fitsMembers_joined (h : FitsMembers ms)

theorem fitsElems_joined : ∀ {xs : List (Json D)}, FitsElems xs → FitsElems (joinedElems xs)
  | [], _ => trivial
  | _ :: _, h => ⟨fits_joined h.1, fitsElems_joined h.2⟩

theorem fitsMembers_joined : ∀ {ms : List (PyStr × Json D)}, FitsMembers ms → FitsMembers (joinedMembers ms)
  | [], _ => trivial
  | (_, _) :: _, h => ⟨fits_joined h.1, fitsMembers_joined h.2⟩

end

mutual

/-- The canonical form of a joined document is joined. -/
theorem joined_canon_joined : ∀ d : Json D, (canon d.joined).joined = canon d.joined
  | .null | .bool _ | .int _ | .float _ => rfl
  | .str s => by simp only [joined, canon, joinPairs_joinPairs]
  | .arr xs => congrArg Json.arr (joinedElems_canon xs)
  | .obj ms => congrArg Json.obj (joinedMembers_eq_iff.mpr fun m hm =>
      joinedMembers_eq_iff.mp (joinedMembers_canon ms) m (mem_sorted_dict hm))

theorem joinedElems_canon : ∀ xs : List (Json D),
    joinedElems (canonElems (joinedElems xs)) = canonElems (joinedElems xs)
  | [] => rfl
  | x :: xs => by simp only [joinedElems, canonElems, joined_canon_joined x, joinedElems_canon xs]

theorem joinedMembers_canon : ∀ ms : List (PyStr × Json D),
    joinedMembers (canonMembers (joinedMembers ms)) = canonMembers (joinedMembers ms)
  | [] => rfl
  | (k, v) :: ms => by
    simp only [joinedMembers, canonMembers, joined_canon_joined v, joinedMembers_canon ms, joinPairs_joinPairs]

end

end Json

variable [FloatText D]

/-- **Writing, reading and writing again gives the same text exactly when the joined document is sorted.** -/
theorem Json.print_canon_joined_iff {d : Json D} (hd : d.Fits) :
    print (canon d.joined) = print d ↔ d.joined.Sorted := by
  constructor
  · intro h
    have := joined_eq_of_print_eq (fits_canon (fits_joined hd)) hd h
    rw [joined_canon_joined] at this
    exact canon_eq_iff.mp this
  · intro h
    rw [canon_of_sorted h, print_joined]

end PyLib
